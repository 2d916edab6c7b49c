/-!
Sets of characters given by ranges of code points, both ends included.
-/
namespace DecisionRules.Text

abbrev Ranges := List (Nat × Nat)

/-- Is the code point in one of the ranges? The ranges increase, so a search stops early. -/
def Ranges.holds : Ranges → Nat → Bool
  | [], _ => false
  | (low, high) :: rest, n => if n < low then false else if n ≤ high then true else holds rest n

end DecisionRules.Text
