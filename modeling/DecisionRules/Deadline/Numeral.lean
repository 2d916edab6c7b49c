import DecisionRules.Deadline.Instant
import DecisionRules.Number.Arithmetic

/-!
Instants and spans of time as numerals. An integer stays one until it meets a float, so that a limit
which was given as an integer is shown as one. A sum that no float can hold is its first term.
-/
namespace DecisionRules

namespace Numeral

def holds (r : Relation) (a b : Numeral) : Bool := (r.numerals a b).toOption.getD false

def orFirst (op : Numeral → Numeral → Except Breach Numeral) (a b : Numeral) : Numeral :=
  (op a b).toOption.getD a

end Numeral

instance : Span Numeral where
  add := Numeral.orFirst Numeral.add
  sub := Numeral.orFirst Numeral.sub
  mul := Numeral.orFirst Numeral.mul
  lt a b := Numeral.holds .lt a b = true
  le a b := Numeral.holds .le a b = true
  zero := .real 0
  ofSeconds n := .ok (.int n)
  decideLt := fun a b => inferInstanceAs (Decidable (Numeral.holds .lt a b = true))
  decideLe := fun a b => inferInstanceAs (Decidable (Numeral.holds .le a b = true))
  half := .real 0.5
  twoPow n := if n < 1024 then .ok (.int (Nat.pow 2 n)) else .error .overflow

end DecisionRules
