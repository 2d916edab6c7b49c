/-!
Identifiers made for rules and actions that come without one: a fixed form around a running number,
so that two of them never agree.
-/
namespace DecisionRules.Identifier

def stem : String := "00000000-0000-4000-8000-"

def width : Nat := 12

def fresh (n : Nat) : String :=
  let digits := Nat.toDigits 10 n
  stem ++ String.ofList (List.replicate (width - digits.length) '0' ++ digits)

end DecisionRules.Identifier
