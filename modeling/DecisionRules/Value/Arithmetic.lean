import DecisionRules.Text.Percent
import DecisionRules.Value.Compare

/-!
Arithmetic on values. Besides numbers it covers joined and repeated texts and lists and the filling
of percent templates; a boolean counts as one or zero.
-/
namespace DecisionRules.Value

def onNumbers (f : Numeral → Numeral → Except Breach Numeral) (v w : Value) : Except Breach Value :=
  match v.numeral?, w.numeral? with
  | some a, some b => (f a b).map ofNumeral
  | _, _ => .error .wrongType

def add : Value → Value → Except Breach Value
  | text s, text t => .ok (text (s ++ t))
  | list xs, list ys => .ok (list (xs ++ ys))
  | v, w => onNumbers Numeral.add v w

def sub (v w : Value) : Except Breach Value := onNumbers Numeral.sub v w

def div (v w : Value) : Except Breach Value := onNumbers Numeral.div v w

def pow (v w : Value) : Except Breach Value := onNumbers Numeral.pow v w

def count? : Value → Option Int
  | int n => some n
  | bool b => some (if b then 1 else 0)
  | _ => none

/-- A count of repetitions must fit a double word; a negative one means none. -/
def repetitions (n : Int) : Except Breach Nat :=
  let limit : Int := Nat.pow 2 63
  if n ≥ limit || n < -limit then .error .overflow else .ok n.toNat

def repeatText (s : String) (n : Int) : Except Breach Value := do
  let k ← repetitions n
  return text (if s.isEmpty then "" else String.ofList (List.replicate k s.toList).flatten)

def repeatList (xs : List Value) (n : Int) : Except Breach Value := do
  let k ← repetitions n
  return list (if xs.isEmpty then [] else (List.replicate k xs).flatten)

def mul : Value → Value → Except Breach Value
  | text s, w => match w.count? with
    | some n => repeatText s n
    | none => .error .wrongType
  | list xs, w => match w.count? with
    | some n => repeatList xs n
    | none => .error .wrongType
  | v, text s => match v.count? with
    | some n => repeatText s n
    | none => .error .wrongType
  | v, list xs => match v.count? with
    | some n => repeatList xs n
    | none => .error .wrongType
  | v, w => onNumbers Numeral.mul v w

def mod : Value → Value → Except Breach Value
  | text template, w => (Text.Percent.format template w).map text
  | v, w => onNumbers Numeral.mod v w

end DecisionRules.Value
