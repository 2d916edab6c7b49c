import DecisionRules.Breach
import DecisionRules.Number.Reader
import DecisionRules.Value

/-!
Values converted to numbers: booleans, integers, floats and texts that write one.
-/
namespace DecisionRules.Value

def toInt : Value → Except Breach Int
  | .int n => .ok n
  | .bool b => .ok (if b then 1 else 0)
  | .float x =>
    if x.isNaN then .error .badValue
    else match Number.toInt? (if x < 0 then x.ceil else x.floor) with
      | some n => .ok n
      | none => .error .overflow
  | .text s =>
    match Number.readInt? s with
    | some n => .ok n
    | none => .error .badValue
  | _ => .error .wrongType

def toFloat : Value → Except Breach Float
  | .float x => .ok x
  | .int n =>
    match Number.ofInt? n with
    | some x => .ok x
    | none => .error .overflow
  | .bool b => .ok (if b then 1 else 0)
  | .text s =>
    match Number.readFloat? s with
    | some x => .ok x
    | none => .error .badValue
  | _ => .error .wrongType

end DecisionRules.Value
