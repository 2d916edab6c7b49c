import DecisionRules.Operators
import DecisionRules.Text.Case
import DecisionRules.Text.Blank
import DecisionRules.Text.Json
import DecisionRules.Value.Member

/-!
The built-in functions. A call with a wrong number of arguments is a breach, as is an argument that
an operation has no meaning for.
-/
namespace DecisionRules.Operators

/-- The greatest or least of some values: a later one replaces the best so far only when it stands
in the relation to it. -/
def extreme (r : Relation) (best : Value) : List Value → Except Breach Value
  | [] => .ok best
  | v :: rest => do
    if ← v.relate r best then extreme r v rest else extreme r best rest

def ofNumeral? (f : Numeral → Except Breach Numeral) (v : Value) : Except Breach Value :=
  match v.numeral? with
  | some n => (f n).map Value.ofNumeral
  | none => .error .wrongType

def onText (f : String → String) (v : Value) : Except Breach Value := do
  return .text (f (← v.display))

def textLength (v : Value) : Except Breach Value := do
  return .ofNat (← v.stringify).length

def size : Value → Value
  | .list items => .ofNat items.length
  | _ => .int 0

def includes (values item : Value) : Value :=
  match values with
  | .list items => .bool (Value.hasEqual items item)
  | _ => .bool false

def isText : Value → Bool
  | .text _ => true
  | _ => false

def isList : Value → Bool
  | .list _ => true
  | _ => false

def isObject : Value → Bool
  | .object _ => true
  | _ => false

def builtin? (now : Int) (today : String) (name : String) (args : List Value) :
    Option (Except Breach Value) :=
  match name, args with
  | "abs", [v] => some (ofNumeral? (fun n => .ok n.abs) v)
  | "ceil", [v] => some (ofNumeral? Numeral.ceil v)
  | "floor", [v] => some (ofNumeral? Numeral.floor v)
  | "round", [v] => some (ofNumeral? Numeral.roundHalfUp v)
  | "max", [] | "min", [] => some (.error .badValue)
  | "max", v :: rest => some (extreme .gt v rest)
  | "min", v :: rest => some (extreme .lt v rest)
  | "length", [v] => some (textLength v)
  | "upper", [v] => some (onText Text.upper v)
  | "lower", [v] => some (onText Text.lower v)
  | "trim", [v] => some (onText Text.strip v)
  | "size", [v] => some (.ok (size v))
  | "includes", [values, item] => some (.ok (includes values item))
  | "now", [] => some (.ok (.int now))
  | "today", [] => some (.ok (.text today))
  | "isString", [v] => some (.ok (.bool (isText v)))
  | "isNumber", [v] => some (.ok (.bool v.isNumber))
  | "isBoolean", [v] => some (.ok (.bool v.isBool))
  | "isArray", [v] => some (.ok (.bool (isList v)))
  | "isObject", [v] => some (.ok (.bool (isObject v)))
  | "isNull", [] | "isUndefined", [] => some (.ok (.bool true))
  | "isNull", [v] | "isUndefined", [v] => some (.ok (.bool v.isNull))
  | name, _ => if builtinFunctionNames.contains name then some (.error .wrongType) else none

end DecisionRules.Operators
