import DecisionRules.Text.Search
import DecisionRules.Value.Compare

/-!
Membership: an equal item in a list, a part of a text, a key of an object.
-/
namespace DecisionRules.Value

def isKey : Value → Bool
  | list _ => false
  | object _ => false
  | _ => true

def hasEqual (items : List Value) (v : Value) : Bool := items.any fun item => equal item v

def hasStrictlyEqual (items : List Value) (v : Value) : Bool :=
  items.any fun item => strictEquals item v

def member (v : Value) : Value → Except Breach Bool
  | list items => .ok (hasEqual items v)
  | text s =>
    match v with
    | text part => .ok (Text.occurs part.toList s.toList)
    | _ => .error .wrongType
  | object fields =>
    match v with
    | text key => .ok (Assoc.contains fields key)
    | v => if v.isKey then .ok false else .error .wrongType
  | _ => .error .wrongType

end DecisionRules.Value
