import DecisionRules.Number.Layout
import DecisionRules.Value.Member

/-!
Values taken apart: a list has items, a text has characters, an object has keys. A list whose items
have two parts each can stand for the fields of an object.
-/
namespace DecisionRules.Value

def parts : Value → Except Breach (List Value)
  | list items => .ok items
  | text s => .ok (s.toList.map fun c => text c.toString)
  | object fields => .ok ((Assoc.keys fields).map text)
  | _ => .error .wrongType

def partsOrNone (v : Value) : Except Breach (List Value) := if v.truthy then v.parts else .ok []

def pair (v : Value) : Except Breach (Value × Value) := do
  match ← v.parts with
  | [key, value] => if key.isKey then return (key, value) else throw .wrongType
  | _ => throw .badValue

/-- Writes a value under a key that may be no text; an equal key keeps its place. -/
def setPair (entries : List (Value × Value)) (key value : Value) : List (Value × Value) :=
  match entries with
  | [] => [(key, value)]
  | (k, v) :: rest => if k.equal key then (k, value) :: rest else (k, v) :: setPair rest key value

def entries : Value → Except Breach (List (Value × Value))
  | object fields => .ok (fields.map fun (key, value) => (text key, value))
  | v => do
    let pairs ← (← v.parts).mapM pair
    return pairs.foldl (fun done (key, value) => setPair done key value) []

def keyText : Value → String
  | text s => s
  | bool true => "true"
  | bool false => "false"
  | int n => String.ofList (Number.intChars n)
  | float x => Number.floatText Number.plainStyle x
  | _ => "null"

def toFields : Value → Except Breach Fields
  | object fields => .ok fields
  | v => do
    return Assoc.ofPairs ((← v.entries).map fun (key, value) => (key.keyText, value))

def fieldsOrNone (v : Value) : Except Breach Fields := if v.truthy then v.toFields else .ok []

end DecisionRules.Value
