import DecisionRules.Assoc

/-!
The values that facts, variables, rule definitions and results are made of. Objects are lists of
fields in insertion order, each key once. A pattern is a compiled regular expression; a callable
stands for a host function by its name.
-/
namespace DecisionRules

inductive Value where
  | null
  | bool (b : Bool)
  | int (n : Int)
  | float (x : Float)
  | complex (re im : Float)
  | text (s : String)
  | list (items : List Value)
  | object (fields : List (String × Value))
  | pattern (source : String) (ignoreCase : Bool)
  | callable (name : String)
  deriving Inhabited

abbrev Fields := Assoc Value

namespace Value

def typeName : Value → String
  | null => "NoneType"
  | bool _ => "bool"
  | int _ => "int"
  | float _ => "float"
  | complex _ _ => "complex"
  | text _ => "str"
  | list _ => "list"
  | object _ => "dict"
  | pattern _ _ => "Pattern"
  | callable _ => "function"

/-- Zero of every kind, null, and empty texts, lists and objects are false; all else is true. -/
def truthy : Value → Bool
  | null => false
  | bool b => b
  | int n => n != 0
  | float x => x != 0
  | complex re im => re != 0 || im != 0
  | text s => s != ""
  | list items => !items.isEmpty
  | object fields => !fields.isEmpty
  | pattern _ _ => true
  | callable _ => true

def isNull : Value → Bool
  | null => true
  | _ => false

def isBool : Value → Bool
  | bool _ => true
  | _ => false

def isNumber : Value → Bool
  | int _ => true
  | float _ => true
  | _ => false

def text? : Value → Option String
  | text s => some s
  | _ => none

def list? : Value → Option (List Value)
  | list items => some items
  | _ => none

def fields? : Value → Option Fields
  | object fields => some fields
  | _ => none

def orElse (v w : Value) : Value := if v.truthy then v else w

def ofOption : Option Value → Value
  | some v => v
  | none => null

def ofText? : Option String → Value
  | some s => text s
  | none => null

def ofNat (n : Nat) : Value := int n

def texts (xs : List String) : Value := list (xs.map text)

end Value
end DecisionRules
