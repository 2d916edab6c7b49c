import DecisionRules.Value
import DecisionRules.Number.Arithmetic

/-!
Equality and order of values. Numbers are compared by value across their kinds, a boolean counting
as one or zero; objects are equal whatever the order of their fields. Only numbers, texts and lists
have an order.
-/
namespace DecisionRules.Value

def numeral? : Value → Option Numeral
  | bool b => some (.int (if b then 1 else 0))
  | int n => some (.int n)
  | float x => some (.real x)
  | complex re im => some (.complex re im)
  | _ => none

def ofNumeral : Numeral → Value
  | .int n => int n
  | .real x => float x
  | .complex re im => complex re im

def equalNumbers (v w : Value) : Bool :=
  match v.numeral?, w.numeral? with
  | some a, some b => a.equal b
  | _, _ => false

mutual
def equal : Value → Value → Bool
  | null, null => true
  | text s, text t => s == t
  | list xs, list ys => equalLists xs ys
  | object fs, object gs => fs.length == gs.length && equalFields fs gs
  | pattern s i, pattern t j => s == t && i == j
  | callable f, callable g => f == g
  | v, w => equalNumbers v w
def equalLists : List Value → List Value → Bool
  | [], [] => true
  | x :: xs, y :: ys => equal x y && equalLists xs ys
  | _, _ => false
def equalFields : List (String × Value) → Fields → Bool
  | [], _ => true
  | (k, v) :: rest, gs => (match Assoc.get? gs k with
    | some w => equal v w
    | none => false) && equalFields rest gs
end

def strictEquals (v w : Value) : Bool :=
  if v.isBool != w.isBool then false else equal v w

def relateNumbers (r : Relation) (v w : Value) : Except Breach Bool :=
  match v.numeral?, w.numeral? with
  | some a, some b => r.numerals a b
  | _, _ => .error .wrongType

mutual
def relate (r : Relation) : Value → Value → Except Breach Bool
  | text s, text t => .ok (r.ofOrdering (compare s t))
  | list xs, list ys => relateLists r xs ys
  | v, w => relateNumbers r v w
/-- The first unequal items decide; without any, the lengths do. -/
def relateLists (r : Relation) : List Value → List Value → Except Breach Bool
  | x :: xs, y :: ys => if equal x y then relateLists r xs ys else relate r x y
  | xs, ys => .ok (r.ints xs.length ys.length)
end

end DecisionRules.Value
