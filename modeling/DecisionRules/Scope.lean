import DecisionRules.Breach
import DecisionRules.Number.Reader
import DecisionRules.Text.Blank
import DecisionRules.Value

/-!
What one rule sees: the facts of the call, and variables in three layers, the caller's over the
rule's own over the engine's globals. A name is looked up in the variables, then in the facts; a
dotted name walks into objects and lists.
-/
namespace DecisionRules

structure Context where
  data : Fields
  bindings : Fields
  metadata : Fields

namespace Context

def empty : Context := ⟨[], [], []⟩

end Context

structure Scope where
  context : Context
  rule : Fields
  globals : Fields

namespace Scope

def data (s : Scope) : Fields := s.context.data

def caller (s : Scope) : Fields := s.context.bindings

def setCaller (s : Scope) (bindings : Fields) : Scope :=
  { s with context := { s.context with bindings := bindings } }

def binding? (s : Scope) (name : String) : Option Value :=
  match Assoc.get? s.caller name with
  | some v => some v
  | none =>
    match Assoc.get? s.rule name with
    | some v => some v
    | none => Assoc.get? s.globals name

def snapshot (s : Scope) : Fields := Assoc.merge (Assoc.merge s.globals s.rule) s.caller

def has (s : Scope) (name : String) : Bool :=
  (s.binding? name).isSome || Assoc.contains s.data name

def write (s : Scope) (name : String) (v : Value) : Scope := s.setCaller (Assoc.set s.caller name v)

end Scope

def pathParts : List Char → List (List Char)
  | [] => [[]]
  | '.' :: rest => [] :: pathParts rest
  | c :: rest =>
    match pathParts rest with
    | [] => [[c]]
    | part :: parts => (c :: part) :: parts

/-- The index that a path part stands for in a list. Only digits are an index; digits that are not
decimal, or too many of them, are refused. -/
def listIndex? (part : List Char) : Except Breach (Option Nat) :=
  if part.isEmpty || !part.all Text.isDigit then .ok none
  else match Number.readInt? (String.ofList part) with
    | some n => .ok (some n.toNat)
    | none => .error .badValue

def stepInto (part : List Char) : Value → Except Breach (Option Value)
  | .object fields => .ok (Assoc.get? fields (String.ofList part))
  | .list items => do
    match ← listIndex? part with
    | some i => return items[i]?
    | none => return none
  | _ => .ok none

def walk (v : Value) : List (List Char) → Except Breach (Option Value)
  | [] => .ok (some v)
  | part :: rest => do
    match ← stepInto part v with
    | some w => walk w rest
    | none => return none

namespace Scope

/-- A dotted name: below the facts or the variables when it begins with their word, otherwise below
the variables and then below the facts. -/
def lookupPath (s : Scope) (cs : List Char) : Except Breach (Option Value) :=
  let head := String.ofList (cs.takeWhile (· != '.'))
  match cs.dropWhile (· != '.') with
  | [] | [_] => .ok none
  | _ :: rest =>
    if head == "data" then walk (.object s.data) (pathParts rest)
    else if head == "variables" || head == "vars" then walk (.object s.snapshot) (pathParts rest)
    else do
      match ← walk (.object s.snapshot) (pathParts cs) with
      | some v => return some v
      | none => walk (.object s.data) (pathParts cs)

def lookup (s : Scope) (name : String) : Except Breach (Option Value) :=
  match s.binding? name with
  | some v => .ok (some v)
  | none =>
    match Assoc.get? s.data name with
    | some v => .ok (some v)
    | none => s.lookupPath name.toList

end Scope
end DecisionRules
