/-!
Maps from text keys that keep the order in which the keys were first written. Writing a known key
replaces its value in place; a new key goes to the end. A key occurs at most once in every map that
these operations build.
-/
namespace DecisionRules

abbrev Assoc (α : Type) := List (String × α)

namespace Assoc
variable {α : Type}

def get? : Assoc α → String → Option α
  | [], _ => none
  | (k, v) :: rest, key => if k = key then some v else get? rest key

def contains (m : Assoc α) (key : String) : Bool := (get? m key).isSome

def set : Assoc α → String → α → Assoc α
  | [], key, value => [(key, value)]
  | (k, v) :: rest, key, value =>
    if k = key then (k, value) :: rest else (k, v) :: set rest key value

def erase : Assoc α → String → Assoc α
  | [], _ => []
  | (k, v) :: rest, key => if k = key then rest else (k, v) :: erase rest key

def keys (m : Assoc α) : List String := m.map Prod.fst

def values (m : Assoc α) : List α := m.map Prod.snd

def merge (base extra : Assoc α) : Assoc α := extra.foldl (fun m e => set m e.1 e.2) base

def ofPairs (pairs : List (String × α)) : Assoc α := merge [] pairs

def getD (m : Assoc α) (key : String) (default : α) : α := (get? m key).getD default

def setDefault (m : Assoc α) (key : String) (value : α) : Assoc α :=
  if contains m key then m else set m key value

def mapValues {β : Type} (f : α → β) (m : Assoc α) : Assoc β := m.map fun e => (e.1, f e.2)

end Assoc
end DecisionRules
