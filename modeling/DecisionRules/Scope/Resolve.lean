import DecisionRules.Scope
import DecisionRules.Template
import DecisionRules.Text.Json

/-!
References replaced by what a scope holds. A text that is one reference becomes the value itself;
inside a longer text the value's text is put in. What is not found stays as it is written. Inserted
text is not looked at again.
-/
namespace DecisionRules

abbrev Lookup := String → Except Breach (Option Value)

def referenceName (name : List Char) : String := String.ofList (Number.stripChars name)

/-- The characters that replace a reference: those that the value is shown with, or its own. -/
def inserted (look : Lookup) (render : Value → Except Breach (List Char)) (name : List Char) :
    Except Breach (List Char) := do
  match ← look (referenceName name) with
  | some v => render v
  | none => return (Segment.reference name).chars

def stringifyChars (v : Value) : Except Breach (List Char) := v.stringify.map String.toList

def resolveText (look : Lookup) (s : String) : Except Breach Value :=
  let segments := Segment.cut s.toList
  match segments with
  | [.reference name] => do
    match ← look (referenceName name) with
    | some v => return v
    | none => return .text s
  | _ => do return .text (String.ofList (← Segment.replaceAll (inserted look stringifyChars) segments))

mutual
def resolve (look : Lookup) : Value → Except Breach Value
  | .text s => resolveText look s
  | .list items => do return .list (← resolveItems look items)
  | .object fields => do return .object (← resolveFields look fields)
  | v => .ok v
def resolveItems (look : Lookup) : List Value → Except Breach (List Value)
  | [] => .ok []
  | v :: rest => do
    let v ← resolve look v
    return v :: (← resolveItems look rest)
def resolveFields (look : Lookup) : List (String × Value) → Except Breach (List (String × Value))
  | [] => .ok []
  | (k, v) :: rest => do
    let v ← resolve look v
    return (k, v) :: (← resolveFields look rest)
end

namespace Scope

def resolve (s : Scope) (v : Value) : Except Breach Value := DecisionRules.resolve s.lookup v

def substituteLiterals (s : Scope) (source : String) : Except Breach String := do
  let cs ← Segment.replaceAll (inserted s.lookup (Text.Json.chars Text.Json.spaced))
    (Segment.cut source.toList)
  return String.ofList cs

end Scope
end DecisionRules
