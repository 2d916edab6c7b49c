/-!
References inside texts. A reference is a dollar sign and a name in braces; the name has at least one
character and ends at the first closing brace. A text is cut once, from the left, into references and
the characters between them.
-/
namespace DecisionRules

inductive Segment where
  | plain (c : Char)
  | reference (name : List Char)
  deriving DecidableEq, Repr

namespace Segment

def openBrace : Char := '\x7b'
def closeBrace : Char := '\x7d'

def chars : Segment → List Char
  | plain c => [c]
  | reference name => '$' :: openBrace :: (name ++ [closeBrace])

/-- The name at the front between a dollar sign with an opening brace and the first closing one, and
the characters after it. -/
def reference? : List Char → Option (List Char × List Char)
  | c :: d :: rest =>
    if c == '$' && d == openBrace then
      match rest.dropWhile (· != closeBrace) with
      | _ :: after =>
        let name := rest.takeWhile (· != closeBrace)
        if name.isEmpty then none else some (name, after)
      | [] => none
    else none
  | _ => none

theorem reference?_shorter {cs name after : List Char} (h : reference? cs = some (name, after)) :
    after.length < cs.length := by
  match cs with
  | [] | [_] => simp [reference?] at h
  | c :: d :: rest =>
    have len := (List.dropWhile_suffix (fun x => x != closeBrace) (l := rest)).length_le
    simp only [reference?] at h
    split at h
    · split at h
      · rename_i drop
        rw [drop] at len
        split at h
        · simp at h
        · simp only [Option.some.injEq, Prod.mk.injEq] at h
          obtain ⟨_, rfl⟩ := h
          simp only [List.length_cons] at *
          omega
      · simp at h
    · simp at h

def cut (cs : List Char) : List Segment :=
  match cs with
  | [] => []
  | c :: rest =>
    match h : reference? (c :: rest) with
    | some (name, after) =>
      have _shorter : after.length < rest.length + 1 := reference?_shorter h
      reference name :: cut after
    | none => plain c :: cut rest
termination_by cs.length

def whole? (cs : List Char) : Option (List Char) :=
  match cut cs with
  | [reference name] => some name
  | _ => none

def replaceAll (f : List Char → Except ε (List Char)) : List Segment → Except ε (List Char)
  | [] => .ok []
  | plain c :: rest => do return c :: (← replaceAll f rest)
  | reference name :: rest => do
    let here ← f name
    return here ++ (← replaceAll f rest)

end Segment
end DecisionRules
