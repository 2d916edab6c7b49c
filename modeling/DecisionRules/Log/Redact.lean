import DecisionRules.Breach
import DecisionRules.Text.Blank
import DecisionRules.Text.Case
import DecisionRules.Value

/-!
Masking of secrets. In a text, the value behind a secret's name and the word behind the word for a
bearer credential become three stars; of fields, those with a secret's name are masked. Names count
wherever they occur in a word, in any case.
-/
namespace DecisionRules.Log

def mask : List Char := ['*', '*', '*']

structure Hit where
  kept : List Char
  size : Nat
  deriving DecidableEq, Repr

/-- Masks every hit, from left to right; the first `skip` characters belong to an earlier hit. -/
def maskHits (find : List Char → Option Hit) (skip : Nat) : List Char → List Char
  | [] => []
  | c :: rest =>
    match skip with
    | n + 1 => maskHits find n rest
    | 0 =>
      match find (c :: rest) with
      | some hit => hit.kept ++ mask ++ maskHits find (hit.size - 1) rest
      | none => c :: maskHits find 0 rest

def secretNames : List (List Char) :=
  ["token", "key", "secret", "password"].map String.toList

def secretFieldNames : List (List Char) :=
  secretNames ++ ["authorization", "cookie"].map String.toList

def blanks (cs : List Char) : List Char := cs.takeWhile Text.isBlank

def isSecretChar (c : Char) : Bool := !(Text.isBlank c || c == ',' || c == ';')

def assignment (cs : List Char) : Option Hit :=
  let before := blanks cs
  match cs.drop before.length with
  | [] => none
  | c :: rest =>
    if c == '=' || c == ':' then
      let after := blanks rest
      let value := (rest.drop after.length).takeWhile isSecretChar
      if value.isEmpty then none
      else
        let kept := before ++ c :: after
        some ⟨kept, kept.length + value.length⟩
    else none

def assignedSecret (cs : List Char) : Option Hit :=
  match secretNames.find? (Text.beginsWithWord cs) with
  | none => none
  | some name =>
    (assignment (cs.drop name.length)).map fun hit =>
      ⟨cs.take name.length ++ hit.kept, name.length + hit.size⟩

def bearerWord : List Char := "bearer".toList

def bearerSecret (cs : List Char) : Option Hit :=
  if Text.beginsWithWord cs bearerWord then
    let rest := cs.drop bearerWord.length
    let gap := blanks rest
    let word := (rest.drop gap.length).takeWhile fun c => !Text.isBlank c
    if gap.isEmpty || word.isEmpty then none
    else
      let kept := cs.take bearerWord.length ++ gap
      some ⟨kept, kept.length + word.length⟩
  else none

def redactChars (cs : List Char) : List Char :=
  maskHits bearerSecret 0 (maskHits assignedSecret 0 cs)

def redact (s : String) : String := String.ofList (redactChars s.toList)

def namesSecret : List Char → Bool
  | [] => false
  | c :: rest => secretFieldNames.any (Text.beginsWithWord (c :: rest)) || namesSecret rest

def isSecretField (key : String) : Bool := namesSecret key.toList

def redactFields (fields : Fields) : Fields :=
  fields.map fun (key, v) => (key, if isSecretField key then .text (String.ofList mask) else v)

def redactObject (v : Value) : Except Breach Fields :=
  if !v.truthy then .ok []
  else match v with
    | .object fields => .ok (redactFields fields)
    | _ => .error .missingAttribute

end DecisionRules.Log
