import DecisionRules.Number.Reader
import DecisionRules.Text.Hex
import DecisionRules.Text.Units
import DecisionRules.Value

/-!
JSON text read as a value. Two passes, each a fold over its input: characters become lexemes, and
lexemes are shifted onto a stack of open lists and objects. The last of repeated keys wins; the
words `NaN`, `Infinity` and `-Infinity` are numbers.
-/
namespace DecisionRules.Text.Json

inductive Lexeme where
  | openList
  | closeList
  | openObject
  | closeObject
  | comma
  | colon
  | text (s : String)
  | scalar (v : Value)

/-- Between lexemes, inside a text (its code units so far, last first), after a backslash, inside a
`\u` escape with digits to come, or inside a bare word (its characters so far, last first). -/
inductive Mode where
  | between
  | text (units : List Nat)
  | escape (units : List Nat)
  | code (units : List Nat) (missing : Nat) (value : Nat)
  | word (chars : List Char)

def escaped? : Char → Option Char
  | '"' => some '"'
  | '\\' => some '\\'
  | '/' => some '/'
  | 'b' => some '\x08'
  | 'f' => some '\x0c'
  | 'n' => some '\n'
  | 'r' => some '\r'
  | 't' => some '\t'
  | _ => none

/-- Integer part of a number: a single zero, or digits that do not start with one. -/
def integerPart? (cs : List Char) : Option Nat :=
  match cs with
  | [] => none
  | ['0'] => some 0
  | '0' :: _ => none
  | _ => if cs.all Number.isAsciiDigit then some (Number.natOfDigits cs) else none

def digits? (cs : List Char) : Option (List Char) :=
  if !cs.isEmpty && cs.all Number.isAsciiDigit then some cs else none

def number? (cs : List Char) : Option Value := do
  let (negative, body) := match cs with
    | '-' :: rest => (true, rest)
    | _ => (false, cs)
  let (mantissa, tail) := Number.splitAtFirst (fun c => c == 'e' || c == 'E') body
  let (whole, fraction) := Number.splitAtFirst (· == '.') mantissa
  let n ← integerPart? whole
  match fraction, tail with
  | none, none =>
    if whole.length > Number.maxTextDigits then none
    else some (.int (if negative then -(n : Int) else n))
  | _, _ =>
    let f ← match fraction with
      | none => some []
      | some f => digits? f
    let e ← match tail with
      | none => some 0
      | some t =>
        let (down, e) := Number.splitSign t
        (digits? e).map fun ds =>
          let k : Int := Number.natOfDigits ds
          if down then -k else k
    some (.float (Number.ofDecimal negative (Number.natOfDigits (whole ++ f)) (e - f.length)))

def word? (cs : List Char) : Option Value :=
  match String.ofList cs with
  | "null" => some .null
  | "true" => some (.bool true)
  | "false" => some (.bool false)
  | "NaN" => some (.float Number.notANumber)
  | "Infinity" => some (.float Number.positiveInfinity)
  | "-Infinity" => some (.float Number.negativeInfinity)
  | _ => number? cs

structure Lexing where
  mode : Mode
  found : List Lexeme

def isSpace (c : Char) : Bool := c == ' ' || c == '\t' || c == '\n' || c == '\r'

def Lexing.start (found : List Lexeme) (c : Char) : Lexing :=
  if isSpace c then ⟨.between, found⟩
  else if c == '"' then ⟨.text [], found⟩
  else if c == '[' then ⟨.between, .openList :: found⟩
  else if c == ']' then ⟨.between, .closeList :: found⟩
  else if c == '\x7b' then ⟨.between, .openObject :: found⟩
  else if c == '\x7d' then ⟨.between, .closeObject :: found⟩
  else if c == ',' then ⟨.between, .comma :: found⟩
  else if c == ':' then ⟨.between, .colon :: found⟩
  else ⟨.word [c], found⟩

def endsWord (c : Char) : Bool :=
  isSpace c || c == '"' || c == '[' || c == ']' || c == '\x7b' || c == '\x7d' || c == ',' || c == ':'

def Lexing.step (s : Lexing) (c : Char) : Option Lexing :=
  match s.mode with
  | .between => some (.start s.found c)
  | .word chars =>
    if endsWord c then (word? chars.reverse).map fun v => .start (.scalar v :: s.found) c
    else some ⟨.word (c :: chars), s.found⟩
  | .text units =>
    if c == '"' then some ⟨.between, .text (String.ofList (ofUnits units.reverse)) :: s.found⟩
    else if c == '\\' then some ⟨.escape units, s.found⟩
    else if c.toNat < 0x20 then none
    else some ⟨.text (c.toNat :: units), s.found⟩
  | .escape units =>
    if c == 'u' then some ⟨.code units 4 0, s.found⟩
    else (escaped? c).map fun e => ⟨.text (e.toNat :: units), s.found⟩
  | .code units missing value =>
    (hexValue? c).map fun d =>
      let next := 16 * value + d
      if missing ≤ 1 then ⟨.text (next :: units), s.found⟩ else ⟨.code units (missing - 1) next, s.found⟩

def lexemes? (cs : List Char) : Option (List Lexeme) :=
  match cs.foldlM Lexing.step (⟨.between, []⟩ : Lexing) with
  | some ⟨.between, found⟩ => some found.reverse
  | some ⟨.word chars, found⟩ => (word? chars.reverse).map fun v => (.scalar v :: found).reverse
  | _ => none

/-- An open list with its items, or an open object with its fields and the key that waits for a
value; items and fields last first. -/
inductive Frame where
  | items (done : List Value)
  | fields (done : List (String × Value)) (key : String)

inductive Expect where
  | value
  | first
  | firstKey
  | key
  | colon
  | after

structure Shifting where
  expect : Expect
  frames : List Frame
  result : Option Value

def Shifting.complete (frames : List Frame) (v : Value) : Shifting :=
  match frames with
  | [] => ⟨.after, [], some v⟩
  | .items done :: rest => ⟨.after, .items (v :: done) :: rest, none⟩
  | .fields done key :: rest => ⟨.after, .fields ((key, v) :: done) key :: rest, none⟩

def Shifting.step (s : Shifting) (lexeme : Lexeme) : Option Shifting :=
  match s.expect, lexeme, s.frames with
  | .first, .closeList, .items _ :: rest => some (.complete rest (.list []))
  | .firstKey, .closeObject, .fields _ _ :: rest => some (.complete rest (.object []))
  | .value, .openList, frames | .first, .openList, frames => some ⟨.first, .items [] :: frames, none⟩
  | .value, .openObject, frames | .first, .openObject, frames =>
    some ⟨.firstKey, .fields [] "" :: frames, none⟩
  | .value, .text t, frames | .first, .text t, frames => some (.complete frames (.text t))
  | .value, .scalar v, frames | .first, .scalar v, frames => some (.complete frames v)
  | .firstKey, .text k, .fields done _ :: rest | .key, .text k, .fields done _ :: rest =>
    some ⟨.colon, .fields done k :: rest, none⟩
  | .colon, .colon, frames => some ⟨.value, frames, none⟩
  | .after, .comma, .items done :: rest => some ⟨.value, .items done :: rest, none⟩
  | .after, .comma, .fields done k :: rest => some ⟨.key, .fields done k :: rest, none⟩
  | .after, .closeList, .items done :: rest => some (.complete rest (.list done.reverse))
  | .after, .closeObject, .fields done _ :: rest =>
    some (.complete rest (.object (Assoc.ofPairs done.reverse)))
  | _, _, _ => none

def parse? (s : String) : Option Value := do
  let found ← lexemes? s.toList
  let last ← found.foldlM Shifting.step (⟨.value, [], none⟩ : Shifting)
  last.result

end DecisionRules.Text.Json
