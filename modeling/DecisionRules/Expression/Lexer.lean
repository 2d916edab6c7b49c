import DecisionRules.Failure
import DecisionRules.Number.Reader

/-!
Expression texts cut into tokens. Each lexeme is the longest of its class: blanks, a number, a quoted
text, an operator or a name. Blanks are dropped, four words are operators, and a last token marks the
end of the text.
-/
namespace DecisionRules.Expression
open Text (isBlank isDecimal)

inductive TokenKind where
  | number
  | string
  | op
  | name
  | stop
  deriving DecidableEq, Repr

def TokenKind.code : TokenKind → String
  | number => "number"
  | string => "string"
  | op => "op"
  | name => "name"
  | stop => "end"

structure Token where
  kind : TokenKind
  text : String
  position : Nat
  deriving DecidableEq, Repr

def maxLength : Nat := 4096

inductive LexemeClass where
  | blank
  | token (kind : TokenKind)
  deriving DecidableEq, Repr

def digitRun (cs : List Char) : Nat := (cs.takeWhile isDecimal).length

/-- Length of an exponent: the letter, a sign that may be absent, and digits; zero without digits. -/
def exponentLength : List Char → Nat
  | c :: rest =>
    if c == 'e' || c == 'E' then
      match rest with
      | s :: more =>
        if s == '+' || s == '-' then
          if digitRun more == 0 then 0 else 2 + digitRun more
        else if digitRun rest == 0 then 0 else 1 + digitRun rest
      | [] => 0
    else 0
  | [] => 0

/-- Length of digits with a point after, before or between them; zero if there is no number. -/
def mantissaLength (cs : List Char) : Nat :=
  let whole := digitRun cs
  match cs.drop whole with
  | '.' :: rest =>
    if whole == 0 && digitRun rest == 0 then 0 else whole + 1 + digitRun rest
  | _ => whole

def numberLength (cs : List Char) : Nat :=
  let m := mantissaLength cs
  if m == 0 then 0 else m + exponentLength (cs.drop m)

/-- Length of the rest of a quoted text, its closing quote included. A backslash takes the next
character with it, unless that ends the line. -/
def closingLength? (quote : Char) : List Char → Option Nat
  | [] => none
  | '\\' :: c :: rest => if c == '\n' then none else (closingLength? quote rest).map (· + 2)
  | c :: rest =>
    if c == quote then some 1
    else if c == '\\' then none
    else (closingLength? quote rest).map (· + 1)

def stringLength? : List Char → Option Nat
  | c :: rest => if c == '"' || c == '\'' then (closingLength? c rest).map (· + 1) else none
  | [] => none

def longOperators : List (List Char) :=
  [['=', '=', '='], ['!', '=', '='], ['*', '*'], ['=', '='], ['!', '='], ['<', '='], ['>', '='],
    ['&', '&'], ['|', '|']]

def shortOperators : List Char :=
  ['-', '+', '*', '/', '%', '<', '>', '!', '(', ')', '[', ']', ',']

def operatorLength (cs : List Char) : Nat :=
  match longOperators.find? fun op => op.isPrefixOf cs with
  | some op => op.length
  | none =>
    match cs with
    | c :: _ => if shortOperators.contains c then 1 else 0
    | [] => 0

def startsName (c : Char) : Bool := c.isAlpha || c == '_'

def nameLength : List Char → Nat
  | c :: rest =>
    if startsName c then 1 + (rest.takeWhile fun d => startsName d || d.isDigit).length else 0
  | [] => 0

def lexeme? (cs : List Char) : Option (LexemeClass × Nat) :=
  let blanks := (cs.takeWhile isBlank).length
  if blanks != 0 then some (.blank, blanks)
  else if numberLength cs != 0 then some (.token .number, numberLength cs)
  else match stringLength? cs with
    | some n => some (.token .string, n)
    | none =>
      if operatorLength cs != 0 then some (.token .op, operatorLength cs)
      else if nameLength cs != 0 then some (.token .name, nameLength cs)
      else none

def wordOperator? : String → Option String
  | "and" => some "&&"
  | "or" => some "||"
  | "not" => some "not"
  | "in" => some "in"
  | _ => none

def Token.ofLexeme (kind : TokenKind) (text : String) (position : Nat) : Token :=
  match kind, wordOperator? text with
  | .name, some op => ⟨.op, op, position⟩
  | _, _ => ⟨kind, text, position⟩

def scan (position : Nat) (cs : List Char) : Except ExpressionFault (List Token) :=
  match cs with
  | [] => .ok [⟨.stop, "", position⟩]
  | c :: rest =>
    match lexeme? (c :: rest) with
    | none => .error (.unexpectedCharacter c position)
    | some (cls, n) => do
      let more ← scan (position + max n 1) (rest.drop (n - 1))
      match cls with
      | .blank => return more
      | .token kind => return Token.ofLexeme kind (String.ofList ((c :: rest).take n)) position :: more
termination_by cs.length

def tokenize (source : String) : Except ExpressionFault (List Token) :=
  let cs := source.toList
  if cs.length > maxLength then .error .tooLong else scan 0 cs

end DecisionRules.Expression
