import DecisionRules.Number.Reader
import DecisionRules.Schema.Issue
import DecisionRules.Value

/-!
Values coerced to the types of a schema. A coercion is lenient where no information is lost: whole
floats and numeric texts are integers, words are booleans. Issues of all fields are collected, in the
order of the fields.
-/
namespace DecisionRules.Schema

inductive Checked (α : Type) where
  | ok (a : α)
  | faulty (issues : List Issue)
  deriving DecidableEq, Repr

namespace Checked

def fault {α : Type} (kind : IssueKind) : Checked α := faulty [⟨[], kind⟩]

def map {α β : Type} (f : α → β) : Checked α → Checked β
  | ok a => ok (f a)
  | faulty issues => faulty issues

/-- Applies one result to another; issues of both are kept. -/
def both {α β : Type} : Checked (α → β) → Checked α → Checked β
  | ok f, ok a => ok (f a)
  | ok _, faulty issues => faulty issues
  | faulty issues, ok _ => faulty issues
  | faulty before, faulty after => faulty (before ++ after)

instance : Functor Checked where
  map := Checked.map

instance : Applicative Checked where
  pure := Checked.ok
  seq f x := both f (x ())

def under {α : Type} (step : String) : Checked α → Checked α
  | ok a => ok a
  | faulty issues => faulty (issues.map (Issue.under step))

def require {α : Type} (test : α → Bool) (kind : IssueKind) : Checked α → Checked α
  | ok a => if test a then ok a else fault kind
  | faulty issues => faulty issues

end Checked

abbrev Coercion (α : Type) := Value → Checked α

open Checked (fault)

def anything : Coercion Value := Checked.ok

def text : Coercion String
  | .text s => .ok s
  | _ => fault .stringType

/-- Drops zeros in front of a number, but not its last one; only digits, underscores and a point may
follow them. -/
def dropZeros (last : Char) : List Char → Option (List Char)
  | [] => some [last]
  | c :: rest =>
    if c == '0' || c == '_' then dropZeros c rest
    else if '1' ≤ c && c ≤ '9' then some (c :: rest)
    else if c == '.' then some (last :: c :: rest)
    else none

def stripLeadingZeros : List Char → Option (List Char)
  | '0' :: rest => dropZeros '0' rest
  | c :: rest => if ('1' ≤ c && c ≤ '9') || c == '-' then some (c :: rest) else none
  | [] => none

def dropZeroFraction (cs : List Char) : List Char :=
  match Number.splitAtFirst (· == '.') cs with
  | (whole, some fraction) => if fraction.all (· == '0') then whole else cs
  | (_, none) => cs

def dropUnderscores (cs : List Char) : List Char :=
  let doubled := (cs.zip (cs.drop 1)).any fun (a, b) => a == '_' && b == '_'
  if cs.head? == some '_' || cs.getLast? == some '_' || doubled then cs
  else cs.filter (· != '_')

def plainInt? (cs : List Char) : Option Int :=
  let (negative, digits) := match cs with
    | '-' :: rest => (true, rest)
    | _ => (false, cs)
  if digits.isEmpty || !digits.all Number.isAsciiDigit || (digits.head? == some '0' && digits.length > 1)
  then none
  else
    let n : Int := Number.natOfDigits digits
    some (if negative then -n else n)

/-- The digits of an integer text: without a plus, needless zeros, a zero fraction and
underscores. -/
def cleanInt? (cs : List Char) : Option (List Char) :=
  let unsigned := match cs with
    | '+' :: '-' :: _ => none
    | '+' :: rest => some rest
    | _ => some cs
  unsigned.bind fun cs => (stripLeadingZeros cs).map fun cs => dropUnderscores (dropZeroFraction cs)

def isWhite (c : Char) : Bool := Text.isBlank c && !(0x1c ≤ c.toNat && c.toNat ≤ 0x1f)

def trimmed (s : String) : List Char := ((s.toList.dropWhile isWhite).reverse.dropWhile isWhite).reverse

def intOfText (s : String) : Checked Int :=
  let cs := trimmed s
  if cs.length > Number.maxTextDigits then fault .intParsingSize
  else match plainInt? cs with
    | some n => .ok n
    | none =>
      match (cleanInt? cs).bind plainInt? with
      | some n => .ok n
      | none => fault .intParsing

/-- A float stands for an integer when it has no fraction and fits a signed double word. -/
def intOfFloat (x : Float) : Checked Int :=
  if !Number.isFinite x then fault .finiteNumber
  else match Number.toInt? x with
    | none => fault .intFromFloat
    | some n => if n.natAbs < Nat.pow 2 63 then .ok n else fault .intFromFloat

def int : Coercion Int
  | .int n => .ok n
  | .bool b => .ok (if b then 1 else 0)
  | .float x => intOfFloat x
  | .text s => intOfText s
  | _ => fault .intType

def floatOfText (s : String) : Checked Float :=
  let cs := dropUnderscores (trimmed s)
  if cs.all (fun c => c.toNat < 128 && c != '_' && !Text.isBlank c) then
    match Number.readFloat? (String.ofList cs) with
    | some x => .ok x
    | none => fault .floatParsing
  else fault .floatParsing

def float : Coercion Float
  | .float x => .ok x
  | .int n =>
    match Number.ofInt? n with
    | some x => .ok x
    | none => fault .floatType
  | .bool b => .ok (if b then 1 else 0)
  | .text s => floatOfText s
  | _ => fault .floatType

def boolOfInt (n : Int) : Checked Bool :=
  if n == 0 then .ok false else if n == 1 then .ok true else fault .boolParsing

def trueWords : List String := ["1", "on", "t", "true", "y", "yes"]
def falseWords : List String := ["0", "off", "f", "false", "n", "no"]

def bool : Coercion Bool
  | .bool b => .ok b
  | .int n => boolOfInt n
  | .float x =>
    match Number.toInt? x with
    | some n => boolOfInt n
    | none => fault .boolType
  | .text s =>
    let word := s.map Char.toLower
    if trueWords.contains word then .ok true
    else if falseWords.contains word then .ok false
    else fault .boolParsing
  | _ => fault .boolType

def oneOf {α : Type} (choices : List (String × α)) : Coercion α
  | .text s =>
    match Assoc.get? choices s with
    | some a => .ok a
    | none => fault .literalError
  | _ => fault .literalError

def optional {α : Type} (c : Coercion α) : Coercion (Option α)
  | .null => .ok none
  | v => (c v).map some

def items {α : Type} (c : Coercion α) (index : Nat) : List Value → Checked (List α)
  | [] => .ok []
  | v :: rest =>
    Checked.both ((Checked.under (toString index) (c v)).map List.cons) (items c (index + 1) rest)

def listOf {α : Type} (c : Coercion α) : Coercion (List α)
  | .list vs => items c 0 vs
  | _ => fault .listType

def object : Coercion Fields
  | .object fields => .ok fields
  | _ => fault .dictType

def entries {α : Type} (c : Coercion α) : Fields → Checked (Assoc α)
  | [] => .ok []
  | (k, v) :: rest =>
    Checked.both ((Checked.under k (c v)).map fun a => ((k, a) :: ·)) (entries c rest)

def objectOf {α : Type} (c : Coercion α) : Coercion (Assoc α)
  | .object fields => entries c fields
  | _ => fault .dictType

def model {α : Type} (build : Fields → Checked α) : Coercion α
  | .object fields => build fields
  | _ => fault .modelType

def required {α : Type} (fields : Fields) (key : String) (c : Coercion α) : Checked α :=
  match Assoc.get? fields key with
  | some v => (c v).under key
  | none => (fault .missing : Checked α).under key

def withDefault {α : Type} (fields : Fields) (key : String) (default : α) (c : Coercion α) : Checked α :=
  match Assoc.get? fields key with
  | some v => (c v).under key
  | none => .ok default

def conclude {α ε : Type} (name : String) (fault : Report → ε) : Checked α → Except ε α
  | .ok a => .ok a
  | .faulty issues => .error (fault ⟨name, issues⟩)

end DecisionRules.Schema
