import DecisionRules.Number.Precision
import DecisionRules.Number.Reader
import DecisionRules.Value.Compare
import DecisionRules.Value.Display

/-!
Templates with percent directives, filled from one value. A directive has an optional key in
parentheses, flags, a width, a precision and a conversion letter. An object or a list may be left
unused; any other value must be consumed exactly once.
-/
namespace DecisionRules.Text.Percent

/-- A width or precision: absent, taken from the value, or written. -/
inductive Amount where
  | absent
  | supplied
  | written (n : Nat)
  deriving DecidableEq, Repr

inductive Key where
  | absent
  | unclosed
  | named (name : String)
  deriving DecidableEq, Repr

structure Directive where
  key : Key
  flags : List Char
  width : Amount
  precision : Amount
  conversion : Option Char
  deriving DecidableEq, Repr

inductive Piece where
  | plain (c : Char)
  | directive (d : Directive)
  deriving DecidableEq, Repr

def closeKey (depth : Nat) (before : List Char) : List Char → Option (List Char × List Char)
  | [] => none
  | ')' :: rest => if depth == 0 then some (before.reverse, rest) else closeKey (depth - 1) (')' :: before) rest
  | '(' :: rest => closeKey (depth + 1) ('(' :: before) rest
  | c :: rest => closeKey depth (c :: before) rest

def readKey : List Char → Key × List Char
  | '(' :: rest =>
    match closeKey 0 [] rest with
    | some (name, rest) => (.named (String.ofList name), rest)
    | none => (.unclosed, [])
  | cs => (.absent, cs)

def isFlag (c : Char) : Bool := c == '-' || c == '+' || c == ' ' || c == '#' || c == '0'

def readAmount : List Char → Amount × List Char
  | '*' :: rest => (.supplied, rest)
  | cs =>
    let digits := cs.takeWhile Number.isAsciiDigit
    if digits.isEmpty then (.absent, cs)
    else (.written (Number.natOfDigits digits), cs.dropWhile Number.isAsciiDigit)

def readPrecision : List Char → Amount × List Char
  | '.' :: rest =>
    match readAmount rest with
    | (.absent, rest) => (.written 0, rest)
    | found => found
  | cs => (.absent, cs)

def dropSize : List Char → List Char
  | c :: rest => if c == 'h' || c == 'l' || c == 'L' then rest else c :: rest
  | [] => []

def readDirective (cs : List Char) : Directive × List Char :=
  let (key, cs) := readKey cs
  let flags := cs.takeWhile isFlag
  let (width, cs) := readAmount (cs.dropWhile isFlag)
  let (precision, cs) := readPrecision cs
  match dropSize cs with
  | c :: rest => (⟨key, flags, width, precision, some c⟩, rest)
  | [] => (⟨key, flags, width, precision, none⟩, [])

def pieces (skip : Nat) : List Char → List Piece
  | [] => []
  | c :: rest =>
    match skip with
    | n + 1 => pieces n rest
    | 0 =>
      match c, rest with
      | '%', '%' :: _ => .plain '%' :: pieces 1 rest
      | '%', _ =>
        let (d, after) := readDirective rest
        .directive d :: pieces (rest.length - after.length) rest
      | _, _ => .plain c :: pieces 0 rest

/-- What a template is filled from: the source of keys, if there is one, and the values that are not
consumed yet. -/
structure Supply where
  keys : Option Value
  pending : List Value

def isMapping : Value → Bool
  | .list _ => true
  | .object _ => true
  | _ => false

def Supply.next (s : Supply) : Except Breach (Value × Supply) :=
  match s.pending with
  | v :: rest => .ok (v, { s with pending := rest })
  | [] => .error .wrongType

def Supply.select (s : Supply) (key : Key) : Except Breach Supply :=
  match key with
  | .absent => .ok s
  | .unclosed => .error (if s.keys.any isMapping then .badValue else .wrongType)
  | .named name =>
    match s.keys with
    | some (.object fields) =>
      match Assoc.get? fields name with
      | some v => .ok { s with pending := [v] }
      | none => .error .missingKey
    | _ => .error .wrongType

def integer? : Value → Option Int
  | .int n => some n
  | .bool b => some (if b then 1 else 0)
  | _ => none

def maxWidth : Nat := Nat.pow 2 63

def maxPrecision : Nat := Nat.pow 2 31

def Supply.amount (s : Supply) (limit : Nat) : Amount → Except Breach (Option Int × Supply)
  | .absent => .ok (none, s)
  | .written n => if n ≥ limit then .error .badValue else .ok (some n, s)
  | .supplied => do
    let (v, s) ← s.next
    match integer? v with
    | none => .error .wrongType
    | some n => if n < -limit || n ≥ limit then .error .overflow else .ok (some n, s)

structure Converted where
  chars : List Char
  numeric : Bool

def truncated (precision : Option Int) (s : String) : Converted :=
  match precision with
  | some p => ⟨s.toList.take p.toNat, false⟩
  | none => ⟨s.toList, false⟩

def asciiOnly (s : String) : String :=
  String.ofList (s.toList.flatMap fun c => if c.toNat < 128 then [c] else escapeCode c)

def signedDigits (n : Int) (digits mark : List Char) (precision : Option Int) : Converted :=
  let padded := Number.zeros ((precision.getD 0).toNat - digits.length) ++ digits
  ⟨(if n < 0 then ['-'] else []) ++ mark ++ padded, true⟩

def wholeNumber : Value → Except Breach Int
  | .int n => .ok n
  | .bool b => .ok (if b then 1 else 0)
  | .float x =>
    match (if x < 0 then Number.ceil? x else Number.floor? x) with
    | some n => .ok n
    | none => .error (if x.isNaN then .badValue else .overflow)
  | _ => .error .wrongType

def realNumber (v : Value) : Except Breach Float :=
  match v.numeral? with
  | some n => n.toReal
  | none => .error .wrongType

def floatChars (letter : Char) (precision : Nat) (alternate : Bool) (x : Float) : List Char :=
  let capital := letter == 'E' || letter == 'F' || letter == 'G'
  let kind := letter.toLower
  let mark := if capital then 'E' else 'e'
  let body (m : Nat) (e : Int) : List Char :=
    if kind == 'e' then Number.scientific m e precision mark alternate
    else if kind == 'f' then Number.fixedChars m e precision alternate
    else Number.generalChars m e precision mark alternate
  let word (cs : List Char) : List Char := if capital then cs.map Char.toUpper else cs
  match Number.form x with
  | .nan => word ['n', 'a', 'n']
  | .infinity negative => (if negative then ['-'] else []) ++ word ['i', 'n', 'f']
  | .finite negative m e => (if negative then ['-'] else []) ++ body m e

def convert (letter : Char) (alternate : Bool) (precision : Option Int) (v : Value) :
    Except Breach Converted :=
  if letter == 's' then do return truncated precision (← v.display)
  else if letter == 'r' then do return truncated precision (← v.literal)
  else if letter == 'a' then do return truncated precision (asciiOnly (← v.literal))
  else if letter == 'd' || letter == 'i' || letter == 'u' then do
    let n ← wholeNumber v
    if Number.writable n then return signedDigits n (Number.digitChars n.natAbs) [] precision
    else .error .badValue
  else if letter == 'x' || letter == 'X' || letter == 'o' then
    match integer? v with
    | none => .error .wrongType
    | some n =>
      let digits := Nat.toDigits (if letter == 'o' then 8 else 16) n.natAbs
      let digits := if letter == 'X' then digits.map Char.toUpper else digits
      .ok (signedDigits n digits (if alternate then ['0', letter] else []) precision)
  else if letter == 'e' || letter == 'E' || letter == 'f' || letter == 'F' || letter == 'g' ||
      letter == 'G' then do
    let x ← realNumber v
    let p := match precision with
      | some p => p.toNat
      | none => 6
    return ⟨floatChars letter p alternate x, true⟩
  else if letter == 'c' then
    match v with
    | .text s => if s.length == 1 then .ok ⟨s.toList, false⟩ else .error .wrongType
    | _ =>
      match integer? v with
      | none => .error .wrongType
      | some n => if 0 ≤ n && n < 0x110000 then .ok ⟨[Char.ofNat n.toNat], false⟩ else .error .overflow
  else .error .badValue

def signPart (flags cs : List Char) : List Char × List Char :=
  match cs with
  | '-' :: rest => (['-'], rest)
  | '+' :: rest => (['+'], rest)
  | _ =>
    if flags.contains '+' then (['+'], cs)
    else if flags.contains ' ' then ([' '], cs)
    else ([], cs)

/-- Pads to the width: zeros go between sign or base mark and digits, blanks outside. -/
def pad (flags : List Char) (letter : Char) (width : Nat) (c : Converted) : List Char :=
  let (sign, body) := if c.numeric then signPart flags c.chars else ([], c.chars)
  let marked := flags.contains '#' && (letter == 'x' || letter == 'X' || letter == 'o')
  let head := sign ++ (if marked then body.take 2 else [])
  let digits := if marked then body.drop 2 else body
  let fill := width - (head.length + digits.length)
  if flags.contains '-' then head ++ digits ++ List.replicate fill ' '
  else if c.numeric && flags.contains '0' then head ++ Number.zeros fill ++ digits
  else List.replicate fill ' ' ++ head ++ digits

def fillDirective (s : Supply) (d : Directive) : Except Breach (List Char × Supply) := do
  let s ← s.select d.key
  let (width, s) ← s.amount maxWidth d.width
  let (precision, s) ← s.amount maxPrecision d.precision
  match d.conversion with
  | none => .error .badValue
  | some letter =>
    let (v, s) ← s.next
    let flags := if width.any (· < 0) then '-' :: d.flags else d.flags
    let c ← convert letter (d.flags.contains '#') precision v
    return (pad flags letter (width.getD 0).natAbs c, s)

def fill (s : Supply) : List Piece → Except Breach (List Char × Supply)
  | [] => .ok ([], s)
  | .plain c :: rest => do
    let (cs, s) ← fill s rest
    return (c :: cs, s)
  | .directive d :: rest => do
    let (here, s) ← fillDirective s d
    let (cs, s) ← fill s rest
    return (here ++ cs, s)

def format (template : String) (v : Value) : Except Breach String := do
  let (cs, s) ← fill ⟨some v, [v]⟩ (pieces 0 template.toList)
  if s.pending.isEmpty || isMapping v then return String.ofList cs else throw .wrongType

def formatAll (template : String) (values : List Value) : Except Breach String := do
  let (cs, s) ← fill ⟨none, values⟩ (pieces 0 template.toList)
  if s.pending.isEmpty then return String.ofList cs else throw .wrongType

end DecisionRules.Text.Percent
