import DecisionRules.Number.Layout
import DecisionRules.Text.Blank
import DecisionRules.Text.Digit

/-!
Numbers read from text. A lenient reading takes the decimal digits of any script, blanks at both
ends, a sign, and single underscores between digits.
-/
namespace DecisionRules.Number

def natOfDigits (cs : List Char) : Nat := cs.foldl (fun n c => 10 * n + (c.toNat - 48)) 0

def isAsciiDigit (c : Char) : Bool := '0' ≤ c && c ≤ '9'

def splitSign : List Char → Bool × List Char
  | '-' :: rest => (true, rest)
  | '+' :: rest => (false, rest)
  | cs => (false, cs)

def joinedDigits? : List Char → Option (List Char)
  | [] => none
  | [c] => if isAsciiDigit c then some [c] else none
  | c :: '_' :: rest =>
    if isAsciiDigit c then (joinedDigits? rest).map (c :: ·) else none
  | c :: rest => if isAsciiDigit c then (joinedDigits? rest).map (c :: ·) else none

/-- Digits of other scripts become ASCII digits and every blank a space; nothing else changes. -/
def plainChar (c : Char) : Char :=
  if c.toNat < 128 then c
  else if Text.isBlank c then ' '
  else match Text.digitValue? c with
    | some d => Char.ofNat (48 + d)
    | none => c

def stripChars (cs : List Char) : List Char :=
  (Text.dropBlanks (Text.dropBlanks cs).reverse).reverse

def plain (s : String) : List Char := (stripChars s.toList).map plainChar

def readInt? (s : String) : Option Int :=
  let (negative, body) := splitSign (plain s)
  match joinedDigits? body with
  | none => none
  | some digits =>
    if digits.length > maxTextDigits then none
    else
      let n : Int := natOfDigits digits
      some (if negative then -n else n)

def splitAtFirst (p : Char → Bool) (cs : List Char) : List Char × Option (List Char) :=
  match cs.dropWhile (fun c => !p c) with
  | [] => (cs, none)
  | _ :: rest => (cs.takeWhile (fun c => !p c), some rest)

/-- Digits that may be absent: nothing written is no digit, anything else must be digits. -/
def optionalDigits? (cs : List Char) : Option (List Char) :=
  if cs.isEmpty then some [] else joinedDigits? cs

def exponent? : Option (List Char) → Option Int
  | none => some 0
  | some cs =>
    let (negative, body) := splitSign cs
    (joinedDigits? body).map fun digits =>
      let n : Int := natOfDigits digits
      if negative then -n else n

def specialFloat? (negative : Bool) (body : List Char) : Option Float :=
  let word := String.ofList (body.map Char.toLower)
  if word == "inf" || word == "infinity" then
    some (if negative then negativeInfinity else positiveInfinity)
  else if word == "nan" then some notANumber
  else none

def decimalBody? (negative : Bool) (body : List Char) : Option Float := do
  let (mantissa, tail) := splitAtFirst (fun c => c == 'e' || c == 'E') body
  let (whole, fraction) := splitAtFirst (· == '.') mantissa
  let e ← exponent? tail
  let w ← optionalDigits? whole
  let f ← optionalDigits? (fraction.getD [])
  if w.isEmpty && f.isEmpty then none
  else some (ofDecimal negative (natOfDigits (w ++ f)) (e - f.length))

def readFloat? (s : String) : Option Float :=
  let (negative, body) := splitSign (plain s)
  match specialFloat? negative body with
  | some x => some x
  | none => decimalBody? negative body

end DecisionRules.Number
