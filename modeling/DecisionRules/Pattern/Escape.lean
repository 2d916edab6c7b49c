import DecisionRules.Number.Reader
import DecisionRules.Pattern.Basic
import DecisionRules.Text.Hex

/-!
Escapes of pattern texts: the character or class that a backslash and the characters behind it stand
for, inside and outside a character set.
-/
namespace DecisionRules.Pattern

/-- Why a text is no pattern: it breaks the grammar, a repetition count is too large, or two global
flags exclude each other. -/
inductive Fault where
  | malformed
  | countTooLarge
  | flagsConflict
  deriving DecidableEq, Repr

inductive Escape where
  | literal (c : Char)
  | category (c : Category) (negated : Bool)
  | anchor (a : Anchor)
  | reference (index : Nat)
  deriving DecidableEq, Repr

def isOctal (c : Char) : Bool := '0' ≤ c && c ≤ '7'

def octalValue (cs : List Char) : Nat := cs.foldl (fun n c => 8 * n + (c.toNat - 48)) 0

def controlEscape? : Char → Option Char
  | 'a' => some '\x07'
  | 'f' => some '\x0c'
  | 'n' => some '\n'
  | 'r' => some '\r'
  | 't' => some '\t'
  | 'v' => some '\x0b'
  | '\\' => some '\\'
  | _ => none

def categoryEscape? : Char → Option Escape
  | 'd' => some (.category .digit false)
  | 'D' => some (.category .digit true)
  | 's' => some (.category .blank false)
  | 'S' => some (.category .blank true)
  | 'w' => some (.category .word false)
  | 'W' => some (.category .word true)
  | _ => none

def anchorEscape? (ascii : Bool) : Char → Option Escape
  | 'A' => some (.anchor .textStart)
  | 'Z' => some (.anchor .textEnd)
  | 'b' => some (.anchor (.boundary ascii false))
  | 'B' => some (.anchor (.boundary ascii true))
  | _ => none

def hexEscape (count : Nat) (rest : List Char) : Except Fault (Escape × List Char) :=
  match Text.hexNumber? (rest.take count) with
  | some n =>
    if (rest.take count).length == count && n < 0x110000 then
      .ok (.literal (Char.ofNat n), rest.drop count)
    else .error .malformed
  | none => .error .malformed

def codeEscape? (c : Char) (rest : List Char) : Option (Except Fault (Escape × List Char)) :=
  match c with
  | 'x' => some (hexEscape 2 rest)
  | 'u' => some (hexEscape 4 rest)
  | 'U' => some (hexEscape 8 rest)
  | _ => none

/-- A character without a meaning stands for itself, unless it is an ASCII letter. -/
def selfEscape (c : Char) (rest : List Char) : Except Fault (Escape × List Char) :=
  if c.isAlpha then .error .malformed else .ok (.literal c, rest)

def octalLiteral (digits rest : List Char) : Except Fault (Escape × List Char) :=
  let n := octalValue digits
  if n > 0o377 then .error .malformed else .ok (.literal (Char.ofNat n), rest)

def setEscape : List Char → Except Fault (Escape × List Char)
  | [] => .error .malformed
  | c :: rest =>
    if c == 'b' then .ok (.literal '\x08', rest)
    else match controlEscape? c, categoryEscape? c, codeEscape? c rest with
      | some d, _, _ => .ok (.literal d, rest)
      | _, some e, _ => .ok (e, rest)
      | _, _, some r => r
      | _, _, _ =>
        if isOctal c then
          let digits := c :: (rest.take 2).takeWhile isOctal
          octalLiteral digits (rest.drop (digits.length - 1))
        else if Number.isAsciiDigit c then .error .malformed
        else selfEscape c rest

/-- An escape that begins with a digit other than zero: an octal code of three digits, or the number
of a group. -/
def digitEscape (c : Char) (rest : List Char) : Except Fault (Escape × List Char) :=
  match rest with
  | d :: e :: more =>
    if isOctal c && isOctal d && isOctal e then octalLiteral [c, d, e] more
    else if Number.isAsciiDigit d then .ok (.reference (Number.natOfDigits [c, d]), e :: more)
    else .ok (.reference (Number.natOfDigits [c]), rest)
  | [d] =>
    if Number.isAsciiDigit d then .ok (.reference (Number.natOfDigits [c, d]), [])
    else .ok (.reference (Number.natOfDigits [c]), rest)
  | [] => .ok (.reference (Number.natOfDigits [c]), [])

def plainEscape (ascii : Bool) : List Char → Except Fault (Escape × List Char)
  | [] => .error .malformed
  | c :: rest =>
    match categoryEscape? c, anchorEscape? ascii c, controlEscape? c, codeEscape? c rest with
    | some e, _, _, _ => .ok (e, rest)
    | _, some e, _, _ => .ok (e, rest)
    | _, _, some d, _ => .ok (.literal d, rest)
    | _, _, _, some r => r
    | _, _, _, _ =>
      if c == '0' then
        let digits := c :: (rest.take 2).takeWhile isOctal
        octalLiteral digits (rest.drop (digits.length - 1))
      else if Number.isAsciiDigit c then digitEscape c rest
      else selfEscape c rest

end DecisionRules.Pattern
