import DecisionRules.Text.Blank
import DecisionRules.Text.Case
import DecisionRules.Text.Digit
import DecisionRules.Text.Word

/-!
Tests of one character in a pattern: ranges and the classes of digits, blanks and word characters,
each over all scripts or over ASCII alone, with or without regard to case.
-/
namespace DecisionRules.Pattern

inductive CaseMode where
  | exact
  | folded
  | foldedAscii
  deriving DecidableEq, Repr

inductive Category where
  | digit
  | blank
  | word
  deriving DecidableEq, Repr

inductive ClassItem where
  | range (low high : Nat)
  | category (c : Category) (ascii negated : Bool)
  deriving DecidableEq, Repr

structure CharTest where
  negated : Bool
  items : List ClassItem
  case : CaseMode
  deriving DecidableEq, Repr

def isAsciiBlank (c : Char) : Bool := c == ' ' || (9 ≤ c.toNat && c.toNat ≤ 13)
def isAsciiWord (c : Char) : Bool := c.isAlphanum || c == '_'

def Category.holds (category : Category) (ascii : Bool) (c : Char) : Bool :=
  match category, ascii with
  | digit, true => c.isDigit
  | digit, false => Text.isDecimal c
  | blank, true => isAsciiBlank c
  | blank, false => Text.isBlank c
  | word, true => isAsciiWord c
  | word, false => Text.isWord c

/-- Lower-case characters that count as one when case is disregarded, though neither is the lower
form of the other. -/
def foldGroups : List (List Nat) := [
  [0x69, 0x131], [0x73, 0x17f], [0xb5, 0x3bc], [0x345, 0x3b9, 0x1fbe], [0x390, 0x1fd3],
  [0x3b0, 0x1fe3], [0x3b2, 0x3d0], [0x3b5, 0x3f5], [0x3b8, 0x3d1], [0x3ba, 0x3f0],
  [0x3c0, 0x3d6], [0x3c1, 0x3f1], [0x3c2, 0x3c3], [0x3c6, 0x3d5], [0x432, 0x1c80],
  [0x434, 0x1c81], [0x43e, 0x1c82], [0x441, 0x1c83], [0x442, 0x1c84, 0x1c85], [0x44a, 0x1c86],
  [0x463, 0x1c87], [0x1c88, 0xa64b], [0x1e61, 0x1e9b], [0xfb05, 0xfb06]]

def foldGroup (n : Nat) : List Nat := (foldGroups.find? fun g => g.contains n).getD [n]

def upperForms (n : Nat) : List Nat :=
  Text.lowerRuns.filterMap fun r =>
    let source := ((n : Int) - r.distance).toNat
    if r.holds source then some source else none

def lowerForm (mode : CaseMode) (c : Char) : Char :=
  match mode with
  | .exact => c
  | .folded => Text.lowerChar c
  | .foldedAscii => c.toLower

def variants (mode : CaseMode) (c : Char) : List Nat :=
  match mode with
  | .exact => [c.toNat]
  | .folded => (foldGroup (Text.lowerChar c).toNat).flatMap fun n => n :: upperForms n
  | .foldedAscii => [c.toLower.toNat, c.toUpper.toNat]

def ClassItem.holds (mode : CaseMode) (c : Char) : ClassItem → Bool
  | range low high => (variants mode c).any fun n => low ≤ n && n ≤ high
  | category k ascii negated => k.holds ascii (lowerForm mode c) != negated

def CharTest.holds (t : CharTest) (c : Char) : Bool :=
  t.items.any (fun item => item.holds t.case c) != t.negated

end DecisionRules.Pattern
