import DecisionRules.Text.Hex
import DecisionRules.Text.Printable

/-!
Texts between quotes, as messages show them: single quotes, or double ones when only single quotes
occur inside; the quote, the backslash and whatever has no visible form are escaped.
-/
namespace DecisionRules.Text

def quoteMark (cs : List Char) : Char :=
  if cs.contains '\'' && !cs.contains '"' then '"' else '\''

def escapeCode (c : Char) : List Char :=
  let n := c.toNat
  if n < 0x100 then '\\' :: 'x' :: hexFixed 2 n
  else if n < 0x10000 then '\\' :: 'u' :: hexFixed 4 n
  else '\\' :: 'U' :: hexFixed 8 n

def escapeQuoted (mark c : Char) : List Char :=
  if c == mark || c == '\\' then ['\\', c]
  else if c == '\n' then ['\\', 'n']
  else if c == '\r' then ['\\', 'r']
  else if c == '\t' then ['\\', 't']
  else if c == ' ' || isPrintable c then [c]
  else escapeCode c

def quotedChars (cs : List Char) : List Char :=
  let mark := quoteMark cs
  mark :: (cs.flatMap (escapeQuoted mark) ++ [mark])

def quoted (s : String) : String := String.ofList (quotedChars s.toList)

end DecisionRules.Text
