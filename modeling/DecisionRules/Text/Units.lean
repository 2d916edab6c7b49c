/-!
Characters of code units. A high surrogate followed by a low one makes one character; a surrogate
that stands alone is replaced.
-/
namespace DecisionRules.Text

def replacement : Char := Char.ofNat 0xfffd

def isHighSurrogate (u : Nat) : Bool := 0xd800 ≤ u && u < 0xdc00
def isLowSurrogate (u : Nat) : Bool := 0xdc00 ≤ u && u < 0xe000

def ofUnit (u : Nat) : Char :=
  if isHighSurrogate u || isLowSurrogate u then replacement else Char.ofNat u

def ofUnits : List Nat → List Char
  | [] => []
  | [u] => [ofUnit u]
  | u :: v :: rest =>
    if isHighSurrogate u && isLowSurrogate v then
      Char.ofNat (0x10000 + (u - 0xd800) * 0x400 + (v - 0xdc00)) :: ofUnits rest
    else ofUnit u :: ofUnits (v :: rest)

end DecisionRules.Text
