import DecisionRules.Text.Ranges

/-!
Blank characters: the white space of Unicode together with the four ASCII separators.
-/
namespace DecisionRules.Text

def blankRanges : Ranges := [
  (0x9, 0xd), (0x1c, 0x20), (0x85, 0x85), (0xa0, 0xa0), (0x1680, 0x1680), (0x2000, 0x200a),
  (0x2028, 0x2029), (0x202f, 0x202f), (0x205f, 0x205f), (0x3000, 0x3000)]

def isBlank (c : Char) : Bool := blankRanges.holds c.toNat

def dropBlanks (cs : List Char) : List Char := cs.dropWhile isBlank

def strip (s : String) : String :=
  String.ofList (dropBlanks (dropBlanks s.toList).reverse).reverse

end DecisionRules.Text
