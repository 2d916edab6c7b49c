/-!
Parts of texts: occurrence, beginning and end, on lists of characters.
-/
namespace DecisionRules.Text

def beginsWith (cs part : List Char) : Bool := part.isPrefixOf cs

def endsWith (cs part : List Char) : Bool := part.reverse.isPrefixOf cs.reverse

def occurs (part : List Char) : List Char → Bool
  | [] => part.isEmpty
  | c :: rest => part.isPrefixOf (c :: rest) || occurs part rest

end DecisionRules.Text
