/-!
Breaches of the contract of a basic operation. They carry a kind and no text.
-/
namespace DecisionRules

inductive Breach where
  | wrongType
  | badValue
  | missingKey
  | missingAttribute
  | overflow
  | divisionByZero
  /-- A text with characters that its encoding does not have. -/
  | unencodable
  deriving DecidableEq, Repr

namespace Breach

def kind : Breach → String
  | wrongType => "TypeError"
  | badValue => "ValueError"
  | missingKey => "KeyError"
  | missingAttribute => "AttributeError"
  | overflow => "OverflowError"
  | divisionByZero => "ZeroDivisionError"
  | unencodable => "UnicodeEncodeError"

end Breach
end DecisionRules
