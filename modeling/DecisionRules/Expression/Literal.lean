import DecisionRules.Expression.Lexer
import DecisionRules.Text.Units
import DecisionRules.Value

/-!
The values that tokens write: numbers, quoted texts with their escapes, and the words for true,
false and null.
-/
namespace DecisionRules.Expression

def escapeUnit (c : Char) : Nat :=
  match c with
  | 'n' => 10
  | 't' => 9
  | 'r' => 13
  | 'b' => 8
  | 'f' => 12
  | _ => c.toNat

/-- Code units of the inside of a quoted text. Four hexadecimal digits after a `u` give a unit; any
other escaped character without a meaning of its own stands for itself. -/
def unescape : List Char → List Nat
  | [] => []
  | '\\' :: 'u' :: a :: b :: c :: d :: rest =>
    match Text.hexNumber? [a, b, c, d] with
    | some u => u :: unescape rest
    | none => 'u'.toNat :: unescape (a :: b :: c :: d :: rest)
  | '\\' :: c :: rest => escapeUnit c :: unescape rest
  | c :: rest => c.toNat :: unescape rest

def unquote (cs : List Char) : String :=
  String.ofList (Text.ofUnits (unescape (cs.drop 1).dropLast))

def numberValue (text : String) : Value :=
  if text.toList.any fun c => c == '.' || c == 'e' || c == 'E' then
    .float ((Number.readFloat? text).getD 0)
  else .int ((Number.readInt? text).getD 0)

def keyword? : String → Option Value
  | "true" | "True" => some (.bool true)
  | "false" | "False" => some (.bool false)
  | "null" | "None" | "undefined" => some .null
  | _ => none

end DecisionRules.Expression
