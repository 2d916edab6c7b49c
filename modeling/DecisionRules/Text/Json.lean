import DecisionRules.Sort
import DecisionRules.Value.Display

/-!
Values written as JSON text. Only what JSON cannot hold otherwise is escaped. A style fixes the
separators, the order of fields and the text that stands for a value that JSON does not know.
-/
namespace DecisionRules.Text.Json

structure Style where
  betweenItems : List Char
  afterKey : List Char
  sortFields : Bool
  foreign : Value → Except Breach String

def spaced : Style := ⟨[',', ' '], [':', ' '], false, Value.display⟩

def compact : Style := ⟨[','], [':'], false, Value.display⟩

/-- Tagged texts keep values without a JSON form apart. -/
def foreignTag : Value → Except Breach String
  | .pattern source _ => .ok ("re:" ++ source)
  | v => do return v.typeName ++ ":" ++ (← v.literal)

def canonical : Style := ⟨[','], [':'], true, foreignTag⟩

def escape (c : Char) : List Char :=
  if c == '"' || c == '\\' then ['\\', c]
  else if c == '\n' then ['\\', 'n']
  else if c == '\r' then ['\\', 'r']
  else if c == '\t' then ['\\', 't']
  else if c == '\x08' then ['\\', 'b']
  else if c == '\x0c' then ['\\', 'f']
  else if c.toNat < 0x20 then '\\' :: 'u' :: hexFixed 4 c.toNat
  else [c]

def quotedText (s : String) : List Char := '"' :: (s.toList.flatMap escape ++ ['"'])

def separate (mark : List Char) : List (List Char) → List Char
  | [] => []
  | [cs] => cs
  | cs :: rest => cs ++ mark ++ separate mark rest

def inOrder (style : Style) (fields : List (String × List Char)) : List (String × List Char) :=
  if style.sortFields then sortBy (fun a b => decide (a.1 ≤ b.1)) fields else fields

def field (style : Style) (e : String × List Char) : List Char :=
  quotedText e.1 ++ style.afterKey ++ e.2

mutual
def chars (style : Style) : Value → Except Breach (List Char)
  | .null => .ok ['n', 'u', 'l', 'l']
  | .bool true => .ok ['t', 'r', 'u', 'e']
  | .bool false => .ok ['f', 'a', 'l', 's', 'e']
  | .int n => if Number.writable n then .ok (Number.intChars n) else .error .badValue
  | .float x => .ok (Number.floatText Number.structuredStyle x).toList
  | .text s => .ok (quotedText s)
  | .list items => do
    return '[' :: (separate style.betweenItems (← itemChars style items) ++ [']'])
  | .object fields => do
    let parts := (inOrder style (← fieldChars style fields)).map (field style)
    return '\x7b' :: (separate style.betweenItems parts ++ ['\x7d'])
  | v => do return quotedText (← style.foreign v)
def itemChars (style : Style) : List Value → Except Breach (List (List Char))
  | [] => .ok []
  | v :: rest => do return (← chars style v) :: (← itemChars style rest)
def fieldChars (style : Style) :
    List (String × Value) → Except Breach (List (String × List Char))
  | [] => .ok []
  | (k, v) :: rest => do return (k, ← chars style v) :: (← fieldChars style rest)
end

def render (style : Style) (v : Value) : Except Breach String := do
  return String.ofList (← chars style v)

end DecisionRules.Text.Json

namespace DecisionRules.Value

/-- The text of a value inside another text: a text itself, lower-case words for null, true and
false, JSON for lists and objects. -/
def stringify : Value → Except Breach String
  | text s => .ok s
  | null => .ok "null"
  | bool b => .ok (if b then "true" else "false")
  | list items => Text.Json.render Text.Json.spaced (list items)
  | object fields => Text.Json.render Text.Json.spaced (object fields)
  | v => display v

end DecisionRules.Value
