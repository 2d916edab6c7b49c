import DecisionRules.Breach
import DecisionRules.Value
import DecisionRules.Number.Layout
import DecisionRules.Text.Quoted

/-!
The texts of values in messages: `literal` quotes texts and spells null, true and false with a
capital; `display` is the same but for a text, which stands for itself. An integer with too many
digits has neither.
-/
namespace DecisionRules

def intText (n : Int) : Except Breach String :=
  match Number.intText? n with
  | some s => .ok s
  | none => .error .badValue

def partText (x : Float) : String :=
  let cs := (Number.floatText Number.plainStyle x).toList
  String.ofList (if cs.drop (cs.length - 2) == ['.', '0'] then cs.take (cs.length - 2) else cs)

/-- Real part, sign and imaginary part in parentheses; the imaginary part alone when the real one is
a positive zero. -/
def complexText (re im : Float) : String :=
  let i := partText im
  if re.toBits == 0 then i ++ "j"
  else
    let sign := if i.startsWith "-" then "" else "+"
    "(" ++ partText re ++ sign ++ i ++ "j)"

/-- A compiled pattern shows at most two hundred characters of its quoted source. -/
def patternText (source : String) (ignoreCase : Bool) : String :=
  let shown := String.ofList ((Text.quotedChars source.toList).take 200)
  "re.compile(" ++ shown ++ (if ignoreCase then ", re.IGNORECASE)" else ")")

namespace Value

mutual
def literal : Value → Except Breach String
  | null => .ok "None"
  | bool b => .ok (if b then "True" else "False")
  | int n => intText n
  | float x => .ok (Number.floatText Number.plainStyle x)
  | complex re im => .ok (complexText re im)
  | text s => .ok (Text.quoted s)
  | list items => do return "[" ++ ", ".intercalate (← literals items) ++ "]"
  | object fields => do return "\x7b" ++ ", ".intercalate (← literalFields fields) ++ "\x7d"
  | pattern source ignoreCase => .ok (patternText source ignoreCase)
  | callable name => .ok ("<function " ++ name ++ ">")
def literals : List Value → Except Breach (List String)
  | [] => .ok []
  | v :: rest => do return (← literal v) :: (← literals rest)
def literalFields : List (String × Value) → Except Breach (List String)
  | [] => .ok []
  | (k, v) :: rest => do return (Text.quoted k ++ ": " ++ (← literal v)) :: (← literalFields rest)
end

def display : Value → Except Breach String
  | text s => .ok s
  | v => literal v

end Value
end DecisionRules
