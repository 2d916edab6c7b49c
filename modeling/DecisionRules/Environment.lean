import DecisionRules.Assoc
import DecisionRules.Number.Reader
import DecisionRules.Text.Case

/-!
Variables of the environment, and values read from them. An unreadable number counts as absent.
-/
namespace DecisionRules

abbrev Environment := Assoc String

namespace Environment

def text? (env : Environment) (name : String) : Option String := Assoc.get? env name

def int (env : Environment) (name : String) (default : Int) : Int :=
  ((env.text? name).bind Number.readInt?).getD default

def float (env : Environment) (name : String) (default : Float) : Float :=
  ((env.text? name).bind Number.readFloat?).getD default

def trueWords : List String := ["1", "true", "yes", "on"]

def isTrue (word : String) : Bool := trueWords.contains (Text.foldAscii word)

def flag (env : Environment) (name : String) (default : Bool) : Bool :=
  match env.text? name with
  | some s => isTrue (Text.strip s)
  | none => default

end Environment
end DecisionRules
