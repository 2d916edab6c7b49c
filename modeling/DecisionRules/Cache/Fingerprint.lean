import DecisionRules.Digest.Sha256
import DecisionRules.Text.Json

/-!
Fingerprints of what a condition is evaluated on: the rule, its revision, the facts and the variables.
Facts and variables count in canonical form, so that the order of fields makes no difference.
-/
namespace DecisionRules

def canonicalText (v : Value) : Except Breach String := Text.Json.render Text.Json.canonical v

def fingerprintText (rule : String) (revision : Int) (data bindings : Fields) :
    Except Breach String := do
  let payload ← canonicalText (.object [("data", .object data), ("variables", .object bindings)])
  return "|".intercalate ["rule_eval", rule, String.ofList (Number.intChars revision), payload]

def fingerprint (rule : String) (revision : Int) (data bindings : Fields) :
    Except Breach String := do
  return Digest.sha256 (← fingerprintText rule revision data bindings).toUTF8.data.toList

end DecisionRules
