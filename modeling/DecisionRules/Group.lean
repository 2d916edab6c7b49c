import DecisionRules.Schema.Coerce

/-!
Groups of rules: a limit on the number of members, and the mode in which the members are evaluated.
-/
namespace DecisionRules

inductive ExecutionMode where
  | sequential
  | parallel
  | firstMatch
  deriving DecidableEq, Repr

namespace ExecutionMode

def name : ExecutionMode → String
  | sequential => "sequential"
  | parallel => "parallel"
  | firstMatch => "first-match"

def coerce : Schema.Coercion ExecutionMode :=
  Schema.oneOf ([sequential, parallel, firstMatch].map fun m => (m.name, m))

end ExecutionMode

structure RuleGroup where
  name : String
  mode : ExecutionMode
  maxRules : Int
  ruleIds : List String
  deriving DecidableEq, Repr

namespace RuleGroup

def ofFields (fields : Fields) : Schema.Checked RuleGroup :=
  (fun name mode maxRules => ⟨name, mode, maxRules, []⟩)
    <$> Schema.required fields "name" Schema.text
    <*> Schema.withDefault fields "execution_mode" .sequential ExecutionMode.coerce
    <*> Schema.withDefault fields "max_rules" 100 Schema.int

def toValue (g : RuleGroup) : Value :=
  .object [("name", .text g.name), ("execution_mode", .text g.mode.name),
    ("max_rules", .int g.maxRules), ("rule_ids", .texts g.ruleIds)]

end RuleGroup
end DecisionRules
