import DecisionRules.Action
import DecisionRules.Condition
import DecisionRules.Priority

/-!
Rules and their statistics. A rule is built by revising another one: fields that are given replace
the old ones after coercion, the others stay.
-/
namespace DecisionRules
open Schema (Checked)

structure RuleConfig where
  priority : Priority
  group : Option String
  tags : List String
  timeout : Option Float
  retryOnFailure : Bool

namespace RuleConfig

def revise (c : RuleConfig) (fields : Fields) : Checked RuleConfig :=
  RuleConfig.mk
    <$> Schema.withDefault fields "priority" c.priority Priority.coerce
    <*> Schema.withDefault fields "group" c.group (Schema.optional Schema.text)
    <*> Schema.withDefault fields "tags" c.tags (Schema.listOf Schema.text)
    <*> Schema.withDefault fields "timeout_s" c.timeout (Schema.optional Schema.float)
    <*> Schema.withDefault fields "retry_on_failure" c.retryOnFailure Schema.bool

def initial (priority : Priority) : RuleConfig := ⟨priority, none, [], none, true⟩

def toFields (c : RuleConfig) : Fields :=
  [("priority", .text c.priority.name), ("group", .ofText? c.group), ("tags", .texts c.tags),
    ("timeout_s", .ofOption (c.timeout.map Value.float)),
    ("retry_on_failure", .bool c.retryOnFailure)]

end RuleConfig

/-- Who made a rule and its version; the milliseconds of its creation and of its latest change. -/
structure RuleMetadata where
  createdAt : Int
  updatedAt : Int
  createdBy : String
  version : String
  deriving DecidableEq, Repr

namespace RuleMetadata

def ofFields (now : Int) (fields : Fields) : Checked RuleMetadata :=
  RuleMetadata.mk now now
    <$> Schema.withDefault fields "created_by" "system" Schema.text
    <*> Schema.withDefault fields "version" "1.0.0" Schema.text

def toFields (m : RuleMetadata) : Fields :=
  [("created_by", .text m.createdBy), ("version", .text m.version)]

end RuleMetadata

class MeanArithmetic (α : Type) extends Add α, Sub α, Div α where
  zero : α
  ofCount : Nat → α

instance : MeanArithmetic Float where
  zero := 0
  ofCount := Float.ofNat

/-- The mean of one more value, from the mean of the values before it; `count` includes the value. -/
def runningMean {α : Type} [MeanArithmetic α] (mean x : α) (count : Nat) : α :=
  mean + (x - mean) / MeanArithmetic.ofCount count

structure RuleStats (α : Type) where
  evaluations : Nat
  matched : Nat
  executed : Int
  failed : Int
  mean : α
  lastEvaluated : Option Int
  lastMatched : Option Int

namespace RuleStats
variable {α : Type} [MeanArithmetic α]

def initial : RuleStats α := ⟨0, 0, 0, 0, MeanArithmetic.zero, none, none⟩

def record (s : RuleStats α) (now : Int) (duration : α) (matched : Bool) (executed failed : Int) :
    RuleStats α :=
  { evaluations := s.evaluations + 1
    matched := s.matched + (if matched then 1 else 0)
    executed := s.executed + executed
    failed := s.failed + failed
    mean := runningMean s.mean duration (s.evaluations + 1)
    lastEvaluated := some now
    lastMatched := if matched then some now else s.lastMatched }

def toFields (s : RuleStats α) : Fields :=
  [("evaluations", .ofNat s.evaluations), ("matches", .ofNat s.matched),
    ("actions_executed", .int s.executed), ("actions_failed", .int s.failed),
    ("last_evaluated", .bool s.lastEvaluated.isSome), ("last_matched", .bool s.lastMatched.isSome)]

end RuleStats

structure Rule where
  id : String
  name : String
  description : String
  enabled : Bool
  config : RuleConfig
  conditions : Value
  actions : List Action
  bindings : Fields
  metadata : RuleMetadata
  stats : RuleStats Float
  /-- Grows with every update; part of what results of conditions are kept under. -/
  revision : Nat

namespace Rule

def group (r : Rule) : Option String := r.config.group

def priority (r : Rule) : Priority := r.config.priority

def tree (r : Rule) : Condition := .ofValue r.conditions

/-- The rule with the given fields replaced. Its actions get free identifiers from `next` on. -/
def revise (r : Rule) (next : Nat) (fields : Fields) : Checked Rule :=
  (fun id name description enabled config conditions actions bindings =>
    { r with id, name, description, enabled, config, conditions, actions, bindings })
    <$> Schema.withDefault fields "id" r.id Schema.text
    <*> Schema.withDefault fields "name" r.name Schema.text
    <*> Schema.withDefault fields "description" r.description Schema.text
    <*> Schema.withDefault fields "enabled" r.enabled Schema.bool
    <*> Schema.withDefault fields "config" r.config (Schema.model r.config.revise)
    <*> Schema.withDefault fields "conditions" r.conditions Schema.anything
    <*> Schema.withDefault fields "actions" r.actions (Action.coerceList next)
    <*> Schema.withDefault fields "variables" r.bindings Schema.object

def blank (id : String) (priority : Priority) (metadata : RuleMetadata) : Rule :=
  { id, metadata
    name := "Unnamed Rule"
    description := ""
    enabled := true
    config := .initial priority
    conditions := .null
    actions := []
    bindings := []
    stats := .initial
    revision := 0 }

def toFields (r : Rule) : Fields :=
  [("id", .text r.id), ("name", .text r.name), ("description", .text r.description),
    ("enabled", .bool r.enabled), ("config", .object r.config.toFields),
    ("conditions", r.conditions), ("actions", .list (r.actions.map Action.toValue)),
    ("variables", .object r.bindings), ("metadata", .object r.metadata.toFields),
    ("stats", .object r.stats.toFields), ("revision", .ofNat r.revision)]

end Rule
end DecisionRules
