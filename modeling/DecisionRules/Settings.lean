import DecisionRules.Environment
import DecisionRules.Failure
import DecisionRules.Group
import DecisionRules.Priority
import DecisionRules.Value.Entries
import DecisionRules.Value.Numeric

/-!
Settings of an engine, in sections, with defaults for all of them; read from an object, with values of
the environment over those of the object.
-/
namespace DecisionRules
open Schema (Checked)

structure EvaluationSettings where
  timeout : Float
  cacheResults : Bool
  cacheMaxEntries : Int
  cacheTtl : Int
  cacheSweepInterval : Int

structure FunctionSettings where
  builtin : Bool
  unsafeExpressions : Bool
  timeout : Float

structure VariableSettings where
  globals : Fields
  readOnly : List String

structure ActionSettings where
  maxPerRule : Int
  timeout : Float

structure GroupSettings where
  maxPerGroup : Int
  mode : ExecutionMode
  deriving DecidableEq, Repr

structure Settings where
  enabled : Bool
  maxRules : Int
  maxConditionDepth : Int
  workerThreads : Int
  evaluation : EvaluationSettings
  functions : FunctionSettings
  bindings : VariableSettings
  actions : ActionSettings
  defaultPriority : Priority
  groups : GroupSettings

namespace EvaluationSettings

def default : EvaluationSettings := ⟨5, true, 1000, 300, 300⟩

def ofFields (fields : Fields) : Checked EvaluationSettings :=
  EvaluationSettings.mk
    <$> Schema.withDefault fields "timeout_s" default.timeout Schema.float
    <*> Schema.withDefault fields "cache_results" default.cacheResults Schema.bool
    <*> Schema.withDefault fields "cache_max_entries" default.cacheMaxEntries Schema.int
    <*> Schema.withDefault fields "cache_ttl_s" default.cacheTtl Schema.int
    <*> Schema.withDefault fields "cache_sweep_interval_s" default.cacheSweepInterval Schema.int

def toValue (s : EvaluationSettings) : Value :=
  .object [("timeout_s", .float s.timeout), ("cache_results", .bool s.cacheResults),
    ("cache_max_entries", .int s.cacheMaxEntries), ("cache_ttl_s", .int s.cacheTtl),
    ("cache_sweep_interval_s", .int s.cacheSweepInterval)]

end EvaluationSettings

namespace FunctionSettings

def default : FunctionSettings := ⟨true, false, 1⟩

def ofFields (fields : Fields) : Checked FunctionSettings :=
  FunctionSettings.mk
    <$> Schema.withDefault fields "builtin" default.builtin Schema.bool
    <*> Schema.withDefault fields "allow_unsafe_expressions" default.unsafeExpressions Schema.bool
    <*> Schema.withDefault fields "timeout_s" default.timeout Schema.float

def toValue (s : FunctionSettings) : Value :=
  .object [("builtin", .bool s.builtin), ("allow_unsafe_expressions", .bool s.unsafeExpressions),
    ("timeout_s", .float s.timeout)]

end FunctionSettings

namespace VariableSettings

def default : VariableSettings := ⟨[], []⟩

def ofFields (fields : Fields) : Checked VariableSettings :=
  VariableSettings.mk
    <$> Schema.withDefault fields "global_variables" default.globals Schema.object
    <*> Schema.withDefault fields "readonly" default.readOnly (Schema.listOf Schema.text)

def toValue (s : VariableSettings) : Value :=
  .object [("global_variables", .object s.globals), ("readonly", .texts s.readOnly)]

end VariableSettings

namespace ActionSettings

def default : ActionSettings := ⟨10, 30⟩

def ofFields (fields : Fields) : Checked ActionSettings :=
  ActionSettings.mk
    <$> Schema.withDefault fields "max_per_rule" default.maxPerRule Schema.int
    <*> Schema.withDefault fields "timeout_s" default.timeout Schema.float

def toValue (s : ActionSettings) : Value :=
  .object [("max_per_rule", .int s.maxPerRule), ("timeout_s", .float s.timeout)]

end ActionSettings

namespace GroupSettings

def default : GroupSettings := ⟨100, .sequential⟩

def ofFields (fields : Fields) : Checked GroupSettings :=
  GroupSettings.mk
    <$> Schema.withDefault fields "max_per_group" default.maxPerGroup Schema.int
    <*> Schema.withDefault fields "execution_mode" default.mode ExecutionMode.coerce

def toValue (s : GroupSettings) : Value :=
  .object [("max_per_group", .int s.maxPerGroup), ("execution_mode", .text s.mode.name)]

end GroupSettings

namespace Settings

def default : Settings :=
  { enabled := true
    maxRules := 1000
    maxConditionDepth := 10
    workerThreads := 8
    evaluation := .default
    functions := .default
    bindings := .default
    actions := .default
    defaultPriority := .normal
    groups := .default }

def positive : Schema.Coercion Int := fun v => (Schema.int v).require (0 < ·) .valueError

def priorityOf (fields : Fields) : Checked Priority :=
  Schema.withDefault fields "default_level" default.defaultPriority Priority.coerce

def ofFields (fields : Fields) : Checked Settings :=
  Settings.mk
    <$> Schema.withDefault fields "enabled" default.enabled Schema.bool
    <*> Schema.withDefault fields "max_rules" default.maxRules positive
    <*> Schema.withDefault fields "max_condition_depth" default.maxConditionDepth positive
    <*> Schema.withDefault fields "worker_threads" default.workerThreads positive
    <*> Schema.withDefault fields "evaluation" .default (Schema.model EvaluationSettings.ofFields)
    <*> Schema.withDefault fields "functions" .default (Schema.model FunctionSettings.ofFields)
    <*> Schema.withDefault fields "variables" .default (Schema.model VariableSettings.ofFields)
    <*> Schema.withDefault fields "actions" .default (Schema.model ActionSettings.ofFields)
    <*> Schema.withDefault fields "priorities" default.defaultPriority (Schema.model priorityOf)
    <*> Schema.withDefault fields "groups" .default (Schema.model GroupSettings.ofFields)

def modelName : String := "RuleEngineSettings"

def ofValue (v : Value) : Outcome Settings :=
  Schema.conclude modelName Failure.validation (Schema.model ofFields v)

def toValue (s : Settings) : Value :=
  .object [("enabled", .bool s.enabled), ("max_rules", .int s.maxRules),
    ("max_condition_depth", .int s.maxConditionDepth), ("worker_threads", .int s.workerThreads),
    ("evaluation", s.evaluation.toValue), ("functions", s.functions.toValue),
    ("variables", s.bindings.toValue), ("actions", s.actions.toValue),
    ("priorities", .object [("default_level", .text s.defaultPriority.name)]),
    ("groups", s.groups.toValue)]

def section? (fields : Fields) (key : String) : Except Breach Fields :=
  (Assoc.getD fields key .null).fieldsOrNone

def override (env : Environment) (fields : Fields) : Except Breach Fields := do
  let evaluation ← section? fields "evaluation"
  let functions ← section? fields "functions"
  let actions ← section? fields "actions"
  let maxRules ← Value.toInt (Assoc.getD fields "max_rules" (.int 1000))
  let maxDepth ← Value.toInt (Assoc.getD fields "max_condition_depth" (.int 10))
  let cacheResults := (Assoc.getD evaluation "cache_results" (.bool true)).truthy
  let unsafeExpressions := (Assoc.getD functions "allow_unsafe_expressions" (.bool false)).truthy
  let functionTimeout ← Value.toFloat (Assoc.getD functions "timeout_s" (.float 1))
  let actionTimeout ← Value.toFloat (Assoc.getD actions "timeout_s" (.float 30))
  let functions := Assoc.set functions "allow_unsafe_expressions"
    (.bool (env.flag "RULECRAFT_ALLOW_UNSAFE_EXPRESSIONS" unsafeExpressions))
  return Assoc.merge fields [
    ("max_rules", .int (env.int "RULECRAFT_MAX_RULES" maxRules)),
    ("max_condition_depth", .int (env.int "RULECRAFT_MAX_CONDITION_DEPTH" maxDepth)),
    ("evaluation", .object (Assoc.set evaluation "cache_results"
      (.bool (env.flag "RULECRAFT_CACHE_RESULTS" cacheResults)))),
    ("functions", .object (Assoc.set functions "timeout_s"
      (.float (env.float "RULECRAFT_FUNCTION_TIMEOUT_S" functionTimeout)))),
    ("actions", .object (Assoc.set actions "timeout_s"
      (.float (env.float "RULECRAFT_ACTION_TIMEOUT_S" actionTimeout))))]

def load (env : Environment) (contents : Option Value) : Outcome Settings := do
  let v := (contents.getD .null).orElse (.object [])
  match v with
  | .object fields =>
    let merged ← override env fields
    Schema.conclude modelName (fun report => .settings (.invalid report)) (ofFields merged)
  | _ => throw (.settings .mappingExpected)

end Settings
end DecisionRules
