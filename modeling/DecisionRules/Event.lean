import DecisionRules.Schema.Coerce

/-!
Events that an engine publishes: changes of rules, requests that actions make, and the course of an
evaluation. A subscription is for one kind of event or for the common kind, which covers all.
-/
namespace DecisionRules
open Schema (Checked)

inductive EventKind where
  | common
  | ruleCreated
  | ruleUpdated
  | ruleDeleted
  | notificationRequested
  | workflowRequested
  | ruleMatched
  | actionExecuted
  | actionFailed
  | evaluationCompleted
  | engineError
  deriving DecidableEq, Repr

namespace EventKind

def name : EventKind → String
  | common => "RuleEvent"
  | ruleCreated => "RuleCreated"
  | ruleUpdated => "RuleUpdated"
  | ruleDeleted => "RuleDeleted"
  | notificationRequested => "NotificationRequested"
  | workflowRequested => "WorkflowRequested"
  | ruleMatched => "RuleMatched"
  | actionExecuted => "ActionExecuted"
  | actionFailed => "ActionFailed"
  | evaluationCompleted => "EvaluationCompleted"
  | engineError => "EngineError"

def all : List EventKind := [common, ruleCreated, ruleUpdated, ruleDeleted, notificationRequested,
  workflowRequested, ruleMatched, actionExecuted, actionFailed, evaluationCompleted, engineError]

def ofName? (name : String) : Option EventKind := all.find? fun k => k.name == name

def covers (k other : EventKind) : Bool := k == common || k == other

end EventKind

structure Tally where
  evaluated : Int
  matched : Int
  executed : Int
  failed : Int
  errors : Int
  deriving DecidableEq, Repr

/-- Durations are in milliseconds. An error is a kind and a text, which some kinds do not have. -/
inductive Event where
  | common
  | ruleCreated (rule name : String)
  | ruleUpdated (rule : String) (fields : List String)
  | ruleDeleted (rule : String)
  | notificationRequested (rule : Option String) (action channel : String)
    (recipient : Option String) (title message : String) (payload : Fields)
  | workflowRequested (rule : Option String) (action workflow : String) (context : Fields)
  | ruleMatched (evaluation rule name priority : String) (cacheHit : Bool)
  | actionExecuted (rule : Option String) (action type : String) (duration : Float)
  | actionFailed (rule : Option String) (action type : String) (error : Option String) (kind : String)
  | evaluationCompleted (evaluation : String) (tally : Tally) (duration : Float)
  | engineError (evaluation rule : Option String) (error : Option String) (kind : String)

namespace Event

def kind : Event → EventKind
  | common => .common
  | ruleCreated .. => .ruleCreated
  | ruleUpdated .. => .ruleUpdated
  | ruleDeleted .. => .ruleDeleted
  | notificationRequested .. => .notificationRequested
  | workflowRequested .. => .workflowRequested
  | ruleMatched .. => .ruleMatched
  | actionExecuted .. => .actionExecuted
  | actionFailed .. => .actionFailed
  | evaluationCompleted .. => .evaluationCompleted
  | engineError .. => .engineError

def fields : Event → Fields
  | common => []
  | ruleCreated rule name => [("rule_id", .text rule), ("rule_name", .text name)]
  | ruleUpdated rule fields => [("rule_id", .text rule), ("fields", .texts fields)]
  | ruleDeleted rule => [("rule_id", .text rule)]
  | notificationRequested rule action channel recipient title message payload =>
    [("rule_id", .ofText? rule), ("action_id", .text action), ("channel", .text channel),
      ("recipient", .ofText? recipient), ("title", .text title), ("message", .text message),
      ("payload", .object payload)]
  | workflowRequested rule action workflow context =>
    [("rule_id", .ofText? rule), ("action_id", .text action), ("workflow_id", .text workflow),
      ("context", .object context)]
  | ruleMatched _ rule name priority cacheHit =>
    [("rule_id", .text rule), ("rule_name", .text name), ("priority", .text priority),
      ("cache_hit", .bool cacheHit)]
  | actionExecuted rule action type _ =>
    [("rule_id", .ofText? rule), ("action_id", .text action), ("action_type", .text type)]
  | actionFailed rule action type error kind =>
    [("rule_id", .ofText? rule), ("action_id", .text action), ("action_type", .text type),
      ("error", .ofText? error), ("error_type", .text kind)]
  | evaluationCompleted _ t _ =>
    [("evaluated_count", .int t.evaluated), ("matched_count", .int t.matched),
      ("executed_actions", .int t.executed), ("failed_actions", .int t.failed),
      ("error_count", .int t.errors)]
  | engineError _ rule error kind =>
    [("rule_id", .ofText? rule), ("error", .ofText? error), ("error_type", .text kind)]

def toValue (e : Event) : Value := .object (("event", .text e.kind.name) :: e.fields)

section Fields

def textField (fs : Fields) (key : String) : Checked String := Schema.required fs key Schema.text

def textOr (fs : Fields) (key default : String) : Checked String :=
  Schema.withDefault fs key default Schema.text

def textOrNull (fs : Fields) (key : String) : Checked (Option String) :=
  Schema.withDefault fs key none (Schema.optional Schema.text)

def intField (fs : Fields) (key : String) : Checked Int := Schema.required fs key Schema.int

def objectOr (fs : Fields) (key : String) : Checked Fields :=
  Schema.withDefault fs key [] Schema.object

def tally (fs : Fields) : Checked Tally :=
  Tally.mk <$> intField fs "evaluated_count" <*> intField fs "matched_count"
    <*> intField fs "executed_actions" <*> intField fs "failed_actions" <*> intField fs "error_count"

def ofTimelessFields (kind : EventKind) (fs : Fields) : Checked Event :=
  match kind with
  | .common => .ok common
  | .ruleCreated => ruleCreated <$> textField fs "rule_id" <*> textField fs "rule_name"
  | .ruleUpdated =>
    ruleUpdated <$> textField fs "rule_id"
      <*> Schema.withDefault fs "fields" [] (Schema.listOf Schema.text)
  | .ruleDeleted => ruleDeleted <$> textField fs "rule_id"
  | .notificationRequested =>
    notificationRequested <$> textOrNull fs "rule_id" <*> textField fs "action_id"
      <*> textOr fs "channel" "default" <*> textOrNull fs "recipient" <*> textOr fs "title" ""
      <*> textOr fs "message" "" <*> objectOr fs "payload"
  | .workflowRequested =>
    workflowRequested <$> textOrNull fs "rule_id" <*> textField fs "action_id"
      <*> textField fs "workflow_id" <*> objectOr fs "context"
  | .ruleMatched =>
    ruleMatched <$> textField fs "evaluation_id" <*> textField fs "rule_id"
      <*> textField fs "rule_name" <*> textField fs "priority"
      <*> Schema.withDefault fs "cache_hit" false Schema.bool
  | .actionExecuted =>
    actionExecuted <$> textOrNull fs "rule_id" <*> textField fs "action_id"
      <*> textField fs "action_type" <*> Schema.withDefault fs "duration_ms" 0 Schema.float
  | .actionFailed =>
    actionFailed <$> textOrNull fs "rule_id" <*> textField fs "action_id"
      <*> textField fs "action_type" <*> (some <$> textField fs "error") <*> textField fs "error_type"
  | .evaluationCompleted =>
    evaluationCompleted <$> textField fs "evaluation_id" <*> tally fs
      <*> Schema.required fs "duration_ms" Schema.float
  | .engineError =>
    engineError <$> textOrNull fs "evaluation_id" <*> textOrNull fs "rule_id"
      <*> (some <$> textField fs "error") <*> textField fs "error_type"

def ofFields (kind : EventKind) (fs : Fields) : Checked Event :=
  (fun _ e => e) <$> textOr fs "ts_iso" "" <*> ofTimelessFields kind fs

end Fields
end Event
end DecisionRules
