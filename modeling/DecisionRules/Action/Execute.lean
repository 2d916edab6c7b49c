import DecisionRules.Action.Result
import DecisionRules.Action.Validate
import DecisionRules.Condition.Evaluate
import DecisionRules.Journal
import DecisionRules.Value.Numeric
import DecisionRules.Webhook.Transport

/-!
Execution of actions. Each action is resolved right before it runs, so that it sees what earlier ones
wrote. A failing action is reported and never stops those after it.
-/
namespace DecisionRules

structure Workspace where
  frame : Frame
  /-- The engine's own variables; the scope holds a copy of them. -/
  globals : Fields
  network : Network Float
  received : List WebhookRequest
  journal : Journal

namespace Workspace

def scope (w : Workspace) : Scope := w.frame.scope

def setScope (w : Workspace) (scope : Scope) : Workspace :=
  { w with frame := { w.frame with scope := scope } }

def publish (w : Workspace) (e : Event) : Workspace := { w with journal := w.journal.publish e }

def note (w : Workspace) (r : Log.Record) : Workspace := { w with journal := w.journal.note r }

/-- What a transport gets to see: the journal is not part of it. -/
def wire (w : Workspace) : Wire := ⟨w.frame.clock, w.network, w.received, []⟩

def setWire (w : Workspace) (wire : Wire) : Workspace :=
  { w with
    frame := { w.frame with clock := wire.clock }
    network := wire.network
    received := wire.received
    journal := { w.journal with records := w.journal.records ++ wire.records } }

end Workspace

structure Executor where
  host : Host
  operators : Operators
  readOnly : List String
  transport : Option Transport
  timeout : Float

structure Occasion where
  rule : Option String
  context : Log.Context

namespace Action

def logger : String := "rulecraft.rules.actions"

def recordLevel (name : String) : String :=
  match name with
  | "debug" => "DEBUG"
  | "warn" | "warning" => "WARNING"
  | "error" => "ERROR"
  | _ => "INFO"

def logEntry (now : Int) (context : Log.Context) (config : Fields) :
    Except Breach (Log.Record × Fields) := do
  let level ← levelName config
  let message ← (Assoc.getD config "message" (.text "")).display
  let extra : Fields := [("rule_action", .text "log"), ("data", setting config "data")]
  return (.of now (recordLevel level) logger message context extra,
    [("level", .text level), ("message", .text message)])

/-- The new value of an incremented variable; one that is absent or null counts from zero. -/
def increment (name : String) (previous : Option Value) (amount : Value) : Outcome Value :=
  let base : Value := match previous with
    | none | some .null => .int 0
    | some v => v
  if base.isNumber && amount.isNumber then Outcome.ofBreach (base.add amount)
  else reject (.notNumeric name)

def assigned (config : Fields) (name : String) (previous : Option Value) : Outcome (Option Value) := do
  match Assoc.getD config "operation" (.text "set") with
  | .text "set" => return some (setting config "value")
  | .text "increment" =>
    let amount := Assoc.getD config "amount" (Assoc.getD config "value" (.int 1))
    return some (← increment name previous amount)
  | _ => return none

def writeGlobal (globals : Fields) (scope : Scope) (name : String) (value : Option Value) :
    Fields × Scope :=
  match value with
  | some v => (Assoc.set globals name v, { scope with globals := Assoc.set scope.globals name v })
  | none => (Assoc.erase globals name, { scope with globals := Assoc.erase scope.globals name })

/-- Writes a variable of the caller, or drops it from the caller's and the rule's layers. -/
def writeLocal (scope : Scope) (name : String) (value : Option Value) : Scope :=
  match value with
  | some v => scope.write name v
  | none => { scope.setCaller (Assoc.erase scope.caller name) with
              rule := Assoc.erase scope.rule name }

def assign (readOnly : List String) (config globals : Fields) (scope : Scope) :
    Outcome (Fields × Fields × Scope) := do
  let some nameValue := Assoc.get? config "name" | throw (.breach .missingKey)
  let name ← Outcome.ofBreach nameValue.display
  let isGlobal := (Assoc.getD config "scope" (.text "local")).isOneOf ["global"]
  if readOnly.contains name then reject (.readOnly name)
  let previous := if isGlobal then Assoc.get? globals name else scope.binding? name
  let value ← assigned config name previous
  let result : Fields := [("name", .text name),
    ("operation", Assoc.getD config "operation" (.text "set")),
    ("scope", .text (if isGlobal then "global" else "local")),
    ("previous", .ofOption previous), ("value", .ofOption value)]
  if isGlobal then return (result, writeGlobal globals scope name value)
  else return (result, globals, writeLocal scope name value)

def webhookRequest (config : Fields) : Outcome WebhookRequest := do
  let method ← Outcome.ofBreach (Assoc.getD config "method" (.text "POST")).display
  let some url := Assoc.get? config "url" | throw (.breach .missingKey)
  let headers ← match (setting config "headers").orElse (.object []) with
    | .object fields => fields.mapM fun (key, v) => do
      return (key, Value.text (← Outcome.ofBreach v.display))
    | _ => throw (.breach .missingAttribute)
  let retries ← Outcome.ofBreach (Assoc.getD config "retries" (.int 0)).toInt
  WebhookRequest.ofValue (.object [("method", .text (Text.upper method)), ("url", url),
    ("headers", .object headers), ("body", Assoc.getD config "body" (setting config "payload")),
    ("timeout_s", setting config "request_timeout_s"), ("retries", .int retries),
    ("redact_url", .bool (setting config "redact_url").truthy)])

def keyStep : Value → String
  | .bool b => if b then "1" else "0"
  | v => v.literal.toOption.getD ""

def textKeyed (field : String) : List (Value × Value) → Schema.Checked Fields
  | [] => .ok []
  | (.text key, v) :: rest => (textKeyed field rest).map ((key, v) :: ·)
  | (key, _) :: rest =>
    Schema.Checked.both (.faulty [⟨[field, keyStep key, "[key]"], .stringType⟩]) (textKeyed field rest)

def notification (rule : Option String) (id : String) (config : Fields) :
    Outcome (Event × Fields) := do
  let shown (key default : String) : Outcome String :=
    Outcome.ofBreach (Assoc.getD config key (.text default)).display
  let channel ← shown "channel" "default"
  let recipient := setting config "recipient"
  let title ← shown "title" ""
  let message ← shown "message" ""
  let entries ← Outcome.ofBreach
    (((setting config "payload").orElse (setting config "data")).orElse (.object [])).entries
  let event ← Schema.conclude EventKind.notificationRequested.name Failure.validation
    ((fun recipient payload =>
        Event.notificationRequested rule id channel recipient title message payload)
      <$> (Schema.optional Schema.text recipient).under "recipient" <*> textKeyed "payload" entries)
  return (event, [("event", .text "notification"), ("channel", .text channel),
    ("recipient", recipient)])

/-- The request of a workflow action, and its result. Without a context of its own it hands over the
facts and the variables. -/
def workflow (rule : Option String) (id : String) (config : Fields) (scope : Scope) :
    Outcome (Event × Fields) := do
  let name ← Outcome.ofBreach (workflowOf config).display
  let context : Value := match setting config "context" with
    | .null => .object [("data", .object scope.data), ("variables", .object scope.snapshot)]
    | v => v
  let entries ← Outcome.ofBreach context.entries
  let event ← Schema.conclude EventKind.workflowRequested.name Failure.validation
    (Event.workflowRequested rule id name <$> textKeyed "context" entries)
  return (event, [("event", .text "workflow"), ("workflow_id", .text name)])

def resolvedConfig (a : Action) (scope : Scope) : Except Breach Fields :=
  resolveFields scope.lookup a.config

end Action

namespace Executor

def onFrame {α : Type} (m : Run Frame α) : Run Workspace α := do
  let w ← get
  let (r, frame) := m.run w.frame
  set { w with frame := frame }
  Evaluator.outcome r

def deliver (e : Executor) (config : Fields) (token : Token Float) : Run Workspace Fields := do
  let some transport := e.transport | throw (.action .noTransport)
  let request ← Evaluator.outcome (Action.webhookRequest config)
  let w ← get
  Evaluator.outcome (token.check w.frame.clock)
  let (delivery, wire) := transport.send request token w.wire
  set (w.setWire wire)
  match delivery with
  | .answered fields => return fields
  | .failed f => throw f
  | .stalled => throw (.overran token.reason)

/-- The function of a custom action: one that is registered under a name, or a callable. -/
def callableOf (e : Executor) (config : Fields) : Outcome (Option String) :=
  match Action.setting config "function" with
  | .text name =>
    match e.operators.function? name with
    | some fn => .ok (some fn)
    | none => .error (.condition (.unknownFunction name))
  | .callable fn => .ok (some fn)
  | _ => .ok none

def callCustom (e : Executor) (config : Fields) (token : Token Float) : Run Workspace Fields := do
  let callable ← Evaluator.outcome (e.callableOf config)
  let parameters ← Evaluator.basic (Action.setting config "parameters").fieldsOrNone
  match callable with
  | some fn =>
    let arguments := [Argument.value (.object parameters), .scope]
    let result ← onFrame (Evaluator.callHost e.host fn arguments token)
    return [("result", result)]
  | none => do
    Evaluator.outcome (token.check (← get).frame.clock)
    throw (.breach .wrongType)

def announce (r : Outcome (Event × Fields)) : Run Workspace Fields := do
  let (event, result) ← Evaluator.outcome r
  modify fun w => w.publish event
  return result

def perform (e : Executor) (o : Occasion) (a : Action) (config : Fields) (token : Token Float) :
    Run Workspace Fields := do
  let w ← get
  match a.type with
  | .log => do
    let (record, result) ← Evaluator.basic (Action.logEntry e.host.now o.context config)
    set (w.note record)
    return result
  | .assign => do
    let (result, globals, scope) ←
      Evaluator.outcome (Action.assign e.readOnly config w.globals w.scope)
    set { w.setScope scope with globals := globals }
    return result
  | .webhook => e.deliver config token
  | .notification => announce (Action.notification o.rule a.id config)
  | .workflow => announce (Action.workflow o.rule a.id config w.scope)
  | .custom => e.callCustom config token

def attempt (e : Executor) (o : Occasion) (a : Action) (token : Token Float) :
    Run Workspace Fields := do
  let w ← get
  let limit ← Evaluator.basic (Assoc.getD a.config "timeout_s" (.float e.timeout)).toFloat
  let token := token.child w.frame.clock (some limit) (a.type.name ++ " action")
  Evaluator.outcome (token.check w.frame.clock)
  let config ← Evaluator.basic (a.resolvedConfig w.scope)
  e.perform o a config token

def failureRecord (e : Executor) (o : Occasion) (a : Action) (f : Failure) : Log.Record :=
  .of e.host.now "WARNING" Action.logger "action_failed" o.context
    [("action_type", .text a.type.name), ("error_type", .text f.kind), ("error", .ofText? f.text?)]

def execute (e : Executor) (o : Occasion) (token : Token Float) (a : Action) (w : Workspace) :
    ActionResult × Workspace :=
  if !a.enabled then (⟨a.id, a.type, .skipped⟩, w)
  else
    let o := { o with context := o.context.within { Log.Context.none with actionId := some a.id } }
    let (r, w) := (e.attempt o a token).run w
    match r with
    | .ok result =>
      (⟨a.id, a.type, .success result⟩, w.publish (.actionExecuted o.rule a.id a.type.name 0))
    | .error f =>
      (⟨a.id, a.type, .failed f⟩,
        (w.note (e.failureRecord o a f)).publish
          (.actionFailed o.rule a.id a.type.name f.text? f.kind))

def run (e : Executor) (o : Occasion) (token : Token Float) :
    List Action → Workspace → List ActionResult × Workspace
  | [], w => ([], w)
  | a :: rest, w =>
    let (result, w) := e.execute o token a w
    let (results, w) := e.run o token rest w
    (result :: results, w)

end Executor
end DecisionRules
