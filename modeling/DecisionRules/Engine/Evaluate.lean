import DecisionRules.Engine

/-!
Evaluation of rules. The selected rules are visited in order, until enough of them have matched. A visit
judges the conditions of a rule, by the cache if that may answer, and runs the actions of a rule that
matches; a rule whose conditions fail is reported and left. All that happens is counted, published and
logged.
-/
namespace DecisionRules

namespace Context

def ofValue (v : Value) : Except Breach Context := do
  let fields ← v.fieldsOrNone
  let part (key : String) : Except Breach Fields := (Assoc.getD fields key .null).fieldsOrNone
  return ⟨← part "data", ← part "variables", ← part "metadata"⟩

def correlation? (c : Context) : Except Breach (Option String) :=
  let v := Assoc.getD c.metadata "correlation_id" .null
  if v.truthy then v.display.map some else .ok none

def correlation (c : Context) : Option String := c.correlation?.toOption.join

end Context

def EvaluationOptions.ofValue (v : Value) : Outcome EvaluationOptions :=
  match v with
  | .null => .ok .unlimited
  | v => do
    let fields ← v.toFields
    Schema.conclude "EvaluationOptions" (fun report => .registry (.invalidOptions report))
      (EvaluationOptions.ofFields fields)

def MatchLimiter.after (l : MatchLimiter) (rule : Rule) (finding : Finding) : MatchLimiter :=
  if finding.match?.isSome then l.recordMatch rule else l

structure Evaluation where
  id : String
  token : Token Float
  log : Log.Context

def Evaluation.logOf (v : Evaluation) (rule : Rule) : Log.Context :=
  v.log.within { Log.Context.none with ruleId := some rule.id }

namespace Engine

def evaluator (e : Engine) : Evaluator :=
  { host := e.host
    operators := e.operators
    maxDepth := e.settings.maxConditionDepth
    functionTimeout := e.settings.functions.timeout
    unsafeAllowed := e.settings.functions.unsafeExpressions }

def executor (e : Engine) : Executor :=
  { host := e.host
    operators := e.operators
    readOnly := e.settings.bindings.readOnly
    transport := some e.transport
    timeout := e.settings.actions.timeout }

def frame (e : Engine) (scope : Scope) : Frame := ⟨scope, e.clock, e.ticks⟩

def workspace (e : Engine) (scope : Scope) : Workspace :=
  ⟨e.frame scope, e.globals, e.network, e.received, e.journal⟩

def ofWorkspace (e : Engine) (w : Workspace) : Engine :=
  { e with
    clock := w.frame.clock
    ticks := w.frame.ticks
    globals := w.globals
    network := w.network
    received := w.received
    journal := w.journal }

def conditionTimeout (e : Engine) (rule : Rule) : Float :=
  match rule.config.timeout with
  | some t => if t == 0 then e.settings.evaluation.timeout else t
  | none => e.settings.evaluation.timeout

def judgeAfresh (e : Engine) (rule : Rule) (token : Token Float) (scope : Scope) :
    Outcome Verdict × Scope × Engine :=
  let (r, frame) := (e.evaluator.evaluate rule.tree token).run (e.frame scope)
  (r, frame.scope, { e with clock := frame.clock, ticks := frame.ticks })

def remember (e : Engine) (log : Log.Context) (id key : String) (verdict : Verdict) :
    Except Breach Engine := do
  let cache ← e.cache.put id key verdict e.clock none
  let kept := { e with cache := cache }
  return if e.cache.overflows id key then
      kept.note "DEBUG" cacheLogger "evaluation_cache_cleared" log [("reason", .text "overflow")]
    else kept

def judge (e : Engine) (log : Log.Context) (rule : Rule) (token : Token Float) (scope : Scope) :
    Outcome (Verdict × Bool) × Scope × Engine :=
  if !e.settings.evaluation.cacheResults then
    let (r, after) := e.judgeAfresh rule token scope
    (r.map fun verdict => (verdict, false), after)
  else
    match fingerprint rule.id rule.revision scope.data scope.snapshot with
    | .error b => (.error (.breach b), scope, e)
    | .ok key =>
      match e.cache.get rule.id key e.clock with
      | (some verdict, cache) => (.ok (verdict, true), scope, { e with cache := cache })
      | (none, cache) =>
        match { e with cache := cache }.judgeAfresh rule token scope with
        | (.error f, after) => (.error f, after)
        | (.ok verdict, scope, e) =>
          match e.remember log rule.id key verdict with
          | .error b => (.error (.breach b), scope, e)
          | .ok e => (.ok (verdict, false), scope, e)

def record (e : Engine) (id : String) (duration : Float) (matched : Bool) (executed failed : Int) :
    Engine :=
  { e with registry := e.registry.record id e.host.now duration matched executed failed }

def reportFailure (e : Engine) (v : Evaluation) (log : Log.Context) (rule : Rule) (f : Failure) :
    Engine :=
  (e.note "WARNING" logger "rule_evaluation_failed" log
    [("error_type", .text f.kind), ("error", .ofText? f.text?)]).publish
    (.engineError (some v.id) (some rule.id) f.text? f.kind)

def reportMatch (e : Engine) (v : Evaluation) (log : Log.Context) (m : RuleMatch) : Engine :=
  let e := e.record m.rule (e.host.elapsed v.id m.rule) true m.executed m.failed
  (e.note "INFO" logger "rule_matched" log
    [("priority", .text m.priority.name), ("executed", .ofNat m.executed),
      ("failed", .ofNat m.failed)]).publish
    (.ruleMatched v.id m.rule m.name m.priority.name m.cacheHit)

def limit (e : Engine) (v : Evaluation) (rule : Rule) : Token Float :=
  v.token.child e.clock (some (e.conditionTimeout rule)) ("rule " ++ rule.id)

def settle (e : Engine) (v : Evaluation) (rule : Rule) (scope : Scope) :
    Outcome (Verdict × Bool) → Finding × Context × Engine
  | .error f =>
    (.failed ⟨rule.id, rule.name, f⟩, scope.context, e.reportFailure v (v.logOf rule) rule f)
  | .ok ((false, _), _) =>
    (.unmatched, scope.context, e.record rule.id (e.host.elapsed v.id rule.id) false 0 0)
  | .ok ((true, trace), hit) =>
    let (results, w) :=
      e.executor.run ⟨some rule.id, v.logOf rule⟩ v.token rule.actions (e.workspace scope)
    let m : RuleMatch := ⟨rule.id, rule.name, rule.priority, trace, results, hit⟩
    (.matched m, w.scope.context, (e.ofWorkspace w).reportMatch v (v.logOf rule) m)

def visit (e : Engine) (v : Evaluation) (rule : Rule) (context : Context) :
    Finding × Context × Engine :=
  let (r, scope, e) :=
    e.judge (v.logOf rule) rule (e.limit v rule) ⟨context, rule.bindings, e.globals⟩
  e.settle v rule scope r

/-- Visits rules until enough of them have matched, leaving out those whose group is done. -/
def walk (v : Evaluation) (l : MatchLimiter) :
    List Rule → Context → Engine → List Finding × Context × Engine
  | [], context, e => ([], context, e)
  | rule :: rest, context, e =>
    if l.exhausted then ([], context, e)
    else if l.skips rule then walk v l rest context e
    else
      let (finding, context, e) := e.visit v rule context
      let (findings, context, e) := walk v (l.after rule finding) rest context e
      (finding :: findings, context, e)

def candidates (e : Engine) (options : EvaluationOptions) : List Rule :=
  selectRules e.registry.list options

def conclude (e : Engine) (log : Log.Context) (r : Report) : Engine :=
  ({ e with counters := e.counters.add r }.note "INFO" logger "rules_evaluation_completed" log
    [("evaluated_count", .ofNat r.evaluated), ("matched_count", .ofNat r.matched),
      ("failed_actions", .ofNat r.failed), ("error_count", .ofNat r.errors.length)]).publish
    (.evaluationCompleted r.evaluation r.tally 0)

def opened (e : Engine) (context : Context) : Evaluation × Engine :=
  let id := Identifier.fresh e.next
  let log := { Log.Context.none with
    correlationId := context.correlation, evaluationId := some id }
  (⟨id, .root e.clock none "evaluation", log⟩,
    { e with next := e.next + 1 }.note "INFO" logger "rules_evaluation_started" log [])

/-- Evaluates the rules on the facts and variables of a caller, who keeps the variables that were
written. An engine that is not enabled finds nothing. -/
def evaluate (e : Engine) (context : Context) (options : EvaluationOptions) :
    Report × Context × Engine :=
  if !e.enabled then
    (⟨Identifier.fresh e.next, [], context.bindings⟩, context, { e with next := e.next + 1 })
  else
    let (v, e) := e.opened context
    let limiter := MatchLimiter.start options e.registry.firstMatchGroups
    let (findings, context, e) := walk v limiter (e.candidates options) context e
    let report : Report := ⟨v.id, findings, context.bindings⟩
    (report, context, e.conclude v.log report)

/-- An evaluation as it is asked for. It is refused, before anything is done, if its options cannot be read
or if the identifier that it is to be logged under has no text. -/
def respond (e : Engine) (context : Context) (options : Value) : Outcome Report × Context × Engine :=
  let asked : Outcome EvaluationOptions := do
    let options ← EvaluationOptions.ofValue options
    if e.enabled then
      let _ ← context.correlation?
    return options
  match asked with
  | .error f => (.error f, context, e)
  | .ok options =>
    let (report, context, e) := e.evaluate context options
    (.ok report, context, e)

end Engine
end DecisionRules
