import DecisionRules.Proofs.Action.Told
import DecisionRules.Proofs.Engine.Accounting

/-! The news of an evaluation, told by its report. Each visit publishes what its finding says, and after all
visits comes the completion with the counts of the report; nothing else is published, and nothing at all by
an engine that is disabled. -/
namespace DecisionRules

/-- What is published of a rule with this finding. -/
inductive Finding.Tells (evaluation : String) (rule : Rule) : Finding → List Event → Prop where
  | unmatched : Tells evaluation rule .unmatched []
  | failed (f : Failure) : Tells evaluation rule (.failed ⟨rule.id, rule.name, f⟩)
      [.engineError (some evaluation) (some rule.id) f.text? f.kind]
  | matched {trace : Option Trace} {results : List ActionResult} {hit : Bool} {events : List Event}
      (actions : Action.TellsAll (some rule.id) rule.actions results events) :
      Tells evaluation rule (.matched ⟨rule.id, rule.name, rule.priority, trace, results, hit⟩)
        (events ++ [.ruleMatched evaluation rule.id rule.name rule.priority.name hit])

def Finding.kinds : Finding → List EventKind
  | unmatched => []
  | failed _ => [.engineError]
  | matched m => m.results.flatMap ActionResult.kinds ++ [.ruleMatched]

def Report.kinds (r : Report) : List EventKind :=
  r.findings.flatMap Finding.kinds ++ [.evaluationCompleted]

theorem Finding.Tells.kinds {evaluation : String} {rule : Rule} {finding : Finding} {events : List Event}
    (tells : finding.Tells evaluation rule events) : events.map Event.kind = finding.kinds := by
  cases tells with
  | unmatched => rfl
  | failed f => rfl
  | matched actions =>
    rw [List.map_append, actions.kinds]
    rfl

namespace Engine

/-- What is published in visits, part by part. -/
abbrev Tell (evaluation : String) (xs : List Visit) (parts : List (List Event)) : Prop :=
  List.Forall₂ (fun x part => x.finding.Tells evaluation x.rule part) xs parts

theorem Tell.kinds {evaluation : String} {xs : List Visit} {parts : List (List Event)}
    (tell : Tell evaluation xs parts) :
    parts.flatten.map Event.kind = (xs.map Visit.finding).flatMap Finding.kinds := by
  induction tell with
  | nil => rfl
  | cons first others ih =>
    rw [List.flatten_cons, List.map_append, first.kinds, ih]
    rfl

theorem settleTells (e : Engine) (v : Evaluation) (rule : Rule) (scope : Scope)
    (r : Outcome (Verdict × Bool)) :
    ∃ news, (e.settle v rule scope r).2.2.journal.events = e.journal.events ++ news ∧
      (e.settle v rule scope r).1.Tells v.id rule news := by
  rcases r with f | ⟨⟨_ | _, trace⟩, hit⟩
  · exact ⟨_, rfl, .failed f⟩
  · exact ⟨[], (List.append_nil _).symm, .unmatched⟩
  · obtain ⟨news, events, tells⟩ := e.executor.runTells ⟨some rule.id, v.logOf rule⟩ v.token rule.actions
      (e.workspace scope)
    refine ⟨_, ?_, .matched tells⟩
    rw [← List.append_assoc, ← show _ = e.journal.events ++ news from events]
    rfl

theorem visitTells (e : Engine) (v : Evaluation) (rule : Rule) (context : Context) :
    ∃ news, (e.visit v rule context).2.2.journal.events = e.journal.events ++ news ∧
      (e.visit v rule context).1.Tells v.id rule news := by
  obtain ⟨r, scope, cache, clock, ticks, records, visited⟩ := e.visitSettlesJudged v rule context
  rw [visited]
  exact settleTells { e with cache, clock, ticks, journal := ⟨e.journal.events, records⟩ } v rule scope r

theorem walkTells (v : Evaluation) (l : MatchLimiter) (rules : List Rule) (context : Context)
    (e : Engine) :
    ∃ parts, (walk v l rules context e).2.2.journal.events = e.journal.events ++ parts.flatten ∧
      Tell v.id (walkVisits v l rules context e) parts := by
  induction rules generalizing l context e with
  | nil => exact ⟨[], (List.append_nil _).symm, .nil⟩
  | cons rule rest ih =>
    cases done : l.exhausted with
    | true =>
      rw [(walkDone done).1, (walkDone done).2]
      exact ⟨[], (List.append_nil _).symm, .nil⟩
    | false =>
      cases skipped : l.skips rule with
      | true =>
        rw [(walkSkipped done skipped).1, (walkSkipped done skipped).2]
        exact ih l context e
      | false =>
        obtain ⟨news, events, tells⟩ := visitTells e v rule context
        have found : Visit.finding ⟨e, v, rule, context⟩ = (e.visit v rule context).1 := rfl
        obtain ⟨finding, after, e', visited⟩ : ∃ finding after e',
            e.visit v rule context = (finding, after, e') := ⟨_, _, _, rfl⟩
        rw [visited] at events tells found
        obtain ⟨parts, later, others⟩ := ih (l.after rule finding) after e'
        rw [(walkVisited done skipped visited).1, (walkVisited done skipped visited).2]
        refine ⟨news :: parts, ?_, .cons (found ▸ tells) others⟩
        rw [List.flatten_cons, ← List.append_assoc, ← show _ = e.journal.events ++ news from events]
        exact later

theorem evaluateTells {e : Engine} (on : e.enabled = true) (context : Context)
    (options : EvaluationOptions) :
    let report := (e.evaluate context options).1
    let xs := e.applyVisits (.evaluate context options)
    ∃ parts, report.findings = xs.map Visit.finding ∧ Tell report.evaluation xs parts ∧
      (e.evaluate context options).2.2.journal.events = e.journal.events ++
        (parts.flatten ++ [.evaluationCompleted report.evaluation report.tally 0]) := by
  obtain ⟨v, e₁, opened, silent⟩ : ∃ v e₁, e.opened context = (v, e₁) ∧
      e₁.journal.events = e.journal.events := ⟨_, _, rfl, rfl⟩
  obtain ⟨findings, after, e₂, walked⟩ : ∃ findings after e₂,
      walk v (.start options e₁.registry.firstMatchGroups) (e₁.candidates options) context e₁ =
        (findings, after, e₂) := ⟨_, _, _, rfl⟩
  obtain ⟨parts, events, tells⟩ := walkTells v (.start options e₁.registry.firstMatchGroups)
    (e₁.candidates options) context e₁
  have found := walkFindings v (.start options e₁.registry.firstMatchGroups) (e₁.candidates options)
    context e₁
  rw [walked] at events found
  rw [(evaluateOn on opened walked).1, (evaluateOn on opened walked).2]
  refine ⟨parts, found, tells, ?_⟩
  rw [← List.append_assoc, ← silent, ← show _ = e₁.journal.events ++ parts.flatten from events]
  rfl

/-- The events of a request to evaluate, by the report that answers it. -/
theorem newsTellReport (e : Engine) (context : Context) (options : Value) :
    let asked := e.respond context options
    match e.enabled, asked.1 with
    | true, .ok report => ∃ o news parts duration,
      EvaluationOptions.ofValue options = .ok o ∧
      report.findings = (e.applyVisits (.evaluate context o)).map Visit.finding ∧
      Tell report.evaluation (e.applyVisits (.evaluate context o)) parts ∧
      news = parts.flatten ++ [.evaluationCompleted report.evaluation report.tally duration] ∧
      news.map Event.kind = report.kinds ∧
      asked.2.2.journal.events = e.journal.events ++ news
    | _, _ => asked.2.2.journal.events = e.journal.events := by
  intro asked
  cases answered : asked.1 with
  | error f =>
    have left : asked.2 = (context, e) := respondRefused answered
    rw [left]
    cases e.enabled <;> rfl
  | ok report =>
    obtain ⟨o, read, reported, left⟩ := respondAccepts answered
    have after : asked.2.2 = (e.evaluate context o).2.2 := congrArg Prod.snd left
    cases on : e.enabled with
    | false =>
      dsimp only
      rw [after, (evaluateOff on context o).1]
    | true =>
      dsimp only
      obtain ⟨parts, findings, tells, events⟩ := evaluateTells on context o
      rw [← reported] at findings tells events
      refine ⟨o, _, parts, 0, read, findings, tells, rfl, ?_, after ▸ events⟩
      rw [List.map_append, tells.kinds, Report.kinds, findings]
      rfl

/-- Of the actions of one rule, two ask for something, one fails and one is skipped; another rule fails and
the last does not match. -/
def eventful : Engine :=
  let act (type : String) (enabled : Bool) (fields : Fields) : Value :=
    .object [("type", .text type), ("enabled", .bool enabled), ("config", .object fields)]
  ((probe .default).run
    [.change (.create [("id", .text "a"), ("conditions", .bool true), ("actions", .list [
        act "notification" true [("channel", .text "mail")], act "log" false [],
        act "notification" true [("recipient", .int 1)], act "workflow" true [("workflow_id", .text "w")],
        act "log" true []])]),
      .change (.create [("id", .text "b"), ("conditions", .object [("operator", .text "in"),
        ("left", .int 1), ("right", .text "$\x7bmissing\x7d")])]),
      .change (.create [("id", .text "c"), ("conditions", .bool false)])]).2

example : ((eventful.respond ⟨[], [], []⟩ .null).2.2.journal.events.map Event.kind) =
    [.ruleCreated, .ruleCreated, .ruleCreated, .notificationRequested, .actionExecuted, .actionFailed,
      .workflowRequested, .actionExecuted, .actionExecuted, .ruleMatched, .engineError,
      .evaluationCompleted] := by decide +kernel

end Engine
end DecisionRules
