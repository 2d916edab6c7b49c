import DecisionRules.Proofs.Engine.Accounting
import DecisionRules.Proofs.Engine.Calls
import DecisionRules.Proofs.Engine.Fresh
import DecisionRules.Proofs.Registry.Disabling
import DecisionRules.Proofs.Selection

/-! Rules that do not match are inert. An evaluation beside one in which such a rule is disabled: apart
from what concerns the rule itself, both report and publish the same and leave the same behind. -/
namespace DecisionRules

namespace Event

def rule? : Event → Option String
  | common | evaluationCompleted .. => none
  | ruleCreated rule _ | ruleUpdated rule _ | ruleDeleted rule | ruleMatched _ rule .. => some rule
  | notificationRequested rule .. | workflowRequested rule .. | actionExecuted rule ..
  | actionFailed rule .. | engineError _ rule .. => rule

/-- Without the identifiers of evaluations, which are drawn anew for each. -/
def unnamed : Event → Event
  | ruleMatched _ rule name priority cacheHit => ruleMatched "" rule name priority cacheHit
  | engineError _ rule error kind => engineError none rule error kind
  | event => event

def ofOthers (id : String) (events : List Event) : List Event :=
  (events.filter fun event => event.rule?.any (· != id)).map unnamed

variable {id : String} {events events' : List Event}

theorem ofOthersAppend (id : String) (events added : List Event) :
    ofOthers id (events ++ added) = ofOthers id events ++ ofOthers id added := by
  simp only [ofOthers, List.filter_append, List.map_append]

theorem ofOthersOwn {event : Event} (own : event.rule?.any (· != id) = false) :
    ofOthers id (events ++ [event]) = ofOthers id events := by
  simp [ofOthers, own]

theorem ofOthersAlike (same : ofOthers id events' = ofOthers id events) {event event' : Event}
    (rule : event'.rule? = event.rule?) (alike : event'.unnamed = event.unnamed) :
    ofOthers id (events' ++ [event']) = ofOthers id (events ++ [event]) := by
  have last : ofOthers id [event'] = ofOthers id [event] := by
    simp only [ofOthers, List.filter_singleton, rule]
    cases event.rule?.any (· != id) <;> simp [alike]
  rw [ofOthersAppend, ofOthersAppend, same, last]

end Event

theorem Finding.Of.unmatched {rule : Rule} {finding : Finding} (found : finding.Of rule)
    (others : ∀ m, finding.match? = some m → m.rule ≠ rule.id) : finding.match? = none := by
  cases finding with
  | matched m => exact absurd found (others m rfl)
  | _ => rfl

namespace Engine
open Event (ofOthers ofOthersAppend ofOthersOwn ofOthersAlike)

/-- The same for rules and actions to see, and the same news of all rules but one. -/
structure Abreast (id : String) (e u : Engine) : Prop where
  sight : u = { e with
    registry := u.registry
    cache := u.cache
    counters := u.counters
    next := u.next
    journal := u.journal }
  news : ofOthers id u.journal.events = ofOthers id e.journal.events

theorem Abreast.parts {id : String} {e u : Engine} (abreast : Abreast id e u) :
    ∃ registry cache counters next journal, u = { e with
        registry := registry
        cache := cache
        counters := counters
        next := next
        journal := journal } ∧
      ofOthers id journal.events = ofOthers id e.journal.events :=
  ⟨_, _, _, _, _, abreast.sight, abreast.news⟩

section Visit
variable {id : String} {e u : Engine} {v v' : Evaluation} {rule : Rule} {context : Context}

theorem matchAbreast (abreast : Abreast id e u) (token : v'.token = v.token) (rule : Rule)
    (scope : Scope) (trace : Option Trace) (hit : Bool) :
    ∃ finding after e' u', e.settle v rule scope (.ok ((true, trace), hit)) = (finding, after, e') ∧
      u.settle v' rule scope (.ok ((true, trace), hit)) = (finding, after, u') ∧ Abreast id e' u' := by
  obtain ⟨registry, cache, counters, next, journal, same, news⟩ := abreast.parts
  have executor : u.executor = e.executor := by rw [same]; rfl
  have workspace : u.workspace scope = { e.workspace scope with journal := journal } := by rw [same]; rfl
  have start : Workspace.Beside e.journal.events journal.events (e.workspace scope)
      (u.workspace scope) := ⟨[], journal.records, by simp [Engine.workspace], by simp [workspace]⟩
  obtain ⟨results, w, ran⟩ : ∃ results w, e.executor.run ⟨some rule.id, v.logOf rule⟩ v.token
      rule.actions (e.workspace scope) = (results, w) := ⟨_, _, rfl⟩
  have occasion : (⟨some rule.id, v'.logOf rule⟩ : Occasion).rule =
      (⟨some rule.id, v.logOf rule⟩ : Occasion).rule := rfl
  obtain ⟨alike, added, records, events, after⟩ :=
    e.executor.runBeside occasion v.token rule.actions start
  rw [ran] at alike events after
  have ran' : e.executor.run ⟨some rule.id, v'.logOf rule⟩ v.token rule.actions (u.workspace scope) =
      (results, { w with journal := ⟨journal.events ++ added, records⟩ }) := Prod.ext alike after
  let m : RuleMatch := ⟨rule.id, rule.name, rule.priority, trace, results, hit⟩
  let w' : Workspace := { w with journal := ⟨journal.events ++ added, records⟩ }
  have left : e.settle v rule scope (.ok ((true, trace), hit)) =
      (.matched m, w.scope.context, (e.ofWorkspace w).reportMatch v (v.logOf rule) m) := by
    simp only [settle, ran, m]
  have right : u.settle v' rule scope (.ok ((true, trace), hit)) =
      (.matched m, w.scope.context, (u.ofWorkspace w').reportMatch v' (v'.logOf rule) m) := by
    simp only [settle, executor, token, ran', m, w']
    rfl
  have published : ofOthers id w'.journal.events = ofOthers id w.journal.events := by
    rw [events, ofOthersAppend, ofOthersAppend, news]
  have told : ofOthers id ((u.ofWorkspace w').reportMatch v' (v'.logOf rule) m).journal.events =
      ofOthers id ((e.ofWorkspace w).reportMatch v (v.logOf rule) m).journal.events :=
    ofOthersAlike published rfl rfl
  refine ⟨_, _, _, _, left, right, ?_, told⟩
  rw [same]
  rfl

theorem visitAbreast (abreast : Abreast id e u)
    (uncached : e.settings.evaluation.cacheResults = false) (token : v'.token = v.token) (rule : Rule)
    (context : Context) :
    ∃ finding after e' u', e.visit v rule context = (finding, after, e') ∧
      u.visit v' rule context = (finding, after, u') ∧ Abreast id e' u' := by
  obtain ⟨registry, cache, counters, next, journal, same, news⟩ := abreast.parts
  obtain ⟨r, frame, ran⟩ : ∃ r frame, (e.evaluator.evaluate rule.tree (e.limit v rule)).run
      (e.frame ⟨context, rule.bindings, e.globals⟩) = (r, frame) := ⟨_, _, rfl⟩
  have ran' : (u.evaluator.evaluate rule.tree (u.limit v' rule)).run
      (u.frame ⟨context, rule.bindings, u.globals⟩) = (r, frame) := by
    rw [limit, ← token] at ran
    rw [same]
    exact ran
  have uncached' : u.settings.evaluation.cacheResults = false := by rw [same]; exact uncached
  have clocked : Abreast id { e with clock := frame.clock, ticks := frame.ticks }
      { u with clock := frame.clock, ticks := frame.ticks } := ⟨by rw [same], by rw [same]; exact news⟩
  rw [visitFresh uncached ran, visitFresh uncached' ran']
  rcases r with f | ⟨_ | _, trace⟩
  · obtain ⟨_, _, _, _, _, same, news⟩ := clocked.parts
    rw [same]
    exact ⟨_, _, _, _, rfl, rfl, rfl, ofOthersAlike news rfl rfl⟩
  · obtain ⟨_, _, _, _, _, same, news⟩ := clocked.parts
    rw [same]
    exact ⟨_, _, _, _, rfl, rfl, rfl, news⟩
  · exact matchAbreast clocked token rule frame.scope trace false

theorem visitInert (abreast : Abreast rule.id e u)
    (uncached : e.settings.evaluation.cacheResults = false)
    (native : rule.tree.native e.operators = true)
    (unmatched : (e.visit v rule context).1.match? = none) :
    ∃ finding e', e.visit v rule context = (finding, context, e') ∧ Abreast rule.id e' u := by
  obtain ⟨registry, cache, counters, next, journal, same, news⟩ := abreast.parts
  rw [visitNative uncached native] at unmatched ⊢
  subst same
  rcases judged : Visit.fresh ⟨e, v, rule, context⟩ with f | ⟨_ | _, trace⟩
  · have own : ofOthers rule.id (e.reportFailure v (v.logOf rule) rule f).journal.events =
        ofOthers rule.id e.journal.events := ofOthersOwn (by simp [Event.rule?])
    exact ⟨_, _, rfl, rfl, news.trans own.symm⟩
  · exact ⟨_, _, rfl, rfl, news⟩
  · rw [judged] at unmatched
    contradiction

theorem visitKeeps (uncached : e.settings.evaluation.cacheResults = false) {finding : Finding}
    {after : Context} {e' : Engine} (visited : e.visit v rule context = (finding, after, e')) :
    e'.settings.evaluation.cacheResults = false ∧ e'.operators = e.operators := by
  obtain ⟨_, _, _, _, _, _, _, _, left⟩ := visitTouches e v rule context
  rw [visited] at left
  change e' = _ at left
  subst left
  exact ⟨uncached, rfl⟩

end Visit

/-! Walks: one over all rules, the other over all but one -/

structure Apart (id : String) (w w' : List Finding × Context × Engine) : Prop where
  matched : w'.1.filterMap Finding.match? = w.1.filterMap Finding.match?
  failed : w'.1.filterMap Finding.error? = (w.1.filterMap Finding.error?).filter (·.rule != id)
  context : w'.2.1 = w.2.1
  abreast : Abreast id w.2.2 w'.2.2

theorem Apart.both {id : String} {w w' : List Finding × Context × Engine} (apart : Apart id w w')
    {rule : Rule} {finding : Finding} (found : finding.Of rule) (other : rule.id ≠ id) :
    Apart id (finding :: w.1, w.2) (finding :: w'.1, w'.2) := by
  obtain ⟨matched, failed, context, abreast⟩ := apart
  rcases finding with _ | f | m
  · exact ⟨matched, failed, context, abreast⟩
  · have named : (f.rule != id) = true := by simpa [← show f.rule = rule.id from found] using other
    exact ⟨matched, by simpa [Finding.error?, named] using failed, context, abreast⟩
  · exact ⟨by simpa [Finding.match?] using matched, failed, context, abreast⟩

theorem Apart.own {id : String} {w w' : List Finding × Context × Engine} (apart : Apart id w w')
    {rule : Rule} {finding : Finding} (found : finding.Of rule) (own : rule.id = id)
    (unmatched : finding.match? = none) : Apart id (finding :: w.1, w.2) w' := by
  obtain ⟨matched, failed, context, abreast⟩ := apart
  rcases finding with _ | f | m
  · exact ⟨matched, failed, context, abreast⟩
  · have named : ¬ (f.rule != id) = true := by simpa [← show f.rule = rule.id from found] using own
    exact ⟨matched, by simpa [Finding.error?, named] using failed, context, abreast⟩
  · contradiction

theorem walkEnded {l : MatchLimiter} (done : l.exhausted = true) (v : Evaluation) (rules : List Rule)
    (context : Context) (e : Engine) : walk v l rules context e = ([], context, e) := by
  cases rules with
  | nil => rfl
  | cons => exact (walkDone done).1

theorem walkApart {id : String} {l : MatchLimiter} {v v' : Evaluation} (token : v'.token = v.token)
    {rules : List Rule} {context : Context} {e u : Engine} (abreast : Abreast id e u)
    (uncached : e.settings.evaluation.cacheResults = false)
    (native : ∀ rule ∈ rules, rule.id = id → rule.tree.native e.operators = true)
    (unmatched : ∀ finding ∈ (walk v l rules context e).1, ∀ m, finding.match? = some m → m.rule ≠ id) :
    Apart id (walk v l rules context e) (walk v' l (rules.filter (·.id != id)) context u) := by
  induction rules generalizing l context e u with
  | nil => exact ⟨rfl, rfl, rfl, abreast⟩
  | cons rule rest ih =>
    obtain ⟨here, later⟩ := List.forall_mem_cons.mp native
    cases done : l.exhausted with
    | true =>
      rw [walkEnded done, walkEnded done]
      exact ⟨rfl, rfl, rfl, abreast⟩
    | false =>
      -- the limiters of both walks stay the same: the rule that is missing here changes none there
      cases skipped : l.skips rule with
      | true =>
        rw [(walkSkipped done skipped).1] at unmatched ⊢
        by_cases own : rule.id = id
        · rw [List.filter_cons_of_neg (by simpa using own)]
          exact ih abreast uncached later unmatched
        · rw [List.filter_cons_of_pos (by simpa using own), (walkSkipped done skipped).1]
          exact ih abreast uncached later unmatched
      | false =>
        obtain ⟨finding, after, e', visited⟩ : ∃ finding after e', e.visit v rule context =
          (finding, after, e') := ⟨_, _, _, rfl⟩
        have found : finding.Of rule := by simpa [visited] using visitOf e v rule context
        obtain ⟨uncached', operators⟩ := visitKeeps uncached visited
        rw [← operators] at later
        rw [(walkVisited done skipped visited).1] at unmatched ⊢
        obtain ⟨first, unmatched⟩ := List.forall_mem_cons.mp unmatched
        by_cases own : rule.id = id
        · rw [List.filter_cons_of_neg (by simpa using own)]
          subst own
          have none : finding.match? = none := found.unmatched first
          have idle : l.after rule finding = l := by simp [MatchLimiter.after, none]
          rw [idle] at unmatched ⊢
          obtain ⟨_, _, visited', abreast⟩ :=
            visitInert abreast uncached (here rfl) (by rw [visited, none])
          cases visited.symm.trans visited'
          exact (ih abreast uncached' later unmatched).own found rfl none
        · obtain ⟨_, _, _, u', visited', there, abreast⟩ :=
            visitAbreast abreast uncached token rule context
          cases visited.symm.trans visited'
          rw [List.filter_cons_of_pos (by simpa using own), (walkVisited done skipped there).1]
          exact (ih abreast uncached' later unmatched).both found own

/-! Evaluations -/

/-- The report and the effects of an evaluation, and those of another one, are the same apart from what
concerns one rule. -/
structure SameButFor (id : String) (x y : Report × Context × Engine) : Prop where
  matched : y.1.matchList = x.1.matchList
  failed : y.1.errors = x.1.errors.filter (·.rule != id)
  bindings : y.1.bindings = x.1.bindings
  context : y.2.1 = x.2.1
  globals : y.2.2.globals = x.2.2.globals
  received : y.2.2.received = x.2.2.received
  published : ofOthers id y.2.2.journal.events = ofOthers id x.2.2.journal.events

theorem Abreast.leaves {id : String} {e u : Engine} (abreast : Abreast id e u) :
    u.globals = e.globals ∧ u.received = e.received := by
  obtain ⟨_, _, _, _, _, rfl, _⟩ := abreast.parts
  exact ⟨rfl, rfl⟩

theorem evaluateApart {id : String} {e u : Engine} (abreast : Abreast id e u)
    (uncached : e.settings.evaluation.cacheResults = false) {context : Context} {o : EvaluationOptions}
    (candidates : u.candidates o = (e.candidates o).filter (·.id != id))
    (firsts : u.registry.firstMatchGroups = e.registry.firstMatchGroups)
    (native : ∀ rule ∈ e.candidates o, rule.id = id → rule.tree.native e.operators = true)
    (unmatched : ∀ m ∈ (e.evaluate context o).1.matchList, m.rule ≠ id) :
    SameButFor id (e.evaluate context o) (u.evaluate context o) := by
  obtain ⟨_, _, _, _, _, same, news⟩ := abreast.parts
  cases on : e.enabled with
  | false =>
    have off : u.enabled = false := by rw [same]; exact on
    rw [(evaluateOff on context o).1, (evaluateOff off context o).1]
    obtain ⟨globals, received⟩ := abreast.leaves
    exact ⟨rfl, rfl, rfl, rfl, globals, received, abreast.news⟩
  | true =>
    have on' : u.enabled = true := by rw [same]; exact on
    have begun : Abreast id (e.opened context).2 (u.opened context).2 := ⟨by rw [same]; rfl, abreast.news⟩
    have token : (u.opened context).1.token = (e.opened context).1.token := by rw [same]; rfl
    obtain ⟨findings, after, e₂, walked⟩ : ∃ findings after e₂,
      walk (e.opened context).1 (.start o e.registry.firstMatchGroups) (e.candidates o) context
        (e.opened context).2 = (findings, after, e₂) := ⟨_, _, _, rfl⟩
    obtain ⟨findings', after', u₂, walked'⟩ : ∃ findings' after' u₂,
      walk (u.opened context).1 (.start o u.registry.firstMatchGroups) (u.candidates o) context
        (u.opened context).2 = (findings', after', u₂) := ⟨_, _, _, rfl⟩
    rw [(evaluateOn on rfl walked).1] at unmatched ⊢
    rw [(evaluateOn on' rfl walked').1]
    have unmatched : ∀ finding ∈ findings, ∀ m, finding.match? = some m → m.rule ≠ id :=
      fun finding member m matched => unmatched m (List.mem_filterMap.mpr ⟨finding, member, matched⟩)
    have apart : Apart id (findings, after, e₂) (findings', after', u₂) := by
      rw [← walked, ← walked', candidates, firsts]
      exact walkApart token begun uncached native (by rwa [walked])
    obtain ⟨matched, failed, left, abreast⟩ := apart
    have bindings : after'.bindings = after.bindings := congrArg Context.bindings left
    obtain ⟨globals, received⟩ := abreast.leaves
    exact ⟨matched, failed, bindings, left, globals, received,
      (ofOthersOwn rfl).trans (abreast.news.trans (ofOthersOwn rfl).symm)⟩

theorem selectOthers {r : Registry} (keyed : r.Keyed) {rule : Rule} (off : rule.enabled = false)
    (o : EvaluationOptions) :
    selectRules (r.store rule).list o = (selectRules r.list o).filter (·.id != rule.id) := by
  unfold selectRules
  rw [Registry.storeOthers keyed (by simp [off]), orderFilter]

/-- To disable a rule that does not match changes nothing for others. -/
theorem unmatchedInert (s : Settings) (host : Host) (transport : Transport) (env : Environment)
    (clock : Float) (network : Network Float) (ops : List Operation) :
    let e := ((create s host transport env clock network).run ops).2
    ∀ (context : Context) (o : EvaluationOptions) (id : String) (rule : Rule),
      s.evaluation.cacheResults = false → e.registry.rule? id = some rule →
      rule.tree.native e.operators = true →
      (∀ m ∈ (e.evaluate context o).1.matchList, m.rule ≠ id) →
      ∃ off u, e.updateRule id [("enabled", .bool false)] = (.ok off, u) ∧ off.enabled = false ∧
        SameButFor id (e.evaluate context o) (u.evaluate context o) := by
  intro e context o id rule uncached found native unmatched
  obtain ⟨calls, registry⟩ := runLeads (create s host transport env clock network) ops
  have keyed : e.registry.Keyed := registry ▸ Registry.runKeyed Registry.emptyKeyed s calls
  have timely : e.registry.Timely :=
    registry ▸ Registry.runTimely Registry.emptyKeyed Registry.emptyTimely calls
  have settings : e.settings.evaluation.cacheResults = false := by
    rw [runSettings]
    exact uncached
  obtain ⟨u, left, abreast, store⟩ : ∃ u,
      e.updateRule id [("enabled", .bool false)] = (.ok (Registry.disabled e.drafting rule), u) ∧
      Abreast id e u ∧ u.registry = e.registry.store (Registry.disabled e.drafting rule) := by
    unfold updateRule
    rw [Registry.updateDisabled timely found e.drafting]
    exact ⟨_, rfl, ⟨rfl, ofOthersOwn (by simp [Event.rule?])⟩, rfl⟩
  have named : (Registry.disabled e.drafting rule).id = id := by
    change rule.id = id
    exact keyed.named found
  have candidates : u.candidates o = (e.candidates o).filter (·.id != id) := by
    rw [Engine.candidates, store, selectOthers keyed rfl, named]
    rfl
  have own (r : Rule) (member : r ∈ e.candidates o) (same : r.id = id) :
      r.tree.native e.operators = true := by
    cases found.symm.trans (same ▸ keyed.known (selectListed member))
    exact native
  exact ⟨_, u, left, rfl, evaluateApart abreast settings candidates (by rw [store]; rfl) own unmatched⟩

/-- One rule fails before another one writes a variable of the engine. -/
def uneven : List Operation :=
  [.change (.create [("id", .text "a"), ("conditions", .object [("operator", .text "in"),
      ("left", .int 1), ("right", .text "$\x7bmissing\x7d")])]),
    .change (.create [("id", .text "b"), ("conditions", .bool true), ("actions", .list [.object
      [("type", .text "variable"), ("config", .object [("name", .text "n"), ("value", .int 1),
        ("scope", .text "global")])]])])]

theorem unmatchedInertUneven :
    let e := ((probe Settings.default.uncached).run uneven).2
    let x := e.evaluate ⟨[], [], []⟩ .unlimited
    (x.1.matchList.map RuleMatch.rule = ["b"] ∧ x.1.errors.map RuleError.rule = ["a"] ∧
      Assoc.keys x.2.2.globals = ["n"]) ∧
    ∃ off u, e.updateRule "a" [("enabled", .bool false)] = (.ok off, u) ∧
      SameButFor "a" x (u.evaluate ⟨[], [], []⟩ .unlimited) := by
  intro e x
  have shown : x.1.matchList.map RuleMatch.rule = ["b"] ∧ x.1.errors.map RuleError.rule = ["a"] ∧
      Assoc.keys x.2.2.globals = ["n"] := by decide +kernel
  have there : (e.registry.rule? "a").any (fun rule => rule.tree.native e.operators) = true := by
    decide +kernel
  obtain ⟨rule, found, native⟩ := (Option.any_eq_true _ _).mp there
  have unmatched (m : RuleMatch) (member : m ∈ x.1.matchList) : m.rule ≠ "a" := by
    have name := List.mem_map_of_mem (f := RuleMatch.rule) member
    rw [shown.1, List.mem_singleton] at name
    simp [name]
  obtain ⟨off, u, updated, _, same⟩ := unmatchedInert Settings.default.uncached (.catalogue 0 "")
    (.keeping fun _ => .stalled) [] 0 (.quiet []) uneven ⟨[], [], []⟩ .unlimited "a" rule rfl found native
    unmatched
  exact ⟨shown, off, u, updated, same⟩

end Engine
end DecisionRules
