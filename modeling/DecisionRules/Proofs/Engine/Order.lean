import DecisionRules.Proofs.Action.Quiet
import DecisionRules.Proofs.Engine.Fresh
import DecisionRules.Proofs.Engine.Truncation
import DecisionRules.Proofs.Engine.Twin
import DecisionRules.Proofs.Selection

/-! The order of rules. What a quiet rule with native conditions is found to be is decided by the rule, the
variables, and whether its time limit has room at all: so the order of such rules, and the priorities that
decide it, have no part in what an evaluation finds. -/
namespace DecisionRules

namespace Rule

/-- What is left of a rule without its priority and all that conditions have nothing to do with. -/
def core (r : Rule) : Rule :=
  { blank r.id .normal ⟨0, 0, "", ""⟩ with
    name := r.name
    enabled := r.enabled
    config := { r.config with priority := .normal }
    conditions := r.conditions
    bindings := r.bindings }

/-- No action writes a variable, and no condition calls what the host has registered. -/
def quiet (o : Operators) (r : Rule) : Bool := r.actions.all (·.type.quiet) && r.tree.native o

theorem quietParts {o : Operators} {r : Rule} (quiet : r.quiet o = true) :
    (∀ a ∈ r.actions, a.type.quiet = true) ∧ r.tree.native o = true := by
  simpa [Rule.quiet] using quiet

def timer (r : Rule) (onTime : Bool) : Token Float :=
  ⟨"rule " ++ r.id, if onTime then none else some 0, false⟩

theorem timerExpired (r : Rule) (onTime : Bool) : (r.timer onTime).expired 0 = !onTime := by
  cases onTime with
  | true => rfl
  | false =>
    have passed : decide ((0 : Float) ≤ 0) = true := by decide +kernel
    exact passed

def answer (e : Evaluator) (context : Context) (globals : Fields) (r : Rule) (onTime : Bool) :
    Outcome Verdict :=
  ((e.evaluate r.tree (r.timer onTime)).run ⟨⟨context, r.bindings, globals⟩, 0, 0⟩).1

def found (r : Rule) : Outcome Verdict → Finding
  | .error f => .failed ⟨r.id, r.name, f⟩
  | .ok (false, _) => .unmatched
  | .ok (true, trace) => .matched ⟨r.id, r.name, .normal, trace, [], false⟩

end Rule

def Finding.bare : Finding → Finding
  | .matched m => .matched { m with priority := .normal, results := [], cacheHit := false }
  | finding => finding

theorem bareMatches (findings : List Finding) :
    (findings.map Finding.bare).filterMap (fun f => f.match?.map fun m => (m.rule, m.trace)) =
      (findings.filterMap Finding.match?).map fun m => (m.rule, m.trace) := by
  rw [List.filterMap_map, List.map_filterMap]
  exact congrArg (List.filterMap · findings) (funext fun finding => by cases finding <;> rfl)

theorem bareErrors (findings : List Finding) :
    (findings.map Finding.bare).filterMap Finding.error? = findings.filterMap Finding.error? := by
  rw [List.filterMap_map]
  exact congrArg (List.filterMap · findings) (funext fun finding => by cases finding <;> rfl)

theorem selectCore {o : EvaluationOptions} (any : o.criteria.priority = none) (rules : List Rule) :
    ((selectRules rules o).map Rule.core).Perm
      ((rules.map Rule.core).filter fun r => r.enabled && o.criteria.accepts r) := by
  have kept (r : Rule) : (r.core.enabled && o.criteria.accepts r.core) =
      (r.enabled && o.criteria.accepts r) := by
    unfold RuleFilter.accepts
    rw [any]
    rfl
  rw [List.filter_map]
  simp only [Function.comp_def, kept]
  exact (selectPerm rules o).map Rule.core

structure MatchLimiter.Free (l : MatchLimiter) : Prop extends l.Open where
  firsts : l.firstMatchGroups = []
  done : l.matchedGroups = []

namespace MatchLimiter.Free
variable {l : MatchLimiter}

theorem skips (free : l.Free) (rule : Rule) : l.skips rule = false := by
  cases named : rule.group <;> simp [MatchLimiter.skips, free.done, named]

theorem after (free : l.Free) (rule : Rule) (finding : Finding) : (l.after rule finding).Free := by
  refine ⟨free.toOpen.after rule finding, ?_, ?_⟩
  · unfold MatchLimiter.after
    split
    · exact free.firsts
    · exact free.firsts
  · unfold MatchLimiter.after
    split
    · cases named : rule.group <;> simp [recordMatch, free.firsts, free.done, named]
    · exact free.done

end MatchLimiter.Free

namespace Engine

structure SameSight (e u : Engine) : Prop where
  settings : u.settings = e.settings
  evaluator : u.evaluator = e.evaluator
  globals : u.globals = e.globals

theorem SameSight.trans {a b c : Engine} (first : a.SameSight b) (next : b.SameSight c) :
    a.SameSight c :=
  ⟨next.settings.trans first.settings, next.evaluator.trans first.evaluator,
    next.globals.trans first.globals⟩

/-- Is there any time for the conditions? -/
def Visit.onTime (x : Visit) : Bool := !x.token.expired x.engine.clock

section
variable {e : Engine} {v : Evaluation} {rule : Rule} {context : Context}

theorem freshAnswer (uncancelled : v.token.cancelled = false)
    (native : rule.tree.native e.operators = true) :
    Visit.fresh ⟨e, v, rule, context⟩ =
      rule.answer e.evaluator context e.globals (Visit.onTime ⟨e, v, rule, context⟩) := by
  let onTime : Bool := Visit.onTime ⟨e, v, rule, context⟩
  let f : Frame := e.frame ⟨context, rule.bindings, e.globals⟩
  let f' : Frame := ⟨⟨context, rule.bindings, e.globals⟩, 0, 0⟩
  have scope : f.scope = f'.scope := rfl
  -- native conditions move no clock, so that they see the time by this check alone
  have check : (e.limit v rule).check f.clock = (rule.timer onTime).check f'.clock := by
    have running : (e.limit v rule).cancelled = false := uncancelled
    have expired : (e.limit v rule).expired f.clock = (rule.timer onTime).expired f'.clock :=
      (Bool.not_not _).symm.trans (rule.timerExpired onTime).symm
    unfold Token.check
    rw [running, expired]
    rfl
  obtain ⟨r, here, there⟩ := e.evaluator.evaluateNative scope check native
  exact (congrArg Prod.fst here).trans (congrArg Prod.fst there).symm

theorem matchQuiet (quiet : rule.quiet e.operators = true) (scope : Scope) (trace : Option Trace)
    (hit : Bool) :
    ∃ finding e', e.settle v rule scope (.ok ((true, trace), hit)) = (finding, scope.context, e') ∧
      e.SameSight e' ∧ finding.bare = rule.found (.ok (true, trace)) := by
  obtain ⟨results, w, ran⟩ : ∃ results w, e.executor.run ⟨some rule.id, v.logOf rule⟩ v.token
    rule.actions (e.workspace scope) = (results, w) := ⟨_, _, rfl⟩
  have kept := e.executor.runQuiet ⟨some rule.id, v.logOf rule⟩ v.token (Rule.quietParts quiet).1
    (e.workspace scope)
  rw [ran] at kept
  obtain ⟨unmoved, globals⟩ := kept
  have context : w.scope.context = scope.context := congrArg Scope.context unmoved
  simp only [settle, ran]
  rw [context]
  exact ⟨_, _, rfl, ⟨rfl, rfl, globals⟩, rfl⟩

theorem visitQuiet (uncached : e.settings.evaluation.cacheResults = false)
    (quiet : rule.quiet e.operators = true) (v : Evaluation) (context : Context) :
    ∃ finding e', e.visit v rule context = (finding, context, e') ∧ e.SameSight e' ∧
      finding.bare = rule.found (Visit.fresh ⟨e, v, rule, context⟩) := by
  rw [visitNative uncached (Rule.quietParts quiet).2]
  rcases Visit.fresh ⟨e, v, rule, context⟩ with f | ⟨_ | _, trace⟩
  · exact ⟨_, _, rfl, ⟨rfl, rfl, rfl⟩, rfl⟩
  · exact ⟨_, _, rfl, ⟨rfl, rfl, rfl⟩, rfl⟩
  · exact matchQuiet quiet ⟨context, rule.bindings, e.globals⟩ trace false

end

theorem walkQuiet {l : MatchLimiter} (free : l.Free) {v : Evaluation}
    (uncancelled : v.token.cancelled = false) {rules : List Rule} (context : Context) {e : Engine}
    (uncached : e.settings.evaluation.cacheResults = false)
    (quiet : ∀ rule ∈ rules, rule.quiet e.operators = true) {onTime : String → Bool}
    (decided : ∀ x ∈ walkVisits v l rules context e, x.onTime = onTime x.rule.id) :
    (walk v l rules context e).1.map Finding.bare =
      rules.map (fun rule => rule.found (rule.answer e.evaluator context e.globals (onTime rule.id))) ∧
    (walk v l rules context e).2.1 = context ∧ e.SameSight (walk v l rules context e).2.2 := by
  induction rules generalizing l e with
  | nil => exact ⟨rfl, rfl, rfl, rfl, rfl⟩
  | cons rule rest ih =>
    obtain ⟨first, others⟩ := List.forall_mem_cons.mp quiet
    obtain ⟨finding, e', visited, sight, bare⟩ := visitQuiet uncached first v context
    obtain ⟨left, visits⟩ : walk v l (rule :: rest) context e = _ ∧
        walkVisits v l (rule :: rest) context e = _ := walkVisited free.going (free.skips rule) visited
    rw [visits] at decided
    obtain ⟨here, later⟩ := List.forall_mem_cons.mp decided
    have operators : e'.operators = e.operators := congrArg Evaluator.operators sight.evaluator
    obtain ⟨findings, same, sight'⟩ := ih (free.after rule finding) (by rw [sight.settings, uncached])
      (by rw [operators]; exact others) later
    rw [freshAnswer uncancelled (Rule.quietParts first).2, here] at bare
    rw [sight.evaluator, sight.globals] at findings
    rw [left]
    exact ⟨congrArg₂ List.cons bare findings, same, sight.trans sight'⟩

theorem evaluateQuiet {e : Engine} (on : e.enabled = true) (context : Context) {o : EvaluationOptions}
    (uncached : e.settings.evaluation.cacheResults = false) (unbounded : o.Unbounded)
    (firsts : e.registry.firstMatchGroups = [])
    (quiet : ∀ rule ∈ e.registry.list, rule.quiet e.operators = true)
    {onTime : String → Bool}
    (decided : ∀ x ∈ e.applyVisits (.evaluate context o), x.onTime = onTime x.rule.id) :
    (e.evaluate context o).1.findings.map Finding.bare = (e.candidates o).map (fun rule =>
      rule.found (rule.answer e.evaluator context e.globals (onTime rule.id))) ∧
    (e.evaluate context o).2.1 = context ∧ e.SameSight (e.evaluate context o).2.2 := by
  obtain ⟨v, e₁, opened, uncancelled, sight, registry⟩ : ∃ v e₁, e.opened context = (v, e₁) ∧
      v.token.cancelled = false ∧ e.SameSight e₁ ∧ e₁.registry = e.registry :=
    ⟨_, _, rfl, rfl, ⟨rfl, rfl, rfl⟩, rfl⟩
  have candidates : e₁.candidates o = e.candidates o :=
    congrArg (fun r : Registry => selectRules r.list o) registry
  have operators : e₁.operators = e.operators := congrArg Evaluator.operators sight.evaluator
  have free : (MatchLimiter.start o e₁.registry.firstMatchGroups).Free :=
    ⟨MatchLimiter.startOpen unbounded _, registry ▸ firsts, rfl⟩
  have listed (rule : Rule) (member : rule ∈ e₁.candidates o) : rule.quiet e₁.operators = true := by
    rw [candidates] at member
    rw [operators]
    exact quiet rule (selectListed member)
  obtain ⟨findings, after, e', walked⟩ : ∃ findings after e',
    walk v (.start o e₁.registry.firstMatchGroups) (e₁.candidates o) context e₁ = (findings, after, e') :=
      ⟨_, _, _, rfl⟩
  obtain ⟨evaluated, visits⟩ := evaluateOn on opened walked
  rw [visits] at decided
  have quietly := walkQuiet free uncancelled context (by rw [sight.settings, uncached]) listed decided
  rw [walked, candidates, sight.evaluator, sight.globals] at quietly
  obtain ⟨found, same, later⟩ := quietly
  rw [evaluated]
  exact ⟨found, same, sight.trans ⟨later.settings, later.evaluator, later.globals⟩⟩

/-- The same rules but for their order, their priorities, and what conditions have nothing to do with; and
the same for conditions to see. -/
structure Reordered (e u : Engine) : Prop extends SameSight e u where
  enabled : u.enabled = e.enabled
  rules : (u.registry.list.map Rule.core).Perm (e.registry.list.map Rule.core)

theorem orderIrrelevant (e u : Engine) (context : Context) (o : EvaluationOptions)
    (onTime : String → Bool) (reordered : e.Reordered u)
    (uncached : e.settings.evaluation.cacheResults = false) (unbounded : o.Unbounded)
    (any : o.criteria.priority = none)
    (firsts : e.registry.firstMatchGroups = [] ∧ u.registry.firstMatchGroups = [])
    (quiet : ∀ rule ∈ e.registry.list ++ u.registry.list, rule.quiet e.operators = true)
    (decided : ∀ x ∈ e.applyVisits (.evaluate context o) ++ u.applyVisits (.evaluate context o),
      x.onTime = onTime x.rule.id) :
    ((u.evaluate context o).1.matchList.map fun m => (m.rule, m.trace)).Perm
      ((e.evaluate context o).1.matchList.map fun m => (m.rule, m.trace)) ∧
    (u.evaluate context o).1.errors.Perm (e.evaluate context o).1.errors ∧
    (e.evaluate context o).2.1 = context ∧ (u.evaluate context o).2.1 = context ∧
    (e.evaluate context o).2.2.globals = e.globals ∧ (u.evaluate context o).2.2.globals = e.globals := by
  obtain ⟨first, second⟩ := List.forall_mem_append.mp decided
  obtain ⟨settled, settled'⟩ := List.forall_mem_append.mp quiet
  have operators : u.operators = e.operators := congrArg Evaluator.operators reordered.evaluator
  cases on : e.enabled with
  | false =>
    have off : u.enabled = false := by rw [reordered.enabled, on]
    rw [(evaluateOff on context o).1, (evaluateOff off context o).1]
    exact ⟨.refl _, .refl _, rfl, rfl, rfl, reordered.globals⟩
  | true =>
    have on' : u.enabled = true := by rw [reordered.enabled, on]
    obtain ⟨found, same, sight⟩ := evaluateQuiet on context uncached unbounded firsts.1 settled first
    obtain ⟨found', same', sight'⟩ := evaluateQuiet on' context (by rw [reordered.settings, uncached])
      unbounded firsts.2 (by rw [operators]; exact settled') second
    rw [reordered.evaluator, reordered.globals] at found'
    have candidates : ((u.candidates o).map Rule.core).Perm ((e.candidates o).map Rule.core) :=
      (selectCore any _).trans ((reordered.rules.filter _).trans (selectCore any _).symm)
    have findings : ((u.evaluate context o).1.findings.map Finding.bare).Perm
        ((e.evaluate context o).1.findings.map Finding.bare) := by
      rw [found, found']
      -- the answers do not depend on what the cores leave out
      have answered := candidates.map fun rule =>
        rule.found (rule.answer e.evaluator context e.globals (onTime rule.id))
      rw [List.map_map, List.map_map] at answered
      exact answered
    refine ⟨?_, ?_, same, same', sight.globals, sight'.globals.trans reordered.globals⟩
    · have matched := findings.filterMap fun f => f.match?.map fun m => (m.rule, m.trace)
      rwa [bareMatches, bareMatches] at matched
    · have failed := findings.filterMap Finding.error?
      rwa [bareErrors, bareErrors] at failed

def patient (ops : List Operation) : Engine :=
  ((create Settings.default.uncached (.catalogue 0 "")
    (.overNetwork (.ofEnvironment [] id fun _ => 0.5) 0) [] 1000
    (.quiet [⟨.answered 200 "", 24⟩])).run ops).2

def errand : Operation := .change (.create [("id", .text "a"), ("conditions", .bool true),
  ("actions", .list [.object [("type", .text "webhook"), ("config", .object [("url", .text "http://hooks.local/x")])]])])

def bounded (timeout : Float) (priority : String) : Operation := .change (.create [("id", .text "b"),
  ("conditions", .bool true), ("config", .object [("timeout_s", .float timeout),
    ("priority", .text priority)])])

theorem orderIrrelevantErrand :
    let e := patient [errand, bounded 1 "normal"]
    let u := patient [errand, bounded 1 "critical"]
    let x := e.evaluate ⟨[], [], []⟩ .unlimited
    let y := u.evaluate ⟨[], [], []⟩ .unlimited
    (x.1.matchList.map RuleMatch.rule = ["a", "b"] ∧ y.1.matchList.map RuleMatch.rule = ["b", "a"]) ∧
    (y.1.matchList.map fun m => (m.rule, m.trace)).Perm (x.1.matchList.map fun m => (m.rule, m.trace)) ∧
    y.1.errors.Perm x.1.errors := by
  intro e u x y
  have reordered : e.Reordered u := ⟨⟨rfl, rfl, rfl⟩, rfl, .refl _⟩
  obtain ⟨matched, failed, _⟩ := orderIrrelevant e u ⟨[], [], []⟩ .unlimited (fun _ => true) reordered
    rfl ⟨rfl, nofun⟩ rfl ⟨by decide +kernel, by decide +kernel⟩ (by decide +kernel) (by decide +kernel)
  exact ⟨⟨by decide +kernel, by decide +kernel⟩, matched, failed⟩

/-- One rule has so little time that it has none once the webhook of the other one is answered. And a
priority that is asked for decides which rules are looked at. -/
theorem orderDecides :
    let e := patient [errand, bounded 0.0000000000001 "normal"]
    let u := patient [bounded 0.0000000000001 "normal", errand]
    let x := e.evaluate ⟨[], [], []⟩ .unlimited
    let y := u.evaluate ⟨[], [], []⟩ .unlimited
    let critical : EvaluationOptions := ⟨{ RuleFilter.all with priority := some .critical }, false, none⟩
    let chosen (priority : String) : List String :=
      ((patient [errand, bounded 1 priority]).evaluate ⟨[], [], []⟩ critical).1.matchList.map
        RuleMatch.rule
    (e.Reordered u ∧ e.settings.evaluation.cacheResults = false ∧
      e.registry.firstMatchGroups = [] ∧ u.registry.firstMatchGroups = [] ∧
      ∀ rule ∈ e.registry.list ++ u.registry.list, rule.quiet e.operators = true) ∧
    (x.1.matchList.map RuleMatch.rule = ["a"] ∧ x.1.errors.map RuleError.rule = ["b"]) ∧
    (y.1.matchList.map RuleMatch.rule = ["b", "a"] ∧ y.1.errors.map RuleError.rule = []) ∧
    chosen "normal" = [] ∧ chosen "critical" = ["b"] := by
  intro e u x y critical chosen
  have reordered : e.Reordered u := ⟨⟨rfl, rfl, rfl⟩, rfl, .swap _ _ _⟩
  refine ⟨⟨reordered, rfl, ?_, ?_, ?_⟩, ⟨?_, ?_⟩, ⟨?_, ?_⟩, ?_, ?_⟩ <;> decide +kernel

end Engine
end DecisionRules
