import DecisionRules.Proofs.Action.Blind
import DecisionRules.Proofs.Condition.Plain
import DecisionRules.Proofs.Engine.Run

/-! An engine beside one that keeps no results. They differ in the setting, the cache and the journal,
and stay so as long as the cache answers what the conditions would. -/
namespace DecisionRules

def Settings.uncached (s : Settings) : Settings :=
  { s with evaluation := { s.evaluation with cacheResults := false } }

def seen : Outcome Verdict → Outcome (Option (Option Trace))
  | .error f => .error f
  | .ok (false, _) => .ok none
  | .ok (true, trace) => .ok (some trace)

theorem seenOk (verdict : Verdict) (f : Failure) : seen (.ok verdict) ≠ .error f := by
  obtain ⟨matched, trace⟩ := verdict
  cases matched <;> simp [seen]

def Finding.withoutHit : Finding → Finding
  | .matched m => .matched { m with cacheHit := false }
  | finding => finding

def Report.withoutHits (r : Report) : Report :=
  { r with findings := r.findings.map Finding.withoutHit }

namespace Engine

/-- Does the cache answer a visit as its conditions would? A living result must be what they answer now;
without one they must leave a result that can be kept. -/
def Visit.Faithful (x : Visit) : Prop :=
  match x.key with
  | .error b => x.fresh = .error (.breach b)
  | .ok key =>
    match (x.engine.cache.get x.rule.id key x.engine.clock).1 with
    | some verdict => seen x.fresh = seen (.ok verdict)
    | none => ∀ verdict, x.fresh = .ok verdict →
        ∃ t, x.engine.cache.expiry x.engine.clock none = .ok t

def twin (e : Engine) (cache : Cache Float Verdict) (journal : Journal) : Engine :=
  { e with settings := e.settings.uncached, cache := cache, journal := journal }

def Twin (e u : Engine) : Prop := ∃ cache journal, u = e.twin cache journal

/-! Judging -/

theorem judgeAfreshStill (e : Engine) {rule : Rule} (plain : rule.tree.plain = true)
    (token : Token Float) (scope : Scope) :
    e.judgeAfresh rule token scope = ((e.judgeAfresh rule token scope).1, scope, e) := by
  obtain ⟨r, still⟩ := e.evaluator.evaluateStill token (e.frame scope) plain
  unfold judgeAfresh
  rw [still]
  rfl

theorem judgeAfreshTwin (e : Engine) (cache : Cache Float Verdict) (journal : Journal) (rule : Rule)
    (token : Token Float) (scope : Scope) :
    ((e.twin cache journal).judgeAfresh rule token scope).1 = (e.judgeAfresh rule token scope).1 := rfl

theorem judgeTwin (e : Engine) (cache : Cache Float Verdict) (journal : Journal) (log : Log.Context)
    {rule : Rule} (plain : rule.tree.plain = true) (token : Token Float) (scope : Scope) :
    (e.twin cache journal).judge log rule token scope =
      ((e.judgeAfresh rule token scope).1.map fun verdict => (verdict, false), scope,
        e.twin cache journal) := by
  unfold judge
  rw [judgeAfreshStill _ plain, judgeAfreshTwin]
  rfl

theorem getExpiry (c : Cache Float Verdict) (rule key : String) (now t : Float) (ttl : Option Int) :
    (c.get rule key now).2.expiry t ttl = c.expiry t ttl := by
  unfold Cache.get
  split
  · rfl
  · split <;> rfl

theorem rememberCases (e : Engine) (log : Log.Context) (id key : String) (verdict : Verdict) :
    (∃ b, e.cache.expiry e.clock none = .error b ∧ e.remember log id key verdict = .error b) ∨
    (∃ t, e.cache.expiry e.clock none = .ok t) ∧
      ∃ cache journal, e.remember log id key verdict =
        .ok { e with cache := cache, journal := journal } := by
  unfold remember Cache.put
  cases e.cache.expiry e.clock none with
  | error b => exact .inl ⟨b, rfl, rfl⟩
  | ok t =>
    refine .inr ⟨⟨t, rfl⟩, ?_⟩
    simp only [bind, Except.bind, pure, Except.pure]
    split
    · exact ⟨_, _, rfl⟩
    · exact ⟨_, _, rfl⟩

/-- Judging by the cache touches only the cache and the journal, and shows what the conditions would if
and only if the cache is faithful. -/
theorem judgeCached {x : Visit} (keeps : x.engine.settings.evaluation.cacheResults = true)
    (plain : x.rule.tree.plain = true) (log : Log.Context) :
    ∃ r cache journal, x.engine.judge log x.rule x.token x.scope =
        (r, x.scope, { x.engine with cache := cache, journal := journal }) ∧
      (x.Faithful ↔ seen (r.map Prod.fst) = seen x.fresh) := by
  unfold judge Visit.Faithful
  rw [keeps]
  simp only [Bool.not_true, Bool.false_eq_true, if_false]
  cases found : x.key with
  | error b =>
    rw [show fingerprint x.rule.id x.rule.revision x.scope.data x.scope.snapshot = .error b from found]
    refine ⟨_, x.engine.cache, x.engine.journal, rfl, ?_⟩
    cases x.fresh with
    | error f => simp [Except.map, seen, eq_comm]
    | ok verdict =>
      have differs : seen (.error (.breach b)) ≠ seen (.ok verdict) := (seenOk verdict _).symm
      simp [Except.map, differs]
  | ok key =>
    rw [show fingerprint x.rule.id x.rule.revision x.scope.data x.scope.snapshot = .ok key from found]
    dsimp only
    cases looked : x.engine.cache.get x.rule.id key x.engine.clock with
    | mk verdict? cache =>
      have expiry (now : Float) : cache.expiry now none = x.engine.cache.expiry now none := by
        have same := getExpiry x.engine.cache x.rule.id key x.engine.clock now none
        rwa [looked] at same
      cases verdict? with
      | some verdict => exact ⟨_, cache, x.engine.journal, rfl, eq_comm⟩
      | none =>
        dsimp only
        rw [judgeAfreshStill _ plain]
        have fresh : (judgeAfresh { x.engine with cache := cache } x.rule x.token x.scope).1 = x.fresh :=
          rfl
        rw [fresh]
        cases x.fresh with
        | error f => exact ⟨_, cache, x.engine.journal, rfl, by simp [Except.map]⟩
        | ok verdict =>
          dsimp only
          obtain ⟨b, failed, stuck⟩ | ⟨⟨t, kept⟩, after, journal, stored⟩ :=
            rememberCases { x.engine with cache := cache } log x.rule.id key verdict
          · rw [stuck]
            refine ⟨_, cache, x.engine.journal, rfl, ?_⟩
            have none : ∀ t, x.engine.cache.expiry x.engine.clock none ≠ .ok t := fun t there => by
              rw [← expiry] at there
              exact absurd (there.symm.trans failed) (by simp)
            have differs : seen (.error (.breach b)) ≠ seen (.ok verdict) := (seenOk verdict _).symm
            simp [Except.map, none, differs]
          · rw [stored]
            refine ⟨_, after, journal, rfl, ?_⟩
            have some : x.engine.cache.expiry x.engine.clock none = .ok t := expiry _ ▸ kept
            simp [Except.map, some]

/-! Visits -/

def foundFor (rule : Rule) (results : List ActionResult) : Outcome (Option (Option Trace)) → Finding
  | .error f => .failed ⟨rule.id, rule.name, f⟩
  | .ok none => .unmatched
  | .ok (some trace) => .matched ⟨rule.id, rule.name, rule.priority, trace, results, false⟩

theorem foundForInjective {rule : Rule} {results : List ActionResult}
    {a b : Outcome (Option (Option Trace))} :
    foundFor rule results a = foundFor rule results b ↔ a = b := by
  refine ⟨fun same => ?_, fun same => by rw [same]⟩
  rcases a with f | _ | trace <;> rcases b with f' | _ | trace' <;> simp_all [foundFor]

theorem settleFinding (e : Engine) (v : Evaluation) (rule : Rule) (scope : Scope)
    (r : Outcome (Verdict × Bool)) :
    (e.settle v rule scope r).1.withoutHit = foundFor rule
      (e.executor.run ⟨some rule.id, v.logOf rule⟩ v.token rule.actions (e.workspace scope)).1
      (seen (r.map Prod.fst)) := by
  rcases r with f | ⟨⟨_ | _, trace⟩, hit⟩ <;> rfl

theorem settleTwin {e u : Engine} (twins : Twin e u) (v : Evaluation) (rule : Rule) (scope : Scope)
    (r r' : Outcome (Verdict × Bool)) :
    let left := e.settle v rule scope r
    let right := u.settle v rule scope r'
    (left.1.withoutHit = right.1.withoutHit ↔ seen (r.map Prod.fst) = seen (r'.map Prod.fst)) ∧
    (seen (r.map Prod.fst) = seen (r'.map Prod.fst) →
      left.2.1 = right.2.1 ∧ Twin left.2.2 right.2.2) := by
  obtain ⟨cache, journal, rfl⟩ := twins
  have start : Workspace.Same (e.workspace scope) ((e.twin cache journal).workspace scope) := rfl
  have executor : (e.twin cache journal).executor = e.executor := rfl
  obtain ⟨results, same⟩ :=
    e.executor.runBlind ⟨some rule.id, v.logOf rule⟩ v.token rule.actions start
  constructor
  · rw [settleFinding, settleFinding, executor, results]
    exact foundForInjective
  · intro alike
    rcases r with f | ⟨⟨_ | _, trace⟩, hit⟩ <;> rcases r' with f' | ⟨⟨_ | _, trace'⟩, hit'⟩ <;>
      simp only [Except.map, seen, reduceCtorEq, Except.error.injEq, Except.ok.injEq,
        Option.some.injEq] at alike
    · subst alike
      exact ⟨rfl, _, _, rfl⟩
    · exact ⟨rfl, _, _, rfl⟩
    · subst alike
      unfold settle
      dsimp only
      rw [executor, same, results]
      exact ⟨rfl, _, _, rfl⟩

theorem visitTwin {x : Visit} (keeps : x.engine.settings.evaluation.cacheResults = true)
    (plain : x.rule.tree.plain = true) {u : Engine} (twins : Twin x.engine u) :
    let left := x.engine.visit x.evaluation x.rule x.context
    let right := u.visit x.evaluation x.rule x.context
    (left.1.withoutHit = right.1.withoutHit ↔ x.Faithful) ∧
    (x.Faithful → left.2.1 = right.2.1 ∧ Twin left.2.2 right.2.2) := by
  obtain ⟨r, cache, journal, judged, faithful⟩ :=
    judgeCached keeps plain (x.evaluation.logOf x.rule)
  obtain ⟨cache', journal', rfl⟩ := twins
  have judged' := judgeTwin x.engine cache' journal' (x.evaluation.logOf x.rule) plain x.token x.scope
  have still : Twin { x.engine with cache := cache, journal := journal }
    (x.engine.twin cache' journal') := ⟨_, _, rfl⟩
  have settled := settleTwin still x.evaluation x.rule x.scope r
    (x.fresh.map fun verdict => (verdict, false))
  have shown : seen ((x.fresh.map fun verdict => (verdict, false)).map Prod.fst) = seen x.fresh := by
    cases x.fresh <;> rfl
  rw [shown, ← faithful] at settled
  rw [visitSettles judged, visitSettles judged']
  exact settled

/-! Runs -/

theorem matchWithoutHit (finding : Finding) :
    finding.withoutHit.match?.isSome = finding.match?.isSome := by
  cases finding <;> rfl

theorem walkTwin (v : Evaluation) (l : MatchLimiter) (rules : List Rule) (context : Context)
    {e u : Engine} (twins : Twin e u) (keeps : e.settings.evaluation.cacheResults = true)
    (plain : ∀ x ∈ walkVisits v l rules context e, x.rule.tree.plain = true) :
    let left := walk v l rules context e
    let right := walk v l rules context u
    (left.1.map Finding.withoutHit = right.1.map Finding.withoutHit ↔
      ∀ x ∈ walkVisits v l rules context e, x.Faithful) ∧
    ((∀ x ∈ walkVisits v l rules context e, x.Faithful) →
      left.2.1 = right.2.1 ∧ Twin left.2.2 right.2.2) := by
  induction rules generalizing l context e u with
  | nil => exact ⟨by simp [walk, walkVisits], fun _ => ⟨rfl, twins⟩⟩
  | cons rule rest ih =>
    cases done : l.exhausted with
    | true =>
      rw [(walkDone done).1, (walkDone done).1, (walkDone done).2]
      exact ⟨by simp, fun _ => ⟨rfl, twins⟩⟩
    | false =>
      cases skipped : l.skips rule with
      | true =>
        have stepped := @walkSkipped v l rule rest context
        rw [(stepped done skipped).2] at plain ⊢
        rw [(stepped done skipped).1, (stepped done skipped).1]
        exact ih l context twins keeps plain
      | false =>
        have visited := @visitTwin ⟨e, v, rule, context⟩ keeps
        have settings := visitSettings e v rule context
        cases left : e.visit v rule context with
        | mk finding rest' =>
          obtain ⟨after, e'⟩ := rest'
          cases right : u.visit v rule context with
          | mk finding' rest'' =>
            obtain ⟨after', u'⟩ := rest''
            rw [(walkVisited done skipped left).2] at plain ⊢
            rw [(walkVisited done skipped left).1, (walkVisited done skipped right).1]
            rw [List.forall_mem_cons] at plain ⊢
            obtain ⟨shown, kept⟩ := visited plain.1 twins
            rw [left] at settings
            simp only [left, right] at shown kept
            rw [← settings] at keeps
            have same (faithful : Visit.Faithful ⟨e, v, rule, context⟩) :
                l.after rule finding' = l.after rule finding := by
              unfold MatchLimiter.after
              rw [← matchWithoutHit finding', ← shown.mpr faithful, matchWithoutHit]
            constructor
            · simp only [List.map_cons, List.cons.injEq, shown]
              refine and_congr_right fun faithful => ?_
              obtain ⟨rfl, twins⟩ := kept faithful
              rw [same faithful]
              exact (ih _ after twins keeps plain.2).1
            · rintro ⟨faithful, others⟩
              obtain ⟨rfl, twins⟩ := kept faithful
              rw [same faithful]
              exact (ih _ after twins keeps plain.2).2 others

theorem matchesWithoutHits (r : Report) :
    r.withoutHits.matchList = r.matchList.map fun m => { m with cacheHit := false } := by
  simp only [Report.matchList, Report.withoutHits, List.filterMap_map, List.map_filterMap]
  exact congrArg (fun f => List.filterMap f r.findings) (funext fun finding => by cases finding <;> rfl)

theorem errorsWithoutHits (r : Report) : r.withoutHits.errors = r.errors := by
  simp only [Report.errors, Report.withoutHits, List.filterMap_map]
  exact congrArg (fun f => List.filterMap f r.findings) (funext fun finding => by cases finding <;> rfl)

theorem countsWithoutHits (c : Counters) (r : Report) :
    c.add r.withoutHits = c.add r ∧ r.withoutHits.tally = r.tally := by
  have evaluated : r.withoutHits.evaluated = r.evaluated := by
    simp only [Report.evaluated, Report.withoutHits, List.countP_map]
    exact congrArg (fun f => List.countP f r.findings) (funext fun finding => by cases finding <;> rfl)
  have matched : r.withoutHits.matched = r.matched := by
    simp [Report.matched, matchesWithoutHits]
  have executed : r.withoutHits.executed = r.executed := by
    rw [Report.executed, matchesWithoutHits, List.foldr_map]
    rfl
  have failed : r.withoutHits.failed = r.failed := by
    rw [Report.failed, matchesWithoutHits, List.foldr_map]
    rfl
  simp only [Counters.add, Report.tally, evaluated, matched, executed, failed, errorsWithoutHits,
    and_self]

theorem concludeTwin {e u : Engine} (twins : Twin e u) {log : Log.Context} {r r' : Report}
    (same : r.withoutHits = r'.withoutHits) : Twin (e.conclude log r) (u.conclude log r') := by
  obtain ⟨cache, journal, rfl⟩ := twins
  have counted : e.counters.add r = e.counters.add r' := by
    rw [← (countsWithoutHits _ r).1, same, (countsWithoutHits _ r').1]
  have counters : (e.twin cache journal).counters = e.counters := rfl
  unfold conclude
  rw [counters, counted]
  exact ⟨_, _, rfl⟩

theorem evaluateTwin {e u : Engine} (twins : Twin e u)
    (keeps : e.settings.evaluation.cacheResults = true) (context : Context)
    (options : EvaluationOptions)
    (plain : ∀ x ∈ e.applyVisits (.evaluate context options), x.rule.tree.plain = true) :
    let left := e.evaluate context options
    let right := u.evaluate context options
    (left.1.withoutHits = right.1.withoutHits ↔
      ∀ x ∈ e.applyVisits (.evaluate context options), x.Faithful) ∧
    ((∀ x ∈ e.applyVisits (.evaluate context options), x.Faithful) → Twin left.2.2 right.2.2) := by
  obtain ⟨cache, journal, rfl⟩ := twins
  cases on : e.enabled with
  | false =>
    have off : (e.twin cache journal).enabled = false := on
    rw [(evaluateOff on context options).1, (evaluateOff off context options).1,
      (evaluateOff on context options).2]
    exact ⟨by simp; rfl, fun _ => ⟨_, _, rfl⟩⟩
  | true =>
    have on' : (e.twin cache journal).enabled = true := on
    obtain ⟨v, e₁, u₁, opened, opened', settings, twins⟩ : ∃ v e₁ u₁, e.opened context = (v, e₁) ∧
        (e.twin cache journal).opened context = (v, u₁) ∧ e₁.settings = e.settings ∧ Twin e₁ u₁ :=
      ⟨_, _, _, rfl, rfl, rfl, _, _, rfl⟩
    have walked := walkTwin v (.start options e₁.registry.firstMatchGroups) (e₁.candidates options)
      context twins (settings ▸ keeps)
    obtain ⟨limiter, candidates⟩ : MatchLimiter.start options u₁.registry.firstMatchGroups =
        .start options e₁.registry.firstMatchGroups ∧
        u₁.candidates options = e₁.candidates options := by
      obtain ⟨_, _, rfl⟩ := twins
      exact ⟨rfl, rfl⟩
    cases left : walk v (.start options e₁.registry.firstMatchGroups) (e₁.candidates options) context
        e₁ with
    | mk findings rest =>
      obtain ⟨after, e₂⟩ := rest
      cases right : walk v (.start options u₁.registry.firstMatchGroups) (u₁.candidates options)
          context u₁ with
      | mk findings' rest' =>
        obtain ⟨after', u₂⟩ := rest'
        rw [(evaluateOn on opened left).2] at plain ⊢
        rw [(evaluateOn on opened left).1, (evaluateOn on' opened' right).1]
        rw [limiter, candidates] at right
        obtain ⟨shown, kept⟩ := walked plain
        simp only [left, right] at shown kept
        have reports (faithful : ∀ x ∈ walkVisits v (.start options e₁.registry.firstMatchGroups)
            (e₁.candidates options) context e₁, x.Faithful) :
            Report.withoutHits ⟨v.id, findings, after.bindings⟩ =
              Report.withoutHits ⟨v.id, findings', after'.bindings⟩ := by
          simp only [Report.withoutHits, shown.mpr faithful, (kept faithful).1]
        refine ⟨⟨fun same => shown.mp (congrArg Report.findings same), reports⟩, fun faithful => ?_⟩
        exact concludeTwin (kept faithful).2 (reports faithful)

theorem createRuleTwin (e : Engine) (cache : Cache Float Verdict) (journal : Journal)
    (definition : Fields) :
    Twin (e.createRule definition).2 ((e.twin cache journal).createRule definition).2 := by
  have created : (e.twin cache journal).registry.create (e.twin cache journal).drafting definition =
      e.registry.create e.drafting definition := rfl
  unfold createRule
  rw [created]
  split <;> exact ⟨_, _, rfl⟩

theorem changeTwin {e u : Engine} (twins : Twin e u) (c : Change) : Twin (e.change c).2 (u.change c).2 := by
  obtain ⟨cache, journal, rfl⟩ := twins
  have registry : (e.twin cache journal).registry = e.registry := rfl
  cases c with
  | create definition => exact createRuleTwin e cache journal definition
  | copy id fields =>
    change Twin (e.copyRule id fields).2 ((e.twin cache journal).copyRule id fields).2
    unfold copyRule
    rw [registry]
    split
    · exact ⟨_, _, rfl⟩
    · exact createRuleTwin e cache journal _
  | update id given =>
    change Twin (e.updateRule id given).2 ((e.twin cache journal).updateRule id given).2
    have updated : (e.twin cache journal).registry.update (e.twin cache journal).drafting id given =
        e.registry.update e.drafting id given := rfl
    unfold updateRule
    rw [updated]
    split <;> exact ⟨_, _, rfl⟩
  | delete id =>
    change Twin (e.deleteRule id).2 ((e.twin cache journal).deleteRule id).2
    unfold deleteRule
    rw [registry]
    split <;> exact ⟨_, _, rfl⟩
  | createGroup name mode maxRules => exact ⟨_, _, rfl⟩

theorem applyTwin {e u : Engine} (twins : Twin e u) (keeps : e.settings.evaluation.cacheResults = true)
    (op : Operation) (plain : ∀ x ∈ e.applyVisits op, x.rule.tree.plain = true) :
    ((e.apply op).1.map Report.withoutHits = (u.apply op).1.map Report.withoutHits ↔
      ∀ x ∈ e.applyVisits op, x.Faithful) ∧
    ((∀ x ∈ e.applyVisits op, x.Faithful) → Twin (e.apply op).2 (u.apply op).2) := by
  have quiet {e u : Engine} (after : Twin e u) :
      ((none : Option Report).map Report.withoutHits = (none : Option Report).map Report.withoutHits ↔
        ∀ x ∈ ([] : List Visit), x.Faithful) ∧ ((∀ x ∈ ([] : List Visit), x.Faithful) → Twin e u) :=
    ⟨by simp, fun _ => after⟩
  cases op with
  | evaluate context options =>
    obtain ⟨shown, kept⟩ := evaluateTwin twins keeps context options plain
    exact ⟨by simpa [apply] using shown, kept⟩
  | change c => exact quiet (changeTwin twins c)
  | setGlobal name value =>
    obtain ⟨cache, journal, rfl⟩ := twins
    have same : (e.twin cache journal).isReadOnly name = e.isReadOnly name := rfl
    refine quiet ?_
    simp only [apply, setGlobal, same]
    split <;> exact ⟨_, _, rfl⟩
  | deleteGlobal name =>
    obtain ⟨cache, journal, rfl⟩ := twins
    have same : (e.twin cache journal).isReadOnly name = e.isReadOnly name := rfl
    refine quiet ?_
    simp only [apply, deleteGlobal, same]
    split <;> exact ⟨_, _, rfl⟩
  | registerFunction name fn =>
    obtain ⟨cache, journal, rfl⟩ := twins
    have same : (e.twin cache journal).operators = e.operators := rfl
    refine quiet ?_
    simp only [apply, registerFunction, same]
    split <;> exact ⟨_, _, rfl⟩
  | registerOperator name fn =>
    obtain ⟨cache, journal, rfl⟩ := twins
    have same : (e.twin cache journal).operators = e.operators := rfl
    refine quiet ?_
    simp only [apply, registerOperator, same]
    split <;> exact ⟨_, _, rfl⟩
  | sweep =>
    obtain ⟨cache, journal, rfl⟩ := twins
    refine quiet ?_
    simp only [apply, sweep]
    split <;> split <;> exact ⟨_, _, rfl⟩
  | _ =>
    obtain ⟨cache, journal, rfl⟩ := twins
    exact quiet ⟨_, _, rfl⟩

/-- A run beside a run that keeps no results: the reports are the same if and only if the cache is
faithful at every visit. -/
theorem runTwin {e u : Engine} (twins : Twin e u) (keeps : e.settings.evaluation.cacheResults = true)
    (ops : List Operation) (plain : ∀ x ∈ e.visits ops, x.rule.tree.plain = true) :
    (e.run ops).1.map (Option.map Report.withoutHits) =
        (u.run ops).1.map (Option.map Report.withoutHits) ↔ ∀ x ∈ e.visits ops, x.Faithful := by
  induction ops generalizing e u with
  | nil => simp [run, visits]
  | cons op rest ih =>
    simp only [visits, List.forall_mem_append] at plain ⊢
    obtain ⟨shown, kept⟩ := applyTwin twins keeps op plain.1
    simp only [run, List.map_cons, List.cons.injEq]
    rw [shown]
    refine and_congr_right fun faithful => ?_
    exact ih (kept faithful) (by rw [applySettings]; exact keeps) plain.2

end Engine
end DecisionRules
