import DecisionRules.Proofs.Engine.Provenance
import Mathlib.Data.List.Induction

/-! What is kept is in force. Every result in the cache was computed at a visit of this run, from a version
of its rule that has been stored ever since; so a result that is found in the cache was computed from the
definition that the rule has now. -/
namespace DecisionRules

namespace Engine

namespace Visit

def judged (x : Visit) : Outcome (Verdict × Bool) :=
  (x.engine.judge (x.evaluation.logOf x.rule) x.rule x.token x.scope).1

/-- Did the conditions of the rule with this identifier give the verdict, at this visit? -/
structure Gives (x : Visit) (id key : String) (verdict : Verdict) : Prop where
  rule : x.rule.id = id
  keyed : x.key = .ok key
  answer : x.fresh = .ok verdict

end Visit

/-- A visit of the run, to a version of its rule that was stored after every operation since. -/
def Upheld (start : Engine) (ops : List Operation) (x : Visit) : Prop :=
  ∃ first op later, ops = first ++ op :: later ∧ x ∈ (start.run first).2.applyVisits op ∧
    ∀ mid, mid <+: later → (start.run (first ++ op :: mid)).2.Stores x.rule

/-! What one visit keeps -/

theorem rememberHolds {e after : Engine} {log : Log.Context} {rule key : String} {verdict : Verdict}
    (ok : e.remember log rule key verdict = .ok after) {id k : String} {value : Verdict}
    (there : after.cache.Holds id k value) :
    e.cache.Holds id k value ∨ id = rule ∧ k = key ∧ value = verdict := by
  simp only [remember, bindAccepts, pureAccepts] at ok
  obtain ⟨cache, stored, rfl⟩ := ok
  have added : cache.Holds id k value → _ := (Cache.putAfter stored).2
  split at there <;> exact added there

theorem judgedHolds {e after : Engine} {log : Log.Context} {rule : Rule} {token : Token Float}
    {scope : Scope} {r : Outcome (Verdict × Bool)} (judged : e.Judged log rule token scope r after)
    {id key : String} {verdict : Verdict} (there : after.cache.Holds id key verdict) :
    e.cache.Holds id key verdict ∨ rule.id = id ∧
      fingerprint rule.id rule.revision scope.data scope.snapshot = .ok key ∧
      (e.judgeAfresh rule token scope).1 = .ok verdict := by
  have before {key' : String} {found : Option Verdict} {cache : Cache Float Verdict} {left : Engine}
      (got : e.cache.get rule.id key' e.clock = (found, cache))
      (held : SameHoldings { e with cache := cache } left) (there : left.cache.Holds id key verdict) :
      e.cache.Holds id key verdict := by
    have fewer : (e.cache.get rule.id key' e.clock).2.Holds id key verdict →
        e.cache.Holds id key verdict := (e.cache.getAfter rule.id key' e.clock).2
    rw [got] at fewer
    rw [held.cache] at there
    exact fewer there
  cases judged with
  | plain _ held => exact .inl (held.cache ▸ there)
  | hit _ found => exact .inl (before found ⟨rfl, rfl, rfl⟩ there)
  | failed missed held => exact .inl (before missed held there)
  | kept keyed missed answered held stored =>
    rcases rememberHolds stored there with there | ⟨rfl, rfl, rfl⟩
    · exact .inl (before missed held there)
    · exact .inr ⟨rfl, keyed, answered⟩

theorem visitHolds (x : Visit) {id key : String} {verdict : Verdict}
    (there : (x.engine.visit x.evaluation x.rule x.context).2.2.cache.Holds id key verdict) :
    x.engine.cache.Holds id key verdict ∨ x.Gives id key verdict := by
  unfold visit at there
  dsimp only at there
  rw [settleCache] at there
  rcases judgedHolds (judgeJudged _ _ _ _ _) there with before | ⟨rule, keyed, answer⟩
  · exact .inl before
  · exact .inr ⟨rule, keyed, answer⟩

theorem judgeHit {x : Visit} {verdict : Verdict} (hit : x.judged = .ok (verdict, true)) :
    ∃ key, x.key = .ok key ∧ x.engine.cache.Holds x.rule.id key verdict := by
  have judged := judgeJudged x.engine (x.evaluation.logOf x.rule) x.rule x.token x.scope
  rw [show (x.engine.judge (x.evaluation.logOf x.rule) x.rule x.token x.scope).1 = _ from hit] at judged
  generalize (x.engine.judge (x.evaluation.logOf x.rule) x.rule x.token x.scope).2.2 = after at judged
  cases judged with
  | plain fresh => exact absurd rfl (fresh verdict)
  | hit keyed found => exact ⟨_, keyed, Cache.getHolds (congrArg Prod.fst found)⟩

/-! Walks -/

section Walk
variable (v : Evaluation) (l : MatchLimiter) (rules : List Rule) (context : Context) (e : Engine)

theorem walkVisitsRules : ∀ x ∈ walkVisits v l rules context e, x.rule ∈ rules := by
  induction rules generalizing l context e with
  | nil => simp [walkVisits]
  | cons rule rest ih =>
    unfold walkVisits
    split
    · simp
    · split
      · exact fun x visited => List.mem_cons_of_mem _ (ih l context e x visited)
      · intro x visited
        rcases List.mem_cons.mp visited with rfl | visited
        · exact List.mem_cons_self
        · exact List.mem_cons_of_mem _ (ih _ _ _ x visited)

theorem walkHolds {id key : String} {verdict : Verdict}
    (there : (walk v l rules context e).2.2.cache.Holds id key verdict) :
    e.cache.Holds id key verdict ∨ ∃ x ∈ walkVisits v l rules context e, x.Gives id key verdict := by
  induction rules generalizing l context e with
  | nil => exact .inl there
  | cons rule rest ih =>
    unfold walk at there
    unfold walkVisits
    by_cases done : l.exhausted
    · rw [if_pos done] at there
      exact .inl there
    rw [if_neg done] at there ⊢
    by_cases skipped : l.skips rule
    · rw [if_pos skipped] at there ⊢
      exact ih l context e there
    rw [if_neg skipped] at there ⊢
    rcases ih _ _ _ there with before | ⟨x, visited, gives⟩
    · rcases visitHolds ⟨e, v, rule, context⟩ before with before | gives
      · exact .inl before
      · exact .inr ⟨_, List.mem_cons_self, gives⟩
    · exact .inr ⟨x, List.mem_cons_of_mem _ visited, gives⟩

theorem walkFinds (distinct : (rules.map Rule.id).Nodup) {x : Visit}
    (visited : x ∈ walkVisits v l rules context e) {key : String} {verdict : Verdict}
    (there : x.engine.cache.Holds x.rule.id key verdict) : e.cache.Holds x.rule.id key verdict := by
  induction rules generalizing l context e with
  | nil => simp [walkVisits] at visited
  | cons rule rest ih =>
    obtain ⟨alone, others⟩ := List.nodup_cons.mp distinct
    unfold walkVisits at visited
    split at visited
    · simp at visited
    · split at visited
      · exact ih l context e others visited
      · rcases List.mem_cons.mp visited with rfl | visited
        · exact there
        · -- the visit to this rule writes under its own identifier, which no later rule has
          have before := ih _ _ _ others visited
          rcases visitHolds ⟨e, v, rule, context⟩ before with before | gives
          · exact before
          · have member := walkVisitsRules v _ rest _ _ x visited
            exact absurd (gives.rule ▸ List.mem_map_of_mem member) alone

end Walk

theorem candidatesDistinct {e : Engine} (keyed : e.registry.Keyed) (options : EvaluationOptions) :
    ((e.candidates options).map Rule.id).Nodup := by
  have listed : (e.registry.list.map Rule.id).Nodup := keyed.listIds ▸ keyed.unique
  have sorted := (sortByPerm (fun a b => decide (a.priority.rank ≤ b.priority.rank))
    (e.registry.list.filter fun r => r.enabled && options.criteria.accepts r)).map Rule.id
  exact sorted.nodup_iff.mpr (listed.sublist (List.filter_sublist.map Rule.id))

theorem evaluateHolds {e : Engine} (sourced : e.IsSourced) (context : Context)
    (options : EvaluationOptions) :
    (∀ {id key verdict}, (e.evaluate context options).2.2.cache.Holds id key verdict →
      e.cache.Holds id key verdict ∨
      ∃ x ∈ e.applyVisits (.evaluate context options), x.Gives id key verdict) ∧
    ∀ x ∈ e.applyVisits (.evaluate context options), e.Stores x.rule ∧
      ∀ {key verdict}, x.engine.cache.Holds x.rule.id key verdict →
        e.cache.Holds x.rule.id key verdict := by
  cases on : e.enabled with
  | false =>
    rw [(evaluateOff on context options).1, (evaluateOff on context options).2]
    exact ⟨.inl, by simp⟩
  | true =>
    obtain ⟨v, e₁, walked, opened, left, _, closed, visits⟩ := evaluateWalks on context options
    have unique := candidatesDistinct sourced.keyed options
    rw [visits, closed.cache, ← opened.cache, ← left]
    refine ⟨walkHolds v _ _ context e₁, fun x visited => ⟨?_, walkFinds v _ _ context e₁ unique visited⟩⟩
    exact candidatesStored sourced options x.rule (walkVisitsRules v _ _ context e₁ x visited)

/-! Operations -/

/-- After an operation, a result was there before and its rule is in force as it was, or a visit of the
operation gave it and the version that was visited is stored. -/
theorem applyHolds {e : Engine} (sourced : e.IsSourced) (op : Operation) {id key : String}
    {verdict : Verdict} (there : (e.apply op).2.cache.Holds id key verdict) :
    (e.cache.Holds id key verdict ∧
      ∀ rule, rule.id = id → e.Stores rule → (e.apply op).2.Stores rule) ∨
    ∃ x ∈ e.applyVisits op, x.Gives id key verdict ∧ (e.apply op).2.Stores x.rule := by
  cases rests : op.rests with
  | true =>
    obtain ⟨cache, registry, _⟩ := applyRests e rests
    rw [cache] at there
    refine .inl ⟨there, fun rule _ stored => ?_⟩
    rw [Stores, registry]
    exact stored
  | false =>
    cases op with
    | change c =>
      obtain ⟨replaced, turn, cache⟩ := changeTurns sourced.keyed c
      have there : (e.change c).2.cache.Holds id key verdict := there
      rw [cache] at there
      obtain ⟨before, other⟩ := Cache.withoutHolds sourced.buckets there
      exact .inl ⟨before, fun rule same stored =>
        turnStores sourced.keyed turn stored (same.symm ▸ other)⟩
    | evaluate context options =>
      obtain ⟨_, kept, _⟩ := evaluateSourced sourced context options
      obtain ⟨holds, visits⟩ := evaluateHolds sourced context options
      rcases holds there with before | ⟨x, visited, gives⟩
      · exact .inl ⟨before, fun rule _ stored => kept rule stored⟩
      · exact .inr ⟨x, visited, gives, kept x.rule (visits x visited).1⟩
    | clearCache => exact (Cache.clearHolds there).elim
    | sweep =>
      obtain ⟨cache, registry⟩ := e.sweepRests
      have there : e.sweep.2.cache.Holds id key verdict := there
      rw [cache] at there
      refine .inl ⟨(e.cache.sweepAfter e.clock).2 there, fun rule _ stored => ?_⟩
      rw [Stores, apply, registry]
      exact stored
    | _ => contradiction

/-! Runs -/

theorem runAppend (e : Engine) (first later : List Operation) :
    (e.run (first ++ later)).2 = ((e.run first).2.run later).2 := by
  induction first generalizing e with
  | nil => rfl
  | cons op rest ih => exact ih (e.apply op).2

theorem runSnoc (e : Engine) (ops : List Operation) (op : Operation) :
    (e.run (ops ++ [op])).2 = ((e.run ops).2.apply op).2 := runAppend e ops [op]

namespace Upheld
variable {start : Engine} {ops : List Operation} {x : Visit}

theorem stores (upheld : start.Upheld ops x) : (start.run ops).2.Stores x.rule := by
  obtain ⟨first, op, later, rfl, _, stored⟩ := upheld
  exact stored later (List.prefix_refl later)

theorem now {op : Operation} (visited : x ∈ (start.run ops).2.applyVisits op)
    (stored : (start.run (ops ++ [op])).2.Stores x.rule) : start.Upheld (ops ++ [op]) x := by
  refine ⟨ops, op, [], rfl, visited, fun mid before => ?_⟩
  rw [List.prefix_nil.mp before]
  exact stored

theorem further {op : Operation} (upheld : start.Upheld ops x)
    (stored : (start.run (ops ++ [op])).2.Stores x.rule) : start.Upheld (ops ++ [op]) x := by
  obtain ⟨first, visiting, later, rfl, visited, still⟩ := upheld
  refine ⟨first, visiting, later ++ [op], by simp, visited, fun mid before => ?_⟩
  rcases List.prefix_concat_iff.mp before with rfl | before
  · simpa using stored
  · exact still mid before

end Upheld

/-- The invariant, by the operations from the first on: what an operation leaves in the cache is upheld
further, and what it adds is upheld from now on. -/
theorem runUpheld {start : Engine} (sourced : start.IsSourced)
    (nothing : ∀ {id key verdict}, ¬ start.cache.Holds id key verdict) (ops : List Operation)
    {id key : String} {verdict : Verdict} (there : (start.run ops).2.cache.Holds id key verdict) :
    ∃ x, start.Upheld ops x ∧ x.Gives id key verdict := by
  induction ops using List.reverseRecOn with
  | nil => exact absurd there nothing
  | append_singleton ops op ih =>
    have current : (start.run ops).2.IsSourced := (runSourced sourced ops).1
    rw [runSnoc] at there
    rcases applyHolds current op there with ⟨before, kept⟩ | ⟨x, visited, gives, stored⟩
    · obtain ⟨x, upheld, gives⟩ := ih before
      have stored := kept x.rule gives.rule upheld.stores
      exact ⟨x, upheld.further (runSnoc start ops op ▸ stored), gives⟩
    · exact ⟨x, .now visited (runSnoc start ops op ▸ stored), gives⟩

theorem storesSame {e : Engine} {a b : Rule} (left : e.Stores a) (right : e.Stores b)
    (same : a.id = b.id) : a.SameVersion b := by
  obtain ⟨current, found, version⟩ := left
  obtain ⟨_, there, back⟩ := right
  rw [same, there] at found
  cases found
  exact version.trans ⟨back.id.symm, back.revision.symm, back.conditions.symm, back.bindings.symm⟩

/-- After any operations on a new engine, each kept result comes from a visit to a version of its rule that
has been stored ever since. At a visit, the rule is in force; and a result that it takes from the cache
was computed by the very conditions and variables that the rule has. -/
theorem keptResultsCurrent (s : Settings) (host : Host) (transport : Transport) (env : Environment)
    (clock : Float) (network : Network Float) (ops : List Operation) :
    let start := create s host transport env clock network
    let e := (start.run ops).2
    (∀ id key verdict, e.cache.Holds id key verdict →
      ∃ x, start.Upheld ops x ∧ x.Gives id key verdict ∧ e.Stores x.rule) ∧
    ∀ op, ∀ x ∈ e.applyVisits op, x.engine.Stores x.rule ∧
      ∀ verdict, x.judged = .ok (verdict, true) → ∃ y key, start.Upheld ops y ∧
        y.Gives x.rule.id key verdict ∧ x.key = .ok key ∧ y.rule.SameVersion x.rule := by
  intro start e
  have sourced : start.IsSourced := Sourced.initial s _ _
  have nothing {id key verdict} : ¬ start.cache.Holds id key verdict := fun ⟨_, there, _⟩ => by
    simp [start, create, Cache.create] at there
  have current : e.IsSourced := (runSourced sourced ops).1
  refine ⟨fun id key verdict there => ?_, fun op x visited => ?_⟩
  · obtain ⟨x, upheld, gives⟩ := runUpheld sourced nothing ops there
    exact ⟨x, upheld, gives, upheld.stores⟩
  · cases op with
    | evaluate context options =>
      obtain ⟨_, stored, kept⟩ := (evaluateSourced current context options).2.2 x visited
      refine ⟨stored, fun verdict hit => ?_⟩
      obtain ⟨key, keyed, there⟩ := judgeHit hit
      have before := ((evaluateHolds current context options).2 x visited).2 there
      obtain ⟨y, upheld, gives⟩ := runUpheld sourced nothing ops before
      exact ⟨y, key, upheld, gives, keyed,
        storesSame (kept y.rule upheld.stores) stored gives.rule⟩
    | _ => simp [applyVisits] at visited

end Engine
end DecisionRules
