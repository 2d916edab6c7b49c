import DecisionRules.Proofs.Cache.Entries
import DecisionRules.Proofs.Engine.Run
import DecisionRules.Proofs.Registry.Turn
import DecisionRules.Proofs.Sort

/-! Where kept results come from. Whatever the cache holds for a rule was computed from the version of the
rule that is stored now, on facts and variables with the fingerprint that it is held under. -/
namespace DecisionRules

/-- The same version of a rule: all that its conditions are judged by. -/
structure Rule.SameVersion (a b : Rule) : Prop where
  id : a.id = b.id
  revision : a.revision = b.revision
  conditions : a.conditions = b.conditions
  bindings : a.bindings = b.bindings

theorem Rule.SameVersion.refl (a : Rule) : a.SameVersion a := ⟨rfl, rfl, rfl, rfl⟩

theorem Rule.SameVersion.trans {a b c : Rule} (first : a.SameVersion b) (next : b.SameVersion c) :
    a.SameVersion c :=
  ⟨first.id.trans next.id, first.revision.trans next.revision, first.conditions.trans next.conditions,
    first.bindings.trans next.bindings⟩

theorem Rule.SameDefinition.version {a b : Rule} (same : a.SameDefinition b) : a.SameVersion b := by
  unfold Rule.SameDefinition at same
  rw [same]
  exact ⟨rfl, rfl, rfl, rfl⟩

/-- Have the conditions of the rule given the verdict, under these settings, in a scope with this key? -/
def Settings.Computes (s : Settings) (rule : Rule) (key : String) (verdict : Verdict) : Prop :=
  ∃ (e : Evaluator) (token : Token Float) (f : Frame),
    e.maxDepth = s.maxConditionDepth ∧ e.unsafeAllowed = s.functions.unsafeExpressions ∧
    f.scope.rule = rule.bindings ∧
    fingerprint rule.id rule.revision f.scope.data f.scope.snapshot = .ok key ∧
    ((e.evaluate rule.tree token).run f).1 = .ok verdict

theorem computesVersion {s : Settings} {a b : Rule} (same : a.SameVersion b) {key : String}
    {verdict : Verdict} (computes : s.Computes a key verdict) : s.Computes b key verdict := by
  obtain ⟨e, token, f, deep, allowed, layer, keyed, answer⟩ := computes
  have tree : b.tree = a.tree := congrArg Condition.ofValue same.conditions.symm
  refine ⟨e, token, f, deep, allowed, layer.trans same.bindings, ?_, tree ▸ answer⟩
  rw [← same.id, ← same.revision]
  exact keyed

/-- Rules stand under their own identifiers, and every kept result has its source in one of them. -/
structure Sourced (s : Settings) (r : Registry) (c : Cache Float Verdict) : Prop where
  rules : (Assoc.keys r.rules).Nodup
  named : ∀ {id rule}, r.rule? id = some rule → rule.id = id
  buckets : c.Unique
  source : ∀ {id key verdict}, c.Holds id key verdict →
    ∃ rule, r.rule? id = some rule ∧ s.Computes rule key verdict

namespace Sourced
variable {s : Settings} {r : Registry} {c : Cache Float Verdict}

theorem initial (s : Settings) (maxEntries ttl : Int) :
    Sourced s .empty (.create maxEntries ttl) where
  rules := List.nodup_nil
  named := by simp [Registry.rule?, Registry.empty, Assoc.get?]
  buckets := List.nodup_nil
  source := fun ⟨_, there, _⟩ => by simp [Cache.create] at there

theorem shrink (sourced : Sourced s r c) {c' : Cache Float Verdict} (buckets : c'.Unique)
    (fewer : ∀ {id key verdict}, c'.Holds id key verdict → c.Holds id key verdict) :
    Sourced s r c' :=
  ⟨sourced.rules, sourced.named, buckets, fun there => sourced.source (fewer there)⟩

theorem keyed (sourced : Sourced s r c) : r.Keyed := ⟨sourced.rules, sourced.named⟩

/-- A call keeps the sources of all results but those of the rule that it replaces. -/
theorem turn (sourced : Sourced s r c) {r' : Registry} {replaced : Option String}
    (turn : Registry.Turn r r' replaced) : Sourced s r' (c.without replaced) where
  rules := (turn.keyed sourced.keyed).unique
  named := (turn.keyed sourced.keyed).named
  buckets := Cache.withoutUnique sourced.buckets replaced
  source := by
    intro id key verdict there
    obtain ⟨there, other⟩ := Cache.withoutHolds sourced.buckets there
    obtain ⟨rule, found, computes⟩ := sourced.source there
    obtain ⟨current, found, same⟩ := turn.kept sourced.keyed found other
    exact ⟨current, found, computesVersion same.version computes⟩

end Sourced

namespace Engine

def IsSourced (e : Engine) : Prop := Sourced e.settings e.registry e.cache

def Stores (e : Engine) (rule : Rule) : Prop :=
  ∃ current, e.registry.rule? rule.id = some current ∧ rule.SameVersion current

namespace SameHoldings
variable {a b : Engine}

theorem sourced (same : a.SameHoldings b) (sourced : a.IsSourced) : b.IsSourced := by
  rw [IsSourced, same.settings, same.registry, same.cache]
  exact sourced

theorem stores (same : a.SameHoldings b) {rule : Rule} (stored : a.Stores rule) : b.Stores rule := by
  rw [Stores, same.registry]
  exact stored

end SameHoldings

/-! Evaluation -/

theorem judgeAfreshComputes {e : Engine} {rule : Rule} {token : Token Float} {scope : Scope}
    (layer : scope.rule = rule.bindings) {key : String}
    (keyed : fingerprint rule.id rule.revision scope.data scope.snapshot = .ok key) {verdict : Verdict}
    (ok : (e.judgeAfresh rule token scope).1 = .ok verdict) : e.settings.Computes rule key verdict :=
  ⟨e.evaluator, token, e.frame scope, rfl, rfl, layer, keyed, ok⟩

theorem rememberSourced {e after : Engine} (sourced : e.IsSourced) {log : Log.Context} {id key : String}
    {verdict : Verdict}
    (source : ∃ rule, e.registry.rule? id = some rule ∧ e.settings.Computes rule key verdict)
    (ok : e.remember log id key verdict = .ok after) :
    after.IsSourced ∧ after.registry = e.registry := by
  simp only [remember, bindAccepts, pureAccepts] at ok
  obtain ⟨cache, stored, rfl⟩ := ok
  obtain ⟨unique, added⟩ := Cache.putAfter stored
  have kept : Sourced e.settings e.registry cache := by
    refine ⟨sourced.rules, sourced.named, unique sourced.buckets, fun there => ?_⟩
    rcases added there with there | ⟨rfl, rfl, rfl⟩
    · exact sourced.source there
    · exact source
  split <;> exact ⟨kept, rfl⟩

theorem judgedSourced {e after : Engine} (sourced : e.IsSourced) {log : Log.Context} {rule : Rule}
    (stored : e.Stores rule) {token : Token Float} {scope : Scope} (layer : scope.rule = rule.bindings)
    {r : Outcome (Verdict × Bool)} (judged : e.Judged log rule token scope r after) :
    after.IsSourced ∧ after.registry = e.registry := by
  have looked {key : String} {found : Option Verdict} {cache : Cache Float Verdict}
      (got : e.cache.get rule.id key e.clock = (found, cache)) :
      IsSourced { e with cache := cache } := by
    obtain ⟨unique, fewer⟩ := e.cache.getAfter rule.id key e.clock
    rw [got] at unique fewer
    exact sourced.shrink (unique sourced.buckets) fewer
  cases judged with
  | plain _ held => exact ⟨held.sourced sourced, held.registry⟩
  | hit _ found => exact ⟨looked found, rfl⟩
  | failed missed held => exact ⟨held.sourced (looked missed), held.registry⟩
  | @kept key verdict _ e' _ keyed missed answered held remembered =>
    obtain ⟨current, found, same⟩ := stored
    have computed := computesVersion same (judgeAfreshComputes layer keyed answered)
    have source : ∃ rule, e'.registry.rule? current.id = some rule ∧
        e'.settings.Computes rule key verdict := by
      rw [held.registry, held.settings]
      exact ⟨current, same.id ▸ found, computed⟩
    rw [same.id] at remembered
    obtain ⟨kept, registry⟩ := rememberSourced (held.sourced (looked missed)) source remembered
    exact ⟨kept, registry.trans held.registry⟩

theorem settleCache (e : Engine) (v : Evaluation) (rule : Rule) (scope : Scope)
    (r : Outcome (Verdict × Bool)) : (e.settle v rule scope r).2.2.cache = e.cache := by
  rcases r with f | ⟨⟨_ | _, trace⟩, hit⟩ <;> rfl

theorem settleTurn {e : Engine} (keyed : e.registry.Keyed) (v : Evaluation) (rule : Rule)
    (scope : Scope) (r : Outcome (Verdict × Bool)) :
    Registry.Turn e.registry (e.settle v rule scope r).2.2.registry none := by
  rcases r with f | ⟨⟨_ | _, trace⟩, hit⟩
  · exact .same rfl
  · exact Registry.recordTurn keyed rule.id e.host.now _ false 0 0
  · exact Registry.recordTurn keyed rule.id e.host.now _ true _ _

theorem turnStores {e after : Engine} (keyed : e.registry.Keyed) {replaced : Option String}
    (turn : Registry.Turn e.registry after.registry replaced) {rule : Rule} (stored : e.Stores rule)
    (other : replaced ≠ some rule.id) : after.Stores rule := by
  obtain ⟨current, found, same⟩ := stored
  obtain ⟨next, found, kept⟩ := turn.kept keyed found other
  exact ⟨next, found, same.trans kept.version⟩

theorem settleSourced {e : Engine} (sourced : e.IsSourced) (v : Evaluation) (rule : Rule)
    (scope : Scope) (r : Outcome (Verdict × Bool)) :
    (e.settle v rule scope r).2.2.IsSourced ∧
    ∀ other, e.Stores other → (e.settle v rule scope r).2.2.Stores other := by
  have turn := settleTurn sourced.keyed v rule scope r
  obtain ⟨_, _, _, _, _, _, _, left⟩ := settleTouches e v rule scope r
  refine ⟨?_, fun other stored => turnStores sourced.keyed turn stored (by simp)⟩
  unfold IsSourced
  rw [settleCache, congrArg settings left]
  exact sourced.turn turn

theorem visitSourced {e : Engine} (sourced : e.IsSourced) (v : Evaluation) {rule : Rule}
    (stored : e.Stores rule) (context : Context) :
    (e.visit v rule context).2.2.IsSourced ∧
    ∀ other, e.Stores other → (e.visit v rule context).2.2.Stores other := by
  obtain ⟨judged, registry⟩ := judgedSourced sourced stored rfl
    (judgeJudged e (v.logOf rule) rule (e.limit v rule) ⟨context, rule.bindings, e.globals⟩)
  obtain ⟨settled, kept⟩ := settleSourced judged v rule
    (e.judge (v.logOf rule) rule (e.limit v rule) ⟨context, rule.bindings, e.globals⟩).2.1
    (e.judge (v.logOf rule) rule (e.limit v rule) ⟨context, rule.bindings, e.globals⟩).1
  refine ⟨settled, fun other there => kept other ?_⟩
  unfold Stores
  rw [registry]
  exact there

theorem walkSourced (v : Evaluation) (l : MatchLimiter) (rules : List Rule) (context : Context)
    {e : Engine} (sourced : e.IsSourced) (stored : ∀ rule ∈ rules, e.Stores rule) :
    (walk v l rules context e).2.2.IsSourced ∧
    (∀ other, e.Stores other → (walk v l rules context e).2.2.Stores other) ∧
    ∀ x ∈ walkVisits v l rules context e, x.engine.IsSourced ∧ x.engine.Stores x.rule ∧
      ∀ other, e.Stores other → x.engine.Stores other := by
  induction rules generalizing l context e with
  | nil => exact ⟨sourced, fun _ stored => stored, by simp [walkVisits]⟩
  | cons rule rest ih =>
    obtain ⟨here, there⟩ := List.forall_mem_cons.mp stored
    cases done : l.exhausted with
    | true =>
      rw [(walkDone done).1, (walkDone done).2]
      exact ⟨sourced, fun _ stored => stored, by simp⟩
    | false =>
      cases skipped : l.skips rule with
      | true =>
        rw [(walkSkipped done skipped).1, (walkSkipped done skipped).2]
        exact ih l context sourced there
      | false =>
        obtain ⟨after, kept⟩ := visitSourced sourced v here context
        cases visited : e.visit v rule context with
        | mk finding tail =>
          obtain ⟨context', e'⟩ := tail
          rw [visited] at after kept
          rw [(walkVisited done skipped visited).1, (walkVisited done skipped visited).2]
          obtain ⟨walked, stays, visits⟩ := ih (l.after rule finding) context' after
            fun other member => kept other (there other member)
          refine ⟨walked, fun other stored => stays other (kept other stored), ?_⟩
          refine List.forall_mem_cons.mpr ⟨⟨sourced, here, fun _ stored => stored⟩, fun x visited => ?_⟩
          obtain ⟨now, current, still⟩ := visits x visited
          exact ⟨now, current, fun other stored => still other (kept other stored)⟩

theorem candidatesStored {e : Engine} (sourced : e.IsSourced) (options : EvaluationOptions) :
    ∀ rule ∈ e.candidates options, e.Stores rule := by
  intro rule member
  unfold candidates selectRules orderByPriority at member
  have listed : rule ∈ Assoc.values e.registry.rules :=
    List.mem_of_mem_filter ((sortByPerm _ _).mem_iff.mp member)
  obtain ⟨id, found⟩ := Assoc.getOfMemValues sourced.rules listed
  have own : rule.id = id := sourced.named found
  exact ⟨rule, own ▸ found, .refl rule⟩

theorem evaluateSourced {e : Engine} (sourced : e.IsSourced) (context : Context)
    (options : EvaluationOptions) :
    (e.evaluate context options).2.2.IsSourced ∧
    (∀ other, e.Stores other → (e.evaluate context options).2.2.Stores other) ∧
    ∀ x ∈ e.applyVisits (.evaluate context options), x.engine.IsSourced ∧ x.engine.Stores x.rule ∧
      ∀ other, e.Stores other → x.engine.Stores other := by
  cases on : e.enabled with
  | false =>
    rw [(evaluateOff on context options).1, (evaluateOff on context options).2]
    exact ⟨sourced, fun _ stored => stored, by simp⟩
  | true =>
    obtain ⟨v, e₁, walked, opened, left, _, closed, visits⟩ := evaluateWalks on context options
    have stored : ∀ rule ∈ e.candidates options, e₁.Stores rule := fun rule member =>
      opened.stores (candidatesStored sourced options rule member)
    obtain ⟨after, kept, during⟩ := walkSourced v (.start options e.registry.firstMatchGroups)
      (e.candidates options) context (opened.sourced sourced) stored
    rw [left] at after kept
    rw [visits]
    refine ⟨closed.sourced after, fun other there => closed.stores (kept other (opened.stores there)),
      fun x visited => ?_⟩
    obtain ⟨now, current, still⟩ := during x visited
    exact ⟨now, current, fun other there => still other (opened.stores there)⟩

/-! Changes -/

/-- A change drops the results of the rule that it replaces, and no others. -/
structure Turns (e after : Engine) (replaced : Option String) : Prop where
  registry : Registry.Turn e.registry after.registry replaced
  cache : after.cache = e.cache.without replaced

theorem createRuleTurns (e : Engine) (definition : Fields) :
    e.Turns (e.createRule definition).2 none := by
  have turn := Registry.createTurn e.drafting e.registry definition
  unfold createRule
  split <;> rename_i created <;> rw [created] at turn <;> exact ⟨turn, rfl⟩

theorem copyRuleTurns (e : Engine) (id : String) (fields : Fields) :
    e.Turns (e.copyRule id fields).2 none := by
  unfold copyRule
  split
  · exact ⟨.same rfl, rfl⟩
  · exact createRuleTurns e _

theorem updateRuleTurns {e : Engine} (keyed : e.registry.Keyed) (id : String) (given : Fields) :
    e.Turns (e.updateRule id given).2 (Registry.taken id (e.updateRule id given).1) := by
  have turn := Registry.updateTurn keyed e.drafting id given
  unfold updateRule
  split <;> rename_i updated <;> rw [updated] at turn <;> exact ⟨turn, rfl⟩

theorem deleteRuleTurns (e : Engine) (id : String) :
    e.Turns (e.deleteRule id).2 (Registry.taken id (e.deleteRule id).1) := by
  have turn := Registry.deleteTurn e.settings e.registry id
  unfold deleteRule
  split <;> rename_i deleted <;> rw [deleted] at turn <;> exact ⟨turn, rfl⟩

theorem changeTurns {e : Engine} (keyed : e.registry.Keyed) (c : Change) :
    ∃ replaced, e.Turns (e.change c).2 replaced := by
  cases c with
  | create definition => exact ⟨none, createRuleTurns e definition⟩
  | copy id fields => exact ⟨none, copyRuleTurns e id fields⟩
  | update id given => exact ⟨_, updateRuleTurns keyed id given⟩
  | delete id => exact ⟨_, deleteRuleTurns e id⟩
  | createGroup name mode maxRules =>
    exact ⟨none, .same (Registry.createGroupRules e.settings e.registry name mode maxRules), rfl⟩

theorem changeSourced {e : Engine} (sourced : e.IsSourced) (c : Change) : (e.change c).2.IsSourced := by
  obtain ⟨replaced, turn, cache⟩ := changeTurns sourced.keyed c
  unfold IsSourced
  rw [changeSettings, cache]
  exact sourced.turn turn

/-! Runs -/

theorem applySourced {e : Engine} (sourced : e.IsSourced) (op : Operation) :
    (e.apply op).2.IsSourced ∧
    ∀ x ∈ e.applyVisits op, x.engine.IsSourced ∧ x.engine.Stores x.rule := by
  cases rests : op.rests with
  | true =>
    obtain ⟨cache, registry, nothing⟩ := applyRests e rests
    rw [IsSourced, applySettings, cache, registry, nothing]
    exact ⟨sourced, by simp⟩
  | false =>
    cases op with
    | evaluate context options =>
      obtain ⟨after, _, visits⟩ := evaluateSourced sourced context options
      exact ⟨after, fun x visited => ⟨(visits x visited).1, (visits x visited).2.1⟩⟩
    | change c => exact ⟨changeSourced sourced c, by simp [applyVisits]⟩
    | clearCache =>
      exact ⟨sourced.shrink List.nodup_nil fun there => (Cache.clearHolds there).elim,
        by simp [applyVisits]⟩
    | sweep =>
      obtain ⟨unique, fewer⟩ := e.cache.sweepAfter e.clock
      obtain ⟨cache, registry⟩ := e.sweepRests
      rw [IsSourced, applySettings, apply, cache, registry]
      exact ⟨sourced.shrink (unique sourced.buckets) fewer, by simp [applyVisits]⟩
    | _ => contradiction

/-- Over any run, whatever is kept has its source, and so it has at every visit. -/
theorem runSourced {e : Engine} (sourced : e.IsSourced) (ops : List Operation) :
    (e.run ops).2.IsSourced ∧ ∀ x ∈ e.visits ops, x.engine.IsSourced ∧ x.engine.Stores x.rule := by
  induction ops generalizing e with
  | nil => exact ⟨sourced, by simp [visits]⟩
  | cons op rest ih =>
    obtain ⟨after, here⟩ := applySourced sourced op
    obtain ⟨ended, there⟩ := ih after
    exact ⟨ended, List.forall_mem_append.mpr ⟨here, there⟩⟩

end Engine
end DecisionRules
