import DecisionRules.Proofs.Engine.Provenance
import DecisionRules.Proofs.Engine.Twin

/-! When keeping results makes no difference to reports: exactly when the cache is faithful at every visit.
It is as long as every visit has a key, time to run and a lifetime to keep its result for, and no other
facts and variables with the same key tell the conditions anything else. The order of the fields of an
object is not part of the key, but conditions see it in the text of the object. -/
namespace DecisionRules.Engine

namespace Visit

def answer (x : Visit) (scope : Scope) : Outcome Verdict :=
  ((x.engine.evaluator.evaluate x.rule.tree x.token).run (x.engine.frame scope)).1

/-- Does the key tell all that the conditions can see? -/
structure Legible (x : Visit) : Prop where
  keyed : ∃ key, x.key = .ok key
  inTime : x.token.check x.engine.clock = .ok ()
  lasting : ∃ t, x.engine.cache.expiry x.engine.clock none = .ok t
  telling : ∀ scope, scope.rule = x.rule.bindings →
    fingerprint x.rule.id x.rule.revision scope.data scope.snapshot = x.key →
    ∀ verdict, x.answer scope = .ok verdict → seen x.fresh = seen (.ok verdict)

theorem legibleFaithful {x : Visit} (plain : x.rule.tree.plain = true)
    (sourced : x.engine.IsSourced) (stored : x.engine.Stores x.rule) (legible : x.Legible) :
    x.Faithful := by
  obtain ⟨key, keyed⟩ := legible.keyed
  unfold Faithful
  rw [keyed]
  dsimp only
  split
  · rename_i verdict hit
    obtain ⟨rule, found, computes⟩ := sourced.source (Cache.getHolds hit)
    obtain ⟨current, there, version⟩ := stored
    cases there.symm.trans found
    have back : rule.SameVersion x.rule :=
      ⟨version.id.symm, version.revision.symm, version.conditions.symm, version.bindings.symm⟩
    obtain ⟨e, token, f, deep, allowed, layer, same, ok⟩ := computesVersion back computes
    have scope : f.scope = (x.engine.frame f.scope).scope := rfl
    have inTime : x.token.check (x.engine.frame f.scope).clock = .ok () := legible.inTime
    have again : x.answer f.scope = .ok verdict := by
      unfold answer
      exact Evaluator.evaluateAgain plain deep allowed scope inTime ok
    exact legible.telling f.scope layer (same.trans keyed.symm) verdict again
  · exact fun _ _ => legible.lasting

theorem booleanLegible {x : Visit} (conditions : x.rule.conditions.isBool = true)
    (keyed : x.key.isOk = true) (inTime : (x.token.check x.engine.clock).isOk = true)
    (lasting : (x.engine.cache.expiry x.engine.clock none).isOk = true) : x.Legible := by
  obtain ⟨_, live⟩ := isOkAccepts.mp inTime
  refine ⟨isOkAccepts.mp keyed, live, isOkAccepts.mp lasting, fun scope _ _ verdict ok => ?_⟩
  obtain ⟨b, tree⟩ : ∃ b, x.rule.tree = .literal b := by
    unfold Rule.tree
    cases found : x.rule.conditions with
    | bool b => exact ⟨b, rfl⟩
    | _ => simp [found, Value.isBool] at conditions
  have same : x.answer scope = x.answer x.scope := by
    unfold answer
    rw [tree]
    obtain ⟨r, _, _, left, right, _⟩ := x.engine.evaluator.literalClock x.token b
      (x.engine.frame scope) (x.engine.frame x.scope) rfl
    rw [left, right]
  exact congrArg seen (same.symm.trans ok)

end Visit

def told (e : Engine) (ops : List Operation) : List (Option Report) :=
  (e.run ops).1.map (Option.map Report.withoutHits)

theorem createSourced (s : Settings) (host : Host) (transport : Transport) (env : Environment)
    (clock : Float) (network : Network Float) :
    (create s host transport env clock network).IsSourced := Sourced.initial s _ _

/-- Keeping results changes no report of a run of plain conditions if and only if the cache is faithful at
every visit; and it is, if what it keeps at first has its sources and every visit is legible. -/
theorem cacheTransparent (e : Engine) (ops : List Operation)
    (keeps : e.settings.evaluation.cacheResults = true)
    (plain : ∀ x ∈ e.visits ops, x.rule.tree.plain = true) :
    (e.told ops = told { e with settings := e.settings.uncached } ops ↔
      ∀ x ∈ e.visits ops, x.Faithful) ∧
    (e.IsSourced → (∀ x ∈ e.visits ops, x.Legible) →
      e.told ops = told { e with settings := e.settings.uncached } ops) := by
  have twins : Twin e { e with settings := e.settings.uncached } := ⟨e.cache, e.journal, rfl⟩
  have exact' := runTwin twins keeps ops plain
  refine ⟨exact', fun sourced legible => exact'.mpr fun x visited => ?_⟩
  obtain ⟨kept, stored⟩ := (runSourced sourced ops).2 x visited
  exact x.legibleFaithful (plain x visited) kept stored (legible x visited)

def askTwice (conditions : Value) : List Operation :=
  [.change (.create [("id", .text "r"), ("conditions", conditions)]),
    .evaluate ⟨[("o", .object [("a", .int 1), ("b", .int 2)])], [], []⟩ .unlimited,
    .evaluate ⟨[("o", .object [("b", .int 2), ("a", .int 1)])], [], []⟩ .unlimited]

theorem cacheTransparentLiteral :
    ((probe .default).run (askTwice (.bool true))).2.cache.hits = 1 ∧
    (probe .default).told (askTwice (.bool true)) =
      told { probe .default with settings := (probe .default).settings.uncached }
        (askTwice (.bool true)) := by
  refine ⟨by decide +kernel, (cacheTransparent (probe .default) (askTwice (.bool true)) rfl
    (by decide +kernel)).2 (createSourced ..) fun x visited => ?_⟩
  have all : ∀ x ∈ (probe .default).visits (askTwice (.bool true)),
      x.rule.conditions.isBool = true ∧ x.key.isOk = true ∧
      (x.token.check x.engine.clock).isOk = true ∧
      (x.engine.cache.expiry x.engine.clock none).isOk = true := by decide +kernel
  obtain ⟨conditions, keyed, inTime, lasting⟩ := all x visited
  exact Visit.booleanLegible conditions keyed inTime lasting

/-- The text of an object shows the order of its fields, which the key leaves out: a rule that reads the
text matches from the cache where its conditions do not hold. -/
theorem cacheShowsOldText :
    let ops := askTwice (.object [("operator", .text "startsWith"), ("left", .text "${o}"),
      ("right", .text "\x7b\"a\"")])
    let uncached := { probe .default with settings := (probe .default).settings.uncached }
    Settings.ofValue (.object []) = .ok .default ∧
    (∀ x ∈ (probe .default).visits ops, x.rule.tree.plain = true) ∧
    ((probe .default).told ops).map (Option.map Report.matched) = [none, some 1, some 1] ∧
    (uncached.told ops).map (Option.map Report.matched) = [none, some 1, some 0] ∧
    (probe .default).told ops ≠ uncached.told ops := by
  intro ops uncached
  have kept : ((probe .default).told ops).map (Option.map Report.matched) =
      [none, some 1, some 1] := by decide +kernel
  have fresh : (uncached.told ops).map (Option.map Report.matched) = [none, some 1, some 0] := by
    decide +kernel
  refine ⟨rfl, by decide +kernel, kept, fresh, fun same => ?_⟩
  rw [same, fresh] at kept
  contradiction

end DecisionRules.Engine
