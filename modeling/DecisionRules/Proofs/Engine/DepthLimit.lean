import DecisionRules.Proofs.Condition.Limit
import DecisionRules.Proofs.Engine.Books
import DecisionRules.Proofs.Engine.Calls
import DecisionRules.Proofs.Engine.Currency
import DecisionRules.Proofs.Engine.Transparency

/-! The limit on the depth of conditions, in an engine. A rule whose evaluation arrives at a node below the
limit is reported among the errors and matches nothing. -/
namespace DecisionRules

namespace Evaluator

/-- The depths that an evaluation gets to if there is room for the whole tree -/
def reaches (e : Evaluator) (token : Token Float) (tree : Condition) (f : Frame) : List Nat :=
  (e.within tree.depth).treeArrivals token tree f

/-- The limit refuses what is below it and evaluated, and only that. -/
structure HardLimit (e : Evaluator) (token : Token Float) (tree : Condition) (f : Frame) : Prop where
  refuses : ∀ depth, refused e.maxDepth (e.reaches token tree f) = some depth →
    ((e.evaluate tree token).run f).1 = .error (.depthExceeded depth e.maxDepth)
  allows : refused e.maxDepth (e.reaches token tree f) = none →
    (e.evaluate tree token).run f = ((e.within tree.depth).evaluate tree token).run f
  bounded : ∀ depth ∈ e.reaches token tree f, depth ≤ tree.depth
  shown : ∀ b t after, ((e.within tree.depth).evaluate tree token).run f = (.ok (b, some t), after) →
    Deepest (e.reaches token tree f) t.depth
  raised : e.DepthQuiet → ((∃ failure, ((e.evaluate tree token).run f).1 = .error failure ∧
    failure.isDepth = true) ↔ ∃ depth ∈ e.reaches token tree f, e.maxDepth < depth)
  never : e.DepthQuiet → tree.depth ≤ e.maxDepth →
    ∀ failure, ((e.evaluate tree token).run f).1 = .error failure → failure.isDepth = false

section
variable {e : Evaluator} {token : Token Float} {tree : Condition} {f : Frame}

theorem refusedRaises {depth : Nat} (deep : refused e.maxDepth (e.reaches token tree f) = some depth) :
    ((e.evaluate tree token).run f).1 = .error (.depthExceeded depth e.maxDepth) := by
  have limited := @treeLimited e token tree f
  unfold Limited at limited
  rw [show refused e.maxDepth ((e.within tree.depth).treeArrivals token tree f) = _ from deep] at limited
  exact limited

theorem unrefusedFree (shallow : refused e.maxDepth (e.reaches token tree f) = none) :
    (e.evaluate tree token).run f = ((e.within tree.depth).evaluate tree token).run f := by
  have limited := @treeLimited e token tree f
  unfold Limited at limited
  rw [show refused e.maxDepth ((e.within tree.depth).treeArrivals token tree f) = _ from shallow]
    at limited
  exact limited

theorem raisedBelow (quiet : e.DepthQuiet) :
    (∃ failure, ((e.evaluate tree token).run f).1 = .error failure ∧ failure.isDepth = true) ↔
      ∃ depth ∈ e.reaches token tree f, e.maxDepth < depth := by
  constructor
  · rintro ⟨failure, failed, deep⟩
    by_contra shallow
    have none : refused e.maxDepth (e.reaches token tree f) = none :=
      List.find?_eq_none.mpr fun depth there => by
        simpa using fun below => shallow ⟨depth, there, below⟩
    have roomy : Shallow ((e.within tree.depth).evaluate tree token) :=
      @treeShallow (e.within tree.depth) token quiet tree le_rfl
    rw [unrefusedFree none] at failed
    rw [roomy f failure failed] at deep
    contradiction
  · rintro ⟨depth, there, below⟩
    cases found : refused e.maxDepth (e.reaches token tree f) with
    | some first => exact ⟨_, refusedRaises found, rfl⟩
    | none =>
      have allowed := List.find?_eq_none.mp found depth there
      simp [below] at allowed

end

theorem hardLimit (e : Evaluator) (token : Token Float) (tree : Condition) (f : Frame) :
    e.HardLimit token tree f where
  refuses := fun _ => refusedRaises
  allows := unrefusedFree
  bounded := treeBounded tree f
  shown := fun _ _ _ => treeDeepest
  raised := raisedBelow
  never := fun quiet room => treeShallow quiet room f

end Evaluator

namespace Engine

/-! What a visit makes of a failure, and where its answer is from -/

namespace Visit
variable {x : Visit}

theorem judgedFails {f : Failure} (fails : x.fresh = .error f) :
    x.judged = .error f ∨ (∃ b, x.key = .error b ∧ x.judged = .error (.breach b)) ∨
      ∃ verdict, x.judged = .ok (verdict, true) := by
  have answer {cache : Cache Float Verdict} :
      (judgeAfresh { x.engine with cache := cache } x.rule x.token x.scope).1 = .error f := fails
  unfold judged judge
  split
  · exact .inl (congrArg (Except.map fun verdict => (verdict, false)) fails)
  split
  · rename_i b keyed
    exact .inr (.inl ⟨b, keyed, rfl⟩)
  split
  · rename_i verdict _ _
    exact .inr (.inr ⟨verdict, rfl⟩)
  · left
    split
    · rename_i g after judged
      cases (congrArg Prod.fst judged).symm.trans answer
      rfl
    · rename_i judged
      cases (congrArg Prod.fst judged).symm.trans answer

theorem judgedGives {verdict : Verdict} (judged : x.judged = .ok (verdict, false)) :
    x.fresh = .ok verdict := by
  unfold Visit.judged judge at judged
  split at judged
  · obtain ⟨found, answer, same⟩ := mapAccepts.mp judged
    cases same
    exact answer
  split at judged
  · cases judged
  split at judged
  · cases judged
  split at judged
  · cases judged
  · rename_i answer
    split at judged
    · cases judged
    · cases judged
      exact congrArg Prod.fst answer

theorem findingSettles (x : Visit) : ∃ (scope : Scope) (after : Engine),
    x.finding = (after.settle x.evaluation x.rule scope x.judged).1 := ⟨_, _, rfl⟩

theorem findingFails {f : Failure} (judged : x.judged = .error f) :
    x.finding = .failed ⟨x.rule.id, x.rule.name, f⟩ := by
  obtain ⟨scope, after, found⟩ := findingSettles x
  rw [found, judged]
  rfl

theorem findingMatches {m : RuleMatch} (found : x.finding = .matched m) :
    ∃ hit, x.judged = .ok ((true, m.trace), hit) := by
  obtain ⟨scope, after, settled⟩ := findingSettles x
  rw [found] at settled
  rcases judged : x.judged with f | ⟨⟨_ | _, trace⟩, hit⟩
  · rw [judged] at settled
    cases settled
  · rw [judged] at settled
    cases settled
  · rw [judged] at settled
    cases settled
    exact ⟨hit, rfl⟩

/-- The depths that the conditions of the rule get to at this visit, if there is room for all of them -/
def reaches (x : Visit) : List Nat :=
  x.engine.evaluator.reaches x.token x.rule.tree (x.engine.frame x.scope)

theorem freshRefused {depth : Nat}
    (deep : Evaluator.refused x.engine.settings.maxConditionDepth x.reaches = some depth) :
    x.fresh = .error (.depthExceeded depth x.engine.settings.maxConditionDepth) :=
  (Evaluator.hardLimit x.engine.evaluator x.token x.rule.tree (x.engine.frame x.scope)).refuses depth deep

theorem judgedRefused {depth : Nat}
    (deep : Evaluator.refused x.engine.settings.maxConditionDepth x.reaches = some depth)
    (fresh : ∀ verdict, x.judged ≠ .ok (verdict, true)) : ∃ f, x.judged = .error f ∧
      (f = .depthExceeded depth x.engine.settings.maxConditionDepth ∨
        ∃ b, x.key = .error b ∧ f = .breach b) := by
  rcases judgedFails (freshRefused deep) with judged | ⟨b, keyed, judged⟩ | ⟨verdict, hit⟩
  · exact ⟨_, judged, .inl rfl⟩
  · exact ⟨_, judged, .inr ⟨b, keyed, rfl⟩⟩
  · exact absurd hit (fresh verdict)

end Visit

/-- What conditions answer under the limit has a trace within it. -/
theorem evaluateWithin {e : Evaluator} {token : Token Float} {tree : Condition} {f : Frame} {b : Bool}
    {t : Trace} (ran : ((e.evaluate tree token).run f).1 = .ok (b, some t)) : (t.depth : Int) ≤ e.maxDepth := by
  have hard := e.hardLimit token tree f
  cases deep : Evaluator.refused e.maxDepth (e.reaches token tree f) with
  | some depth =>
    rw [hard.refuses depth deep] at ran
    cases ran
  | none =>
    obtain ⟨after, whole⟩ : ∃ after, (e.evaluate tree token).run f = (.ok (b, some t), after) :=
      ⟨_, Prod.ext ran rfl⟩
    obtain ⟨there, _⟩ := hard.shown b t after ((hard.allows deep).symm.trans whole)
    have allowed := List.find?_eq_none.mp deep t.depth there
    simpa using allowed

theorem Visit.traceWithin {x : Visit} (sourced : x.engine.IsSourced) {m : RuleMatch} {t : Trace}
    (found : x.finding = .matched m) (traced : m.trace = some t) :
    (t.depth : Int) ≤ x.engine.settings.maxConditionDepth := by
  obtain ⟨hit, judged⟩ := findingMatches found
  rw [traced] at judged
  cases hit with
  | false => exact evaluateWithin (judgedGives judged)
  | true =>
    obtain ⟨key, _, holds⟩ := judgeHit judged
    obtain ⟨rule, _, e, token, f, deep, _, _, _, computed⟩ := sourced.source holds
    exact deep ▸ evaluateWithin computed

/-! Reports -/

theorem walkVisitsSettings (v : Evaluation) (l : MatchLimiter) (rules : List Rule) (context : Context)
    (e : Engine) : ∀ x ∈ walkVisits v l rules context e, x.engine.settings = e.settings := by
  induction rules generalizing l context e with
  | nil => simp [walkVisits]
  | cons rule rest ih =>
    unfold walkVisits
    split
    · simp
    · split
      · exact ih l context e
      · refine List.forall_mem_cons.mpr ⟨rfl, fun x visited => ?_⟩
        exact (ih _ _ _ x visited).trans (visitSettings e v rule context)

theorem walkVisitsOnce (v : Evaluation) (l : MatchLimiter) (rules : List Rule) (context : Context)
    (e : Engine) : ((walkVisits v l rules context e).map Visit.rule).Sublist rules := by
  induction rules generalizing l context e with
  | nil => simp [walkVisits]
  | cons rule rest ih =>
    unfold walkVisits
    split
    · simp
    · split
      · exact (ih l context e).cons rule
      · exact (ih _ _ _).cons_cons rule

theorem evaluateVisits {e : Engine} (keyed : e.registry.Keyed) (context : Context)
    (options : EvaluationOptions) :
    let xs := e.applyVisits (.evaluate context options)
    (e.evaluate context options).1.findings = xs.map Visit.finding ∧
    (xs.map fun x => x.rule.id).Nodup ∧ ∀ x ∈ xs, x.engine.settings = e.settings := by
  have found := applyFindings e (.evaluate context options)
  change [(e.evaluate context options).1].flatMap Report.findings = _ at found
  rw [List.flatMap_singleton] at found
  refine ⟨found, ?_⟩
  cases on : e.enabled with
  | false => simp [(evaluateOff on context options).2]
  | true =>
    obtain ⟨v, e₁, walked, opened, _, _, _, visits⟩ := evaluateWalks on context options
    rw [visits]
    constructor
    · have once := (walkVisitsOnce v (.start options e.registry.firstMatchGroups) (e.candidates options)
        context e₁).map Rule.id
      rw [List.map_map] at once
      exact (candidatesDistinct keyed options).sublist once
    · intro x visited
      exact (walkVisitsSettings v _ _ context e₁ x visited).trans opened.settings

section
variable {report : Report} {xs : List Visit} (found : report.findings = xs.map Visit.finding)
include found

theorem matchVisited {m : RuleMatch} (member : m ∈ report.matchList) : ∃ x ∈ xs, x.finding = .matched m := by
  obtain ⟨finding, listed, matched⟩ := List.mem_filterMap.mp member
  rw [found] at listed
  obtain ⟨x, visited, rfl⟩ := List.mem_map.mp listed
  refine ⟨x, visited, ?_⟩
  cases which : x.finding <;> rw [which] at matched <;> cases matched
  rfl

/-- A rule that fails is among the errors, and as it is visited once, not among the matches. -/
theorem failureReported (once : (xs.map fun x => x.rule.id).Nodup) {x : Visit} (visited : x ∈ xs)
    {f : Failure} (judged : x.judged = .error f) :
    ⟨x.rule.id, x.rule.name, f⟩ ∈ report.errors ∧ ∀ m ∈ report.matchList, m.rule ≠ x.rule.id := by
  have failed := Visit.findingFails judged
  constructor
  · refine List.mem_filterMap.mpr ⟨x.finding, ?_, ?_⟩
    · rw [found]
      exact List.mem_map_of_mem visited
    · rw [failed]
      rfl
  · intro m member same
    obtain ⟨y, visitedToo, matched⟩ := matchVisited found member
    have own : y.rule.id = x.rule.id := by
      have named := visitOf y.engine y.evaluation y.rule y.context
      rw [show (y.engine.visit y.evaluation y.rule y.context).1 = .matched m from matched] at named
      exact named.symm.trans same
    obtain rfl := List.inj_on_of_nodup_map once visitedToo visited own
    rw [failed] at matched
    cases matched

end

/-- The limit on depth is hard for all that is evaluated: a tree is refused if and only if its evaluation
arrives at a node below the limit, and a rule so refused is among the errors and not among the matches. -/
theorem depthLimitHard :
    (∀ (e : Evaluator) (token : Token Float) (tree : Condition) (f : Frame), e.HardLimit token tree f) ∧
    ∀ (s : Settings) (host : Host) (transport : Transport) (env : Environment) (clock : Float)
      (network : Network Float) (ops : List Operation) (context : Context) (options : EvaluationOptions),
      let e := ((create s host transport env clock network).run ops).2
      let report := (e.evaluate context options).1
      (∀ x ∈ e.applyVisits (.evaluate context options), ∀ depth,
        Evaluator.refused s.maxConditionDepth x.reaches = some depth →
        (∀ verdict, x.judged ≠ .ok (verdict, true)) →
        ((⟨x.rule.id, x.rule.name, .depthExceeded depth s.maxConditionDepth⟩ ∈ report.errors ∨
            ∃ b, x.key = .error b ∧ ⟨x.rule.id, x.rule.name, .breach b⟩ ∈ report.errors) ∧
          ∀ m ∈ report.matchList, m.rule ≠ x.rule.id)) ∧
      ∀ m ∈ report.matchList, ∀ t, m.trace = some t → (t.depth : Int) ≤ s.maxConditionDepth := by
  refine ⟨Evaluator.hardLimit, ?_⟩
  intro s host transport env clock network ops context options e report
  have sourced : e.IsSourced := (runSourced (createSourced s host transport env clock network) ops).1
  have settings : e.settings = s := runSettings (create s host transport env clock network) ops
  obtain ⟨found, once, under⟩ := evaluateVisits sourced.keyed context options
  constructor
  · intro x visited depth deep fresh
    have limit : x.engine.settings = s := (under x visited).trans settings
    rw [← limit] at deep
    obtain ⟨f, judged, cause⟩ := Visit.judgedRefused deep fresh
    obtain ⟨reported, unmatched⟩ := failureReported found once visited judged
    rw [limit] at cause
    refine ⟨?_, unmatched⟩
    rcases cause with rfl | ⟨b, keyed, rfl⟩
    · exact .inl reported
    · exact .inr ⟨b, keyed, reported⟩
  · intro m member t traced
    obtain ⟨y, visited, matched⟩ := matchVisited found member
    have current : y.engine.IsSourced := ((evaluateSourced sourced context options).2.2 y visited).1
    exact settings ▸ under y visited ▸ Visit.traceWithin current matched traced

def nested (op : String) (inner : Value) : Value :=
  .object [("operator", .text op), ("conditions", .list [inner])]

/-- An engine that allows one level of nesting, and holds a rule of two -/
def shallow : Engine :=
  ((probe { Settings.default with maxConditionDepth := 1 }).run
    [.change (.create [("id", .text "r"), ("conditions", nested "or" (nested "and" (.bool true)))])]).2

theorem depthLimitHardNested :
    ⟨"r", "Unnamed Rule", .depthExceeded 2 1⟩ ∈ (shallow.evaluate ⟨[], [], []⟩ .unlimited).1.errors ∧
    ∀ failure, (((probe .default).evaluator.evaluate (.ofValue (nested "or" (nested "and" (.bool true))))
      (.root 0 none "rule")).run ((probe .default).frame ⟨⟨[], [], []⟩, [], []⟩)).1 = .error failure →
      failure.isDepth = false := by
  have quiet : (probe .default).evaluator.DepthQuiet := fun _ registered => by cases registered
  refine ⟨?_, (depthLimitHard.1 _ _ _ _).never quiet (by decide +kernel)⟩
  have visits : ∀ x ∈ shallow.applyVisits (.evaluate ⟨[], [], []⟩ .unlimited), x.rule.id = "r" ∧
      x.rule.name = "Unnamed Rule" ∧ Evaluator.refused 1 x.reaches = some 2 ∧
      x.judged.isOk = false ∧ x.key.isOk = true := by decide +kernel
  cases visited : shallow.applyVisits (.evaluate ⟨[], [], []⟩ .unlimited) with
  | nil =>
    have some : (shallow.applyVisits (.evaluate ⟨[], [], []⟩ .unlimited)).length = 1 := by decide +kernel
    rw [visited] at some
    contradiction
  | cons x rest =>
    have member : x ∈ shallow.applyVisits (.evaluate ⟨[], [], []⟩ .unlimited) :=
      visited ▸ List.mem_cons_self
    obtain ⟨id, name, deep, failed, keyed⟩ := visits x member
    have fresh : ∀ verdict, x.judged ≠ .ok (verdict, true) := fun verdict hit => by
      rw [hit] at failed
      contradiction
    obtain ⟨reported, _⟩ := (depthLimitHard.2 _ _ _ _ _ _ _ _ _).1 x member 2 deep fresh
    rw [id, name] at reported
    rcases reported with reported | ⟨b, stuck, _⟩
    · exact reported
    · rw [stuck] at keyed
      contradiction

/-- A condition that decides its parent ends the evaluation before it gets to the limit. -/
theorem decidedBeforeLimit :
    ¬ ∀ (e : Evaluator) (token : Token Float) (tree : Condition) (f : Frame), e.maxDepth < tree.depth →
      ∃ depth, ((e.evaluate tree token).run f).1 = .error (.depthExceeded depth e.maxDepth) := by
  intro always
  obtain ⟨depth, refused⟩ := always shallow.evaluator (.root 0 none "rule")
    (.logical .or [.literal true, .logical .or [.literal true]]) (shallow.frame ⟨⟨[], [], []⟩, [], []⟩)
    (by decide +kernel)
  have answered : ((shallow.evaluator.evaluate (.logical .or [.literal true, .logical .or [.literal true]])
      (.root 0 none "rule")).run (shallow.frame ⟨⟨[], [], []⟩, [], []⟩)).1.isOk = true := by decide +kernel
  rw [refused] at answered
  contradiction

end Engine
end DecisionRules
