import DecisionRules.Engine.Evaluate
import DecisionRules.Host.Catalogue
import DecisionRules.Proofs.Outcome

/-! Runs of an engine: operations in any order, the reports of those that evaluate, and the visits that
the evaluations make. -/
namespace DecisionRules

namespace Engine

inductive Change where
  | create (definition : Fields)
  | copy (id : String) (fields : Fields)
  | update (id : String) (given : Fields)
  | delete (id : String)
  | createGroup (name mode maxRules : Value)

def change (e : Engine) : Change → Outcome Unit × Engine
  | .create definition => ((e.createRule definition).1.map fun _ => (), (e.createRule definition).2)
  | .copy id fields => ((e.copyRule id fields).1.map fun _ => (), (e.copyRule id fields).2)
  | .update id given => ((e.updateRule id given).1.map fun _ => (), (e.updateRule id given).2)
  | .delete id => e.deleteRule id
  | .createGroup name mode maxRules =>
    ((e.createGroup name mode maxRules).1.map fun _ => (), (e.createGroup name mode maxRules).2)

inductive Operation where
  | change (c : Change)
  | setGlobal (name : String) (value : Value)
  | deleteGlobal (name : String)
  | registerFunction (name : String) (fn : Value)
  | registerOperator (name : String) (fn : Value)
  | unregisterFunction (name : String)
  | unregisterOperator (name : String)
  | evaluate (context : Context) (options : EvaluationOptions)
  | clearCache
  | sweep
  | advance (seconds : Float)
  | start
  | enable (enabled : Bool)

/-- The engine after a call, whatever the outcome is, and the report of an evaluation. -/
def apply (e : Engine) : Operation → Option Report × Engine
  | .change c => (none, (e.change c).2)
  | .setGlobal name value => (none, (e.setGlobal name value).2)
  | .deleteGlobal name => (none, (e.deleteGlobal name).2)
  | .registerFunction name fn => (none, (e.registerFunction name fn).2)
  | .registerOperator name fn => (none, (e.registerOperator name fn).2)
  | .unregisterFunction name => (none, (e.unregisterFunction name).2)
  | .unregisterOperator name => (none, (e.unregisterOperator name).2)
  | .evaluate context options =>
    let (report, _, e) := e.evaluate context options
    (some report, e)
  | .clearCache => (none, e.clearCache)
  | .sweep => (none, e.sweep.2)
  | .advance seconds => (none, e.advance seconds)
  | .start => (none, e.start)
  | .enable enabled => (none, { e with enabled := enabled })

def run (e : Engine) : List Operation → List (Option Report) × Engine
  | [] => ([], e)
  | op :: rest =>
    let (report, e) := e.apply op
    let (reports, e) := e.run rest
    (report :: reports, e)

structure Visit where
  engine : Engine
  evaluation : Evaluation
  rule : Rule
  context : Context

def walkVisits (v : Evaluation) (l : MatchLimiter) : List Rule → Context → Engine → List Visit
  | [], _, _ => []
  | rule :: rest, context, e =>
    if l.exhausted then []
    else if l.skips rule then walkVisits v l rest context e
    else
      let (finding, after, e') := e.visit v rule context
      ⟨e, v, rule, context⟩ :: walkVisits v (l.after rule finding) rest after e'

def applyVisits (e : Engine) : Operation → List Visit
  | .evaluate context options =>
    if !e.enabled then []
    else
      let (v, e) := e.opened context
      walkVisits v (.start options e.registry.firstMatchGroups) (e.candidates options) context e
  | _ => []

def visits (e : Engine) : List Operation → List Visit
  | [] => []
  | op :: rest => e.applyVisits op ++ (e.apply op).2.visits rest

namespace Visit

def scope (x : Visit) : Scope := ⟨x.context, x.rule.bindings, x.engine.globals⟩

def token (x : Visit) : Token Float := x.engine.limit x.evaluation x.rule

def fresh (x : Visit) : Outcome Verdict := (x.engine.judgeAfresh x.rule x.token x.scope).1

def key (x : Visit) : Except Breach String :=
  fingerprint x.rule.id x.rule.revision x.scope.data x.scope.snapshot

end Visit

/-! Steps of a walk -/

section Walk
variable {v : Evaluation} {l : MatchLimiter} {rule : Rule} {rest : List Rule} {context : Context}
  {e : Engine}

theorem walkDone (done : l.exhausted = true) :
    walk v l (rule :: rest) context e = ([], context, e) ∧
    walkVisits v l (rule :: rest) context e = [] := by
  simp [walk, walkVisits, done]

theorem walkSkipped (more : l.exhausted = false) (skipped : l.skips rule = true) :
    walk v l (rule :: rest) context e = walk v l rest context e ∧
    walkVisits v l (rule :: rest) context e = walkVisits v l rest context e := by
  simp [walk, walkVisits, more, skipped]

theorem walkVisited (more : l.exhausted = false) (taken : l.skips rule = false)
    {finding : Finding} {after : Context} {e' : Engine}
    (visited : e.visit v rule context = (finding, after, e')) :
    walk v l (rule :: rest) context e =
      (finding :: (walk v (l.after rule finding) rest after e').1,
        (walk v (l.after rule finding) rest after e').2) ∧
    walkVisits v l (rule :: rest) context e =
      ⟨e, v, rule, context⟩ :: walkVisits v (l.after rule finding) rest after e' := by
  simp [walk, walkVisits, more, taken, visited]

end Walk

/-! An evaluation, by whether the engine is enabled -/

theorem evaluateOff {e : Engine} (off : e.enabled = false) (context : Context)
    (options : EvaluationOptions) :
    e.evaluate context options = (⟨Identifier.fresh e.next, [], context.bindings⟩, context,
      { e with next := e.next + 1 }) ∧
    e.applyVisits (.evaluate context options) = [] := by
  simp [evaluate, applyVisits, off]

theorem evaluateOn {e e₁ e₂ : Engine} (on : e.enabled = true) {context after : Context}
    {options : EvaluationOptions} {v : Evaluation} {findings : List Finding}
    (opened : e.opened context = (v, e₁))
    (walked : walk v (.start options e₁.registry.firstMatchGroups) (e₁.candidates options) context e₁ =
      (findings, after, e₂)) :
    e.evaluate context options = (⟨v.id, findings, after.bindings⟩, after,
      e₂.conclude v.log ⟨v.id, findings, after.bindings⟩) ∧
    e.applyVisits (.evaluate context options) =
      walkVisits v (.start options e₁.registry.firstMatchGroups) (e₁.candidates options) context e₁ := by
  simp [evaluate, applyVisits, on, opened, walked]

/-- The same rules, groups and kept results, under the same settings. -/
structure SameHoldings (a b : Engine) : Prop where
  settings : b.settings = a.settings
  registry : b.registry = a.registry
  cache : b.cache = a.cache

theorem evaluateWalks {e : Engine} (on : e.enabled = true) (context : Context)
    (options : EvaluationOptions) :
    ∃ v e₁ walked, e.SameHoldings e₁ ∧
      walk v (.start options e.registry.firstMatchGroups) (e.candidates options) context e₁ = walked ∧
      (e.evaluate context options).1.findings = walked.1 ∧
      walked.2.2.SameHoldings (e.evaluate context options).2.2 ∧
      e.applyVisits (.evaluate context options) =
        walkVisits v (.start options e.registry.firstMatchGroups) (e.candidates options) context e₁ := by
  obtain ⟨v, e₁, opened, same, candidates⟩ : ∃ v e₁, e.opened context = (v, e₁) ∧
      e.SameHoldings e₁ ∧ e₁.candidates options = e.candidates options :=
    ⟨_, _, rfl, ⟨rfl, rfl, rfl⟩, rfl⟩
  cases left : walk v (.start options e₁.registry.firstMatchGroups) (e₁.candidates options) context
      e₁ with
  | mk findings rest =>
    obtain ⟨after, e₂⟩ := rest
    obtain ⟨evaluated, visited⟩ := evaluateOn on opened left
    rw [same.registry, candidates] at left visited
    rw [evaluated]
    exact ⟨v, e₁, _, same, left, rfl, ⟨rfl, rfl, rfl⟩, visited⟩

/-! A judgement -/

/-- How a judgement comes to its answer, and what it leaves: it keeps no results or has no key, it finds
one, it finds none and fails, or it computes one and keeps it. -/
inductive Judged (e : Engine) (log : Log.Context) (rule : Rule) (token : Token Float) (scope : Scope) :
    Outcome (Verdict × Bool) → Engine → Prop where
  | plain {r : Outcome (Verdict × Bool)} {after : Engine} (fresh : ∀ verdict, r ≠ .ok (verdict, true))
      (held : e.SameHoldings after) : Judged e log rule token scope r after
  | hit {key : String} {verdict : Verdict} {cache : Cache Float Verdict}
      (keyed : fingerprint rule.id rule.revision scope.data scope.snapshot = .ok key)
      (found : e.cache.get rule.id key e.clock = (some verdict, cache)) :
      Judged e log rule token scope (.ok (verdict, true)) { e with cache := cache }
  | failed {key : String} {cache : Cache Float Verdict} {f : Failure} {after : Engine}
      (missed : e.cache.get rule.id key e.clock = (none, cache))
      (held : SameHoldings { e with cache := cache } after) :
      Judged e log rule token scope (.error f) after
  | kept {key : String} {verdict : Verdict} {cache : Cache Float Verdict} {e' after : Engine}
      (keyed : fingerprint rule.id rule.revision scope.data scope.snapshot = .ok key)
      (missed : e.cache.get rule.id key e.clock = (none, cache))
      (answered : (e.judgeAfresh rule token scope).1 = .ok verdict)
      (held : SameHoldings { e with cache := cache } e')
      (stored : e'.remember log rule.id key verdict = .ok after) :
      Judged e log rule token scope (.ok (verdict, false)) after

theorem judgeAfreshHeld (e : Engine) (rule : Rule) (token : Token Float) (scope : Scope) :
    e.SameHoldings (e.judgeAfresh rule token scope).2.2 := ⟨rfl, rfl, rfl⟩

theorem judgeJudged (e : Engine) (log : Log.Context) (rule : Rule) (token : Token Float)
    (scope : Scope) :
    e.Judged log rule token scope (e.judge log rule token scope).1 (e.judge log rule token scope).2.2 := by
  unfold judge
  split
  · refine .plain (fun verdict hit => ?_) (judgeAfreshHeld e rule token scope)
    obtain ⟨_, _, marked⟩ := mapAccepts.mp hit
    simp at marked
  split
  · exact .plain (by simp) ⟨rfl, rfl, rfl⟩
  rename_i key keyed
  split
  · rename_i found
    exact .hit keyed found
  · rename_i cache missed
    have held := judgeAfreshHeld { e with cache := cache } rule token scope
    split
    · rename_i judged
      rw [judged] at held
      exact .failed missed held
    · rename_i judged
      rw [judged] at held
      split
      · exact .failed missed held
      · rename_i stored
        exact .kept keyed missed (congrArg Prod.fst judged) held stored

/-- A judgement is about the clock and what is kept. It publishes nothing. -/
theorem judgeTouches (e : Engine) (log : Log.Context) (rule : Rule) (token : Token Float)
    (scope : Scope) : ∃ cache clock ticks records, (e.judge log rule token scope).2.2 =
      { e with cache, clock, ticks, journal := ⟨e.journal.events, records⟩ } := by
  have afresh (e : Engine) : ∃ clock ticks,
      (e.judgeAfresh rule token scope).2.2 = { e with clock, ticks } := ⟨_, _, rfl⟩
  have remembered {e after : Engine} {key : String} {verdict : Verdict}
      (ok : e.remember log rule.id key verdict = .ok after) :
      ∃ cache records, after = { e with cache, journal := ⟨e.journal.events, records⟩ } := by
    simp only [remember, bindAccepts, pureAccepts] at ok
    obtain ⟨cache, _, rfl⟩ := ok
    split <;> exact ⟨_, _, rfl⟩
  unfold judge
  split
  · exact ⟨_, _, _, _, rfl⟩
  split
  · exact ⟨_, _, _, _, rfl⟩
  split
  · exact ⟨_, _, _, _, rfl⟩
  rename_i cache _
  obtain ⟨clock, ticks, left⟩ := afresh { e with cache := cache }
  split
  · rename_i judged
    rw [judged] at left
    exact ⟨_, _, _, _, left⟩
  · rename_i judged
    rw [judged] at left
    dsimp only at left
    subst left
    split
    · exact ⟨_, _, _, _, rfl⟩
    · rename_i stored
      obtain ⟨_, _, rfl⟩ := remembered stored
      exact ⟨_, _, _, _, rfl⟩

/-! A visit settles what a judgement leaves. -/

theorem visitSettles {e after : Engine} {v : Evaluation} {rule : Rule} {context : Context} {scope : Scope}
    {r : Outcome (Verdict × Bool)}
    (judged : e.judge (v.logOf rule) rule (e.limit v rule) ⟨context, rule.bindings, e.globals⟩ =
      (r, scope, after)) : e.visit v rule context = after.settle v rule scope r := by
  unfold visit
  rw [judged]

theorem visitSettlesJudged (e : Engine) (v : Evaluation) (rule : Rule) (context : Context) :
    ∃ r scope cache clock ticks records, e.visit v rule context =
      settle { e with cache, clock, ticks, journal := ⟨e.journal.events, records⟩ } v rule scope r := by
  obtain ⟨cache, clock, ticks, records, left⟩ := e.judgeTouches (v.logOf rule) rule (e.limit v rule)
    ⟨context, rule.bindings, e.globals⟩
  obtain ⟨r, scope, after, judged⟩ : ∃ r scope after, e.judge (v.logOf rule) rule (e.limit v rule)
      ⟨context, rule.bindings, e.globals⟩ = (r, scope, after) := ⟨_, _, _, rfl⟩
  rw [judged] at left
  exact ⟨r, scope, cache, clock, ticks, records, left ▸ visitSettles judged⟩

/-! What an evaluation leaves alone -/

theorem settleTouches (e : Engine) (v : Evaluation) (rule : Rule) (scope : Scope)
    (r : Outcome (Verdict × Bool)) : ∃ registry globals clock ticks network received journal,
      (e.settle v rule scope r).2.2 =
        { e with registry, globals, clock, ticks, network, received, journal } := by
  rcases r with f | ⟨⟨_ | _, trace⟩, hit⟩ <;> exact ⟨_, _, _, _, _, _, _, rfl⟩

theorem visitTouches (e : Engine) (v : Evaluation) (rule : Rule) (context : Context) :
    ∃ registry globals cache clock ticks network received journal, (e.visit v rule context).2.2 =
      { e with registry, globals, cache, clock, ticks, network, received, journal } := by
  obtain ⟨r, scope, cache, clock, ticks, records, visited⟩ := e.visitSettlesJudged v rule context
  obtain ⟨_, _, _, _, _, _, _, left⟩ := settleTouches
    { e with cache, clock, ticks, journal := ⟨e.journal.events, records⟩ } v rule scope r
  rw [visited, left]
  exact ⟨_, _, _, _, _, _, _, _, rfl⟩

theorem visitSettings (e : Engine) (v : Evaluation) (rule : Rule) (context : Context) :
    (e.visit v rule context).2.2.settings = e.settings := by
  obtain ⟨_, _, _, _, _, _, _, _, left⟩ := visitTouches e v rule context
  rw [left]

theorem walkTouches (v : Evaluation) (l : MatchLimiter) (rules : List Rule) (context : Context)
    (e : Engine) : ∃ registry globals cache clock ticks network received journal,
      (walk v l rules context e).2.2 =
        { e with registry, globals, cache, clock, ticks, network, received, journal } := by
  induction rules generalizing l context e with
  | nil => exact ⟨_, _, _, _, _, _, _, _, rfl⟩
  | cons rule rest ih =>
    cases done : l.exhausted with
    | true =>
      rw [(walkDone done).1]
      exact ⟨_, _, _, _, _, _, _, _, rfl⟩
    | false =>
      cases skipped : l.skips rule with
      | true =>
        rw [(walkSkipped done skipped).1]
        exact ih l context e
      | false =>
        obtain ⟨_, _, _, _, _, _, _, _, left⟩ := visitTouches e v rule context
        obtain ⟨finding, after, e', visited⟩ : ∃ finding after e',
            e.visit v rule context = (finding, after, e') := ⟨_, _, _, rfl⟩
        rw [visited] at left
        rw [(walkVisited done skipped visited).1]
        change e' = _ at left
        subst left
        exact ih (l.after rule finding) after _

theorem evaluateTouches (e : Engine) (context : Context) (options : EvaluationOptions) :
    ∃ registry globals cache counters clock ticks next network received journal,
      (e.evaluate context options).2.2 =
        { e with registry, globals, cache, counters, clock, ticks, next, network, received, journal } := by
  by_cases on : e.enabled = true
  · obtain ⟨_, _, _, _, _, _, _, _, left⟩ := walkTouches (e.opened context).1
      (.start options e.registry.firstMatchGroups) (e.candidates options) context (e.opened context).2
    obtain ⟨findings, after, e₂, walked⟩ : ∃ findings after e₂, walk (e.opened context).1
        (.start options e.registry.firstMatchGroups) (e.candidates options) context
        (e.opened context).2 = (findings, after, e₂) := ⟨_, _, _, rfl⟩
    rw [walked] at left
    rw [(evaluateOn on rfl walked).1]
    change e₂ = _ at left
    subst left
    exact ⟨_, _, _, _, _, _, _, _, _, _, rfl⟩
  · rw [(evaluateOff (by simpa using on) context options).1]
    exact ⟨_, _, _, _, _, _, _, _, _, _, rfl⟩

/-! What an operation leaves alone -/

/-- A change of rules or groups is about the registry, and the rest goes with it. -/
theorem changeTouches (e : Engine) (c : Change) : ∃ registry cache created next journal,
    (e.change c).2 =
      { e with registry, cache, counters := { e.counters with created }, next, journal } := by
  have created (definition : Fields) : ∃ registry cache created next journal,
      (e.createRule definition).2 =
        { e with registry, cache, counters := { e.counters with created }, next, journal } := by
    unfold createRule
    split <;> exact ⟨_, _, _, _, _, rfl⟩
  cases c with
  | create definition => exact created definition
  | copy id fields =>
    change ∃ registry cache created next journal, (e.copyRule id fields).2 = _
    unfold copyRule
    split
    · exact ⟨_, _, _, _, _, rfl⟩
    · exact created _
  | update id given =>
    change ∃ registry cache created next journal, (e.updateRule id given).2 = _
    unfold updateRule
    split <;> exact ⟨_, _, _, _, _, rfl⟩
  | delete id =>
    change ∃ registry cache created next journal, (e.deleteRule id).2 = _
    unfold deleteRule
    split <;> exact ⟨_, _, _, _, _, rfl⟩
  | createGroup name mode maxRules => exact ⟨_, _, _, _, _, rfl⟩

def Operation.upkeep : Operation → Bool
  | .change _ | .evaluate _ _ | .setGlobal _ _ | .deleteGlobal _ => false
  | _ => true

theorem applyUpkeep (e : Engine) {op : Operation} (upkeep : op.upkeep = true) :
    ∃ operators cache maintenance clock enabled journal,
      e.apply op = (none, { e with operators, cache, maintenance, clock, enabled, journal }) := by
  cases op with
  | registerFunction name fn =>
    simp only [apply, registerFunction]
    split <;> exact ⟨_, _, _, _, _, _, rfl⟩
  | registerOperator name fn =>
    simp only [apply, registerOperator]
    split <;> exact ⟨_, _, _, _, _, _, rfl⟩
  | sweep =>
    simp only [apply, sweep]
    split <;> exact ⟨_, _, _, _, _, _, rfl⟩
  | change c => simp [Operation.upkeep] at upkeep
  | evaluate context options => simp [Operation.upkeep] at upkeep
  | setGlobal name value => simp [Operation.upkeep] at upkeep
  | deleteGlobal name => simp [Operation.upkeep] at upkeep
  | unregisterFunction name => exact ⟨_, _, _, _, _, _, rfl⟩
  | unregisterOperator name => exact ⟨_, _, _, _, _, _, rfl⟩
  | clearCache => exact ⟨_, _, _, _, _, _, rfl⟩
  | advance seconds => exact ⟨_, _, _, _, _, _, rfl⟩
  | start => exact ⟨_, _, _, _, _, _, rfl⟩
  | enable enabled => exact ⟨_, _, _, _, _, _, rfl⟩

theorem setGlobalTouches (e : Engine) (name : String) (value : Value) :
    ∃ globals, (e.setGlobal name value).2 = { e with globals } := by
  unfold setGlobal
  split <;> exact ⟨_, rfl⟩

theorem deleteGlobalTouches (e : Engine) (name : String) :
    ∃ globals, (e.deleteGlobal name).2 = { e with globals } := by
  unfold deleteGlobal
  split <;> exact ⟨_, rfl⟩

theorem changeSettings (e : Engine) (c : Change) : (e.change c).2.settings = e.settings := by
  obtain ⟨_, _, _, _, _, left⟩ := changeTouches e c
  rw [left]

theorem applySettings (e : Engine) (op : Operation) : (e.apply op).2.settings = e.settings := by
  cases upkeep : op.upkeep with
  | true =>
    obtain ⟨_, _, _, _, _, _, left⟩ := applyUpkeep e upkeep
    rw [left]
  | false =>
    cases op with
    | change c => exact changeSettings e c
    | setGlobal name value =>
      obtain ⟨_, left⟩ := setGlobalTouches e name value
      change (e.setGlobal name value).2.settings = e.settings
      rw [left]
    | deleteGlobal name =>
      obtain ⟨_, left⟩ := deleteGlobalTouches e name
      change (e.deleteGlobal name).2.settings = e.settings
      rw [left]
    | evaluate context options =>
      obtain ⟨_, _, _, _, _, _, _, _, _, _, left⟩ := evaluateTouches e context options
      change (e.evaluate context options).2.2.settings = e.settings
      rw [left]
    | _ => contradiction

/-! Most operations have nothing to do with rules or with kept results. -/

def Operation.rests : Operation → Bool
  | .change _ | .evaluate _ _ | .clearCache | .sweep => false
  | _ => true

theorem applyRests (e : Engine) {op : Operation} (rests : op.rests = true) :
    (e.apply op).2.cache = e.cache ∧ (e.apply op).2.registry = e.registry ∧ e.applyVisits op = [] := by
  cases op with
  | setGlobal name value =>
    simp only [apply, setGlobal]
    split <;> exact ⟨rfl, rfl, rfl⟩
  | deleteGlobal name =>
    simp only [apply, deleteGlobal]
    split <;> exact ⟨rfl, rfl, rfl⟩
  | registerFunction name fn =>
    simp only [apply, registerFunction]
    split <;> exact ⟨rfl, rfl, rfl⟩
  | registerOperator name fn =>
    simp only [apply, registerOperator]
    split <;> exact ⟨rfl, rfl, rfl⟩
  | change c => simp [Operation.rests] at rests
  | evaluate context options => simp [Operation.rests] at rests
  | clearCache => simp [Operation.rests] at rests
  | sweep => simp [Operation.rests] at rests
  | unregisterFunction name => exact ⟨rfl, rfl, rfl⟩
  | unregisterOperator name => exact ⟨rfl, rfl, rfl⟩
  | advance seconds => exact ⟨rfl, rfl, rfl⟩
  | start => exact ⟨rfl, rfl, rfl⟩
  | enable enabled => exact ⟨rfl, rfl, rfl⟩

theorem sweepRests (e : Engine) :
    e.sweep.2.cache = (e.cache.sweep e.clock).2 ∧ e.sweep.2.registry = e.registry := by
  unfold sweep
  dsimp only
  split <;> exact ⟨rfl, rfl⟩

def probe (s : Settings) : Engine :=
  create s (.catalogue 0 "") (.keeping fun _ => .stalled) [] 0 (.quiet [])

end Engine
end DecisionRules
