import DecisionRules.Proofs.Action.Protected
import DecisionRules.Proofs.Engine.Run

/-! Variables of the engine that are read only. Through all operations they have the values that the
settings gave them, or none; and no action of an evaluation that writes variables touches their names. -/
namespace DecisionRules

theorem Executor.runProtects {e : Executor} {name : String} (protect : name ∈ e.readOnly) (o : Occasion)
    (token : Token Float) (actions : List Action) (w : Workspace) :
    Assoc.get? (e.run o token actions w).2.globals name = Assoc.get? w.globals name := by
  induction actions generalizing w with
  | nil => rfl
  | cons a rest ih => exact (ih (e.execute o token a w).2).trans (executeProtects protect o token a w)

namespace Engine

/-- The name is read only, and has this value among the engine's variables, or none. -/
structure Fixes (name : String) (value : Option Value) (e : Engine) : Prop where
  protect : name ∈ e.settings.bindings.readOnly
  value : Assoc.get? e.globals name = value

namespace Fixes
variable {name : String} {value : Option Value} {e after : Engine}

theorem same (fixes : e.Fixes name value) (settings : after.settings = e.settings)
    (globals : after.globals = e.globals) : after.Fixes name value :=
  ⟨settings ▸ fixes.protect, globals ▸ fixes.value⟩

theorem different (fixes : e.Fixes name value) {other : String} (free : ¬ e.isReadOnly other = true) :
    other ≠ name := by
  rintro rfl
  exact free (List.contains_iff_mem.mpr fixes.protect)

end Fixes

variable {name : String} {value : Option Value} {e : Engine}

theorem settleFixes (fixes : e.Fixes name value) (v : Evaluation) (rule : Rule) (scope : Scope)
    (r : Outcome (Verdict × Bool)) : (e.settle v rule scope r).2.2.Fixes name value := by
  rcases r with f | ⟨⟨_ | _, trace⟩, hit⟩
  · exact fixes.same rfl rfl
  · exact fixes.same rfl rfl
  · have kept := Executor.runProtects (e := e.executor) fixes.protect ⟨some rule.id, v.logOf rule⟩ v.token
      rule.actions (e.workspace scope)
    exact ⟨fixes.protect, kept.trans fixes.value⟩

theorem visitFixes (fixes : e.Fixes name value) (v : Evaluation) (rule : Rule) (context : Context) :
    (e.visit v rule context).2.2.Fixes name value := by
  obtain ⟨r, scope, _, _, _, _, visited⟩ := e.visitSettlesJudged v rule context
  rw [visited]
  refine settleFixes ?_ v rule scope r
  exact fixes.same rfl rfl

theorem walkFixes (fixes : e.Fixes name value) (v : Evaluation) (l : MatchLimiter) (rules : List Rule)
    (context : Context) :
    (walk v l rules context e).2.2.Fixes name value ∧
    ∀ x ∈ walkVisits v l rules context e, x.engine.Fixes name value := by
  induction rules generalizing l context e with
  | nil => exact ⟨fixes, by simp [walkVisits]⟩
  | cons rule rest ih =>
    unfold walk walkVisits
    split
    · exact ⟨fixes, by simp⟩
    split
    · exact ih fixes l context
    · obtain ⟨after, visits⟩ := ih (visitFixes fixes v rule context)
        (l.after rule (e.visit v rule context).1) (e.visit v rule context).2.1
      exact ⟨after, List.forall_mem_cons.mpr ⟨fixes, visits⟩⟩

theorem evaluateFixes (fixes : e.Fixes name value) (context : Context) (options : EvaluationOptions) :
    (e.evaluate context options).2.2.Fixes name value ∧
    ∀ x ∈ e.applyVisits (.evaluate context options), x.engine.Fixes name value := by
  cases on : e.enabled with
  | false =>
    rw [(evaluateOff on context options).1, (evaluateOff on context options).2]
    exact ⟨fixes.same rfl rfl, by simp⟩
  | true =>
    obtain ⟨v, e₁, opened, begun⟩ : ∃ v e₁, e.opened context = (v, e₁) ∧ e₁.Fixes name value :=
      ⟨_, _, rfl, fixes.same rfl rfl⟩
    obtain ⟨findings, after, e₂, walked⟩ : ∃ findings after e₂,
        walk v (.start options e₁.registry.firstMatchGroups) (e₁.candidates options) context e₁ =
          (findings, after, e₂) := ⟨_, _, _, rfl⟩
    obtain ⟨ended, visits⟩ := walkFixes begun v (.start options e₁.registry.firstMatchGroups)
      (e₁.candidates options) context
    rw [walked] at ended
    rw [(evaluateOn on opened walked).1, (evaluateOn on opened walked).2]
    exact ⟨ended.same rfl rfl, visits⟩

theorem setGlobalFixes (fixes : e.Fixes name value) (other : String) (v : Value) :
    (e.setGlobal other v).2.Fixes name value := by
  unfold setGlobal
  split
  · exact fixes
  · rename_i free
    exact ⟨fixes.protect, (Assoc.getSetOther _ (fixes.different free) v).trans fixes.value⟩

theorem deleteGlobalFixes (fixes : e.Fixes name value) (other : String) :
    (e.deleteGlobal other).2.Fixes name value := by
  unfold deleteGlobal
  split
  · exact fixes
  · rename_i free
    exact ⟨fixes.protect, (Assoc.getEraseOther _ (fixes.different free)).trans fixes.value⟩

theorem applyFixes (fixes : e.Fixes name value) (op : Operation) :
    (e.apply op).2.Fixes name value := by
  cases upkeep : op.upkeep with
  | true =>
    obtain ⟨_, _, _, _, _, _, left⟩ := applyUpkeep e upkeep
    rw [left]
    exact fixes.same rfl rfl
  | false =>
    cases op with
    | change c =>
      obtain ⟨_, _, _, _, _, left⟩ := changeTouches e c
      change (e.change c).2.Fixes name value
      rw [left]
      exact fixes.same rfl rfl
    | setGlobal other v => exact setGlobalFixes fixes other v
    | deleteGlobal other => exact deleteGlobalFixes fixes other
    | evaluate context options => exact (evaluateFixes fixes context options).1
    | _ => contradiction

theorem runFixes (fixes : e.Fixes name value) (ops : List Operation) :
    (e.run ops).2.Fixes name value ∧ ∀ x ∈ e.visits ops, x.engine.Fixes name value := by
  induction ops generalizing e with
  | nil => exact ⟨fixes, by simp [visits]⟩
  | cons op rest ih =>
    obtain ⟨after, later⟩ := ih (applyFixes fixes op)
    refine ⟨after, fun x visited => ?_⟩
    rcases List.mem_append.mp visited with now | visited
    · cases op with
      | evaluate context options => exact (evaluateFixes fixes context options).2 x now
      | _ => exact absurd now List.not_mem_nil
    · exact later x visited

/-- Through all operations, a read-only name keeps the value that the settings gave it, also at each visit
to a rule; and no action that may be executed there, in whatever state, changes it or, if it writes
variables, any layer under that name. -/
theorem readOnlyFixed (s : Settings) (host : Host) (transport : Transport) (env : Environment)
    (clock : Float) (network : Network Float) (ops : List Operation) (name : String)
    (protect : name ∈ s.bindings.readOnly) :
    let start := create s host transport env clock network
    Assoc.get? (start.run ops).2.globals name = Assoc.get? s.bindings.globals name ∧
    ∀ x ∈ start.visits ops, Assoc.get? x.engine.globals name = Assoc.get? s.bindings.globals name ∧
      ∀ (o : Occasion) (token : Token Float) (a : Action) (w : Workspace),
        let after := (x.engine.executor.execute o token a w).2
        Assoc.get? after.globals name = Assoc.get? w.globals name ∧
        (a.type = .assign → w.SameAt name after) := by
  intro start
  have fixes : start.Fixes name (Assoc.get? s.bindings.globals name) := ⟨protect, rfl⟩
  obtain ⟨after, visits⟩ := runFixes fixes ops
  refine ⟨after.value, fun x visited => ⟨(visits x visited).value, fun o token a w => ?_⟩⟩
  have listed : name ∈ x.engine.executor.readOnly := (visits x visited).protect
  exact ⟨Executor.executeProtects listed o token a w,
    fun kind => Executor.executeAssign kind listed o token w⟩

def guarded : Settings := { Settings.default with bindings := ⟨[("n", .int 1)], ["n"]⟩ }

/-- A rule whose actions write the variable that the facts name, one that is read only, and another. -/
def intrusion : List Operation :=
  let write (fields : Fields) : Value := .object [("type", .text "variable"), ("config", .object fields)]
  [.change (.create [("id", .text "r"), ("conditions", .bool true), ("actions", .list [
      write [("name", .text "$\x7bdata.which\x7d"), ("value", .int 2), ("scope", .text "global")],
      write [("name", .text "n"), ("operation", .text "delete")],
      write [("name", .text "m"), ("value", .int 2), ("scope", .text "global")]])]),
    .setGlobal "n" (.int 3), .deleteGlobal "n",
    .evaluate ⟨[("which", .text "n")], [], []⟩ .unlimited]

theorem readOnlyFixedIntrusion :
    "n" ∈ guarded.bindings.readOnly ∧
    ((probe guarded).visits intrusion).map (fun x => x.rule.id) = ["r"] ∧
    Assoc.keys ((probe guarded).run intrusion).2.globals = ["n", "m"] ∧
    Assoc.get? ((probe guarded).run intrusion).2.globals "n" = some (.int 1) ∧
    ∀ x ∈ (probe guarded).visits intrusion, ∀ (o : Occasion) (token : Token Float) (a : Action)
      (w : Workspace), a.type = .assign → w.SameAt "n" (x.engine.executor.execute o token a w).2 := by
  have protect : "n" ∈ guarded.bindings.readOnly := by decide
  have seen : ((probe guarded).visits intrusion).map (fun x => x.rule.id) = ["r"] := by decide +kernel
  have left : Assoc.keys ((probe guarded).run intrusion).2.globals = ["n", "m"] := by decide +kernel
  obtain ⟨value, visits⟩ := readOnlyFixed guarded (.catalogue 0 "") (.keeping fun _ => .stalled) [] 0
    (.quiet []) intrusion "n" protect
  unfold probe at seen left ⊢
  exact ⟨protect, seen, left, value.trans rfl,
    fun x visited o token a w => ((visits x visited).2 o token a w).2⟩

end Engine
end DecisionRules
