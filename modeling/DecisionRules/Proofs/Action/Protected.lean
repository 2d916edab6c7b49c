import DecisionRules.Proofs.Action.Quiet
import DecisionRules.Proofs.Action.Store

/-! Names that are read only. No action writes them among the engine's variables; and an action that
writes variables, whatever its name resolves to, leaves them alone in every layer of the scope. -/
namespace DecisionRules

/-- The same variable under this name, or none, for the engine and in each layer of the scope. -/
structure Workspace.SameAt (name : String) (w w' : Workspace) : Prop where
  engine : Assoc.get? w'.globals name = Assoc.get? w.globals name
  caller : Assoc.get? w'.scope.caller name = Assoc.get? w.scope.caller name
  rule : Assoc.get? w'.scope.rule name = Assoc.get? w.scope.rule name
  globals : Assoc.get? w'.scope.globals name = Assoc.get? w.scope.globals name

theorem Workspace.SameAt.refl (name : String) (w : Workspace) : w.SameAt name w := ⟨rfl, rfl, rfl, rfl⟩

theorem Workspace.SameAt.trans {name : String} {a b c : Workspace} (first : a.SameAt name b)
    (next : b.SameAt name c) : a.SameAt name c :=
  ⟨next.engine.trans first.engine, next.caller.trans first.caller, next.rule.trans first.rule,
    next.globals.trans first.globals⟩

namespace Action

theorem writeGlobalOthers {name other : String} (different : name ≠ other) (value : Option Value)
    (w : Workspace) : w.SameAt other
      { w.setScope (writeGlobal w.globals w.scope name value).2 with
        globals := (writeGlobal w.globals w.scope name value).1 } := by
  cases value with
  | none => exact ⟨Assoc.getEraseOther _ different, rfl, rfl, Assoc.getEraseOther _ different⟩
  | some v => exact ⟨Assoc.getSetOther _ different v, rfl, rfl, Assoc.getSetOther _ different v⟩

theorem writeLocalOthers {name other : String} (different : name ≠ other) (value : Option Value)
    (w : Workspace) : w.SameAt other (w.setScope (writeLocal w.scope name value)) := by
  cases value with
  | none => exact ⟨rfl, Assoc.getEraseOther _ different, Assoc.getEraseOther _ different, rfl⟩
  | some v => exact ⟨rfl, Assoc.getSetOther _ different v, rfl, rfl⟩

theorem assignOthers {readOnly : List String} {config globals result : Fields} {scope : Scope}
    {w : Workspace} (ok : assign readOnly config w.globals w.scope = .ok (result, globals, scope))
    {other : String} (protect : other ∈ readOnly) :
    w.SameAt other { w.setScope scope with globals := globals } := by
  obtain ⟨name, value, _, free, _, _, after⟩ := assignIff.mp ok
  have different : name ≠ other := fun same => free (same ▸ protect)
  unfold written at after
  split at after
  · obtain ⟨rfl, rfl⟩ := Prod.ext_iff.mp after
    exact writeGlobalOthers different value w
  · obtain ⟨rfl, rfl⟩ := Prod.ext_iff.mp after
    exact writeLocalOthers different value w

end Action

namespace Executor
open Run (Alike)
open Workspace (Where)

variable {e : Executor} {a : Action} {name : String}

theorem performAssign (kind : a.type = .assign) (protect : name ∈ e.readOnly) (start : Workspace)
    (o : Occasion) (config : Fields) (token : Token Float) :
    Alike (Where (start.SameAt name)) (e.perform o a config token) (e.perform o a config token) := by
  refine readWhere fun w same => ?_
  rw [kind]
  dsimp only
  cases assigned : Action.assign e.readOnly config w.globals w.scope with
  | error f => exact Alike.throw f
  | ok answer =>
    obtain ⟨result, globals, scope⟩ := answer
    simp only [Evaluator.outcome, pure_bind]
    exact Alike.bind (Alike.put ⟨rfl, same.trans (Action.assignOthers assigned protect)⟩) fun _ =>
      Alike.pure _

/-- Callables of the host see a copy of the engine's variables. -/
theorem performCustom (kind : a.type = .custom) (globals : Fields) (o : Occasion) (config : Fields)
    (token : Token Float) :
    Alike (Where fun w => w.globals = globals) (e.perform o a config token)
      (e.perform o a config token) := by
  refine readWhere fun w same => ?_
  rw [kind]
  exact callCustomKeeps (fun _ _ same => same) config token

theorem executeAssign (kind : a.type = .assign) (protect : name ∈ e.readOnly) (o : Occasion)
    (token : Token Float) (w : Workspace) : w.SameAt name (e.execute o token a w).2 :=
  executeKeeps (fun _ _ same => ⟨same.engine, same.caller, same.rule, same.globals⟩)
    (performAssign kind protect w) o token w (.refl name w)

theorem executeProtects (protect : name ∈ e.readOnly) (o : Occasion) (token : Token Float)
    (a : Action) (w : Workspace) :
    Assoc.get? (e.execute o token a w).2.globals name = Assoc.get? w.globals name := by
  cases kind : a.type with
  | assign => exact (executeAssign kind protect o token w).engine
  | custom =>
    have held : (e.execute o token a w).2.globals = w.globals :=
      executeKeeps (p := fun t => t.globals = w.globals) (fun _ _ held => held)
        (performCustom kind w.globals) o token w rfl
    rw [held]
  | log | webhook | notification | workflow =>
    rw [(executeQuiet e o token (a := a) (by rw [kind]; rfl) w).2]

end Executor
end DecisionRules
