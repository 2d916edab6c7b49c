import DecisionRules.Action.Execute
import DecisionRules.Proofs.Run

/-! What an action keeps: if its performance keeps it, and the journal has no part in it, so does its
execution, whether it succeeds or fails. Quiet actions write no variables: those that log, call a webhook,
notify or start a workflow keep the scope and the engine's variables. -/
namespace DecisionRules

/-- One state, of which this holds. -/
def Workspace.Where (p : Workspace → Prop) (w w' : Workspace) : Prop := w' = w ∧ p w

namespace Executor
open Run (Alike)
open Workspace (Where)

variable {p : Workspace → Prop} {e : Executor} {a : Action}

theorem readWhere {α : Type} {k : Workspace → Run Workspace α}
    (next : ∀ w, p w → Alike (Where p) (k w) (k w)) : Alike (Where p) (get >>= k) (get >>= k) := by
  refine Alike.read ?_
  rintro _ w ⟨rfl, holds⟩
  exact next w holds

theorem executeKeeps (journal : ∀ w j, p w → p { w with journal := j })
    (performed : ∀ o config token,
      Alike (Where p) (e.perform o a config token) (e.perform o a config token))
    (o : Occasion) (token : Token Float) (w : Workspace) (holds : p w) : p (e.execute o token a w).2 := by
  unfold execute
  split
  · exact holds
  have attempted (o : Occasion) : Alike (Where p) (e.attempt o a token) (e.attempt o a token) := by
    refine readWhere fun w holds => Alike.bind (Alike.basic _) fun limit => ?_
    refine Alike.bind (Alike.outcome _) fun _ => Alike.bind (Alike.basic _) fun config => ?_
    exact performed o config _
  obtain ⟨r, t, _, ran, _, _, held⟩ := attempted
    { o with context := o.context.within { Log.Context.none with actionId := some a.id } } w w
    ⟨rfl, holds⟩
  dsimp only
  rw [ran]
  cases r with
  | ok result => exact journal t _ held
  | error f => exact journal t _ held

theorem deliverKeeps (wired : ∀ w wire, p w → p (w.setWire wire)) (config : Fields)
    (token : Token Float) : Alike (Where p) (e.deliver config token) (e.deliver config token) := by
  unfold deliver
  split
  · refine Alike.bind (Alike.outcome _) fun request => readWhere fun w holds => ?_
    refine Alike.bind (Alike.outcome _) fun _ => Alike.bind (Alike.put ⟨rfl, wired w _ holds⟩) fun _ => ?_
    split
    · exact Alike.pure _
    · exact Alike.throw _
    · exact Alike.throw _
  · exact Alike.throw _

theorem announceKeeps (journal : ∀ w j, p w → p { w with journal := j }) (r : Outcome (Event × Fields)) :
    Alike (Where p) (announce r) (announce r) := by
  refine Alike.bind (Alike.outcome _) fun (event, result) => Alike.bind (Alike.change ?_) fun _ =>
    Alike.pure _
  rintro _ w ⟨rfl, holds⟩
  exact ⟨rfl, journal w _ holds⟩

theorem callCustomKeeps (framed : ∀ w frame, p w → p { w with frame := frame }) (config : Fields)
    (token : Token Float) : Alike (Where p) (e.callCustom config token) (e.callCustom config token) := by
  refine Alike.bind (Alike.outcome _) fun callable => Alike.bind (Alike.basic _) fun parameters => ?_
  cases callable with
  | some fn =>
    refine Alike.bind (readWhere fun w holds => ?_) fun result => Alike.pure _
    exact Alike.bind (Alike.put ⟨rfl, framed w _ holds⟩) fun _ => Alike.outcome _
  | none => exact readWhere fun w holds => Alike.bind (Alike.outcome _) fun _ => Alike.throw _

end Executor

def ActionType.quiet : ActionType → Bool
  | .assign | .custom => false
  | .log | .webhook | .notification | .workflow => true

namespace Executor
open Run (Alike)
open Workspace (Where)

theorem performQuiet (e : Executor) (o : Occasion) {a : Action} (quiet : a.type.quiet = true)
    (scope : Scope) (globals : Fields) (config : Fields) (token : Token Float) :
    Alike (Where fun w => w.scope = scope ∧ w.globals = globals) (e.perform o a config token)
      (e.perform o a config token) := by
  refine readWhere fun w held => ?_
  cases kind : a.type with
  | log =>
    refine Alike.bind (Alike.basic _) fun (record, result) => ?_
    exact Alike.bind (Alike.put ⟨rfl, held⟩) fun _ => Alike.pure _
  | webhook => exact deliverKeeps (fun _ _ held => held) config token
  | notification => exact announceKeeps (fun _ _ held => held) _
  | workflow => exact announceKeeps (fun _ _ held => held) _
  | assign =>
    rw [kind] at quiet
    contradiction
  | custom =>
    rw [kind] at quiet
    contradiction

theorem executeQuiet (e : Executor) (o : Occasion) (token : Token Float) {a : Action}
    (quiet : a.type.quiet = true) (w : Workspace) :
    (e.execute o token a w).2.scope = w.scope ∧ (e.execute o token a w).2.globals = w.globals :=
  executeKeeps (p := fun t => t.scope = w.scope ∧ t.globals = w.globals) (fun _ _ held => held)
    (fun o config token => performQuiet e o quiet w.scope w.globals config token) o token w ⟨rfl, rfl⟩

theorem runQuiet (e : Executor) (o : Occasion) (token : Token Float) {actions : List Action}
    (quiet : ∀ a ∈ actions, a.type.quiet = true) (w : Workspace) :
    (e.run o token actions w).2.scope = w.scope ∧ (e.run o token actions w).2.globals = w.globals := by
  induction actions generalizing w with
  | nil => exact ⟨rfl, rfl⟩
  | cons a rest ih =>
    obtain ⟨first, others⟩ := List.forall_mem_cons.mp quiet
    obtain ⟨scope, globals⟩ := executeQuiet e o token first w
    obtain ⟨scope', globals'⟩ := ih others (e.execute o token a w).2
    exact ⟨scope'.trans scope, globals'.trans globals⟩

end Executor
end DecisionRules
