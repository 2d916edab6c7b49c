import DecisionRules.Proofs.Action.Attempt

/-! Actions read neither the journal nor what is logged about them. With another journal, for another
occasion of the same rule, they answer the same, publish the same events, and leave the same behind up to
the journal. -/
namespace DecisionRules

def Workspace.Same (w w' : Workspace) : Prop := w' = { w with journal := w'.journal }

/-- The same but for the journals, to whose events the same has been added. -/
def Workspace.Beside (base base' : List Event) (w w' : Workspace) : Prop :=
  ∃ added records, w.journal.events = base ++ added ∧
    w' = { w with journal := ⟨base' ++ added, records⟩ }

namespace Workspace.Beside
variable {base base' : List Event} {w w' : Workspace}

theorem publish (beside : Beside base base' w w') (event : Event) :
    Beside base base' (w.publish event) (w'.publish event) := by
  obtain ⟨added, records, events, rfl⟩ := beside
  refine ⟨added ++ [event], records, ?_, ?_⟩
  · simp [Workspace.publish, Journal.publish, events]
  · simp [Workspace.publish, Journal.publish]

theorem note (beside : Beside base base' w w') (r r' : Log.Record) :
    Beside base base' (w.note r) (w'.note r') := by
  obtain ⟨added, records, events, rfl⟩ := beside
  exact ⟨added, records ++ [r'], events, rfl⟩

end Workspace.Beside

theorem Action.logEntryContext (now : Int) (context context' : Log.Context) (config : Fields) :
    (∃ b, logEntry now context config = .error b ∧ logEntry now context' config = .error b) ∨
    ∃ record record' result, logEntry now context config = .ok (record, result) ∧
      logEntry now context' config = .ok (record', result) := by
  unfold logEntry
  cases levelName config with
  | error b => exact .inl ⟨b, rfl, rfl⟩
  | ok level =>
    cases (Assoc.getD config "message" (.text "")).display with
    | error b => exact .inl ⟨b, rfl, rfl⟩
    | ok message => exact .inr ⟨_, _, _, rfl, rfl⟩

namespace Executor
open Run (Alike)
open Workspace (Beside Same)

/-- Workspaces so related are the same to this executor's actions, and each leaves them so related. -/
structure Overlooks (e : Executor) (R : Workspace → Workspace → Prop) : Prop where
  frame {w w' : Workspace} (related : R w w') : w'.frame = w.frame
  globals {w w' : Workspace} (related : R w w') : w'.globals = w.globals
  written {w w' : Workspace} (related : R w w') (frame : Frame) (globals : Fields) :
    R { w with frame := frame, globals := globals } { w' with frame := frame, globals := globals }
  published {w w' : Workspace} (related : R w w') (event : Event) : R (w.publish event) (w'.publish event)
  noted {w w' : Workspace} (related : R w w') (r r' : Log.Record) : R (w.note r) (w'.note r')
  sent {w w' : Workspace} {transport : Transport} (carried : e.transport = some transport) (related : R w w')
    (r : WebhookRequest) (token : Token Float) :
    (transport.send r token w'.wire).1 = (transport.send r token w.wire).1 ∧
    R (w.setWire (transport.send r token w.wire).2) (w'.setWire (transport.send r token w'.wire).2)

namespace Overlooks
variable {e : Executor} {R : Workspace → Workspace → Prop} {o o' : Occasion}

theorem onFrame (overlooks : e.Overlooks R) {α : Type} (m : Run Frame α) :
    Alike R (onFrame m) (onFrame m) := by
  refine Alike.read fun w w' related => ?_
  have written (frame : Frame) : R { w with frame := frame } { w' with frame := frame } := by
    have both := overlooks.written related frame w.globals
    obtain ⟨_, globals, _, _, _⟩ := w'
    cases overlooks.globals related
    exact both
  rw [overlooks.frame related]
  exact Alike.bind (Alike.put (written _)) fun _ => Alike.outcome _

theorem deliver (overlooks : e.Overlooks R) (config : Fields) (token : Token Float) :
    Alike R (e.deliver config token) (e.deliver config token) := by
  intro w w' related
  obtain ⟨f, failed⟩ | ⟨transport, r, carried, ran⟩ := deliverCases e config token
  · exact ⟨.error f, w, w', failed w, failed w', related⟩
  · obtain ⟨answer, left⟩ := overlooks.sent carried related r token
    rw [ran, ran]
    unfold sends
    rw [overlooks.frame related]
    cases token.check w.frame.clock with
    | error f => exact ⟨.error f, w, w', rfl, rfl, related⟩
    | ok _ =>
      dsimp only
      rw [answer]
      exact ⟨_, _, _, rfl, rfl, left⟩

theorem callCustom (overlooks : e.Overlooks R) (config : Fields) (token : Token Float) :
    Alike R (e.callCustom config token) (e.callCustom config token) := by
  refine Alike.bind (Alike.outcome _) fun callable => ?_
  refine Alike.bind (Alike.basic _) fun parameters => ?_
  cases callable with
  | some fn => exact Alike.bind (overlooks.onFrame _) fun result => Alike.pure _
  | none =>
    refine Alike.read fun w w' related => ?_
    rw [overlooks.frame related]
    exact Alike.bind (Alike.outcome _) fun _ => Alike.throw _

theorem announce (overlooks : e.Overlooks R) (r : Outcome (Event × Fields)) :
    Alike R (announce r) (announce r) := by
  refine Alike.bind (Alike.outcome _) fun (event, result) => ?_
  exact Alike.bind (Alike.change fun w w' related => overlooks.published related event) fun _ => Alike.pure _

theorem perform (overlooks : e.Overlooks R) (same : o'.rule = o.rule) (a : Action) (config : Fields)
    (token : Token Float) : Alike R (e.perform o a config token) (e.perform o' a config token) := by
  refine Alike.read fun w w' related => ?_
  have frame := overlooks.frame related
  have scope : w'.scope = w.scope := congrArg Frame.scope frame
  dsimp only
  rw [same, overlooks.globals related, scope]
  split
  · obtain ⟨b, left, right⟩ | ⟨record, record', result, left, right⟩ :=
      Action.logEntryContext e.host.now o.context o'.context config
    · rw [left, right]
      exact fun w w' related => ⟨.error (.breach b), w, w', rfl, rfl, related⟩
    · rw [left, right]
      simp only [Evaluator.basic, pure_bind]
      exact Alike.bind (Alike.put (overlooks.noted related record record')) fun _ => Alike.pure _
  · refine Alike.bind (Alike.outcome _) fun (result, globals, scope) => ?_
    have written := overlooks.written related { w.frame with scope := scope } globals
    unfold Workspace.setScope
    rw [frame]
    exact Alike.bind (Alike.put written) fun _ => Alike.pure _
  · exact overlooks.deliver config token
  · exact overlooks.announce _
  · exact overlooks.announce _
  · exact overlooks.callCustom config token

theorem attempt (overlooks : e.Overlooks R) (same : o'.rule = o.rule) (a : Action) (token : Token Float) :
    Alike R (e.attempt o a token) (e.attempt o' a token) := by
  refine Alike.read fun w w' related => ?_
  have scope : w'.scope = w.scope := congrArg Frame.scope (overlooks.frame related)
  rw [overlooks.frame related, scope]
  refine Alike.bind (Alike.basic _) fun limit => ?_
  refine Alike.bind (Alike.outcome _) fun _ => ?_
  exact Alike.bind (Alike.basic _) fun config => overlooks.perform same a config _

theorem execute (overlooks : e.Overlooks R) (same : o'.rule = o.rule) (token : Token Float) (a : Action)
    {w w' : Workspace} (related : R w w') :
    (e.execute o' token a w').1 = (e.execute o token a w).1 ∧
    R (e.execute o token a w).2 (e.execute o' token a w').2 := by
  cases on : a.enabled with
  | false =>
    rw [executeOff on, executeOff on]
    exact ⟨rfl, related⟩
  | true =>
    have same : (occasionOf o' a).rule = (occasionOf o a).rule := same
    obtain ⟨r, t, t', left, right, related⟩ := overlooks.attempt same a token w w' related
    rw [executeTold on, executeTold on, left, right]
    unfold told
    rw [same]
    cases r with
    | ok result => exact ⟨rfl, overlooks.published related _⟩
    | error f => exact ⟨rfl, overlooks.published (overlooks.noted related _ _) _⟩

theorem run (overlooks : e.Overlooks R) (same : o'.rule = o.rule) (token : Token Float)
    (actions : List Action) {w w' : Workspace} (related : R w w') :
    (e.run o' token actions w').1 = (e.run o token actions w).1 ∧
    R (e.run o token actions w).2 (e.run o' token actions w').2 := by
  induction actions generalizing w w' with
  | nil => exact ⟨rfl, related⟩
  | cons a rest ih =>
    obtain ⟨first, related⟩ := overlooks.execute same token a related
    obtain ⟨others, related⟩ := ih related
    simp only [Executor.run]
    exact ⟨by rw [first, others], related⟩

end Overlooks

theorem besideOverlooked (e : Executor) (base base' : List Event) : e.Overlooks (Beside base base') where
  frame := by
    rintro w _ ⟨added, records, events, rfl⟩
    rfl
  globals := by
    rintro w _ ⟨added, records, events, rfl⟩
    rfl
  written := by
    rintro w _ ⟨added, records, events, rfl⟩ frame globals
    exact ⟨added, records, events, rfl⟩
  published beside event := beside.publish event
  noted beside r r' := beside.note r r'
  sent := by
    rintro w _ transport carried ⟨added, records, events, rfl⟩ r token
    exact ⟨rfl, added, _, events, rfl⟩

theorem runBeside (e : Executor) {o o' : Occasion} {base base' : List Event} (same : o'.rule = o.rule)
    (token : Token Float) (actions : List Action) {w w' : Workspace} (beside : Beside base base' w w') :
    (e.run o' token actions w').1 = (e.run o token actions w).1 ∧
    Beside base base' (e.run o token actions w).2 (e.run o' token actions w').2 :=
  (e.besideOverlooked base base').run same token actions beside

theorem runBlind (e : Executor) (o : Occasion) (token : Token Float) (actions : List Action)
    {w w' : Workspace} (same : Same w w') :
    (e.run o token actions w').1 = (e.run o token actions w).1 ∧
    Same (e.run o token actions w).2 (e.run o token actions w').2 := by
  have beside : Beside w.journal.events w'.journal.events w w' :=
    ⟨[], w'.journal.records, (List.append_nil _).symm, by rw [List.append_nil]; exact same⟩
  obtain ⟨results, _, _, _, after⟩ := e.runBeside (o := o) rfl token actions beside
  exact ⟨results, by rw [Same, after]⟩

end Executor
end DecisionRules
