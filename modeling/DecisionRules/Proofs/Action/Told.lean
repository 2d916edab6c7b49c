import DecisionRules.Proofs.Action.Attempt
import DecisionRules.Proofs.Action.Quiet
import DecisionRules.Proofs.Outcome
import DecisionRules.Proofs.Schema

/-! What actions publish, told by their results. An action that asks others for something publishes that
first, if it succeeds; then comes what became of the action. One that is skipped publishes nothing. -/
namespace DecisionRules

/-- The kind of event by which actions of a type ask for something. -/
def ActionType.intent? : ActionType → Option EventKind
  | .notification => some .notificationRequested
  | .workflow => some .workflowRequested
  | .log | .assign | .webhook | .custom => none

namespace Action

/-- The request and the result of an action, both made of its resolved configuration. -/
def Intends (a : Action) (rule : Option String) (result : Fields) (intent : Event) : Prop :=
  ∃ scope config, a.resolvedConfig scope = .ok config ∧
    (a.type = .notification ∧ notification rule a.id config = .ok (intent, result) ∨
      a.type = .workflow ∧ workflow rule a.id config scope = .ok (intent, result))

/-- What is published of an action that has this result. -/
inductive Tells (rule : Option String) (a : Action) : ActionResult → List Event → Prop where
  | skipped (off : a.enabled = false) : Tells rule a ⟨a.id, a.type, .skipped⟩ []
  | failed (on : a.enabled = true) (f : Failure) : Tells rule a ⟨a.id, a.type, .failed f⟩
      [.actionFailed rule a.id a.type.name f.text? f.kind]
  | done (on : a.enabled = true) (result : Fields) (silent : a.type.intent? = none) (duration : Float) :
      Tells rule a ⟨a.id, a.type, .success result⟩ [.actionExecuted rule a.id a.type.name duration]
  | asked (on : a.enabled = true) {result : Fields} {intent : Event}
      (intends : a.Intends rule result intent) (duration : Float) :
      Tells rule a ⟨a.id, a.type, .success result⟩
        [intent, .actionExecuted rule a.id a.type.name duration]

/-- What is published in an attempt that comes to this. -/
inductive Attempts (rule : Option String) (a : Action) : Outcome Fields → List Event → Prop where
  | failed (f : Failure) : Attempts rule a (.error f) []
  | done (result : Fields) (silent : a.type.intent? = none) : Attempts rule a (.ok result) []
  | asked {result : Fields} {intent : Event} (intends : a.Intends rule result intent) :
      Attempts rule a (.ok result) [intent]

inductive TellsAll (rule : Option String) : List Action → List ActionResult → List Event → Prop where
  | nil : TellsAll rule [] [] []
  | cons {a : Action} {rest : List Action} {result : ActionResult} {results : List ActionResult}
      {events more : List Event} (first : a.Tells rule result events)
      (others : TellsAll rule rest results more) :
      TellsAll rule (a :: rest) (result :: results) (events ++ more)

/-! Requests -/

theorem notificationAccepts {rule : Option String} {id : String} {config result : Fields} {intent : Event}
    (ok : notification rule id config = .ok (intent, result)) :
    ∃ channel recipient title message payload,
      intent = .notificationRequested rule id channel recipient title message payload ∧
      Assoc.get? result "channel" = some (.text channel) := by
  simp only [notification, bindAccepts, pureAccepts, Schema.concludeAccepts, Schema.seqAccepts,
    Schema.mapAccepts, Prod.mk.injEq] at ok
  obtain ⟨channel, _, title, _, message, _, _, _, _, ⟨_, payload, ⟨recipient, _, rfl⟩, _, rfl⟩, rfl, rfl⟩ := ok
  exact ⟨channel, recipient, title, message, payload, rfl, rfl⟩

theorem workflowAccepts {rule : Option String} {id : String} {config result : Fields} {scope : Scope}
    {intent : Event} (ok : workflow rule id config scope = .ok (intent, result)) :
    ∃ name context, intent = .workflowRequested rule id name context ∧
      Assoc.get? result "workflow_id" = some (.text name) := by
  simp only [workflow, bindAccepts, pureAccepts, Schema.concludeAccepts, Schema.mapAccepts,
    Prod.mk.injEq] at ok
  obtain ⟨name, _, _, _, _, ⟨context, _, rfl⟩, rfl, rfl⟩ := ok
  exact ⟨name, context, rfl, rfl⟩

theorem Intends.kind {a : Action} {rule : Option String} {result : Fields} {intent : Event}
    (intends : a.Intends rule result intent) : a.type.intent? = some intent.kind := by
  obtain ⟨scope, config, _, ⟨type, ok⟩ | ⟨type, ok⟩⟩ := intends
  · obtain ⟨_, _, _, _, _, rfl, _⟩ := notificationAccepts ok
    rw [type]
    rfl
  · obtain ⟨_, _, rfl, _⟩ := workflowAccepts ok
    rw [type]
    rfl

end Action

/-! The kinds of the events, computed from the results -/

def ActionResult.kinds (r : ActionResult) : List EventKind :=
  match r.status with
  | .skipped => []
  | .failed _ => [.actionFailed]
  | .success _ => r.type.intent?.toList ++ [.actionExecuted]

theorem Action.Tells.kinds {rule : Option String} {a : Action} {r : ActionResult} {events : List Event}
    (tells : a.Tells rule r events) : events.map Event.kind = r.kinds := by
  cases tells with
  | skipped off => rfl
  | failed on f => rfl
  | done on result silent duration => simp [ActionResult.kinds, silent, Event.kind]
  | asked on intends duration => simp [ActionResult.kinds, intends.kind, Event.kind]

theorem Action.TellsAll.kinds {rule : Option String} {actions : List Action} {results : List ActionResult}
    {events : List Event} (tells : TellsAll rule actions results events) :
    events.map Event.kind = results.flatMap ActionResult.kinds := by
  induction tells with
  | nil => rfl
  | cons first others ih => rw [List.map_append, List.flatMap_cons, first.kinds, ih]

namespace Executor
open Run (Alike)
open Workspace (Where)

variable {a : Action}

theorem performSilent (e : Executor) (o : Occasion) (silent : a.type.intent? = none)
    (events : List Event) (config : Fields) (token : Token Float) :
    Alike (Where fun w => w.journal.events = events) (e.perform o a config token)
      (e.perform o a config token) := by
  refine readWhere fun w same => ?_
  cases kind : a.type with
  | log =>
    refine Alike.bind (Alike.basic _) fun (record, result) => ?_
    exact Alike.bind (Alike.put ⟨rfl, same⟩) fun _ => Alike.pure _
  | assign =>
    refine Alike.bind (Alike.outcome _) fun (result, globals, scope) => ?_
    exact Alike.bind (Alike.put ⟨rfl, same⟩) fun _ => Alike.pure _
  | webhook => exact deliverKeeps (fun _ _ same => same) config token
  | custom => exact callCustomKeeps (fun _ _ same => same) config token
  | notification | workflow =>
    rw [kind] at silent
    contradiction

theorem announceAttempts {rule : Option String} {r : Outcome (Event × Fields)}
    (intends : ∀ intent result, r = .ok (intent, result) → a.Intends rule result intent) (w : Workspace) :
    ∃ news, ((announce r).run w).2.journal.events = w.journal.events ++ news ∧
      a.Attempts rule ((announce r).run w).1 news := by
  rw [announceRun]
  cases r with
  | error f => exact ⟨[], (List.append_nil _).symm, .failed f⟩
  | ok answer =>
    obtain ⟨intent, result⟩ := answer
    exact ⟨[intent], rfl, .asked (intends intent result rfl)⟩

theorem performAttempts (e : Executor) (o : Occasion) (token : Token Float) (w : Workspace)
    {config : Fields} (resolved : a.resolvedConfig w.scope = .ok config) :
    ∃ news, ((e.perform o a config token).run w).2.journal.events = w.journal.events ++ news ∧
      a.Attempts o.rule ((e.perform o a config token).run w).1 news := by
  cases silent : a.type.intent? with
  | none =>
    obtain ⟨r, after, _, ran, _, _, same⟩ :=
      performSilent e o silent w.journal.events config token w w ⟨rfl, rfl⟩
    rw [ran]
    refine ⟨[], same.trans (List.append_nil _).symm, ?_⟩
    cases r with
    | error f => exact .failed f
    | ok result => exact .done result silent
  | some kind =>
    cases type : a.type with
    | notification =>
      rw [performRun, type]
      exact announceAttempts (fun _ _ ok => ⟨w.scope, config, resolved, .inl ⟨type, ok⟩⟩) w
    | workflow =>
      rw [performRun, type]
      exact announceAttempts (fun _ _ ok => ⟨w.scope, config, resolved, .inr ⟨type, ok⟩⟩) w
    | log | assign | webhook | custom =>
      rw [type] at silent
      contradiction

theorem executeTells (e : Executor) (o : Occasion) (token : Token Float) (a : Action) (w : Workspace) :
    ∃ news, (e.execute o token a w).2.journal.events = w.journal.events ++ news ∧
      a.Tells o.rule (e.execute o token a w).1 news := by
  cases on : a.enabled with
  | false =>
    rw [executeOff on]
    exact ⟨[], (List.append_nil _).symm, .skipped on⟩
  | true =>
    obtain ⟨news, events, attempted⟩ : ∃ news,
        ((e.attempt (occasionOf o a) a token).run w).2.journal.events = w.journal.events ++ news ∧
        a.Attempts o.rule ((e.attempt (occasionOf o a) a token).run w).1 news := by
      rw [attemptRun]
      cases begun : e.begins a token w with
      | error f => exact ⟨[], (List.append_nil _).symm, .failed f⟩
      | ok start => exact performAttempts e (occasionOf o a) start.2 w (begunResolved begun)
    rw [executeTold on]
    cases ran : (e.attempt (occasionOf o a) a token).run w with
    | mk r after =>
      rw [ran] at events attempted
      have published (event : Event) : (after.publish event).journal.events =
          w.journal.events ++ (news ++ [event]) := by
        rw [← List.append_assoc, ← events]
        rfl
      cases attempted with
      | failed f => exact ⟨_, published _, .failed on f⟩
      | done result silent => exact ⟨_, published _, .done on result silent 0⟩
      | asked intends => exact ⟨_, published _, .asked on intends 0⟩

theorem runTells (e : Executor) (o : Occasion) (token : Token Float) (actions : List Action)
    (w : Workspace) :
    ∃ news, (e.run o token actions w).2.journal.events = w.journal.events ++ news ∧
      Action.TellsAll o.rule actions (e.run o token actions w).1 news := by
  induction actions generalizing w with
  | nil => exact ⟨[], (List.append_nil _).symm, .nil⟩
  | cons a rest ih =>
    obtain ⟨first, events, tells⟩ := executeTells e o token a w
    obtain ⟨more, later, others⟩ := ih (e.execute o token a w).2
    refine ⟨first ++ more, ?_, .cons tells others⟩
    rw [← List.append_assoc, ← events]
    exact later

end Executor
end DecisionRules
