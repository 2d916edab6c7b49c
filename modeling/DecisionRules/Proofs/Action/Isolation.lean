import DecisionRules.Host.Catalogue
import DecisionRules.Proofs.Action.Blind

/-! Failed actions. One of a built-in type leaves nothing behind but the news of its failure, and what comes after
it runs as if it had not been there. -/
namespace DecisionRules

/-- It answers a request whatever was sent before, and takes no time. -/
structure Transport.Steady (transport : Transport) : Prop where
  answer (r : WebhookRequest) (token : Token Float) {wire wire' : Wire} (clock : wire'.clock = wire.clock) :
    (transport.send r token wire').1 = (transport.send r token wire).1
  still (r : WebhookRequest) (token : Token Float) (wire : Wire) :
    (transport.send r token wire).2.clock = wire.clock

namespace Workspace

/-- The same frame and variables, and the same events after those of either base. -/
structure Level (base base' : List Event) (w w' : Workspace) : Prop where
  frame : w'.frame = w.frame
  globals : w'.globals = w.globals
  events : ∃ added, w.journal.events = base ++ added ∧ w'.journal.events = base' ++ added

/-- The frame and the variables are untouched, and these events are new. -/
structure Adds (news : List Event) (w w' : Workspace) : Prop where
  frame : w'.frame = w.frame
  globals : w'.globals = w.globals
  events : w'.journal.events = w.journal.events ++ news

theorem Adds.level {news : List Event} {w w' : Workspace} (adds : Adds news w w') :
    Level w.journal.events (w.journal.events ++ news) w w' :=
  ⟨adds.frame, adds.globals, [], (List.append_nil _).symm, adds.events.trans (List.append_nil _).symm⟩

theorem Adds.refl (w : Workspace) : Adds [] w w := ⟨rfl, rfl, (List.append_nil _).symm⟩

end Workspace

namespace Executor
open Workspace (Level Adds)

variable {e : Executor}

theorem levelOverlooked (steady : ∀ transport, e.transport = some transport → transport.Steady)
    (base base' : List Event) : e.Overlooks (Level base base') where
  frame level := level.frame
  globals level := level.globals
  written level frame globals := ⟨rfl, rfl, level.events⟩
  published := by
    rintro w w' ⟨frame, globals, added, events, events'⟩ event
    refine ⟨frame, globals, added ++ [event], ?_, ?_⟩
    · simp [Workspace.publish, Journal.publish, events]
    · simp [Workspace.publish, Journal.publish, events']
  noted level r r' := ⟨level.frame, level.globals, level.events⟩
  sent := by
    intro w w' transport carried level r token
    have clock : w'.wire.clock = w.wire.clock := congrArg Frame.clock level.frame
    have steady := steady transport carried
    refine ⟨steady.answer r token clock, ?_, level.globals, level.events⟩
    unfold Workspace.setWire
    dsimp only
    rw [steady.still, steady.still, clock, level.frame]

theorem sendsQuietly {transport : Transport} (steady : transport.Steady) (r : WebhookRequest)
    (token : Token Float) (w : Workspace) : Adds [] w (sends transport r token w).2 := by
  unfold sends
  cases token.check w.frame.clock with
  | error f => exact .refl w
  | ok _ =>
    refine ⟨?_, rfl, (List.append_nil _).symm⟩
    change { w.frame with clock := (transport.send r token w.wire).2.clock } = w.frame
    rw [steady.still]
    rfl

theorem announceFailed {r : Outcome (Event × Fields)} {w : Workspace} {f : Failure}
    (failed : ((announce r).run w).1 = .error f) : Adds [] w ((announce r).run w).2 := by
  rw [announceRun] at failed ⊢
  cases r with
  | ok answer => cases failed
  | error f => exact .refl w

section
variable (steady : ∀ transport, e.transport = some transport → transport.Steady) {a : Action}
  (builtin : a.type ≠ .custom) {o : Occasion} {token : Token Float} {w : Workspace} {f : Failure}
include steady builtin

theorem performFailed {config : Fields} (failed : ((e.perform o a config token).run w).1 = .error f) :
    Adds [] w ((e.perform o a config token).run w).2 := by
  rw [performRun] at failed ⊢
  cases kind : a.type with
  | log =>
    rw [kind] at failed
    dsimp only at failed ⊢
    cases logged : Action.logEntry e.host.now o.context config with
    | error b => exact .refl w
    | ok entry =>
      rw [logged] at failed
      cases failed
  | assign =>
    rw [kind] at failed
    dsimp only at failed ⊢
    cases assigned : Action.assign e.readOnly config w.globals w.scope with
    | error g => exact .refl w
    | ok after =>
      rw [assigned] at failed
      cases failed
  | webhook =>
    rcases deliverCases e config token with ⟨g, ran⟩ | ⟨transport, r, carried, ran⟩
    · rw [ran]
      exact .refl w
    · rw [ran]
      exact sendsQuietly (steady transport carried) r token w
  | notification =>
    rw [kind] at failed
    exact announceFailed failed
  | workflow =>
    rw [kind] at failed
    exact announceFailed failed
  | custom => exact absurd kind builtin

theorem attemptFailed (failed : ((e.attempt o a token).run w).1 = .error f) :
    Adds [] w ((e.attempt o a token).run w).2 := by
  rw [attemptRun] at failed ⊢
  cases begun : e.begins a token w with
  | error g => exact .refl w
  | ok start =>
    rw [begun] at failed
    exact performFailed steady builtin failed

theorem executeFailed (failed : (e.execute o token a w).1.status = .failed f) :
    (e.execute o token a w).1 = ⟨a.id, a.type, .failed f⟩ ∧
    Adds [.actionFailed o.rule a.id a.type.name f.text? f.kind] w (e.execute o token a w).2 := by
  cases on : a.enabled with
  | false =>
    rw [executeOff on] at failed
    cases failed
  | true =>
    rw [executeTold on] at failed ⊢
    cases ran : ((e.attempt (occasionOf o a) a token).run w).1 with
    | ok result =>
      rw [ran] at failed
      cases failed
    | error g =>
      obtain ⟨frame, globals, events⟩ := attemptFailed steady builtin ran
      rw [ran] at failed
      cases failed
      refine ⟨rfl, frame, globals, ?_⟩
      exact congrArg (· ++ [Event.actionFailed o.rule a.id a.type.name f.text? f.kind])
        (events.trans (List.append_nil _))

end

theorem runLength (e : Executor) (o : Occasion) (token : Token Float) (actions : List Action) (w : Workspace) :
    (e.run o token actions w).1.length = actions.length := by
  simpa using congrArg List.length (runListed e o token actions w)

/-- A list of actions has a result for each of them, in order. If one of a built-in type failed, the run is that of
the list without it, but for its result and the news of its failure. -/
theorem failuresIsolated (e : Executor) (steady : ∀ transport, e.transport = some transport → transport.Steady)
    (o : Occasion) (token : Token Float) (actions : List Action) (w : Workspace) :
    (e.run o token actions w).1.map (fun r => (r.action, r.type)) = actions.map (fun a => (a.id, a.type)) ∧
    ∀ front a back result f, actions = front ++ a :: back → a.type ≠ .custom →
      (e.run o token actions w).1[front.length]? = some result → result.status = .failed f →
      let failure := Event.actionFailed o.rule a.id a.type.name f.text? f.kind
      let before := e.run o token front w
      let without := e.run o token (front ++ back) w
      ∃ later more,
        (e.run o token actions w).1 = before.1 ++ result :: later ∧ without.1 = before.1 ++ later ∧
        (e.run o token actions w).2.scope = without.2.scope ∧
        (e.run o token actions w).2.globals = without.2.globals ∧
        (e.run o token (front ++ [a]) w).2.journal.events = before.2.journal.events ++ [failure] ∧
        (e.run o token actions w).2.journal.events = before.2.journal.events ++ failure :: more ∧
        without.2.journal.events = before.2.journal.events ++ more := by
  refine ⟨runListed e o token actions w, ?_⟩
  rintro front a back result f rfl builtin there failed failure before without
  have whole : e.run o token (front ++ a :: back) w = (before.1 ++ (e.run o token (a :: back) before.2).1,
      (e.run o token (a :: back) before.2).2) := runAppend e o token front (a :: back) w
  have others : without = (before.1 ++ (e.run o token back before.2).1, (e.run o token back before.2).2) :=
    runAppend e o token front back w
  have alone : e.run o token (front ++ [a]) w = (before.1 ++ (e.run o token [a] before.2).1,
      (e.run o token [a] before.2).2) := runAppend e o token front [a] w
  have length : before.1.length = front.length := runLength e o token front w
  rw [whole, ← length, List.getElem?_append_right (Nat.le_refl _), Nat.sub_self] at there
  cases Option.some.inj there
  obtain ⟨_, adds⟩ := executeFailed steady builtin failed
  obtain ⟨results, frame, globals, more, less, full⟩ :=
    (levelOverlooked steady _ _).run (o := o) rfl token back adds.level
  rw [whole, others, alone]
  have scope := congrArg Frame.scope frame
  refine ⟨(e.run o token back before.2).1, more, ?_, rfl, scope, globals, adds.events, ?_, less⟩
  · change before.1 ++ _ :: (e.run o token back (e.execute o token a before.2).2).1 = _
    rw [results]
  · rw [List.append_assoc] at full
    exact full

theorem steadyKeeping (answer : WebhookRequest → Delivery) : (Transport.keeping answer).Steady :=
  ⟨fun _ _ _ _ _ => rfl, fun _ _ _ => rfl⟩

/-- Its webhooks reach one host, and no other. -/
def messenger : Executor :=
  ⟨.catalogue 0 "", .ofBuiltins true, [],
    some (.keeping fun r =>
      if r.url = "http://up" then .answered [] else .failed (.network (.failed r.url "ConnectError"))), 30⟩

def blank : Workspace := ⟨⟨⟨⟨[], [], []⟩, [], []⟩, 0, 0⟩, [], .quiet [], [], .empty⟩

def webhookTo (url : String) : Action := ⟨"w", .webhook, [("url", .text url)], true⟩

def counting : Action := ⟨"n", .assign, [("name", .text "n"), ("operation", .text "increment")], true⟩

theorem failuresIsolatedDown :
    let run (actions : List Action) := messenger.run ⟨none, .none⟩ (.root 0 none "rule") actions blank
    let whole := [webhookTo "http://up", counting, webhookTo "http://down", counting]
    let without := [webhookTo "http://up", counting, counting]
    (run whole).1.map (fun r => r.status.name) = ["success", "success", "failed", "success"] ∧
    (run whole).2.scope = (run without).2.scope ∧ (run whole).2.globals = (run without).2.globals ∧
    ∃ results failed later, (run whole).1 = results ++ failed :: later ∧ (run without).1 = results ++ later := by
  intro run whole without
  obtain ⟨_, isolated⟩ := failuresIsolated messenger (by rintro _ ⟨⟩; exact steadyKeeping _) ⟨none, .none⟩
    (.root 0 none "rule") whole blank
  have names : (run whole).1.map (fun r => r.status.name) = ["success", "success", "failed", "success"] := by
    decide +kernel
  have third : (run whole).1[2]?.map (fun r => r.status.isFailed) = some true := by decide +kernel
  cases there : (run whole).1[2]? with
  | none =>
    rw [there] at third
    cases third
  | some result =>
    rw [there] at third
    cases ended : result.status with
    | failed f =>
      obtain ⟨later, _, results, others, scope, globals, _⟩ := isolated [webhookTo "http://up", counting]
        (webhookTo "http://down") [counting] result f rfl (by decide) there ended
      exact ⟨names, scope, globals, _, result, later, results, others⟩
    | success fields =>
      simp [ended, ActionStatus.isFailed] at third
    | skipped => simp [ended, ActionStatus.isFailed] at third

end Executor
end DecisionRules
