import DecisionRules.Host.Catalogue
import DecisionRules.Proofs.Action.Attempt
import DecisionRules.Proofs.Log.Fields
import DecisionRules.Proofs.Outcome
import DecisionRules.Proofs.Webhook.Message
import Mathlib

/-! What a webhook shows of its request. Two requests with hidden URLs that differ only there and in the
values of secret headers are sent, answered and reported alike, as long as those values are ASCII: one that
is not fails before anything is sent. -/
namespace DecisionRules

/-- The same header, but for the value of a secret one -/
def SameHeader (a b : String × String) : Prop := b.1 = a.1 ∧ (Log.isSecretField a.1 = false → b.2 = a.2)

section Headers
variable {given given' : Assoc String}

theorem sameNames (same : List.Forall₂ SameHeader given given') (test : String → Bool) :
    (given'.all fun h => test h.1) = given.all fun h => test h.1 := by
  induction same with
  | nil => rfl
  | cons first _ ih => rw [List.all_cons, List.all_cons, first.1, ih]

theorem sameShown (same : List.Forall₂ SameHeader given given') :
    Log.redactFields (Assoc.mapValues Value.text given') =
      Log.redactFields (Assoc.mapValues Value.text given) := by
  refine Log.sameRedacted (List.forall₂_map_left_iff.mpr (List.forall₂_map_right_iff.mpr (same.imp ?_)))
  exact fun a b first => ⟨first.1, fun plain => congrArg Value.text (first.2 plain)⟩

theorem sameAscii (same : List.Forall₂ SameHeader given given')
    (plain : ∀ h ∈ given, Log.isSecretField h.1 = true → Message.isAscii h.2 = true)
    (plainToo : ∀ h ∈ given', Log.isSecretField h.1 = true → Message.isAscii h.2 = true) :
    (given'.all fun h => Message.isAscii h.2) = given.all fun h => Message.isAscii h.2 := by
  induction same with
  | nil => rfl
  | @cons a b _ _ first _ ih =>
    obtain ⟨here, rest⟩ := List.forall_mem_cons.mp plain
    obtain ⟨there, others⟩ := List.forall_mem_cons.mp plainToo
    have value : Message.isAscii b.2 = Message.isAscii a.2 := by
      cases secret : Log.isSecretField a.1 with
      | true => rw [here secret, there (first.1 ▸ secret)]
      | false => rw [first.2 secret]
    rw [List.all_cons, List.all_cons, value, ih rest others]

theorem plainParts (headers : Assoc String) : headers.all Message.plainHeader =
    ((headers.all fun h => Message.isAscii h.1) && headers.all fun h => Message.isAscii h.2) := by
  induction headers with
  | nil => rfl
  | cons h rest ih =>
    simp only [List.all_cons, Message.plainHeader, ih]
    cases Message.isAscii h.1 <;> cases Message.isAscii h.2 <;> simp

end Headers

namespace WebhookRequest

/-- The same request but for the URL, which is hidden, and for the values of secret headers -/
structure SameButSecrets (r s : WebhookRequest) : Prop where
  hidden : r.redactUrl = true
  stays : s.redactUrl = r.redactUrl
  method : s.method = r.method
  body : s.body = r.body
  timeout : s.timeout = r.timeout
  retries : s.retries = r.retries
  headers : List.Forall₂ SameHeader r.headers s.headers

/-- No secret header value is one that cannot be sent. -/
def PlainSecrets (r : WebhookRequest) : Prop :=
  ∀ h ∈ r.headers, Log.isSecretField h.1 = true → Message.isAscii h.2 = true

/-- Can all header values be sent? -/
def encodable (r : WebhookRequest) : Bool := r.headers.all fun h => Message.isAscii h.2

end WebhookRequest

namespace Transport
variable {r s : WebhookRequest}

/-- The same but for the messages that were sent -/
structure SameButMessages (a b : Network Float) : Prop where
  upcoming : b.upcoming = a.upcoming
  pauses : b.pauses = a.pauses
  calls : b.calls.map Call.timeouts = a.calls.map Call.timeouts

theorem SameButMessages.refl (a : Network Float) : SameButMessages a a := ⟨rfl, rfl, rfl⟩

theorem shownSame (same : r.SameButSecrets s) :
    shownUrl s.redactUrl s.url = shownUrl r.redactUrl r.url := by
  rw [shownUrl, shownUrl, same.stays, same.hidden]
  rfl

theorem policySame (same : r.SameButSecrets s) (client : Client Float) (deadline : Option Float) :
    client.policy (outgoing s deadline) = client.policy (outgoing r deadline) := by
  have shown := shownSame same
  unfold Client.policy outgoing
  simp only [shown, same.timeout]

theorem reportSame (same : r.SameButSecrets s) (status : Int) (text : String) :
    report s status text = report r status text := by
  have headers : Log.redactFields s.headerFields = Log.redactFields r.headerFields :=
    sameShown same.headers
  rw [report, report, shownSame same, same.method, headers]

theorem messageFails (same : r.SameButSecrets s) (alike : s.encodable = r.encodable)
    (client : Client Float) (deadline : Option Float) :
    (Message.build client.userAgent s.method s.url s.headers (outgoing s deadline).text
      (outgoing s deadline).content).map (fun _ => ()) =
    (Message.build client.userAgent r.method r.url r.headers (outgoing r deadline).text
      (outgoing r deadline).content).map (fun _ => ()) := by
  have plain : s.headers.all Message.plainHeader = r.headers.all Message.plainHeader := by
    rw [plainParts, plainParts, sameNames same.headers]
    exact congrArg _ alike
  have texts : (outgoing s deadline).text = (outgoing r deadline).text := congrArg Value.text? same.body
  have contents : (outgoing s deadline).content = (outgoing r deadline).content := by
    unfold outgoing
    simp only [same.body]
  rw [texts, contents, same.method]
  exact Message.buildFails plain _ _

theorem clientSends (same : r.SameButSecrets s) (alike : s.encodable = r.encodable)
    (client : Client Float) (deadline : Option Float) (clock : Float) (network : Network Float) :
    ∃ result now after after', client.send (outgoing r deadline) clock network = (result, now, after) ∧
      client.send (outgoing s deadline) clock network = (result, now, after') ∧
      SameButMessages after after' := by
  have fails := messageFails same alike client deadline
  have attempts : client.attempts (outgoing s deadline) = client.attempts (outgoing r deadline) := by
    unfold Client.attempts outgoing
    simp only [same.retries]
  have deadlines (o : WebhookRequest) : (outgoing o deadline).method = o.method ∧
      (outgoing o deadline).url = o.url ∧ (outgoing o deadline).headers = o.headers := ⟨rfl, rfl, rfl⟩
  unfold Client.send
  rw [policySame same, attempts]
  simp only [deadlines]
  revert fails
  generalize Message.build client.userAgent r.method r.url r.headers (outgoing r deadline).text
    (outgoing r deadline).content = first
  generalize Message.build client.userAgent s.method s.url s.headers (outgoing s deadline).text
    (outgoing s deadline).content = second
  intro fails
  cases first with
  | error b => cases second with
    | error b' =>
      cases fails
      exact ⟨_, _, _, _, rfl, rfl, .refl _⟩
    | ok message => cases fails
  | ok message => cases second with
    | error b => cases fails
    | ok message' =>
      refine ⟨_, _, _, _, rfl, rfl, rfl, rfl, ?_⟩
      simp only [List.map_append, List.map_map]
      rfl

/-- The same wire but for the messages that were sent -/
structure SameWire (a b : Wire) : Prop where
  clock : b.clock = a.clock
  network : SameButMessages a.network b.network
  received : b.received = a.received
  records : b.records = a.records

theorem sendsSame (same : r.SameButSecrets s) (alike : s.encodable = r.encodable)
    (client : Client Float) (now : Int) (token : Token Float) (w : Wire) :
    ((overNetwork client now).send s token w).1 = ((overNetwork client now).send r token w).1 ∧
    SameWire ((overNetwork client now).send r token w).2 ((overNetwork client now).send s token w).2 := by
  unfold overNetwork
  dsimp only
  cases token.check w.clock with
  | error f => exact ⟨rfl, rfl, .refl _, rfl, rfl⟩
  | ok _ =>
    obtain ⟨result, clock, after, after', first, second, kept⟩ :=
      clientSends same alike client token.deadline w.clock w.network
    simp only [first, second]
    cases result with
    | error f => exact ⟨rfl, rfl, kept, rfl, rfl⟩
    | ok answer =>
      obtain ⟨status, text⟩ := answer
      have record : delivered now s status = delivered now r status := by
        rw [delivered, delivered, same.method]
      refine ⟨congrArg Delivery.answered (reportSame same status text), rfl, kept, rfl, ?_⟩
      simp only [record]

end Transport
/-- At this workspace, the action asks for the request. -/
structure Action.AsksFor (a : Action) (w : Workspace) (r : WebhookRequest) : Prop where
  type : a.type = .webhook
  request : ∃ config, a.resolvedConfig w.scope = .ok config ∧ webhookRequest config = .ok r

namespace Executor

variable {e : Executor} {transport : Transport} {r s : WebhookRequest} {w : Workspace}

theorem attemptSends (carried : e.transport = some transport) {a : Action} (asks : a.AsksFor w r)
    (o : Occasion) (token : Token Float) : (e.attempt o a token).run w =
      match (Assoc.getD a.config "timeout_s" (.float e.timeout)).toFloat with
      | .error b => (.error (.breach b), w)
      | .ok limit =>
        sends transport r (token.child w.frame.clock (some limit) (a.type.name ++ " action")) w := by
  obtain ⟨type, config, resolved, asked⟩ := asks
  rw [attemptRun]
  unfold begins
  cases (Assoc.getD a.config "timeout_s" (.float e.timeout)).toFloat with
  | error b => rfl
  | ok limit =>
    simp only [bind, Except.bind, Outcome.ofBreach]
    generalize token.child w.frame.clock (some limit) (a.type.name ++ " action") = limited
    cases checked : limited.check w.frame.clock with
    | error f => simp only [sends, checked]
    | ok _ =>
      simp only [resolved, pure, Except.pure, performRun, type]
      exact deliverSends carried asked limited

/-- The same workspace but for the messages that were sent -/
structure SameWork (a b : Workspace) : Prop where
  frame : b.frame = a.frame
  globals : b.globals = a.globals
  network : Transport.SameButMessages a.network b.network
  received : b.received = a.received
  journal : b.journal = a.journal

theorem SameWork.refl (w : Workspace) : SameWork w w := ⟨rfl, rfl, .refl _, rfl, rfl⟩

theorem sendsAlike (same : r.SameButSecrets s) (alike : s.encodable = r.encodable) (client : Client Float)
    (now : Int) (token : Token Float) (w : Workspace) :
    (sends (.overNetwork client now) s token w).1 = (sends (.overNetwork client now) r token w).1 ∧
    SameWork (sends (.overNetwork client now) r token w).2 (sends (.overNetwork client now) s token w).2 := by
  unfold sends
  cases token.check w.frame.clock with
  | error f => exact ⟨rfl, .refl w⟩
  | ok _ =>
    obtain ⟨delivery, wire⟩ := Transport.sendsSame same alike client now token w.wire
    refine ⟨?_, ?_, rfl, wire.network, wire.received, ?_⟩
    · dsimp only
      rw [delivery]
    · dsimp only [Workspace.setWire]
      rw [wire.clock]
    · dsimp only [Workspace.setWire]
      rw [wire.records]

theorem SameWork.tell {v : Workspace} (same : SameWork w v) (event : Event) :
    SameWork (w.publish event) (v.publish event) :=
  ⟨same.frame, same.globals, same.network, same.received,
    by rw [Workspace.publish, Workspace.publish, same.journal]⟩

theorem SameWork.jot {v : Workspace} (same : SameWork w v) (record : Log.Record) :
    SameWork (w.note record) (v.note record) :=
  ⟨same.frame, same.globals, same.network, same.received,
    by rw [Workspace.note, Workspace.note, same.journal]⟩

/-- The same action but for what it asks for -/
structure SameAction (e : Executor) (a b : Action) : Prop where
  id : b.id = a.id
  enabled : b.enabled = a.enabled
  timeout : Assoc.getD b.config "timeout_s" (.float e.timeout) =
    Assoc.getD a.config "timeout_s" (.float e.timeout)

theorem attemptAlike {client : Client Float} {now : Int}
    (carried : e.transport = some (.overNetwork client now)) (same : r.SameButSecrets s)
    (alike : s.encodable = r.encodable) {a b : Action} (action : e.SameAction a b)
    (asks : a.AsksFor w r) (asksToo : b.AsksFor w s) (o : Occasion) (token : Token Float) :
    ((e.attempt o b token).run w).1 = ((e.attempt o a token).run w).1 ∧
    SameWork ((e.attempt o a token).run w).2 ((e.attempt o b token).run w).2 := by
  have type : b.type = a.type := asksToo.type.trans asks.type.symm
  rw [attemptSends carried asks, attemptSends carried asksToo, action.timeout, type]
  cases (Assoc.getD a.config "timeout_s" (.float e.timeout)).toFloat with
  | error b => exact ⟨rfl, .refl w⟩
  | ok limit => exact sendsAlike same alike client now _ w

theorem executeAlike {client : Client Float} {now : Int}
    (carried : e.transport = some (.overNetwork client now)) (same : r.SameButSecrets s)
    (alike : s.encodable = r.encodable) {a b : Action} (action : e.SameAction a b)
    (asks : a.AsksFor w r) (asksToo : b.AsksFor w s) (o : Occasion) (token : Token Float) :
    (e.execute o token b w).1 = (e.execute o token a w).1 ∧
    SameWork (e.execute o token a w).2 (e.execute o token b w).2 := by
  have type : b.type = a.type := asksToo.type.trans asks.type.symm
  cases on : a.enabled with
  | false =>
    rw [executeOff on, executeOff (action.enabled.trans on), action.id, type]
    exact ⟨rfl, .refl w⟩
  | true =>
    have place : occasionOf o b = occasionOf o a := by rw [occasionOf, occasionOf, action.id]
    obtain ⟨answer, kept⟩ := attemptAlike carried same alike action asks asksToo (occasionOf o a) token
    rw [executeTold on, executeTold (action.enabled.trans on), place, answer]
    have records (f : Failure) : e.failureRecord (occasionOf o a) b f =
        e.failureRecord (occasionOf o a) a f := by rw [failureRecord, failureRecord, type]
    unfold told
    cases ((e.attempt (occasionOf o a) a token).run w).1 with
    | ok result =>
      dsimp only
      rw [action.id, type]
      exact ⟨rfl, kept.tell _⟩
    | error f =>
      dsimp only
      rw [action.id, type, records]
      exact ⟨rfl, (kept.jot _).tell _⟩

end Executor

/-- With a hidden URL, neither the URL nor the values of secret headers, if these are ASCII, show in what a
request or a webhook action comes to. -/
theorem secretsStayHidden {r s : WebhookRequest} (same : r.SameButSecrets s) (plain : r.PlainSecrets)
    (plainToo : s.PlainSecrets) (client : Client Float) (now : Int) :
    (∀ token w, ((Transport.overNetwork client now).send s token w).1 =
        ((Transport.overNetwork client now).send r token w).1 ∧
      Transport.SameWire ((Transport.overNetwork client now).send r token w).2
        ((Transport.overNetwork client now).send s token w).2) ∧
    ∀ (e : Executor) (a b : Action) (o : Occasion) (token : Token Float) (w : Workspace),
      e.transport = some (.overNetwork client now) → e.SameAction a b →
      a.AsksFor w r → b.AsksFor w s →
      (e.execute o token b w).1 = (e.execute o token a w).1 ∧
      Executor.SameWork (e.execute o token a w).2 (e.execute o token b w).2 := by
  have alike : s.encodable = r.encodable := sameAscii same.headers plain plainToo
  refine ⟨fun token w => Transport.sendsSame same alike client now token w, ?_⟩
  intro e a b o token w carried action asks asksToo
  exact Executor.executeAlike carried same alike action asks asksToo o token

def bearing (url token : String) : WebhookRequest :=
  ⟨"POST", url, [("Authorization", token)], .null, none, 0, true⟩

theorem bearingSame (url url' token token' : String) :
    (bearing url token).SameButSecrets (bearing url' token') := by
  have secret : Log.isSecretField "Authorization" = true := by decide +kernel
  refine ⟨rfl, rfl, rfl, rfl, rfl, rfl, .cons ⟨rfl, fun plain => ?_⟩ .nil⟩
  rw [secret] at plain
  contradiction

def calling (url token : String) : Action :=
  { id := "a", type := .webhook, enabled := true
    config := [("url", .text url), ("headers", .object [("Authorization", .text token)]),
      ("redact_url", .bool true)] }

def plainClient : Client Float := .ofEnvironment [] id fun _ => 0

def caller : Executor := ⟨.catalogue 0 "", .ofBuiltins true, [], some (.overNetwork plainClient 0), 30⟩

def busyWork : Workspace :=
  ⟨⟨⟨⟨[], [], []⟩, [], []⟩, 0, 0⟩, [], .quiet [⟨.answered 503 "", 0⟩, ⟨.broken "ReadTimeout", 0⟩], [], .empty⟩

theorem secretsStayHiddenCalling :
    (caller.execute ⟨none, .none⟩ (.root 0 none "rule") (calling "http://h/b" "other") busyWork).1 =
      (caller.execute ⟨none, .none⟩ (.root 0 none "rule") (calling "http://h/a" "token") busyWork).1 := by
  have asks : (calling "http://h/a" "token").AsksFor busyWork (bearing "http://h/a" "token") :=
    ⟨rfl, _, by cbv, by cbv⟩
  have asksToo : (calling "http://h/b" "other").AsksFor busyWork (bearing "http://h/b" "other") :=
    ⟨rfl, _, by cbv, by cbv⟩
  have action : caller.SameAction (calling "http://h/a" "token") (calling "http://h/b" "other") :=
    ⟨rfl, rfl, rfl⟩
  have plain : (bearing "http://h/a" "token").PlainSecrets := by
    unfold WebhookRequest.PlainSecrets
    decide +kernel
  have plainToo : (bearing "http://h/b" "other").PlainSecrets := by
    unfold WebhookRequest.PlainSecrets
    decide +kernel
  have hidden := (secretsStayHidden (bearingSame ..) plain plainToo plainClient 0).2 caller
    (calling "http://h/a" "token") (calling "http://h/b" "other") ⟨none, .none⟩ (.root 0 none "rule") busyWork
  exact (hidden rfl action asks asksToo).1

def Delivery.failure? : Delivery → Option Failure
  | failed f => some f
  | _ => none

/-- A secret that is not ASCII fails by itself, before anything is sent. -/
theorem strangeSecretShows :
    let sent (token : String) : Delivery := ((Transport.overNetwork plainClient 0).send
      (bearing "http://h/a" token) (.root 0 none "rule") busyWork.wire).1
    (bearing "http://h/a" "e").SameButSecrets (bearing "http://h/a" "é") ∧
    (sent "é").failure? = some (.breach .unencodable) ∧ sent "é" ≠ sent "e" := by
  intro sent
  have strange : (sent "é").failure? = some (.breach .unencodable) := by decide +kernel
  have plain : (sent "e").failure? ≠ some (.breach .unencodable) := by decide +kernel
  refine ⟨bearingSame .., strange, fun same => ?_⟩
  rw [same] at strange
  exact plain strange

end DecisionRules
