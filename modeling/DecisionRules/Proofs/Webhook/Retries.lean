import DecisionRules.Proofs.Webhook.Course

/-! Requests without a deadline or a limit. They are tried until an outcome is not to be tried again or no retry is
left, and come to the last outcome; only the doubling of pauses ends them before that, when a float cannot
hold it. -/
namespace DecisionRules.Retry
variable {τ : Type}

theorem replyReplicate (e : Exchange τ) {k i : Nat} (less : i < k) :
    reply (List.replicate k e) i = e.reply := by
  simp [reply, less]

theorem replyAfter {script : List (Exchange τ)} {i : Nat} (beyond : script.length ≤ i) :
    reply script i = .answered 200 "" := by
  rw [reply, List.getElem?_eq_none beyond]
  rfl

/-- Is this an outcome after which a request is tried again? -/
def Passing : Reply → Prop
  | .answered status _ => status ∈ [429, 500, 502, 503, 504]
  | .broken error => error ∈ ["ConnectError", "ReadTimeout", "RemoteProtocolError"]
  | .failed _ => False

/-- What a request comes to with its last outcome. -/
def conclusion (url : String) : Reply → Outcome (Int × String)
  | .answered status text =>
    if 200 ≤ status ∧ status < 300 then .ok (status, text) else .error (.status status url)
  | .broken error =>
    .error (.network (if error ∈ ["ConnectError", "ReadTimeout", "RemoteProtocolError"] then
      .exhausted url error else .failed url error))
  | .failed f => .error f

/-- The first outcome after which a request is not tried again, or the last one that retries allow if that
comes first. -/
structure Decisive (most : Nat) (script : List (Exchange τ)) (n : Nat) : Prop where
  before : ∀ i < n, Passing (reply script i)
  within : n ≤ most
  stops : Passing (reply script n) → n = most

theorem decisiveExists (most : Nat) (script : List (Exchange τ)) : ∃ n, Decisive most script n := by
  induction most generalizing script with
  | zero => exact ⟨0, by simp, Nat.le_refl 0, fun _ => rfl⟩
  | succ most ih =>
    by_cases again : Passing (reply script 0)
    · obtain ⟨n, before, within, stops⟩ := ih script.tail
      refine ⟨n + 1, fun i less => ?_, by omega, fun passing => ?_⟩
      · cases i with
        | zero => exact again
        | succ i => exact replyTail script i ▸ before i (by omega)
      · exact congrArg (· + 1) (stops (replyTail script n ▸ passing))
    · exact ⟨0, by simp, Nat.zero_le _, fun passing => absurd passing again⟩

theorem Decisive.unique {most n m : Nat} {script : List (Exchange τ)} (one : Decisive most script n)
    (other : Decisive most script m) : n = m := by
  have least {n m : Nat} (one : Decisive most script n) (other : Decisive most script m) : ¬ n < m := fun less => by
    have last := one.stops (other.before n less)
    have within := other.within
    omega
  have apart := And.intro (least one other) (least other one)
  omega

/-- After a first outcome that is tried again, the others decide. -/
theorem Decisive.next {left n : Nat} {script : List (Exchange τ)} (decisive : Decisive (left + 1) script n)
    (again : Passing (reply script 0)) : ∃ m, n = m + 1 ∧ Decisive left script.tail m := by
  cases n with
  | zero => exact absurd (decisive.stops again) (by omega)
  | succ m =>
    refine ⟨m, rfl, fun i less => ?_, by have := decisive.within; omega, fun passing => ?_⟩
    · exact replyTail script i ▸ decisive.before (i + 1) (by omega)
    · have last := decisive.stops (replyTail script m ▸ passing)
      omega

/-! Verdicts -/

theorem verdictAnswered (url : String) (status : Int) (text : String) :
    verdict url (.answered status text) =
      if 200 ≤ status ∧ status < 300 then .finished status text
      else if status ∈ [429, 500, 502, 503, 504] then .again (.status status url)
      else .refused (.status status url) := by
  simp [verdict, isSuccess, retryableStatuses]

theorem verdictBroken (url error : String) :
    verdict url (.broken error) =
      if error ∈ ["ConnectError", "ReadTimeout", "RemoteProtocolError"] then
        .again (.network (.exhausted url error))
      else .refused (.network (.failed url error)) := by
  simp [verdict, retryableErrors]

theorem passingFails {status : Int} (passing : status ∈ [429, 500, 502, 503, 504]) :
    ¬ (200 ≤ status ∧ status < 300) := by
  revert status
  decide

theorem verdictPassing {url : String} {r : Reply} : (∃ f, verdict url r = .again f) ↔ Passing r := by
  cases r with
  | answered status text =>
    rw [verdictAnswered, Passing]
    by_cases passing : status ∈ [429, 500, 502, 503, 504]
    · rw [if_neg (passingFails passing), if_pos passing]
      simp only [passing, Verdict.again.injEq, exists_eq']
    · rw [if_neg passing]
      split <;> simp only [passing, reduceCtorEq, exists_false]
  | broken error =>
    rw [verdictBroken, Passing]
    split
    · rename_i passing
      simp only [passing, Verdict.again.injEq, exists_eq']
    · rename_i lasting
      simp only [lasting, reduceCtorEq, exists_false]
  | failed f => simp only [verdict, Passing, reduceCtorEq, exists_false]

theorem Decisive.alone {url : String} {left n : Nat} {script : List (Exchange τ)}
    (decisive : Decisive left script n)
    (last : left = 0 ∨ ∀ f, verdict url (reply script 0) ≠ .again f) : n = 0 := by
  rcases last with rfl | never
  · exact Nat.le_zero.mp decisive.within
  · refine Nat.eq_zero_of_not_pos fun more => ?_
    exact (verdictPassing.mpr (decisive.before 0 more)).elim never

theorem verdictConcludes (url : String) (r : Reply) : (verdict url r).closes = conclusion url r := by
  cases r with
  | answered status text =>
    rw [verdictAnswered, conclusion]
    split
    · rfl
    · split <;> rfl
  | broken error =>
    rw [verdictBroken, conclusion]
    split <;> rfl
  | failed f => rfl

/-! Attempts -/

section
variable [Span τ] {p : Policy τ} {left attempt : Nat} {now final : τ} {script : List (Exchange τ)}
  {attempts : List (Attempt τ)} {pauses : List τ} {outcome : Outcome (Int × String)}

theorem openTimeout (timeless : p.timeout = none) (endless : p.deadline = none) (now : τ) :
    p.attemptTimeout now = none := by
  simp [Policy.attemptTimeout, timeless, endless]

theorem openDue (timeless : p.timeout = none) (endless : p.deadline = none) (now : τ) : ¬ p.Over now := by
  rintro ⟨limit, wanted, _⟩
  rw [openTimeout timeless endless] at wanted
  contradiction

theorem openUnlimited (timeless : p.timeout = none) (endless : p.deadline = none)
    (goes : Proceeds p left attempt now script attempts pauses outcome final) :
    attempts.map Attempt.timeouts = List.replicate attempts.length none := by
  refine List.eq_replicate_iff.mpr ⟨List.length_map _, fun limits among => ?_⟩
  obtain ⟨a, member, rfl⟩ := List.mem_map.mp among
  rw [(goes.attempted a member).2, Policy.attempt, openTimeout timeless endless]
  rfl

/-- The decisive outcome is reached and concludes, if every pause before it has a length. -/
theorem Proceeds.dictated (goes : Proceeds p left attempt now script attempts pauses outcome final)
    (timeless : p.timeout = none) (endless : p.deadline = none) {n : Nat} (decisive : Decisive left script n)
    (able : ∀ i, attempt ≤ i → i < attempt + n → ∃ x : τ, Span.twoPow i = .ok x) :
    attempts.length = n + 1 ∧ pauses.length = n ∧ outcome = conclusion p.shownUrl (reply script n) := by
  induction goes generalizing n with
  | late spent => exact absurd spent (openDue timeless endless _)
  | decided due last =>
    rw [decisive.alone last]
    exact ⟨rfl, rfl, verdictConcludes ..⟩
  | @stuck left attempt now script f b due again unable =>
    obtain ⟨m, rfl, _⟩ := decisive.next (verdictPassing.mp ⟨_, again⟩)
    obtain ⟨x, ok⟩ := able attempt (Nat.le_refl _) (by omega)
    rw [pauseFails, ok] at unable
    contradiction
  | again due again paused rest ih =>
    obtain ⟨m, rfl, later⟩ := decisive.next (verdictPassing.mp ⟨_, again⟩)
    obtain ⟨tried, waited, concluded⟩ := ih later fun i most less => able i (by omega) (by omega)
    exact ⟨congrArg (· + 1) tried, congrArg (· + 1) waited, replyTail _ m ▸ concluded⟩

/-- The first pause before the decisive outcome that has no length ends the request. -/
theorem Proceeds.broken (goes : Proceeds p left attempt now script attempts pauses outcome final)
    (timeless : p.timeout = none) (endless : p.deadline = none) {n k : Nat} (decisive : Decisive left script n)
    (later : attempt ≤ k) (before : k < attempt + n)
    (able : ∀ i, attempt ≤ i → i < k → ∃ x : τ, Span.twoPow i = .ok x) {b : Breach}
    (unable : (Span.twoPow k : Except Breach τ) = .error b) :
    attempt + attempts.length = k + 1 ∧ attempt + pauses.length = k ∧ outcome = .error (.breach b) := by
  induction goes generalizing n with
  | late spent => exact absurd spent (openDue timeless endless _)
  | decided due last =>
    have none := decisive.alone last
    omega
  | @stuck left attempt now script f c due again failed =>
    rw [pauseFails] at failed
    rcases Nat.eq_or_lt_of_le later with rfl | more
    · cases failed.symm.trans unable
      exact ⟨rfl, rfl, rfl⟩
    · obtain ⟨x, ok⟩ := able attempt (Nat.le_refl _) more
      cases ok.symm.trans failed
  | @again left attempt now script f span _ _ _ _ due again paused rest ih =>
    obtain ⟨m, rfl, next⟩ := decisive.next (verdictPassing.mp ⟨_, again⟩)
    rcases Nat.eq_or_lt_of_le later with rfl | more
    · cases paused.symm.trans (pauseFails.mpr unable)
    · obtain ⟨tried, waited, concluded⟩ := ih next more (by omega) fun i most less => able i (by omega) less
      simp only [List.length_cons]
      exact ⟨by omega, by omega, concluded⟩

end

/-- Pauses are floats up to the 1024th. -/
theorem Proceeds.overflows {p : Policy Float} {left : Nat} {now final : Float} {script : List (Exchange Float)}
    {attempts : List (Attempt Float)} {pauses : List Float} {outcome : Outcome (Int × String)}
    (goes : Proceeds p left 0 now script attempts pauses outcome final) (timeless : p.timeout = none)
    (endless : p.deadline = none) {n : Nat} (decisive : Decisive left script n) (many : 1024 < n) :
    attempts.length = 1025 ∧ pauses.length = 1024 ∧ outcome = .error (.breach .overflow) := by
  obtain ⟨tried, waited, concluded⟩ := goes.broken timeless endless decisive (Nat.zero_le 1024) (by omega)
    (fun i _ less => ⟨_, if_pos less⟩) (if_neg (Nat.lt_irrefl 1024))
  rw [Nat.zero_add] at tried waited
  exact ⟨tried, waited, concluded⟩

end DecisionRules.Retry

namespace DecisionRules
open Retry (Decisive Passing Proceeds conclusion reply)

/-- The request without a limit and a deadline. -/
def Outgoing.endless {τ : Type} (o : Outgoing τ) : Outgoing τ := { o with timeout := none, deadline := none }

/-- The request without a limit and a deadline, and with as many retries. -/
def Outgoing.untimed {τ : Type} (o : Outgoing τ) (retries : Int) : Outgoing τ :=
  { o with timeout := none, deadline := none, retries := some retries }

theorem Client.endlessProceeds {τ : Type} [Span τ] {client : Client τ} {o : Outgoing τ} {message : Message}
    (built : Message.build client.userAgent o.method o.url o.headers o.text o.content = .ok message)
    (allowed : 0 < client.attempts o) (clock : τ) (network : Network τ) :
    ∃ attempts pauses,
      (client.send o.endless clock network).2.2.calls =
        network.calls ++ List.replicate attempts.length ⟨message, none⟩ ∧
      (client.send o.endless clock network).2.2.pauses = network.pauses ++ pauses ∧
      Proceeds (client.policy o.endless) (client.attempts o - 1).toNat 0 clock network.upcoming attempts pauses
        (client.send o.endless clock network).1 (client.send o.endless clock network).2.1 := by
  obtain ⟨attempts, pauses, called, waited, goes⟩ :=
    Client.sendProceeds (o := o.endless) built allowed clock network
  have limits := congrArg (List.map fun t => (⟨message, t⟩ : Call τ)) (Retry.openUnlimited rfl rfl goes)
  rw [List.map_map, List.map_replicate] at limits
  exact ⟨attempts, pauses, called.trans (congrArg (network.calls ++ ·) limits), waited, goes⟩

theorem Client.untimedProceeds {τ : Type} [Span τ] {client : Client τ} {o : Outgoing τ} {message : Message}
    (built : Message.build client.userAgent o.method o.url o.headers o.text o.content = .ok message)
    (retries : Int) (clock : τ) (network : Network τ) :
    ∃ attempts pauses,
      (client.send (o.untimed retries) clock network).2.2.calls =
        network.calls ++ List.replicate attempts.length ⟨message, none⟩ ∧
      (client.send (o.untimed retries) clock network).2.2.pauses = network.pauses ++ pauses ∧
      Proceeds (client.policy (o.untimed retries)) (max 0 retries).toNat 0 clock network.upcoming attempts pauses
        (client.send (o.untimed retries) clock network).1 (client.send (o.untimed retries) clock network).2.1 := by
  have count : client.attempts (o.untimed retries) = max 0 retries + 1 := rfl
  obtain ⟨attempts, pauses, called, waited, goes⟩ :=
    Client.endlessProceeds (o := o.untimed retries) built (by omega) clock network
  rw [count, Int.add_sub_cancel] at goes
  exact ⟨attempts, pauses, called, waited, goes⟩

/-- A request of which a message can be made, without a deadline and a limit, with any number of retries, any
pauses and whatever comes back: the decisive outcome is the first one that is not to be tried again, or that of
the last attempt allowed. If it comes after no more than 1024 pauses, there is one attempt more than pauses
and the request comes to this outcome. If it would come later, the next power of two is no float any more, and
the request ends with this overflow. -/
theorem outcomesDictate (client : Client Float) (o : Outgoing Float) (retries : Int) (clock : Float)
    (network : Network Float) (message : Message)
    (built : Message.build client.userAgent o.method o.url o.headers o.text o.content = .ok message) :
    let sent := client.send (o.untimed retries) clock network
    ∃ n, Decisive (max 0 retries).toNat network.upcoming n ∧
      (n ≤ 1024 →
        sent.1 = conclusion (shownUrl o.redactUrl o.url) (reply network.upcoming n) ∧
        sent.2.2.calls = network.calls ++ List.replicate (n + 1) ⟨message, none⟩ ∧
        sent.2.2.pauses.length = network.pauses.length + n) ∧
      (1024 < n →
        sent.1 = .error (.breach .overflow) ∧
        sent.2.2.calls = network.calls ++ List.replicate 1025 ⟨message, none⟩ ∧
        sent.2.2.pauses.length = network.pauses.length + 1024) := by
  intro sent
  obtain ⟨attempts, pauses, called, waited, goes⟩ := Client.untimedProceeds built retries clock network
  obtain ⟨n, decisive⟩ := Retry.decisiveExists (max 0 retries).toNat network.upcoming
  refine ⟨n, decisive, fun few => ?_, fun many => ?_⟩
  · obtain ⟨tried, paused, concluded⟩ := goes.dictated rfl rfl decisive fun i _ less =>
      ⟨_, if_pos (by omega : i < 1024)⟩
    exact ⟨concluded, called.trans (by rw [tried]), by rw [waited, List.length_append, paused]⟩
  · obtain ⟨tried, paused, concluded⟩ := goes.overflows rfl rfl decisive many
    exact ⟨concluded, called.trans (by rw [tried]), by rw [waited, List.length_append, paused]⟩

def postman : Client Float := ⟨"rules", 0, 5, 0.1, 0.25, 2, fun _ => 0.5⟩

def letter : Outgoing Float :=
  ⟨"post", "http://hooks.local/x", [("X-Id", "7")], none, .list [.int 1], none, none, none, true⟩

def letterMessage : Message :=
  ⟨"POST", "http://hooks.local/x", [("x-id", "7"), ("user-agent", "rules"), ("content-type", "application/json")],
    "[1]"⟩

theorem letterBuilt : Message.build postman.userAgent letter.method letter.url letter.headers letter.text
    letter.content = .ok letterMessage := by
  have made : (Message.build postman.userAgent letter.method letter.url letter.headers letter.text
      letter.content).toOption = some letterMessage := by decide +kernel
  cases built : Message.build postman.userAgent letter.method letter.url letter.headers letter.text
      letter.content with
  | ok message => simpa [built, Except.toOption] using made
  | error b => simp [built, Except.toOption] at made

def down : Retry.Exchange Float := ⟨.answered 503 "", 0⟩

/-- Two outcomes that are tried again come before one that is not. -/
def recovering : List (Retry.Exchange Float) := [down, ⟨.broken "ReadTimeout", 0⟩, ⟨.answered 404 "", 0⟩]

theorem recoveringThird : Decisive 3 recovering 2 where
  before i less := by
    obtain rfl | rfl : i = 0 ∨ i = 1 := by omega
    · simp [reply, recovering, down, Passing]
    · simp [reply, recovering, Passing]
  within := by decide
  stops := by simp [reply, recovering, Passing]

theorem outcomesDictateRecovering :
    (Message.build postman.userAgent letter.method letter.url letter.headers letter.text letter.content =
      .ok letterMessage) ∧
    (postman.send (letter.untimed 3) 0 (.quiet recovering)).1 = .error (.status 404 "[redacted-url]") ∧
    (postman.send (letter.untimed 3) 0 (.quiet recovering)).2.2.calls =
      List.replicate 3 ⟨letterMessage, none⟩ ∧
    (postman.send (letter.untimed 3) 0 (.quiet recovering)).2.2.pauses.length = 2 := by
  obtain ⟨n, decisive, concludes, _⟩ := outcomesDictate postman letter 3 0 (.quiet recovering) letterMessage
    letterBuilt
  obtain rfl := decisive.unique recoveringThird
  exact ⟨letterBuilt, concludes (by decide)⟩

/-- A server is down for 1025 attempts and would answer the next one, which the retries allow; but the pause
before it overflows. -/
theorem patienceOverflows :
    let script := List.replicate 1025 down
    Decisive 1025 script 1025 ∧ reply script 1025 = .answered 200 "" ∧
      (postman.send (letter.untimed 1025) 0 (.quiet script)).1 = .error (.breach .overflow) := by
  intro script
  have decisive : Decisive 1025 script 1025 :=
    ⟨fun i less => by rw [Retry.replyReplicate down less]; simp [down, Passing], Nat.le_refl _, fun _ => rfl⟩
  obtain ⟨_, _, _, _, goes⟩ := Client.untimedProceeds letterBuilt 1025 0 (.quiet script)
  exact ⟨decisive, Retry.replyAfter (Nat.le_of_eq (List.length_replicate ..)),
    (goes.overflows rfl rfl decisive (by decide)).2.2⟩

end DecisionRules
