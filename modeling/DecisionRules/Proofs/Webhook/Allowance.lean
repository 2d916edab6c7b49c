import DecisionRules.Proofs.Webhook.Message
import DecisionRules.Proofs.Webhook.Retries

/-! How many attempts a request is allowed. One that gives its retries is tried at least once, and one that leaves
them to the environment unless that says a negative number. -/
namespace DecisionRules

namespace Retry
variable {τ : Type}

theorem replyAmong {script : List (Exchange τ)} {f : Failure} (failed : reply script 0 = .failed f) :
    ∃ e ∈ script, e.reply = .failed f := by
  cases script with
  | nil => cases failed
  | cons e rest => exact ⟨e, List.mem_cons_self, failed⟩

theorem verdictFails {url : String} {r : Reply}
    (closes : (verdict url r).closes = Policy.networkFailure (.noAttempt url)) :
    r = .failed (.network (.noAttempt url)) := by
  rw [verdictConcludes] at closes
  cases r with
  | answered status text =>
    rw [conclusion] at closes
    split at closes <;> cases closes
  | broken error =>
    rw [conclusion] at closes
    split at closes <;> cases closes
  | failed f =>
    cases closes
    rfl

variable [Span τ]

/-- A request that is tried does not come to its end without an outcome. -/
theorem Proceeds.decides {p : Policy τ} {left attempt : Nat} {now final : τ} {script : List (Exchange τ)}
    {attempts : List (Attempt τ)} {pauses : List τ} {outcome : Outcome (Int × String)}
    (goes : Proceeds p left attempt now script attempts pauses outcome final)
    (others : ∀ e ∈ script, e.reply ≠ .failed (.network (.noAttempt p.shownUrl))) :
    outcome ≠ Policy.networkFailure (.noAttempt p.shownUrl) := by
  induction goes with
  | late =>
    intro same
    cases same
  | decided =>
    intro same
    obtain ⟨e, among, failed⟩ := replyAmong (verdictFails same)
    exact others e among failed
  | stuck =>
    intro same
    cases same
  | again _ _ _ _ ih => exact ih fun e among => others e (List.mem_of_mem_tail among)

theorem sendDecides {p : Policy τ} {attempts : Int} {clock : τ} {script : List (Exchange τ)}
    (others : ∀ e ∈ script, e.reply ≠ .failed (.network (.noAttempt p.shownUrl))) :
    (send p attempts ⟨clock, script, [], []⟩).1 = Policy.networkFailure (.noAttempt p.shownUrl) ↔
      attempts ≤ 0 := by
  by_cases never : attempts ≤ 0
  · simp [sendNever p never, never]
  · rw [sendRuns p (Int.not_le.mp never)]
    obtain ⟨_, _, _, _, goes⟩ := runProceeds p (attempts - 1).toNat 0 ⟨clock, script, [], []⟩
    exact iff_of_false (goes.decides others) never

end Retry

namespace Client
variable {τ : Type} {client : Client τ} {o : Outgoing τ}

theorem attemptsAllowed (client : Client τ) (o : Outgoing τ) :
    client.attempts o ≤ 0 ↔ ¬ (o.retries ≠ none ∨ 0 ≤ client.retries) := by
  unfold attempts
  cases o.retries with
  | none => simp only [ne_eq, not_true, false_or]; omega
  | some n => simp only [ne_eq, reduceCtorEq, not_false_eq_true, true_or, not_true, iff_false]; omega

variable [Span τ]

/-- A request goes over the network at least once if it is allowed an attempt. -/
theorem sendEndless {message : Message}
    (built : Message.build client.userAgent o.method o.url o.headers o.text o.content = .ok message)
    (clock : τ) (network : Network τ) :
    ∃ n, (client.send o.endless clock network).2.2.calls = network.calls ++ List.replicate n ⟨message, none⟩ ∧
      (n = 0 ↔ client.attempts o ≤ 0) := by
  by_cases never : client.attempts o ≤ 0
  · have neverToo : client.attempts o.endless ≤ 0 := never
    refine ⟨0, ?_, iff_of_true rfl never⟩
    have builtToo : Message.build client.userAgent o.endless.method o.endless.url o.endless.headers
      o.endless.text o.endless.content = .ok message := built
    unfold send
    rw [builtToo]
    dsimp only
    rw [Retry.sendNever _ neverToo]
    rfl
  · obtain ⟨attempts, _, called, _, goes⟩ := endlessProceeds built (Int.not_le.mp never) clock network
    refine ⟨attempts.length, called, iff_of_false (fun none => ?_) never⟩
    exact Retry.openDue rfl rfl clock (goes.idle.mp (List.length_eq_zero_iff.mp none))

/-- It has nothing to report exactly if it is allowed none, and there is a client to send it. -/
theorem sendReports (clock : τ) {network : Network τ}
    (others : ∀ e ∈ network.upcoming, e.reply ≠ .failed (.network (.noAttempt (shownUrl o.redactUrl o.url)))) :
    (client.send o clock network).1 = .error (.network (.noAttempt (shownUrl o.redactUrl o.url))) ↔
      client.attempts o ≤ 0 ∧ Message.isAscii client.userAgent = true := by
  unfold send
  cases built : Message.build client.userAgent o.method o.url o.headers o.text o.content with
  | ok message =>
    rw [Message.builtAgent built, and_iff_left rfl]
    exact Retry.sendDecides others
  | error b =>
    cases plain : Message.isAscii client.userAgent with
    | true =>
      rw [and_iff_left rfl]
      refine Retry.sendDecides fun e among => ?_
      cases List.mem_singleton.mp among
      intro same
      cases same
    | false =>
      refine iff_of_false (fun same => ?_) fun both => absurd both.2 Bool.false_ne_true
      cases same

end Client

/-- A request without a limit and a deadline, of which a message can be made, goes over the network at least once
if it gives its retries, whatever their number, or the environment says no negative number of them, and
otherwise never. Nothing but that leaves it without an outcome. -/
theorem triedIfAllowed (env : Environment) (jitter : Nat → Float) (o : Outgoing Float) (clock : Float)
    (network : Network Float) :
    let client := Client.ofEnvironment env id jitter
    let sent := client.send o.endless clock network
    let allowed := o.retries ≠ none ∨ 0 ≤ env.int "RULECRAFT_HTTP_RETRIES" 0
    let undecided := Failure.network (.noAttempt (shownUrl o.redactUrl o.url))
    (∀ message, Message.build client.userAgent o.method o.url o.headers o.text o.content = .ok message →
      ∃ n, sent.2.2.calls = network.calls ++ List.replicate n ⟨message, none⟩ ∧ (n = 0 ↔ ¬ allowed)) ∧
    ((∀ e ∈ network.upcoming, e.reply ≠ .failed undecided) →
      (sent.1 = .error undecided ↔ ¬ allowed ∧ Message.isAscii client.userAgent = true)) := by
  intro client sent allowed undecided
  have never : client.attempts o ≤ 0 ↔ ¬ allowed := Client.attemptsAllowed client o
  refine ⟨fun message built => ?_, fun others => ?_⟩
  · rw [← never]
    exact Client.sendEndless built clock network
  · rw [← never]
    exact Client.sendReports clock others

/-- The client of an environment that says this number of retries. -/
def retrying (retries : String) : Client Float :=
  .ofEnvironment [("RULECRAFT_HTTP_USER_AGENT", "rules"), ("RULECRAFT_HTTP_RETRIES", retries)] id fun _ => 0.5

theorem recoveringOthers (f : Failure) : ∀ e ∈ recovering, e.reply ≠ .failed f := by
  simp [recovering, down]

theorem triedIfAllowedDown :
    (∃ n, ((retrying " 2 ").send letter.endless 0 (.quiet recovering)).2.2.calls =
      List.replicate n ⟨letterMessage, none⟩ ∧ n ≠ 0) ∧
    (∀ e ∈ recovering, e.reply ≠ .failed (.network (.noAttempt "[redacted-url]"))) ∧
    ((retrying " 2 ").send letter.endless 0 (.quiet recovering)).1 ≠
      .error (.network (.noAttempt "[redacted-url]")) := by
  obtain ⟨tried, reported⟩ := triedIfAllowed
    [("RULECRAFT_HTTP_USER_AGENT", "rules"), ("RULECRAFT_HTTP_RETRIES", " 2 ")] (fun _ => 0.5) letter 0
    (.quiet recovering)
  have allowed : 0 ≤ (retrying " 2 ").retries := by decide +kernel
  obtain ⟨n, called, some⟩ := tried letterMessage letterBuilt
  refine ⟨⟨n, called, fun none => some.mp none (.inr allowed)⟩, recoveringOthers _, fun same => ?_⟩
  exact ((reported (recoveringOthers _)).mp same).1 (.inr allowed)

/-- With a negative number of retries in the environment the server is never asked. -/
theorem negativeUntried :
    ((retrying "-1").send letter.endless 0 (.quiet recovering)).2.2.calls.length = 0 ∧
    ((retrying "-1").send letter.endless 0 (.quiet recovering)).1 =
      .error (.network (.noAttempt "[redacted-url]")) := by
  have never : (retrying "-1").attempts letter ≤ 0 := by decide +kernel
  obtain ⟨n, called, none⟩ := (retrying "-1").sendEndless (o := letter) letterBuilt 0 (.quiet recovering)
  obtain rfl := none.mpr never
  refine ⟨congrArg List.length called, ?_⟩
  exact ((retrying "-1").sendReports (o := letter.endless) 0 (recoveringOthers _)).mpr ⟨never, by decide +kernel⟩

end DecisionRules
