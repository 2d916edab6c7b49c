import DecisionRules.Webhook.Client

/-! How a request goes, attempt by attempt. Before each of them it may be too late; after each of them the request
is decided, or there is a pause before the next one, or no pause of that length. -/
namespace DecisionRules.Retry
variable {τ : Type}

/-- What comes back of an attempt: what is scripted, and empty successes after that. -/
def reply (script : List (Exchange τ)) (i : Nat) : Reply :=
  (script[i]?.map Exchange.reply).getD (.answered 200 "")

/-- When an attempt ends that begins now. -/
def ends [Add τ] (script : List (Exchange τ)) (i : Nat) (now : τ) : τ :=
  (script[i]?.map fun e => now + e.duration).getD now

theorem replyTail (script : List (Exchange τ)) (i : Nat) : reply script.tail i = reply script (i + 1) := by
  simp [reply]

theorem endsTail [Add τ] (script : List (Exchange τ)) (i : Nat) (now : τ) :
    ends script.tail i now = ends script (i + 1) now := by
  simp [ends]

variable [Span τ]

namespace Policy

def Over (p : Policy τ) (now : τ) : Prop := ∃ limit, p.attemptTimeout now = some limit ∧ limit ≤ Instant.zero

/-- The attempt that begins now, with its limits. -/
def attempt (p : Policy τ) (now : τ) : Attempt τ := ⟨now, (p.attemptTimeout now).map p.timeouts⟩

end Policy

/-- What an attempt without retries left, or one that is not tried again, comes to. -/
def Verdict.closes : Verdict → Outcome (Int × String)
  | .finished status text => .ok (status, text)
  | .refused f => .error f
  | .again otherwise => .error otherwise

/-- The rest of a request, from some attempt on: the attempts, the pauses, the outcome and the time of it. -/
inductive Proceeds (p : Policy τ) : (left attempt : Nat) → τ → List (Exchange τ) →
    List (Attempt τ) → List τ → Outcome (Int × String) → τ → Prop where
  | late {left attempt now script} (spent : p.Over now) :
      Proceeds p left attempt now script [] [] (Policy.networkFailure (.deadlineExceeded p.shownUrl)) now
  | decided {left attempt now script} (due : ¬ p.Over now)
      (final : left = 0 ∨ ∀ f, verdict p.shownUrl (reply script 0) ≠ .again f) :
      Proceeds p left attempt now script [p.attempt now] [] (verdict p.shownUrl (reply script 0)).closes
        (ends script 0 now)
  | stuck {left attempt now script f b} (due : ¬ p.Over now)
      (again : verdict p.shownUrl (reply script 0) = .again f)
      (unable : p.pause attempt (ends script 0 now) = .error b) :
      Proceeds p (left + 1) attempt now script [p.attempt now] [] (.error (.breach b)) (ends script 0 now)
  | again {left attempt now script f span attempts pauses outcome final} (due : ¬ p.Over now)
      (again : verdict p.shownUrl (reply script 0) = .again f)
      (paused : p.pause attempt (ends script 0 now) = .ok span)
      (rest : Proceeds p left (attempt + 1) (ends script 0 now + span) script.tail attempts pauses outcome final) :
      Proceeds p (left + 1) attempt now script (p.attempt now :: attempts) (span :: pauses) outcome final

section
variable {p : Policy τ} {left attempt : Nat} {now final : τ} {script : List (Exchange τ)}
  {attempts : List (Attempt τ)} {pauses : List τ} {outcome : Outcome (Int × String)}

theorem Proceeds.attempted (goes : Proceeds p left attempt now script attempts pauses outcome final) :
    ∀ a ∈ attempts, ¬ p.Over a.start ∧ a = p.attempt a.start := by
  induction goes with
  | late => simp
  | decided due => exact fun a only => List.mem_singleton.mp only ▸ ⟨due, rfl⟩
  | stuck due => exact fun a only => List.mem_singleton.mp only ▸ ⟨due, rfl⟩
  | again due _ _ _ ih => exact List.forall_mem_cons.mpr ⟨⟨due, rfl⟩, ih⟩

theorem Proceeds.idle (goes : Proceeds p left attempt now script attempts pauses outcome final) :
    attempts = [] ↔ p.Over now := by
  cases goes with
  | late spent => exact iff_of_true rfl spent
  | decided due => exact iff_of_false (List.cons_ne_nil _ _) due
  | stuck due => exact iff_of_false (List.cons_ne_nil _ _) due
  | again due => exact iff_of_false (List.cons_ne_nil _ _) due

theorem Proceeds.begins (goes : Proceeds p left attempt now script attempts pauses outcome final) :
    ∀ a, attempts[0]? = some a → a.start = now := by
  cases goes with
  | late => simp
  | decided => simp [Policy.attempt]
  | stuck => simp [Policy.attempt]
  | again => simp [Policy.attempt]

/-- A pause begins when the attempt before it ends, and when it ends the next attempt begins. -/
theorem Proceeds.paced (goes : Proceeds p left attempt now script attempts pauses outcome final) {i : Nat} {span : τ}
    (waited : pauses[i]? = some span) :
    ∃ a, attempts[i]? = some a ∧ p.pause (attempt + i) (ends script i a.start) = .ok span ∧
      ∀ b, attempts[i + 1]? = some b → b.start = ends script i a.start + span := by
  induction goes generalizing i with
  | late => simp at waited
  | decided => simp at waited
  | stuck => simp at waited
  | @again left attempt now script f first attempts pauses outcome final due again paused rest ih =>
    cases i with
    | zero =>
      cases waited
      exact ⟨p.attempt now, rfl, paused, rest.begins⟩
    | succ i =>
      obtain ⟨a, tried, later, next⟩ := ih waited
      rw [endsTail, Nat.add_assoc, Nat.add_comm 1] at later
      refine ⟨a, tried, later, fun b following => ?_⟩
      rw [← endsTail]
      exact next b following

end

/-- A pause has a length unless the power of two has none. -/
theorem pauseFails {p : Policy τ} {attempt : Nat} {now : τ} {b : Breach} :
    p.pause attempt now = .error b ↔ (Span.twoPow attempt : Except Breach τ) = .error b := by
  unfold Policy.pause Policy.backoff
  cases (Span.twoPow attempt : Except Breach τ) <;> simp [bind, Except.bind, pure, Except.pure]

theorem exchangeGives (c : Course τ) (timeouts : Option (Timeouts τ)) :
    c.exchange timeouts = (reply c.upcoming 0,
      ⟨ends c.upcoming 0 c.clock, c.upcoming.tail, c.attempts ++ [⟨c.clock, timeouts⟩], c.pauses⟩) := by
  obtain ⟨clock, upcoming, attempts, pauses⟩ := c
  cases upcoming with
  | nil => simp [Course.exchange, reply, ends]
  | cons e rest => simp [Course.exchange, reply, ends]

theorem overIff {p : Policy τ} {now : τ} :
    (p.attemptTimeout now).any (fun t => decide (t ≤ Instant.zero)) = true ↔ p.Over now := by
  unfold Policy.Over
  cases p.attemptTimeout now <;> simp

/-- The course after the attempt that begins now. -/
def Course.attempted (p : Policy τ) (c : Course τ) : Course τ :=
  ⟨ends c.upcoming 0 c.clock, c.upcoming.tail, c.attempts ++ [p.attempt c.clock], c.pauses⟩

theorem runLate {p : Policy τ} {c : Course τ} (spent : p.Over c.clock) (left attempt : Nat) :
    run p left attempt c = (Policy.networkFailure (.deadlineExceeded p.shownUrl), c) := by
  unfold run
  exact if_pos (overIff.mpr spent)

theorem runDecided {p : Policy τ} {c : Course τ} (due : ¬ p.Over c.clock) {left : Nat}
    (final : left = 0 ∨ ∀ f, verdict p.shownUrl (reply c.upcoming 0) ≠ .again f) (attempt : Nat) :
    run p left attempt c = ((verdict p.shownUrl (reply c.upcoming 0)).closes, c.attempted p) := by
  unfold run
  dsimp only
  rw [if_neg (mt overIff.mp due), exchangeGives]
  dsimp only
  cases judged : verdict p.shownUrl (reply c.upcoming 0) with
  | finished status text => rfl
  | refused f => rfl
  | again otherwise =>
    obtain rfl : left = 0 := final.resolve_right fun never => never otherwise judged
    rfl

theorem runAgain {p : Policy τ} {c : Course τ} (due : ¬ p.Over c.clock) {f : Failure}
    (again : verdict p.shownUrl (reply c.upcoming 0) = .again f) (left attempt : Nat) :
    run p (left + 1) attempt c = match p.pause attempt (ends c.upcoming 0 c.clock) with
      | .error b => (.error (.breach b), c.attempted p)
      | .ok span => run p left (attempt + 1) ((c.attempted p).pauseFor span) := by
  rw [run]
  dsimp only
  rw [if_neg (mt overIff.mp due), exchangeGives]
  dsimp only
  rw [again]
  rfl

/-- A run adds to its course what the relation says. -/
theorem runProceeds (p : Policy τ) (left attempt : Nat) (c : Course τ) :
    ∃ attempts pauses, (run p left attempt c).2.attempts = c.attempts ++ attempts ∧
      (run p left attempt c).2.pauses = c.pauses ++ pauses ∧
      Proceeds p left attempt c.clock c.upcoming attempts pauses (run p left attempt c).1
        (run p left attempt c).2.clock := by
  obtain spent | due := Classical.em (p.Over c.clock)
  · rw [runLate spent]
    exact ⟨[], [], (List.append_nil _).symm, (List.append_nil _).symm, .late spent⟩
  by_cases final : left = 0 ∨ ∀ f, verdict p.shownUrl (reply c.upcoming 0) ≠ .again f
  · rw [runDecided due final]
    exact ⟨[p.attempt c.clock], [], rfl, (List.append_nil _).symm, .decided due final⟩
  obtain ⟨some, f, again⟩ : left ≠ 0 ∧ ∃ f, verdict p.shownUrl (reply c.upcoming 0) = .again f := by
    simpa using final
  cases left with
  | zero => contradiction
  | succ left =>
    rw [runAgain due again]
    cases paused : p.pause attempt (ends c.upcoming 0 c.clock) with
    | error b =>
      exact ⟨[p.attempt c.clock], [], rfl, (List.append_nil _).symm, .stuck due again paused⟩
    | ok span =>
      obtain ⟨attempts, pauses, tried, waited, rest⟩ :=
        runProceeds p left (attempt + 1) ((c.attempted p).pauseFor span)
      refine ⟨p.attempt c.clock :: attempts, span :: pauses, ?_, ?_, .again due again paused rest⟩
      · exact tried.trans (List.append_assoc ..)
      · exact waited.trans (List.append_assoc ..)

theorem sendNever (p : Policy τ) {attempts : Int} (never : attempts ≤ 0) (c : Course τ) :
    send p attempts c = (Policy.networkFailure (.noAttempt p.shownUrl), c) := if_pos never

theorem sendRuns (p : Policy τ) {attempts : Int} (some : 0 < attempts) (c : Course τ) :
    send p attempts c = run p (attempts - 1).toNat 0 c := if_neg (Int.not_le.mpr some)

/-- Each attempt of a request begins in time, with the limits for that time. -/
theorem sendAttempted (p : Policy τ) (attempts : Int) (start : τ) (script : List (Exchange τ)) :
    ∀ a ∈ (send p attempts ⟨start, script, [], []⟩).2.attempts, ¬ p.Over a.start ∧ a = p.attempt a.start := by
  by_cases never : attempts ≤ 0
  · simp [sendNever p never]
  · obtain ⟨tried, _, is, _, goes⟩ := runProceeds p (attempts - 1).toNat 0 ⟨start, script, [], []⟩
    rw [sendRuns p (Int.not_le.mp never), is, List.nil_append]
    exact goes.attempted

end DecisionRules.Retry

namespace DecisionRules.Client
open Retry (Proceeds)
variable {τ : Type} [Span τ]

/-- A request of which a message can be made goes over the network once for each attempt. -/
theorem sendProceeds {client : Client τ} {o : Outgoing τ} {message : Message}
    (built : Message.build client.userAgent o.method o.url o.headers o.text o.content = .ok message)
    (allowed : 0 < client.attempts o) (clock : τ) (network : Network τ) :
    ∃ attempts pauses,
      (client.send o clock network).2.2.calls =
        network.calls ++ attempts.map (fun a => ⟨message, a.timeouts⟩) ∧
      (client.send o clock network).2.2.pauses = network.pauses ++ pauses ∧
      Proceeds (client.policy o) (client.attempts o - 1).toNat 0 clock network.upcoming attempts pauses
        (client.send o clock network).1 (client.send o clock network).2.1 := by
  unfold send
  rw [built]
  dsimp only
  rw [Retry.sendRuns _ allowed]
  obtain ⟨attempts, pauses, tried, waited, goes⟩ := Retry.runProceeds (client.policy o)
    (client.attempts o - 1).toNat 0 ⟨clock, network.upcoming, [], []⟩
  exact ⟨attempts, pauses, by rw [tried]; rfl, by rw [waited]; rfl, goes⟩

theorem sendCalls (client : Client τ) (o : Outgoing τ) (clock : τ) (network : Network τ) {call : Call τ}
    (there : call ∈ (client.send o clock network).2.2.calls) : call ∈ network.calls ∨
      ∃ a ∈ (Retry.send (client.policy o) (client.attempts o) ⟨clock, network.upcoming, [], []⟩).2.attempts,
        call.timeouts = a.timeouts := by
  unfold send at there
  cases built : Message.build client.userAgent o.method o.url o.headers o.text o.content with
  | error b =>
    rw [built] at there
    exact .inl there
  | ok message =>
    rw [built] at there
    rcases List.mem_append.mp there with old | new
    · exact .inl old
    · obtain ⟨a, member, rfl⟩ := List.mem_map.mp new
      exact .inr ⟨a, member, rfl⟩

end DecisionRules.Client
