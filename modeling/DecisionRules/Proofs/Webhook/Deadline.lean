import Mathlib.Algebra.Field.Rat
import Mathlib.Algebra.Order.Field.Basic
import Mathlib.Algebra.Order.Ring.Rat
import DecisionRules.Proofs.Outcome
import DecisionRules.Proofs.Webhook.Course

/-! Requests with a deadline, where time is exact: an attempt begins before the deadline, and a pause that begins
before it ends no later. -/
namespace DecisionRules
open Retry (Exchange Policy Proceeds ends)

section
variable {K : Type} [DivisionRing K] [LinearOrder K]

-- Laws come first: the instance would offer a second sum and difference of the same numbers.
theorem pauseWithin [IsStrictOrderedRing K] {now span deadline : K} (within : span ≤ max 0 (deadline - now)) :
    (now < deadline → now + span ≤ deadline) ∧ (deadline ≤ now → span ≤ 0) := by
  refine ⟨fun before => ?_, fun past => ?_⟩
  · rw [max_eq_right (sub_nonneg.mpr before.le)] at within
    exact le_sub_iff_add_le'.mp within
  · rwa [max_eq_left (sub_nonpos.mpr past)] at within

/-- Exact time, with the arithmetic of an ordered division ring. -/
local instance exactSpan : Span K where
  zero := 0
  ofSeconds n := .ok n
  decideLt := inferInstance
  decideLe := inferInstance
  half := 1 / 2
  twoPow n := .ok (2 ^ n)

theorem earlierMin (a b : K) : earlier a b = min a b := by
  unfold earlier
  split
  · rename_i less
    exact (min_eq_right (le_of_lt less)).symm
  · rename_i other
    exact (min_eq_left (not_lt.mp other)).symm

theorem laterMax (a b : K) : later a b = max a b := by
  unfold later
  split
  · rename_i less
    exact (max_eq_right (le_of_lt less)).symm
  · rename_i other
    exact (max_eq_left (not_lt.mp other)).symm

variable [IsStrictOrderedRing K]

namespace Retry

theorem overBounded {p : Policy K} {deadline now : K} (bounded : p.deadline = some deadline) :
    p.Over now ↔ deadline ≤ now ∨ ∃ limit, p.timeout = some limit ∧ limit ≤ 0 := by
  have nothing : deadline - now ≤ 0 ↔ deadline ≤ now := sub_nonpos
  unfold Policy.Over Policy.attemptTimeout
  rw [bounded]
  cases p.timeout with
  | none =>
    constructor
    · rintro ⟨_, same, within⟩
      cases same
      exact .inl (nothing.mp within)
    · rintro (past | ⟨_, absent, _⟩)
      · exact ⟨_, rfl, nothing.mpr past⟩
      · cases absent
  | some limit =>
    have shorter : earlier limit (deadline - now) ≤ 0 ↔ limit ≤ 0 ∨ deadline ≤ now := by
      rw [earlierMin, min_le_iff, nothing]
    constructor
    · rintro ⟨_, same, within⟩
      cases same
      exact (shorter.mp within).symm.imp_right fun small => ⟨limit, rfl, small⟩
    · rintro (past | ⟨_, same, small⟩)
      · exact ⟨_, rfl, shorter.mpr (.inr past)⟩
      · cases same
        exact ⟨_, rfl, shorter.mpr (.inl small)⟩

omit [IsStrictOrderedRing K] in
theorem pauseBounded {p : Policy K} {deadline now span : K} {attempt : Nat}
    (bounded : p.deadline = some deadline) (paused : p.pause attempt now = .ok span) :
    span ≤ max 0 (deadline - now) := by
  unfold Policy.pause at paused
  obtain ⟨wanted, _, ok⟩ := bindAccepts.mp paused
  rw [bounded] at ok
  obtain rfl := pureAccepts.mp ok
  exact (earlierMin wanted _).trans_le ((min_le_right ..).trans (laterMax _ _).le)

end Retry

/-- No attempt begins at the deadline or later, whatever the number of retries, the pauses and the durations of the
attempts are; there are none exactly if none is allowed, it is too late or the limit of the request is no time. A
pause begins where the attempt before it ends and lasts until the next attempt begins; if it begins before the
deadline it ends no later, and otherwise it takes no time. -/
theorem nothingPastDeadline (client : Client K) (o : Outgoing K) (start deadline : K)
    (script : List (Exchange K)) :
    let bounded : Outgoing K := { o with deadline := some deadline }
    let sent := (Retry.send (client.policy bounded) (client.attempts bounded) ⟨start, script, [], []⟩).2
    (sent.attempts = [] ↔
      client.attempts bounded ≤ 0 ∨ deadline ≤ start ∨ ∃ limit, o.timeout = some limit ∧ limit ≤ 0) ∧
    (∀ a, sent.attempts[0]? = some a → a.start = start) ∧
    (∀ a ∈ sent.attempts, a.start < deadline) ∧
    ∀ (i : Nat) (span : K), sent.pauses[i]? = some span → ∃ a, sent.attempts[i]? = some a ∧
      (∀ b, sent.attempts[i + 1]? = some b → b.start = ends script i a.start + span) ∧
      (ends script i a.start < deadline → ends script i a.start + span ≤ deadline) ∧
      (deadline ≤ ends script i a.start → span ≤ 0) := by
  intro bounded sent
  by_cases never : client.attempts bounded ≤ 0
  · have nothing : sent = ⟨start, script, [], []⟩ := congrArg Prod.snd (Retry.sendNever _ never _)
    rw [nothing]
    simp [never]
  obtain ⟨attempts, pauses, tried, waited, goes⟩ := Retry.runProceeds (client.policy bounded)
    (client.attempts bounded - 1).toNat 0 ⟨start, script, [], []⟩
  have runs : sent = (Retry.run (client.policy bounded) (client.attempts bounded - 1).toNat 0
      ⟨start, script, [], []⟩).2 := congrArg Prod.snd (Retry.sendRuns _ (Int.not_le.mp never) _)
  rw [runs, tried, waited, List.nil_append, List.nil_append]
  have late (now : K) : (client.policy bounded).Over now ↔ _ := Retry.overBounded rfl
  refine ⟨?_, goes.begins, fun a member => ?_, fun i span paused => ?_⟩
  · rw [goes.idle, late, or_iff_right never]
    rfl
  · exact not_le.mp fun past => (goes.attempted a member).1 ((late _).mpr (.inl past))
  obtain ⟨a, there, length, next⟩ := goes.paced paused
  exact ⟨a, there, next, pauseWithin (Retry.pauseBounded rfl length)⟩

/-- The last pause is cut to the second that is left, and the attempt after it is too late. -/
theorem nothingPastDeadlineHurried :
    let client : Client ℚ := ⟨"rules", 5, 5, 1, 1, 100, fun _ => 1 / 2⟩
    let o : Outgoing ℚ := ⟨"GET", "http://hooks.local/x", [], none, .null, some 4, some 10, none, false⟩
    let script : List (Exchange ℚ) := [⟨.answered 503 "", 2⟩, ⟨.broken "ReadTimeout", 3⟩, ⟨.answered 429 "", 1⟩]
    let sent := (Retry.send (client.policy o) (client.attempts o) ⟨0, script, [], []⟩).2
    sent.attempts.map Retry.Attempt.start = [0, 3, 8] ∧ sent.pauses = [1, 2, 1] ∧
      ∀ a ∈ sent.attempts, a.start < 10 := by
  intro client o script sent
  exact ⟨by decide +kernel, by decide +kernel, (nothingPastDeadline client o 0 10 script).2.2.1⟩

end

end DecisionRules
