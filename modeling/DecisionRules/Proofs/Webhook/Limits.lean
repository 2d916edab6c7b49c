import DecisionRules.Proofs.Instant
import DecisionRules.Proofs.Number.Value
import DecisionRules.Proofs.Webhook.Course

/-! What an attempt is given to wait: the shorter of the limit of the request and the time left, but a tenth of a
second at least. A request with neither waits without end. -/
namespace DecisionRules

/-! Floats in order -/

namespace Place
variable {a b c : Float}

theorem ltLe (less : a < b) : a ≤ b := by
  obtain ⟨x, y, left, right, below⟩ := ltFloat.mp less
  exact leFloat.mpr ⟨x, y, left, right, below.le⟩

theorem ltTransLe (less : a < b) (next : b ≤ c) : a < c := by
  obtain ⟨x, y, left, middle, below⟩ := ltFloat.mp less
  obtain ⟨y', z, middle', right, above⟩ := leFloat.mp next
  cases middle.symm.trans middle'
  exact ltFloat.mpr ⟨x, z, left, right, below.trans_le above⟩

theorem ltIrrefl (a : Float) : ¬ a < a := by
  intro less
  obtain ⟨x, y, left, right, below⟩ := ltFloat.mp less
  cases left.symm.trans right
  exact lt_irrefl _ below

theorem leOfNotLt (number : a ≤ a) (number' : b ≤ b) (other : ¬ b < a) : a ≤ b := by
  by_contra more
  exact other ((Instant.Ordered.before number' number).mpr more)

theorem placed (x : Float) : ofFloat x = ofUnpacked (Number.form x).unpacked :=
  congrArg ofUnpacked (Number.unpackForm x)

theorem infinityPlaced : ofFloat Number.positiveInfinity = some (toLex (2, toLex (0, 0))) := by
  have form : Number.form Number.positiveInfinity = .infinity false := by decide +kernel
  rw [placed, form]
  rfl

theorem zeroPlaced : ofFloat 0 = some (toLex (0, toLex (0, 0))) := by
  have form : Number.form 0 = .finite false 0 (-1074) := by decide +kernel
  rw [placed, form]
  rfl

/-- What is not finite has the least or the greatest place. -/
theorem placeFinite {x : ℤ ×ₗ ℤ ×ₗ ℤ} (place : ofFloat a = some x) :
    (Number.isFinite a = true ∧ toLex (-2, toLex (0, 0)) < x ∧ x < toLex (2, toLex (0, 0))) ∨
    (Number.isFinite a = false ∧ (x = toLex (-2, toLex (0, 0)) ∨ x = toLex (2, toLex (0, 0)))) := by
  rw [placed] at place
  rw [Number.isFinite]
  cases form : Number.form a with
  | nan => simp [form, Number.Form.unpacked, ofUnpacked] at place
  | infinity negative =>
    rw [form] at place
    refine .inr ⟨rfl, ?_⟩
    cases negative with
    | true => exact .inl (Option.some.inj place).symm
    | false => exact .inr (Option.some.inj place).symm
  | finite negative m e =>
    rw [form, Number.Form.unpacked] at place
    refine .inl ⟨rfl, ?_⟩
    split at place
    · cases negative <;> cases place <;> simp [Prod.Lex.toLex_lt_toLex]
    · cases place
      simp [Prod.Lex.toLex_lt_toLex]

theorem leInfinity (number : a ≤ a) : a ≤ Number.positiveInfinity := by
  obtain ⟨x, _, place, _⟩ := leFloat.mp number
  refine leFloat.mpr ⟨x, _, place, infinityPlaced, ?_⟩
  rcases placeFinite place with ⟨_, _, below⟩ | ⟨_, rfl | rfl⟩
  · exact below.le
  · decide
  · exact le_rfl

/-- From zero up, the numbers that are not finite are infinity. -/
theorem finiteIff (positive : 0 ≤ a) : Number.isFinite a = true ↔ ¬ Number.positiveInfinity ≤ a := by
  obtain ⟨_, x, zero, place, above⟩ := leFloat.mp positive
  cases zeroPlaced.symm.trans zero
  have infinite : Number.positiveInfinity ≤ a ↔ toLex ((2 : ℤ), toLex ((0 : ℤ), (0 : ℤ))) ≤ x := by
    rw [leFloat, infinityPlaced, place]
    simp
  rw [infinite]
  rcases placeFinite place with ⟨finite, _, below⟩ | ⟨endless, rfl | rfl⟩
  · exact iff_of_true finite below.not_ge
  · exact absurd above (by decide)
  · exact iff_of_false (Bool.eq_false_iff.mp endless) fun less => less le_rfl

end Place

/-! The later and the earlier of two -/

section
open Number (positiveInfinity)
variable {least a b bound : Float}

/-- Is this wait within the bound, or the least one if the bound is shorter? -/
def Keeps (least wait bound : Float) : Prop :=
  (wait ≤ bound ↔ least ≤ bound) ∧ (bound < least → wait = least)

theorem laterKeeps (within : a ≤ a → bound ≤ bound → a ≤ bound) :
    Keeps least (later least a) bound := by
  unfold later
  split
  · rename_i more
    have is := (Instant.Ordered.number (Place.ltLe more)).2
    refine ⟨⟨Instant.Ordered.trans (Place.ltLe more), fun wide => ?_⟩, fun short => ?_⟩
    · exact within is (Instant.Ordered.number wide).2
    · have past := Place.ltTransLe more (within is (Instant.Ordered.number (Place.ltLe short)).1)
      exact absurd (Place.ltTransLe past (Place.ltLe short)) (Place.ltIrrefl least)
  · exact ⟨Iff.rfl, fun _ => rfl⟩

theorem laterLeast (number : least ≤ least) : least ≤ later least a := by
  unfold later
  split
  · rename_i more
    exact Place.ltLe more
  · exact number

theorem earlierFirst (is : earlier a b ≤ earlier a b) : earlier a b ≤ a := by
  unfold earlier at *
  split
  · rename_i less
    exact Place.ltLe less
  · rename_i other
    rwa [if_neg other] at is

theorem earlierSecond (is : earlier a b ≤ earlier a b) (number : b ≤ b) : earlier a b ≤ b := by
  unfold earlier at *
  split
  · exact number
  · rename_i other
    rw [if_neg other] at is
    exact Place.leOfNotLt is number other

theorem earlierLeast (wide : least ≤ a) (wide' : least ≤ b) : least ≤ earlier a b := by
  unfold earlier
  split
  · exact wide'
  · exact wide

theorem laterFinite (positive : 0 ≤ least) (finite : Number.isFinite least = true) :
    Number.isFinite (later least a) = true ↔ ¬ positiveInfinity ≤ a := by
  unfold later
  split
  · rename_i more
    exact Place.finiteIff (Instant.Ordered.trans positive (Place.ltLe more))
  · rename_i other
    refine iff_of_true finite fun infinite => other ?_
    have numbers := Instant.Ordered.number infinite
    have below := (Instant.Ordered.before (Instant.Ordered.number positive).2 numbers.1).mpr
      ((Place.finiteIff positive).mp finite)
    exact Place.ltTransLe below infinite

theorem earlierInfinite : positiveInfinity ≤ earlier a b ↔ positiveInfinity ≤ a ∧ ¬ b < positiveInfinity := by
  unfold earlier
  split
  · rename_i less
    have below := Place.ltTransLe less (Place.leInfinity (Instant.Ordered.number (Place.ltLe less)).2)
    exact iff_of_false (fun infinite => Place.ltIrrefl _ (Place.ltTransLe below infinite)) fun both => both.2 below
  · rename_i other
    exact ⟨fun infinite => ⟨infinite, fun below => other (Place.ltTransLe below infinite)⟩, And.left⟩

end

namespace Retry
open Number (positiveInfinity)

section
variable {p : Policy Float} {now wanted deadline limit : Float}

theorem Policy.unwanted : p.attemptTimeout now = none ↔ p.timeout = none ∧ p.deadline = none := by
  unfold Policy.attemptTimeout
  cases p.deadline <;> cases p.timeout <;> simp

theorem Policy.wantedLeft (is : p.attemptTimeout now = some wanted) (bounded : p.deadline = some deadline)
    (number : wanted ≤ wanted) (number' : deadline - now ≤ deadline - now) : wanted ≤ deadline - now := by
  rw [attemptTimeout, bounded] at is
  cases limited : p.timeout with
  | none =>
    rw [limited] at is
    cases is
    exact number
  | some limit =>
    rw [limited] at is
    cases is
    exact earlierSecond number number'

theorem Policy.wantedLimit (is : p.attemptTimeout now = some wanted) (limited : p.timeout = some limit)
    (number : wanted ≤ wanted) : wanted ≤ limit := by
  rw [attemptTimeout, limited] at is
  cases bounded : p.deadline with
  | none =>
    rw [bounded] at is
    cases is
    exact number
  | some deadline =>
    rw [bounded] at is
    cases is
    exact earlierFirst number

theorem Policy.wantedInfinite (is : p.attemptTimeout now = some wanted) :
    positiveInfinity ≤ wanted ↔ (∀ limit, p.timeout = some limit → positiveInfinity ≤ limit) ∧
      ∀ deadline, p.deadline = some deadline →
        ¬ deadline - now < positiveInfinity ∧ (p.timeout = none → positiveInfinity ≤ deadline - now) := by
  unfold attemptTimeout at is
  cases bounded : p.deadline with
  | none =>
    simp only [bounded] at is
    simp [is]
  | some deadline =>
    cases limited : p.timeout with
    | none =>
      simp only [bounded, limited] at is
      cases is
      have past : positiveInfinity ≤ deadline - now → ¬ deadline - now < positiveInfinity :=
        fun infinite below => Place.ltIrrefl _ (Place.ltTransLe below infinite)
      simpa using past
    | some limit =>
      simp only [bounded, limited] at is
      cases is
      simpa using earlierInfinite

/-- With a least wait, an attempt gets that much at least, and more if more is wanted. -/
theorem Policy.attemptLimits {limits : Timeouts Float} (least : p.leastTimeout ≤ p.leastTimeout)
    (given : (p.attempt now).timeouts = some limits) :
    ∃ wanted, p.attemptTimeout now = some wanted ∧ limits.read = later p.leastTimeout wanted ∧
      p.leastTimeout ≤ limits.connect ∧ limits.connect ≤ limits.read := by
  obtain ⟨wanted, is, rfl⟩ := Option.map_eq_some_iff.mp given
  have wide := laterLeast (a := wanted) least
  have connects := earlierLeast (laterLeast (a := p.connectTimeout) least) wide
  exact ⟨wanted, is, rfl, connects,
    earlierSecond (Instant.Ordered.number connects).2 (Instant.Ordered.number wide).2⟩

end

/-- Limits of an attempt that begins now: within the time left until the deadline and within the limit of the
request, or the least wait where these are shorter. They are endless if the limit of the request, where it has
one, is infinite, and the time left is so too, or no number. -/
structure Limited (least : Float) (limit deadline : Option Float) (now : Float) (limits : Timeouts Float) :
    Prop where
  wide : least ≤ limits.connect
  connects : limits.connect ≤ limits.read
  inTime : ∀ d, deadline = some d → Keeps least limits.read (d - now)
  inLimit : ∀ t, limit = some t → Keeps least limits.read t
  endless : Number.isFinite limits.read = false ↔ (∀ t, limit = some t → positiveInfinity ≤ t) ∧
    ∀ d, deadline = some d → ¬ d - now < positiveInfinity ∧ (limit = none → positiveInfinity ≤ d - now)

theorem Policy.limited {p : Policy Float} (positive : 0 ≤ p.leastTimeout)
    (finite : Number.isFinite p.leastTimeout = true) {now : Float} {limits : Timeouts Float}
    (given : (p.attempt now).timeouts = some limits) :
    Limited p.leastTimeout p.timeout p.deadline now limits := by
  obtain ⟨wanted, is, read, wide, connects⟩ := attemptLimits (Instant.Ordered.number positive).2 given
  refine ⟨wide, connects, fun deadline bounded => ?_, fun limit limited => ?_, ?_⟩
  · rw [read]
    exact laterKeeps (wantedLeft is bounded)
  · rw [read]
    exact laterKeeps fun number _ => wantedLimit is limited number
  · rw [read, ← wantedInfinite is, Bool.eq_false_iff]
    exact (not_congr (laterFinite positive finite)).trans not_not

end Retry

open Number (positiveInfinity)
open Retry (Attempt Exchange Limited Timeouts)

/-- The attempts of a request with such a limit and such a deadline that begins after three seconds. -/
def attemptsAtThree (limit deadline : Option Float) : List (Attempt Float) :=
  let client := Client.ofEnvironment [("RULECRAFT_HTTP_CONNECT_TIMEOUT_S", "2.5")] id fun _ => 0.5
  let o : Outgoing Float := ⟨"GET", "http://hooks.local/x", [], none, .null, limit, deadline, none, false⟩
  (Retry.send (client.policy o) (client.attempts o) ⟨3, [⟨.answered 503 "", 1⟩], [], []⟩).2.attempts

end DecisionRules
