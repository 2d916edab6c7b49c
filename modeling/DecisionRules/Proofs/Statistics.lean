import DecisionRules.Rule
import Mathlib

/-! Statistics of a rule, as a function of what was recorded. They are taken one recording at a time, and
come to the counts, the sums and, where numbers are exact, the mean of all recordings. -/
namespace DecisionRules

structure Recording (α : Type) where
  now : Int
  duration : α
  matched : Bool
  executed : Int
  failed : Int

namespace RuleStats

section
variable {α : Type} [MeanArithmetic α]

def enter (s : RuleStats α) (r : Recording α) : RuleStats α :=
  s.record r.now r.duration r.matched r.executed r.failed

def ofRecordings (recordings : List (Recording α)) : RuleStats α := recordings.foldl enter .initial

theorem ofRecordingsSnoc (recordings : List (Recording α)) (r : Recording α) :
    ofRecordings (recordings ++ [r]) = (ofRecordings recordings).enter r := by
  simp [ofRecordings]

theorem evaluationsCount (recordings : List (Recording α)) :
    (ofRecordings recordings).evaluations = recordings.length := by
  induction recordings using List.reverseRecOn with
  | nil => rfl
  | append_singleton past r ih =>
    rw [ofRecordingsSnoc, List.length_append, ← ih]
    rfl

theorem matchedWithin (recordings : List (Recording α)) :
    (ofRecordings recordings).matched ≤ (ofRecordings recordings).evaluations := by
  induction recordings using List.reverseRecOn with
  | nil => exact Nat.le_refl 0
  | append_singleton past r ih =>
    rw [ofRecordingsSnoc]
    change (ofRecordings past).matched + (if r.matched then 1 else 0) ≤ (ofRecordings past).evaluations + 1
    split <;> omega

end

/-! Exact numbers -/

section
variable {α : Type} [Field α]

def total (recordings : List (Recording α)) : α := (recordings.map Recording.duration).sum

def average (recordings : List (Recording α)) : α := total recordings / recordings.length

theorem totalSnoc (recordings : List (Recording α)) (r : Recording α) :
    total (recordings ++ [r]) = r.duration + total recordings := by
  simp [total, add_comm]

-- Laws come first: the instance would offer a second sum and quotient of the same numbers.
instance exactMean : MeanArithmetic α where
  zero := 0
  ofCount := Nat.cast

variable [CharZero α]

theorem meanTotal (recordings : List (Recording α)) :
    (ofRecordings recordings).mean * recordings.length = total recordings := by
  induction recordings using List.reverseRecOn with
  | nil => exact zero_mul _
  | append_singleton past r ih =>
    have stepped : (ofRecordings (past ++ [r])).mean = (ofRecordings past).mean +
        (r.duration - (ofRecordings past).mean) / ((past.length + 1 : Nat) : α) := by
      rw [ofRecordingsSnoc, ← evaluationsCount past]
      rfl
    have some : ((past.length + 1 : Nat) : α) ≠ 0 := Nat.cast_ne_zero.mpr (Nat.succ_ne_zero _)
    rw [stepped, totalSnoc, List.length_append, List.length_singleton, ← ih, add_mul, div_mul_cancel₀ _ some]
    push_cast
    ring

theorem meanExact (recordings : List (Recording α)) :
    (ofRecordings recordings).mean = average recordings := by
  cases recordings with
  | nil => simp [ofRecordings, initial, average, total, MeanArithmetic.zero]
  | cons r rest =>
    have some : ((rest.length + 1 : Nat) : α) ≠ 0 := Nat.cast_ne_zero.mpr (Nat.succ_ne_zero _)
    exact (eq_div_iff some).mpr (meanTotal (r :: rest))

end

end RuleStats
end DecisionRules
