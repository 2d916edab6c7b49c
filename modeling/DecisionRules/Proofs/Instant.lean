import DecisionRules.Deadline.Instant
import Mathlib

/-! The order of instants, as far as they are numbers. Floats have it: one that is a number has a place among
the others, by its sign, its exponent and its mantissa, and still is a number some seconds later. -/
namespace DecisionRules

/-- An order of the instants that are numbers, which those are that can be compared. -/
class Instant.Ordered (τ : Type) [Instant τ] : Prop where
  number {a b : τ} : a ≤ b → a ≤ a ∧ b ≤ b
  trans {a b c : τ} : a ≤ b → b ≤ c → a ≤ c
  before {a b : τ} : a ≤ a → b ≤ b → (a < b ↔ ¬ b ≤ a)
  later {a span : τ} {seconds : Int} : a ≤ a → ofSeconds seconds = .ok span → a + span ≤ a + span

namespace Place
open Float.Model (UnpackedFloat)

def ofUnpacked : UnpackedFloat → Option (ℤ ×ₗ ℤ ×ₗ ℤ)
  | .notANumber => none
  | .infinity .negative => some (toLex (-2, toLex (0, 0)))
  | .finite .negative mantissa exponent _ => some (toLex (-1, toLex (-exponent, -mantissa)))
  | .zero _ => some (toLex (0, toLex (0, 0)))
  | .finite .positive mantissa exponent _ => some (toLex (1, toLex (exponent, mantissa)))
  | .infinity .positive => some (toLex (2, toLex (0, 0)))

section
variable (a b : ℤ) (m n : ℕ)

theorem pairLT : (compare a b).then (compare m n) = .lt ↔ a < b ∨ a = b ∧ m < n := by
  rcases lt_trichotomy a b with less | rfl | more
  · simp [compare_lt_iff_lt.mpr less, less]
  · simp [compare_lt_iff_lt]
  · have other : ¬ a < b ∧ ¬ a = b := by omega
    simp [compare_gt_iff_gt.mpr more, other]

theorem pairGT : (compare a b).then (compare m n) = .gt ↔ b < a ∨ a = b ∧ n < m := by
  rcases lt_trichotomy a b with less | rfl | more
  · have other : ¬ b < a ∧ ¬ a = b := by omega
    simp [compare_lt_iff_lt.mpr less, other]
  · simp [compare_gt_iff_gt]
  · simp [compare_gt_iff_gt.mpr more, more]

theorem pairLE : ((compare a b).then (compare m n)).isLE = true ↔ a < b ∨ a = b ∧ m ≤ n := by
  rw [Ordering.isLE_iff_ne_gt, pairGT]
  omega

theorem pairGE : ((compare a b).then (compare m n)).isGE = true ↔ b < a ∨ a = b ∧ n ≤ m := by
  rw [Ordering.isGE_iff_ne_lt, pairLT]
  omega

end

/-- Floats compare as their places do. -/
theorem compareUnpacked (a b : UnpackedFloat) :
    (a.le b = true ↔ ∃ x y, ofUnpacked a = some x ∧ ofUnpacked b = some y ∧ x ≤ y) ∧
    (a.lt b = true ↔ ∃ x y, ofUnpacked a = some x ∧ ofUnpacked b = some y ∧ x < y) := by
  have below : compare UnpackedFloat.Sign.negative .positive = .lt := rfl
  have above : compare UnpackedFloat.Sign.positive .negative = .gt := rfl
  have alike (s : UnpackedFloat.Sign) : compare s s = .eq := by cases s <;> rfl
  rcases a with (_ | _) | _ | _ | ⟨_ | _, m, e, positive⟩ <;>
    rcases b with (_ | _) | _ | _ | ⟨_ | _, n, f, positive'⟩ <;>
    simp [UnpackedFloat.le, UnpackedFloat.lt, UnpackedFloat.compare, ofUnpacked, Prod.Lex.toLex_le_toLex,
      Prod.Lex.toLex_lt_toLex, pairLT, pairGT, pairLE, pairGE, below, above, alike]

def ofFloat (a : Float) : Option (ℤ ×ₗ ℤ ×ₗ ℤ) := ofUnpacked a.toModel.unpack

theorem leFloat {a b : Float} : a ≤ b ↔ ∃ x y, ofFloat a = some x ∧ ofFloat b = some y ∧ x ≤ y :=
  decide_eq_true_iff.trans (compareUnpacked _ _).1

theorem ltFloat {a b : Float} : a < b ↔ ∃ x y, ofFloat a = some x ∧ ofFloat b = some y ∧ x < y :=
  decide_eq_true_iff.trans (compareUnpacked _ _).2

theorem numberFloat {a : Float} : a ≤ a ↔ a.toModel.unpack ≠ .notANumber := by
  rw [leFloat, ofFloat]
  rcases a.toModel.unpack with (_ | _) | _ | _ | ⟨_ | _, _, _, _⟩ <;> simp [ofUnpacked]

end Place

/-! Sums of numbers, of which one is finite -/

namespace Finite
open Float.Model (Format UnpackedFloat)
open Float.Model.UnpackedFloat

def IsFinite : UnpackedFloat → Prop
  | .zero _ | .finite .. => True
  | .infinity _ | .notANumber => False

theorem IsFinite.number {x : UnpackedFloat} (finite : IsFinite x) : x ≠ .notANumber := by
  rintro rfl
  exact finite

theorem roundFinite (s : Sign) (mantissa : Nat) (exponent : Int) :
    IsFinite (UnpackedFloat.round .binary64 s mantissa exponent) := by
  unfold UnpackedFloat.round roundWithAccuracy
  dsimp only
  split <;> trivial

theorem addNumber {a b : UnpackedFloat} (number : a ≠ .notANumber) (finite : IsFinite b) :
    UnpackedFloat.add .binary64 a b ≠ .notANumber := by
  cases b with
  | infinity s => exact finite.elim
  | notANumber => exact finite.elim
  | zero t => cases a with
    | notANumber => exact absurd rfl number
    | infinity s => simp [UnpackedFloat.add]
    | zero s =>
      unfold UnpackedFloat.add
      dsimp only
      split <;> simp
    | finite s m e positive => simp [UnpackedFloat.add]
  | finite t n f positive => cases a with
    | notANumber => exact absurd rfl number
    | infinity s => simp [UnpackedFloat.add]
    | zero s => simp [UnpackedFloat.add]
    | finite s m e positive =>
      refine IsFinite.number ?_
      unfold UnpackedFloat.add UnpackedFloat.normalize
      dsimp only
      split
      · exact roundFinite ..
      · trivial
      · exact roundFinite ..

/-! Bits: the greatest exponent is left to infinities and to what is no number. -/

theorem unpackFinite {b : BitVec Format.binary64.numBits} (less : unpackExponent b ≠ -1#11) :
    IsFinite (unpack .binary64 b) := by
  unfold unpack
  dsimp only
  rw [if_neg less]
  split
  · split <;> trivial
  · trivial

theorem unpackInfinity (s : Sign) : unpack .binary64 (packedInfinity .binary64 s) ≠ .notANumber := by
  unfold packedInfinity unpack
  simp [unpackExponent_packComponents, unpackMantissa_packComponents]

theorem packZero (s : Sign) : IsFinite (unpack .binary64 (pack .binary64 (.zero s))) := by
  cases s <;> exact unpackFinite (by decide)

theorem packFinite (s : Sign) {mantissa : Nat} {exponent : Int} (positive : 0 < mantissa) :
    ((exponent + 1075).toNat < 2047 →
      IsFinite (unpack .binary64 (pack .binary64 (.finite s mantissa exponent positive)))) ∧
    unpack .binary64 (pack .binary64 (.finite s mantissa exponent positive)) ≠ .notANumber := by
  have biased : (exponent + (Format.binary64.exponentBias : Int) + (52 : Nat)).toNat =
      (exponent + 1075).toNat := by
    have bias : Format.binary64.exponentBias = 1023 := rfl
    omega
  unfold pack
  dsimp only
  rw [biased]
  by_cases large : 2 ^ 11 ≤ (exponent + 1075).toNat + 1
  · rw [if_pos large]
    exact ⟨fun small => by omega, unpackInfinity s⟩
  · have packed : IsFinite (unpack .binary64
        (if mantissa.log2 + 1 = Format.binary64.mantissaBits then
          packComponents .binary64 s (BitVec.ofNat 11 (exponent + 1075).toNat) (BitVec.ofNat 52 mantissa)
        else packComponents .binary64 s 0#11 (BitVec.ofNat 52 mantissa))) := by
      split
      · refine unpackFinite fun same => ?_
        rw [unpackExponent_packComponents] at same
        have same := congrArg BitVec.toNat same
        simp at same
        omega
      · refine unpackFinite ?_
        rw [unpackExponent_packComponents]
        decide
    rw [if_neg large]
    exact ⟨fun _ => packed, packed.number⟩

theorem packNumber {x : UnpackedFloat} (number : x ≠ .notANumber) :
    unpack .binary64 (pack .binary64 x) ≠ .notANumber := by
  cases x with
  | notANumber => exact absurd rfl number
  | infinity s => exact unpackInfinity s
  | zero s => exact (packZero s).number
  | finite s m e positive => exact (packFinite s positive).2

theorem repackFinite {b : BitVec Format.binary64.numBits} (less : unpackExponent b ≠ -1#11) :
    IsFinite (unpack .binary64 (pack .binary64 (unpack .binary64 b))) := by
  have small : (unpackExponent b).toNat < 2047 := by
    have within := (unpackExponent b).isLt
    have width : 2 ^ Format.binary64.exponentBits = 2048 := rfl
    have other : (unpackExponent b).toNat ≠ 2047 := fun same =>
      less (BitVec.eq_of_toNat_eq (same.trans (by decide)))
    omega
  have bias : Format.binary64.exponentBias = 1023 := rfl
  generalize unpacked : unpack .binary64 b = x
  unfold unpack at unpacked
  dsimp only at unpacked
  rw [if_neg less] at unpacked
  split at unpacked
  · rename_i least
    have none : (unpackExponent b).toNat = 0 := congrArg BitVec.toNat least
    split at unpacked
    · exact unpacked ▸ packZero _
    · exact unpacked ▸ (packFinite _ _).1 (by omega)
  · exact unpacked ▸ (packFinite _ _).1 (by omega)

theorem ofIntFinite {n : Int} {x : Float} (ok : Number.ofInt? n = some x) : IsFinite x.toModel.unpack := by
  unfold Number.ofInt? Number.nearest? at ok
  dsimp only at ok
  split at ok
  · contradiction
  · rename_i small
    cases ok
    generalize Number.nearestBits n.natAbs 1 = bits at small
    refine repackFinite fun same => ?_
    have bound : Number.infinityBits = 2047 * 2 ^ 52 := rfl
    have sign : Number.signBit = 2 ^ 63 := rfl
    have exponent := congrArg BitVec.toNat same
    unfold unpackExponent at exponent
    simp only [BitVec.extractLsb, BitVec.extractLsb'] at exponent
    by_cases negative : n < 0
    · have width : 2 ^ Format.binary64.numBits = 2 ^ 64 := rfl
      simp [negative, Nat.shiftRight_eq_div_pow, sign] at exponent
      rw [width] at exponent
      omega
    · simp [negative, Nat.shiftRight_eq_div_pow] at exponent
      omega

end Finite

instance : Instant.Ordered Float where
  number less := by
    obtain ⟨x, y, left, right, _⟩ := Place.leFloat.mp less
    exact ⟨Place.leFloat.mpr ⟨x, x, left, left, le_rfl⟩, Place.leFloat.mpr ⟨y, y, right, right, le_rfl⟩⟩
  trans first next := by
    obtain ⟨x, y, left, middle, less⟩ := Place.leFloat.mp first
    obtain ⟨y', z, middle', right, less'⟩ := Place.leFloat.mp next
    cases middle.symm.trans middle'
    exact Place.leFloat.mpr ⟨x, z, left, right, le_trans less less'⟩
  before number number' := by
    obtain ⟨x, _, left, _⟩ := Place.leFloat.mp number
    obtain ⟨y, _, right, _⟩ := Place.leFloat.mp number'
    refine Place.ltFloat.trans (Iff.trans ?_ (not_congr Place.leFloat).symm)
    simp [left, right]
  later {a span seconds} number ok := by
    have some : Number.ofInt? seconds = some span := by
      simp only [Instant.ofSeconds] at ok
      split at ok
      · rename_i found
        exact Except.ok.inj ok ▸ found
      · contradiction
    exact Place.numberFloat.mpr
      (Finite.packNumber (Finite.addNumber (Place.numberFloat.mp number) (Finite.ofIntFinite some)))

end DecisionRules
