import DecisionRules.Number.Arithmetic
import DecisionRules.Proofs.Number.Binary
import Mathlib.Algebra.Order.Field.Power
import Mathlib.Algebra.Order.Ring.Rat
import Mathlib.Tactic.FieldSimp
import Mathlib.Tactic.Linarith
import Mathlib.Tactic.NormNum
import Mathlib.Tactic.Positivity
import Mathlib.Tactic.Ring

/-! Numbers as rationals. A finite float stands for one, and two numbers that stand for rationals, integers or
floats, are equal if these are. -/
namespace DecisionRules

namespace Number
open Float.Model (Format UnpackedFloat)
open Float.Model.UnpackedFloat (unpackMantissa unpackExponent unpackSign)

/-! The form of a float is what its bits unpack to. -/

def signOf (negative : Bool) : UnpackedFloat.Sign := if negative then .negative else .positive

def Form.unpacked : Form → UnpackedFloat
  | .nan => .notANumber
  | .infinity negative => .infinity (signOf negative)
  | .finite negative m e =>
    if some : 0 < m then .finite (signOf negative) m e some else .zero (signOf negative)

section
variable (bits : UInt64)

theorem mantissaBits : (@unpackMantissa .binary64 bits.toBitVec).toNat = bits.toNat % 2 ^ 52 := by
  simp [unpackMantissa, BitVec.extractLsb, BitVec.extractLsb']

theorem exponentBits : (@unpackExponent .binary64 bits.toBitVec).toNat = bits.toNat / 2 ^ 52 % 2048 := by
  simp [unpackExponent, BitVec.extractLsb, BitVec.extractLsb', Nat.shiftRight_eq_div_pow]

theorem signBits : UnpackedFloat.Sign.ofBitVec (@unpackSign .binary64 bits.toBitVec) =
    signOf (bits.toNat / signBit % 2 == 1) := by
  have bit : (@unpackSign .binary64 bits.toBitVec).toNat = bits.toNat / signBit % 2 := by
    change (bits.toBitVec.extractLsb 63 63).toNat = _
    simp [BitVec.extractLsb, BitVec.extractLsb', Nat.shiftRight_eq_div_pow, signBit]
  rw [← bit]
  generalize @unpackSign .binary64 bits.toBitVec = b
  have either : b = 0#1 ∨ b = 1#1 := by
    have below := b.isLt
    rcases Nat.lt_succ_iff_lt_or_eq.mp below with zero | one
    · exact .inl (BitVec.eq_of_toNat_eq (Nat.lt_one_iff.mp zero))
    · exact .inr (BitVec.eq_of_toNat_eq one)
  rcases either with rfl | rfl <;> rfl

end

theorem finiteSame {s : UnpackedFloat.Sign} {m n : Nat} {e f : Int} {positive : 0 < m} {positive' : 0 < n}
    (mantissa : m = n) (exponent : e = f) :
    UnpackedFloat.finite s m e positive = UnpackedFloat.finite s n f positive' := by
  subst mantissa exponent
  rfl

theorem unpackForm (x : Float) : x.toModel.unpack = (form x).unpacked := by
  have mantissa := mantissaBits x.toBits
  have exponent := exponentBits x.toBits
  have bias : (Format.binary64.exponentBias : Int) + (52 : Nat) = 1075 := by decide
  have greatest : @unpackExponent .binary64 x.toBits.toBitVec = -1#11 ↔
      x.toBits.toNat / 2 ^ 52 % 2048 = 2047 := by
    rw [← exponent, ← BitVec.toNat_inj]
    rfl
  have least : @unpackExponent .binary64 x.toBits.toBitVec = 0#11 ↔
      x.toBits.toNat / 2 ^ 52 % 2048 = 0 := by
    rw [← exponent, ← BitVec.toNat_inj]
    rfl
  have none : @unpackMantissa .binary64 x.toBits.toBitVec = 0#52 ↔ x.toBits.toNat % 2 ^ 52 = 0 := by
    rw [← mantissa, ← BitVec.toNat_inj]
    rfl
  unfold form Float.Model.unpack UnpackedFloat.unpack
  dsimp only
  change (if @unpackExponent .binary64 x.toBits.toBitVec = -1#11 then _ else _) = _
  rw [ofBitsParts, signBits, Form.ofParts]
  by_cases whole : @unpackExponent .binary64 x.toBits.toBitVec = -1#11
  · rw [if_pos (greatest.mp whole)]
    refine (if_pos whole).trans ?_
    by_cases zero : @unpackMantissa .binary64 x.toBits.toBitVec = 0#52
    · rw [if_pos (none.mp zero)]
      exact if_pos zero
    · rw [if_neg fun same => zero (none.mpr same)]
      exact if_neg zero
  · rw [if_neg fun same => whole (greatest.mpr same)]
    refine (if_neg whole).trans ?_
    by_cases small : @unpackExponent .binary64 x.toBits.toBitVec = 0#11
    · rw [if_pos (least.mp small)]
      refine (if_pos small).trans ?_
      by_cases zero : @unpackMantissa .binary64 x.toBits.toBitVec = 0#52
      · have empty : ¬ 0 < x.toBits.toNat % 2 ^ 52 := Nat.not_lt.mpr (Nat.le_zero.mpr (none.mp zero))
        rw [Form.unpacked, dif_neg empty]
        exact dif_pos zero
      · have positive : 0 < x.toBits.toNat % 2 ^ 52 := Nat.pos_of_ne_zero fun same => zero (none.mpr same)
        rw [Form.unpacked, dif_pos positive]
        refine (dif_neg zero).trans (finiteSame mantissa ?_)
        change ((@unpackExponent .binary64 x.toBits.toBitVec).toNat : Int) - _ + 1 = leastExponent
        rw [exponent, least.mp small, bias]
        rfl
    · rw [if_neg fun same => small (least.mpr same), Form.unpacked,
        dif_pos (Nat.add_pos_left (Nat.two_pow_pos 52) (x.toBits.toNat % 2 ^ 52))]
      refine (if_neg small).trans (finiteSame ?_ ?_)
      · rw [← mantissa, BitVec.toNat_append, ← Nat.shiftLeft_add_eq_or_of_lt (BitVec.isLt _)]
        rfl
      · change ((@unpackExponent .binary64 x.toBits.toBitVec).toNat : Int) - _ = _
        rw [exponent, bias, leastExponent]
        omega

def signed (negative : Bool) (m : Nat) : Int := if negative then -m else m

/-- The rational that a form stands for; infinities and what is no number stand for none. -/
def Form.value? : Form → Option ℚ
  | .finite negative m e => some (signed negative m * (2 : ℚ) ^ e)
  | _ => none

def value? (x : Float) : Option ℚ := (form x).value?

theorem valueFinite {x : Float} (finite : isFinite x = true) : ∃ q, value? x = some q := by
  unfold isFinite at finite
  split at finite
  · rename_i is
    exact ⟨_, by rw [value?, is, Form.value?]⟩
  · contradiction

theorem valueForm {x : Float} {q : ℚ} (is : value? x = some q) :
    ∃ negative m e, form x = .finite negative m e ∧ Normal m e ∧ q = signed negative m * (2 : ℚ) ^ e := by
  unfold value? Form.value? at is
  split at is
  · rename_i negative m e shape
    cases is
    exact ⟨negative, m, e, shape, ofBitsNormal shape, rfl⟩
  · contradiction

section
variable {m n : Nat} {e f : Int}

/-- With all its digits, or the least exponent, a number is written in one way. -/
theorem normalSame (normal : Normal m e) (normal' : Normal n f) (below : e ≤ f)
    (same : (m : ℚ) * 2 ^ e = n * 2 ^ f) : m = n ∧ e = f := by
  obtain ⟨k, rfl⟩ := Int.le.dest below
  have scaled : (m : ℚ) = n * 2 ^ k := by
    rw [zpow_add₀ (by norm_num), zpow_natCast] at same
    refine mul_right_cancel₀ (zpow_ne_zero e (by norm_num : (2 : ℚ) ≠ 0)) (same.trans ?_)
    ring
  have scaled : m = n * 2 ^ k := by exact_mod_cast scaled
  cases k with
  | zero => exact ⟨by simpa using scaled, by simp⟩
  | succ k =>
    -- the larger exponent is not the least, so its mantissa is full, and the other one has a digit too many
    have full : 2 ^ 52 ≤ n := by
      rcases normal'.full with full | least
      · exact full
      · have := normal.least
        omega
    have bounded := normal.bounded
    have doubled : n * 2 ≤ n * 2 ^ (k + 1) :=
      Nat.mul_le_mul_left n (Nat.le_self_pow (Nat.succ_ne_zero k) 2)
    omega

theorem normalIff (normal : Normal m e) (normal' : Normal n f) :
    (m : ℚ) * 2 ^ e = n * 2 ^ f ↔ e = f ∧ m = n := by
  constructor
  · intro same
    rcases Int.le_total e f with below | above
    · exact (normalSame normal normal' below same).symm
    · obtain ⟨rfl, rfl⟩ := normalSame normal' normal above same.symm
      exact ⟨rfl, rfl⟩
  · rintro ⟨rfl, rfl⟩
    rfl

/-- Two finite forms are alike if both are zero, whatever the signs, or if they have the same parts. -/
def Alike (s t : Bool) (m n : Nat) (e f : Int) : Prop := m = 0 ∧ n = 0 ∨ 0 < m ∧ 0 < n ∧ s = t ∧ e = f ∧ m = n

theorem signedAlike {s t : Bool} (normal : Normal m e) (normal' : Normal n f) :
    (signed s m : ℚ) * 2 ^ e = signed t n * 2 ^ f ↔ Alike s t m n e f := by
  have same := normalIff normal normal'
  have positive {m : Nat} (some : 0 < m) (e : Int) : (0 : ℚ) < m * 2 ^ e :=
    mul_pos (by exact_mod_cast some) (zpow_pos (by norm_num) e)
  unfold Alike
  rcases m.eq_zero_or_pos with rfl | some <;> rcases n.eq_zero_or_pos with rfl | some'
  · simp [signed]
  · have apart := positive some' f
    cases t <;> simp [signed, some'.ne', apart.ne, apart.ne']
  · have apart := positive some e
    cases s <;> simp [signed, some.ne', apart.ne']
  · have above := positive some e
    have above' := positive some' f
    have opposite : (m : ℚ) * 2 ^ e ≠ -(n * 2 ^ f) := by linarith
    have opposite' : -((m : ℚ) * 2 ^ e) ≠ n * 2 ^ f := by linarith
    cases s <;> cases t <;> simp [signed, some, some', some.ne', same, opposite, opposite']

theorem unpackedSome {s : Bool} (some : 0 < m) : (Form.finite s m e).unpacked = .finite (signOf s) m e some :=
  dif_pos some

theorem comparedAlike {s t : Bool} (some : 0 < m) (some' : 0 < n) :
    (UnpackedFloat.finite (signOf s) m e some).beq (.finite (signOf t) n f some') = true ↔
      s = t ∧ e = f ∧ m = n := by
  cases s <;> cases t
  · change (Option.some ((compare e f).then (compare m n)) == Option.some .eq) = true ↔ _
    simp [Ordering.then_eq_eq]
  · exact iff_of_false Bool.false_ne_true (by simp)
  · exact iff_of_false Bool.false_ne_true (by simp)
  · change (Option.some ((compare e f).then (compare m n)).swap == Option.some .eq) = true ↔ _
    simp [Ordering.then_eq_eq]

theorem unpackedAlike {s t : Bool} :
    (Form.finite s m e).unpacked.beq (Form.finite t n f).unpacked = true ↔ Alike s t m n e f := by
  unfold Alike
  rcases m.eq_zero_or_pos with rfl | some <;> rcases n.eq_zero_or_pos with rfl | some'
  · exact iff_of_true rfl (.inl ⟨rfl, rfl⟩)
  · rw [unpackedSome some']
    cases t <;> exact iff_of_false Bool.false_ne_true (by simp [some'.ne'])
  · rw [unpackedSome some]
    cases s <;> exact iff_of_false Bool.false_ne_true (by simp [some.ne'])
  · rw [unpackedSome some, unpackedSome some', comparedAlike]
    simp [some, some', some.ne']

end

/-- Finite floats are equal if they stand for the same rational. -/
theorem equalFloats {x y : Float} {q r : ℚ} (left : value? x = some q) (right : value? y = some r) :
    (x == y) = true ↔ q = r := by
  obtain ⟨s, m, e, shape, normal, rfl⟩ := valueForm left
  obtain ⟨t, n, f, shape', normal', rfl⟩ := valueForm right
  change UnpackedFloat.beq x.toModel.unpack y.toModel.unpack = true ↔ _
  rw [unpackForm, unpackForm, shape, shape', unpackedAlike, signedAlike normal normal']

/-- An integer equals a finite float if that stands for it. -/
theorem equalInt {n : Int} {x : Float} {q : ℚ} (is : value? x = some q) :
    Numeral.compareInt? n x = some .eq ↔ (n : ℚ) = q := by
  obtain ⟨s, m, e, shape, _, rfl⟩ := valueForm is
  unfold Numeral.compareInt?
  rw [shape]
  change some (if e < 0 then compare (n * (Nat.pow 2 e.natAbs : Int)) (signed s m)
      else compare n (signed s m * (Nat.pow 2 e.natAbs : Int))) = some .eq ↔ _
  obtain ⟨k, rfl | rfl⟩ := e.eq_nat_or_neg
  · rw [if_neg (by omega), Option.some.injEq, compare_eq_iff_eq]
    rw [Int.natAbs_natCast, zpow_natCast]
    norm_cast
  · by_cases none : k = 0
    · subst none
      simp
    · rw [if_pos (by omega), Option.some.injEq, compare_eq_iff_eq]
      rw [Int.natAbs_neg, Int.natAbs_natCast, zpow_neg, zpow_natCast, ← div_eq_mul_inv, eq_div_iff (by positivity)]
      norm_cast

end Number

/-- The rational that a number stands for, unless it is complex. -/
def Numeral.value? : Numeral → Option ℚ
  | .int n => some n
  | .real x => Number.value? x
  | .complex _ _ => none

theorem Numeral.equalValue {a b : Numeral} {q r : ℚ} (left : a.value? = some q) (right : b.value? = some r) :
    a.equal b = true ↔ q = r := by
  unfold Numeral.value? at left right
  cases a <;> cases b <;> simp only [reduceCtorEq, Option.some.injEq] at left right <;> unfold Numeral.equal
  · subst left right
    simp
  · subst left
    rw [beq_iff_eq, Number.equalInt right]
  · subst right
    rw [beq_iff_eq, Number.equalInt left, eq_comm]
  · exact Number.equalFloats left right

end DecisionRules
