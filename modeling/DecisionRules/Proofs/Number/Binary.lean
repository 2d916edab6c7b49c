import DecisionRules.Number.Binary
import Mathlib.Algebra.Group.Nat.Defs

/-! The form of a float tells it apart from every other: a mantissa and an exponent stand for one pattern of
bits, and there is one pattern for what is no number. -/
namespace DecisionRules.Number
open Float.Model (Format UnpackedFloat)

/-- A float has all its digits, unless it has the least exponent. -/
structure Normal (mantissa : Nat) (exponent : Int) : Prop where
  bounded : mantissa < 2 ^ 53
  least : leastExponent ≤ exponent
  full : 2 ^ 52 ≤ mantissa ∨ exponent = leastExponent

def Form.ofParts (negative : Bool) (biased fraction : Nat) : Form :=
  if biased = 2047 then if fraction = 0 then .infinity negative else .nan
  else if biased = 0 then .finite negative fraction leastExponent
  else .finite negative (2 ^ 52 + fraction) (leastExponent + ((biased : Int) - 1))

theorem ofBitsParts (bits : Nat) : Form.ofBits bits =
    .ofParts (bits / signBit % 2 == 1) (bits / 2 ^ 52 % 2048) (bits % 2 ^ 52) := by
  simp only [Form.ofBits, Form.ofParts, fractionBits, Nat.pow_eq, beq_iff_eq]

theorem ofBitsNormal {bits : Nat} {negative : Bool} {m : Nat} {e : Int}
    (is : Form.ofBits bits = .finite negative m e) : Normal m e := by
  have small := Nat.mod_lt bits (by decide : 0 < 2 ^ 52)
  rw [ofBitsParts, Form.ofParts] at is
  split at is
  · split at is <;> contradiction
  · split at is
    · cases is
      exact ⟨by omega, Int.le_refl _, .inr rfl⟩
    · cases is
      exact ⟨by omega, by omega, .inl (by omega)⟩

/-- The bits of what is a number. -/
def Form.bits : Form → Nat
  | .nan => 0
  | .infinity negative => negative.toNat * 2 ^ 63 + infinityBits
  | .finite negative m e => negative.toNat * 2 ^ 63 + (e - leastExponent).toNat * 2 ^ 52 + m

theorem ofBitsBits {bits : Nat} (wide : bits < 2 ^ 64) (number : Form.ofBits bits ≠ .nan) :
    (Form.ofBits bits).bits = bits := by
  have sign : (bits / signBit % 2 == 1).toNat = bits / 2 ^ 63 := by
    have two : bits / 2 ^ 63 = 0 ∨ bits / 2 ^ 63 = 1 := by omega
    have half : signBit = 2 ^ 63 := rfl
    rw [half]
    rcases two with zero | one
    · rw [zero]; rfl
    · rw [one]; rfl
  have greatest : infinityBits = 2047 * 2 ^ 52 := rfl
  rw [ofBitsParts, Form.ofParts] at number ⊢
  split
  · split <;> rename_i whole none
    · simp only [Form.bits, sign, greatest]
      omega
    · exact absurd (by rw [if_pos whole, if_neg none]) number
  · split
    · simp only [Form.bits, sign]
      omega
    · simp only [Form.bits, sign]
      omega

theorem ofBitsNan {bits : Nat} (is : Form.ofBits bits = .nan) :
    bits / 2 ^ 52 % 2048 = 2047 ∧ bits % 2 ^ 52 ≠ 0 := by
  rw [ofBitsParts, Form.ofParts] at is
  split at is
  · rename_i greatest
    split at is
    · contradiction
    · rename_i some
      exact ⟨greatest, some⟩
  · split at is <;> contradiction

/-- There is one pattern of bits for what is no number. -/
theorem nanBits {x : Float} (is : form x = .nan) :
    x.toModel.toBits.toBitVec = UnpackedFloat.packedNaN Format.binary64 := by
  obtain ⟨greatest, some⟩ := ofBitsNan is
  refine x.toModel.valid.eq_packedNaN ?_ ?_
  · refine BitVec.eq_of_toNat_eq ?_
    simp [UnpackedFloat.unpackExponent, BitVec.extractLsb, BitVec.extractLsb', Nat.shiftRight_eq_div_pow]
    exact greatest
  · intro none
    have zero := congrArg BitVec.toNat none
    simp [UnpackedFloat.unpackMantissa, BitVec.extractLsb, BitVec.extractLsb'] at zero
    exact some zero

theorem formSame {x y : Float} (same : form x = form y) : x = y := by
  have bits : x.toModel.toBits.toBitVec = y.toModel.toBits.toBitVec := by
    by_cases nan : form x = .nan
    · rw [nanBits nan, nanBits (same ▸ nan)]
    · have left := ofBitsBits x.toBits.toNat_lt nan
      have right := ofBitsBits y.toBits.toNat_lt fun other => nan (same.trans other)
      have equal : x.toBits.toNat = y.toBits.toNat := left.symm.trans ((congrArg Form.bits same).trans right)
      exact BitVec.eq_of_toNat_eq equal
  rcases x with ⟨⟨⟨a⟩, _⟩⟩
  rcases y with ⟨⟨⟨b⟩, _⟩⟩
  cases bits
  rfl

end DecisionRules.Number
