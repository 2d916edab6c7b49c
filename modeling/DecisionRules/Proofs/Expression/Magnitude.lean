import DecisionRules.Proofs.Expression.Leaves
import Mathlib.Algebra.Group.Int.Defs
import Mathlib.Data.Int.Init

/-! Integers stay within their bits. A literal has no more digits than its text has characters; a sum, a
difference, a product and a remainder are cut off after they are done, a power before. -/
namespace DecisionRules

/-- Every integer in the value, alone or inside lists, has at most so many bits. -/
def Value.Bits (b : Nat) (v : Value) : Prop := ∀ n, Occurs (.int n) v → Expression.bitLength n ≤ b

namespace Expression

theorem bitLengthLe {n : Int} {b : Nat} : bitLength n ≤ b ↔ n.natAbs < 2 ^ b := by
  unfold bitLength
  by_cases zero : n = 0
  · subst zero
    exact iff_of_true (Nat.zero_le b) (Nat.two_pow_pos b)
  · rw [if_neg (by simpa using zero), Nat.succ_le_iff, Nat.log2_lt (by omega)]

end Expression

namespace Value
open Expression (bitLength bitLengthLe)
variable {b c : Nat}

theorem Bits.more {v : Value} (bits : Bits b v) (more : b ≤ c) : Bits c v :=
  fun n occurs => (bits n occurs).trans more

theorem bitsList {items : List Value} : Bits b (.list items) ↔ ∀ v ∈ items, Bits b v := by
  constructor
  · exact fun bits v member n occurs => bits n (.item member occurs)
  · intro each n occurs
    rcases occursList.mp occurs with same | ⟨v, member, inside⟩
    · contradiction
    · exact each v member n inside

theorem bitsAtom {v : Value} (atom : v.list? = none) : Bits b v ↔ ∀ n, v = .int n → bitLength n ≤ b := by
  constructor
  · exact fun bits n same => bits n ((occursAtom atom).mpr same.symm)
  · exact fun each n occurs => each n ((occursAtom atom).mp occurs).symm

theorem bitsNone {v : Value} (atom : v.list? = none) (other : ∀ n, v ≠ .int n) : Bits b v :=
  (bitsAtom atom).mpr fun n same => absurd same (other n)

theorem bitsInt {n : Int} : Bits b (.int n) ↔ bitLength n ≤ b := by
  rw [bitsAtom rfl]
  simp

theorem numeralBits {v : Value} {n : Int} (bits : Bits b v) (some : 0 < b)
    (numeral : v.numeral? = .some (.int n)) : bitLength n ≤ b := by
  cases v with
  | bool truth =>
    cases numeral
    rw [bitLengthLe]
    have two : 2 ^ 1 ≤ 2 ^ b := Nat.pow_le_pow_right (by decide) some
    split <;> omega
  | int m =>
    cases numeral
    exact bitsInt.mp bits
  | _ => cases numeral

end Value

namespace Expression
open Value (Bits bitsList bitsAtom bitsNone bitsInt numeralBits)
variable {b c : Nat}

/-! Operators -/

theorem sumBits {m n : Int} (left : bitLength m ≤ b) (right : bitLength n ≤ b) :
    bitLength (m + n) ≤ b + 1 ∧ bitLength (m - n) ≤ b + 1 := by
  simp only [bitLengthLe, Nat.pow_succ] at *
  omega

theorem productBits {m n : Int} (left : bitLength m ≤ b) (right : bitLength n ≤ c) :
    bitLength (m * n) ≤ b + c := by
  rw [bitLengthLe] at *
  rw [Int.natAbs_mul, Nat.pow_add]
  exact Nat.mul_lt_mul'' left right

theorem remainderBits {m n : Int} (right : bitLength n ≤ b) (nonzero : n ≠ 0) :
    bitLength (m.fmod n) ≤ b := by
  rw [bitLengthLe] at *
  have least := Int.emod_nonneg m nonzero
  have most := Int.emod_lt m nonzero
  rw [Int.fmod_eq_emod]
  split <;> omega

theorem powerBits {m : Int} {n : Nat} (some : 0 < n) : bitLength (m ^ n) ≤ bitLength m * n := by
  have base := bitLengthLe.mp (Nat.le_refl (bitLength m))
  rw [bitLengthLe, Int.natAbs_pow, Nat.pow_mul]
  exact Nat.pow_lt_pow_left base some.ne'

theorem checkPowerFacts {m e : Int} (checked : checkPower (.int m) e = .ok ()) (positive : 0 < e) :
    bitLength m * e.toNat ≤ maxBits := by
  unfold checkPower at checked
  split at checked
  · obtain ⟨_, _, found⟩ := bindAccepts.mp checked
    contradiction
  · by_contra large
    simp [positive, Nat.lt_of_not_le large, throw, throwThe, MonadExceptOf.throw] at checked

theorem powIntsFacts {m n k : Int} (found : Numeral.powInts m n = .ok (.int k)) :
    0 ≤ n ∧ k = m ^ n.toNat := by
  unfold Numeral.powInts at found
  split at found
  · obtain ⟨x, _, found⟩ := bindAccepts.mp found
    obtain ⟨y, _, found⟩ := bindAccepts.mp found
    exact absurd found (Numeral.powRealsReal x y k)
  · cases found
    exact ⟨by omega, rfl⟩

/-- The integers that an operator makes of others. -/
theorem computeInts {op : BinaryOp} {l r : Value} {k : Int} (found : compute op l r = .ok (.int k)) :
    ∃ m n, l.numeral? = some (.int m) ∧ r.numeral? = some (.int n) ∧
      (k = m + n ∨ k = m - n ∨ k = m * n ∨ n ≠ 0 ∧ k = m.fmod n ∨
        op = .pow ∧ 0 ≤ n ∧ k = m ^ n.toNat) := by
  cases op with
  | add =>
    rcases Value.addFacts found with ⟨s, t, _, _, same⟩ | ⟨xs, ys, _, _, same⟩ | numbers
    · contradiction
    · contradiction
    · obtain ⟨m, n, first, second, sum⟩ := Value.onNumbersInt (by simp) (by simp) numbers
      cases sum
      exact ⟨m, n, first, second, .inl rfl⟩
  | sub =>
    obtain ⟨m, n, first, second, difference⟩ := Value.onNumbersInt (by simp) (by simp) found
    cases difference
    exact ⟨m, n, first, second, .inr (.inl rfl)⟩
  | mul =>
    rcases Value.mulFacts found with ⟨s, n, _, repeated⟩ | ⟨xs, n, _, repeated⟩ | numbers
    · obtain ⟨t, same, _⟩ := Value.repeatTextFacts repeated
      contradiction
    · obtain ⟨items, same, _⟩ := Value.repeatListFacts repeated
      contradiction
    · obtain ⟨m, n, first, second, product⟩ := Value.onNumbersInt (by simp) (by simp) numbers
      cases product
      exact ⟨m, n, first, second, .inr (.inr (.inl rfl))⟩
  | div =>
    obtain ⟨m, n, _, _, quotient⟩ := Value.onNumbersInt (Numeral.divRealsReal · · k)
      (fun x y complex => by obtain ⟨_, _, same⟩ := bindAccepts.mp complex; cases same) found
    unfold Numeral.divInts at quotient
    split at quotient
    · contradiction
    · split at quotient <;> cases quotient
  | mod =>
    rcases Value.modFacts found with ⟨_, s, _, same⟩ | numbers
    · contradiction
    · obtain ⟨m, n, first, second, rest⟩ := Value.onNumbersInt (Numeral.modRealsReal · · k) (by simp) numbers
      split at rest
      · contradiction
      · rename_i nonzero
        cases rest
        exact ⟨m, n, first, second, .inr (.inr (.inr (.inl ⟨fun zero => nonzero (by simp [zero]), rfl⟩)))⟩
  | pow =>
    obtain ⟨m, n, first, second, power⟩ :=
      Value.onNumbersInt (Numeral.powRealsReal · · k) (Numeral.powComplexComplex · · k) found
    exact ⟨m, n, first, second, .inr (.inr (.inr (.inr ⟨rfl, powIntsFacts power⟩)))⟩

theorem listBits {op : BinaryOp} {l r : Value} {items : List Value} (left : Bits b l) (right : Bits b r)
    (found : compute op l r = .ok (.list items)) : Bits b (.list items) := by
  refine bitsList.mpr fun v member => ?_
  obtain ⟨xs, rfl | rfl, inside⟩ := itemsKept found member
  · exact bitsList.mp left v inside
  · exact bitsList.mp right v inside

/-- The power of a number whose operands pass the check. -/
theorem powerChecked {l r : Value} {m n : Int} (left : Bits maxBits l)
    (base : l.numeral? = some (.int m)) (exponent : r.numeral? = some (.int n)) (natural : 0 ≤ n)
    (checked : checkOperands .pow l r = .ok ()) : bitLength (m ^ n.toNat) ≤ maxBits := by
  have small := numeralBits left (by decide) base
  rcases Nat.eq_zero_or_pos n.toNat with zero | positive
  · rw [zero, Int.pow_zero]
    exact (by decide : bitLength 1 ≤ maxBits)
  · cases r with
    | int e =>
      cases exponent
      cases l with
      | int d =>
        cases base
        exact (powerBits positive).trans (checkPowerFacts checked (by omega))
      | bool truth =>
        cases base
        cases truth
        · rw [if_neg Bool.false_ne_true, Int.zero_pow positive.ne']
          exact (by decide : bitLength 0 ≤ maxBits)
        · rw [if_pos rfl, Int.one_pow]
          exact (by decide : bitLength 1 ≤ maxBits)
      | _ => cases base
    | bool truth =>
      cases exponent
      cases truth
      · contradiction
      · change bitLength (m ^ 1) ≤ maxBits
        rwa [Int.pow_succ, Int.pow_zero, Int.one_mul]
    | _ => cases exponent

/-- No operator more than doubles the bits of operands that pass the check. -/
theorem computeBits {op : BinaryOp} {l r v : Value} (left : Bits maxBits l) (right : Bits maxBits r)
    (checked : checkOperands op l r = .ok ()) (found : compute op l r = .ok v) : Bits (2 * maxBits) v := by
  have some : 0 < maxBits := by decide
  by_cases atom : v.list? = none
  · refine (bitsAtom atom).mpr fun k same => ?_
    cases same
    obtain ⟨m, n, base, exponent, made⟩ := computeInts found
    have first := numeralBits left some base
    have second := numeralBits right some exponent
    rcases made with rfl | rfl | rfl | ⟨nonzero, rfl⟩ | ⟨rfl, natural, rfl⟩
    · exact (sumBits first second).1.trans (by omega)
    · exact (sumBits first second).2.trans (by omega)
    · exact (productBits first second).trans (by omega)
    · exact (remainderBits second nonzero).trans (by omega)
    · exact (powerChecked left base exponent natural checked).trans (by omega)
  · cases v with
    | list items => exact (listBits left right found).more (by omega)
    | _ => exact absurd rfl atom

theorem applyBinaryBits {op : BinaryOp} {l r v : Value} (left : Bits maxBits l) (right : Bits maxBits r)
    (applied : applyBinary op l r = .ok v) : Bits maxBits v := by
  rcases applyBinaryFacts applied with ⟨_, _, s, t, _, _, rfl⟩ | ⟨_, checked, computed, bits⟩
  · exact bitsNone rfl (by simp)
  · by_cases atom : v.list? = none
    · exact (bitsAtom atom).mpr bits
    · cases v with
      | list items => exact listBits left right computed
      | _ => exact absurd rfl atom

theorem applyUnaryBits {op : UnaryOp} {v w : Value} (bits : Bits b v) (applied : applyUnary op v = .ok w) :
    Bits b w := by
  unfold applyUnary at applied
  split at applied <;> cases applied
  · exact bitsNone rfl (by simp)
  · rw [bitsInt, bitLengthLe] at *
    rwa [Int.natAbs_neg]
  · exact bitsNone rfl (by simp)
  · exact bits
  · exact bitsNone rfl (by simp)

theorem Evaluates.bits {e : Expr} {v : Value} (evaluates : Evaluates e v) (leaves : e.Leaves (Bits maxBits)) :
    Bits maxBits v := by
  induction evaluates with
  | literal v => exact leaves v .self
  | noItems => exact bitsList.mpr (by simp)
  | item _ _ head tail =>
    have first := head (leaves.child (by simp [Expr.children]))
    simpa [bitsList] using ⟨first, bitsList.mp (tail leaves.tail)⟩
  | unary _ applied inner => exact applyUnaryBits (inner (leaves.child (by simp [Expr.children]))) applied
  | binary _ _ applied first second =>
    exact applyBinaryBits (first (leaves.child (by simp [Expr.children])))
      (second (leaves.child (by simp [Expr.children]))) applied
  | settled _ _ first => exact first (leaves.child (by simp [Expr.children]))
  | unsettled _ _ _ _ second => exact second (leaves.child (by simp [Expr.children]))
  | compare _ _ applied =>
    obtain ⟨truth, rfl⟩ := applyCompareTruth applied
    exact bitsNone rfl (by simp)

theorem tokenBits {t : Token} {v : Value} (value : t.value? = some v) : Bits (4 * t.text.length) v := by
  unfold Token.value? at value
  split at value
  · cases value
    unfold numberValue
    split
    · exact bitsNone rfl (by simp)
    · rw [bitsInt, bitLengthLe]
      cases read : Number.readInt? t.text with
      | none => exact Nat.two_pow_pos _
      | some n =>
        refine (Number.readIntBelow read).trans_le ?_
        rw [Nat.pow_mul]
        exact Nat.pow_le_pow_left (by decide) _
  · cases value
    exact bitsNone rfl (by simp)
  · unfold keyword? at value
    split at value <;> cases value <;> exact bitsNone rfl (by simp)
  · contradiction
  · contradiction

/-- In whatever an accepted text computes, integers have at most as many bits as the limit says, and an
operator makes at most twice as many before its result is looked at. -/
theorem integersBounded {source : String} {e : Expr} (parsed : parse source = .ok e) :
    (∀ sub v, Within sub e → interpret sub = .ok v → Bits maxBits v) ∧
    ∀ op left right l r v, Within (.binary op left right) e → interpret left = .ok l →
      interpret right = .ok r → checkOperands op l r = .ok () → compute op l r = .ok v →
      Bits (2 * maxBits) v := by
  obtain ⟨ts, _, _, leaves⟩ := parsedLeaves parsed
  have bounded (sub : Expr) (v : Value) (inside : Within sub e) (evaluated : interpret sub = .ok v) :
      Bits maxBits v := by
    refine (interpretEvaluates evaluated).bits fun w leaf => ?_
    obtain ⟨t, _, value, short⟩ := leaves w (leaf.trans inside)
    exact (tokenBits value).more (Nat.mul_le_mul_left 4 short)
  refine ⟨bounded, fun op left right l r v inside first second checked computed => ?_⟩
  have operand (sub : Expr) (w : Value) (member : sub = left ∨ sub = right) (evaluated : interpret sub = .ok w) :
      Bits maxBits w := by
    refine bounded sub w (.trans (.deeper ?_ .self) inside) evaluated
    simpa [Expr.children] using member
  exact computeBits (operand left l (.inl rfl) first) (operand right r (.inr rfl) second) checked computed

theorem integersBoundedPower :
    let two := Expr.literal (.int 2)
    let nine := Expr.literal (.int 9)
    parse "2 ** 9" = .ok (.binary .pow two nine) ∧ interpret (.binary .pow two nine) = .ok (.int 512) ∧
      Bits maxBits (.int 512) ∧ checkOperands .pow (.int 2) (.int 9) = .ok () ∧
      compute .pow (.int 2) (.int 9) = .ok (.int 512) ∧ Bits (2 * maxBits) (.int 512) := by
  intro two nine
  have tokens : tokenize "2 ** 9" =
      .ok [⟨.number, "2", 0⟩, ⟨.op, "**", 2⟩, ⟨.number, "9", 5⟩, ⟨.stop, "", 6⟩] := by decide +kernel
  have parsed : parse "2 ** 9" = .ok (.binary .pow two nine) := pairParses tokens rfl rfl rfl rfl
  have evaluated : interpret (.binary .pow two nine) = .ok (.int 512) := rfl
  obtain ⟨every, before⟩ := integersBounded parsed
  exact ⟨parsed, evaluated, every _ _ .self evaluated, rfl, rfl, before _ _ _ _ _ _ .self rfl rfl rfl rfl⟩

end Expression
end DecisionRules
