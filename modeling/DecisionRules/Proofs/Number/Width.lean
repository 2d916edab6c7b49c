import DecisionRules.Proofs.Number.Layout
import DecisionRules.Value.Display
import Mathlib.Algebra.Order.Group.Nat

/-! The texts of numbers are short. The bounds are crude: they come from the size of the fractions that are
divided, not from the seventeen digits that are enough. -/
namespace DecisionRules

namespace Number

/-- At most so many digits, and an exponent of at most that size. -/
structure Decimal.Slim (d : Decimal) (count size : Nat) : Prop where
  digits : digitCount d.digits ≤ count
  exponent : d.exponent.natAbs ≤ size

theorem digitCountBelow {n k : Nat} (some : 0 < k) : digitCount n ≤ k ↔ n < 10 ^ k :=
  Nat.length_toDigits_le_iff (by decide) some

theorem digitCountSome (n : Nat) : 0 < digitCount n := List.length_pos_iff.mpr (digitCharsSome n)

theorem digitCountSmall (n : Nat) : digitCount n ≤ n + 1 := by
  rw [digitCountBelow (Nat.succ_pos n)]
  exact (Nat.lt_succ_self n).trans (Nat.lt_pow_self (by decide))

theorem digitCountLess {m n : Nat} (less : m ≤ n) : digitCount m ≤ digitCount n := by
  rw [digitCountBelow (digitCountSome n)]
  exact less.trans_lt ((digitCountBelow (digitCountSome n)).mp (Nat.le_refl _))

theorem digitCountNext (n : Nat) : digitCount (n + 1) ≤ digitCount n + 1 := by
  have below := (digitCountBelow (digitCountSome n)).mp (Nat.le_refl _)
  rw [digitCountBelow (Nat.succ_pos _), Nat.pow_succ]
  omega

theorem digitCountTimes {base m j k s : Nat} (small : base ≤ 10) (left : digitCount m ≤ j) (less : s ≤ k) :
    digitCount (m * base ^ s) ≤ j + k := by
  have some := (digitCountSome m).trans_le left
  have power : base ^ s ≤ 10 ^ k := (Nat.pow_le_pow_left small s).trans (Nat.pow_le_pow_right (by decide) less)
  rw [digitCountBelow some] at left
  rw [digitCountBelow (by omega), Nat.pow_add]
  exact (Nat.mul_le_mul_left m power).trans_lt (Nat.mul_lt_mul_of_pos_right left (Nat.pow_pos (by decide)))

/-! Shortest digits -/

theorem formExponent {x : Float} {negative : Bool} {m : Nat} {e : Int} (is : form x = .finite negative m e) :
    e ≤ 971 := by
  unfold form at is
  rw [ofBitsParts, Form.ofParts] at is
  split at is
  · split at is <;> contradiction
  · split at is
    · cases is
      decide
    · rename_i other _
      cases is
      have biased := Nat.mod_lt (x.toBits.toNat / 2 ^ 52) (by decide : 0 < 2048)
      unfold leastExponent
      omega

theorem scaledDigits {m : Nat} {e : Int} (bounded : m < 2 ^ 53) (least : leastExponent ≤ e) (most : e ≤ 971) :
    digitCount (scaled m 1 e).1 ≤ 987 ∧ digitCount (scaled m 1 e).2 ≤ 1075 := by
  have mantissa : digitCount m ≤ 16 := (digitCountBelow (by decide)).mpr (bounded.trans (by decide))
  have one : digitCount 1 = 1 := by decide
  unfold leastExponent at least
  unfold scaled
  split
  · exact ⟨mantissa.trans (by decide), digitCountTimes (k := 1074) (by decide) one.le (by omega)⟩
  · exact ⟨digitCountTimes (k := 971) (by decide) mantissa (by omega), one.le.trans (by decide)⟩

theorem leadSmall {num den : Nat} (left : digitCount num ≤ 987) (right : digitCount den ≤ 1075) :
    (decimalExponent num den).natAbs ≤ 1075 := by
  have some := digitCountSome num
  have some' := digitCountSome den
  unfold decimalExponent
  dsimp only
  split <;> omega

theorem roundDivSmall (n d : Nat) : roundDiv n d ≤ n + 1 := by
  have quotient := Nat.div_le_self n d
  unfold roundDiv
  dsimp only
  split <;> omega

theorem gridSlim {m : Nat} {e unit : Int} {d : Decimal} (found : onGrid? m e unit = some d)
    (value : digitCount (scaled m 1 e).1 ≤ 987) (near : unit.natAbs ≤ 1092) : d.Slim 2080 1092 := by
  have either (reads : Nat → Bool) {first second : Nat}
      (found : (if first != 0 && reads first then some (Decimal.mk first unit)
        else if second != 0 && reads second then some ⟨second, unit⟩ else none) = some d) :
      d = ⟨first, unit⟩ ∨ d = ⟨second, unit⟩ := by
    split at found
    · exact .inl (Option.some.inj found).symm
    · split at found
      · exact .inr (Option.some.inj found).symm
      · contradiction
  have whole : digitCount (scaledTen (scaled m 1 e).1 (scaled m 1 e).2 (-unit)).1 ≤ 2079 := by
    unfold scaledTen
    split
    · exact value.trans (by decide)
    · exact digitCountTimes (k := 1092) (by decide) value (by omega)
  unfold onGrid? at found
  dsimp only at found
  generalize (scaledTen (scaled m 1 e).1 (scaled m 1 e).2 (-unit)).1 = num at found whole
  generalize (scaledTen (scaled m 1 e).1 (scaled m 1 e).2 (-unit)).2 = den at found
  have next (k : Nat) (less : k ≤ num + 1) : Decimal.Slim ⟨k, unit⟩ 2080 1092 :=
    ⟨((digitCountLess less).trans (digitCountNext num)).trans (by omega), near⟩
  have quotient := Nat.div_le_self num den
  rcases either (readsBack m e unit) found with rfl | rfl
  · exact next _ (roundDivSmall num den)
  · refine next _ ?_
    split <;> omega

theorem shortestFromSlim {m : Nat} {e lead : Int} (count fuel : Nat) (mantissa : digitCount m ≤ 16)
    (value : digitCount (scaled m 1 e).1 ≤ 987) (near : lead.natAbs ≤ 1075) (tries : count + fuel ≤ 18) :
    (shortestFrom m e lead count fuel).Slim 2080 1092 := by
  induction fuel generalizing count with
  | zero =>
    unfold shortestFrom
    exact ⟨by dsimp only; omega, by dsimp only; omega⟩
  | succ fuel ih =>
    unfold shortestFrom
    split
    · exact gridSlim ‹_› value (by omega)
    · exact ih (count + 1) (by omega)

theorem trimFromSlim {d : Decimal} {count size : Nat} (slim : d.Slim count size) (fuel : Nat) :
    (d.trimFrom fuel).Slim count (size + fuel) := by
  induction fuel generalizing d size with
  | zero => exact slim
  | succ fuel ih =>
    have exponent := slim.exponent
    unfold Decimal.trimFrom
    split
    · have shorter : Decimal.Slim ⟨d.digits / 10, d.exponent + 1⟩ count (size + 1) :=
        ⟨(digitCountLess (Nat.div_le_self _ _)).trans slim.digits, by dsimp only; omega⟩
      have trimmed := ih shorter
      exact ⟨trimmed.digits, trimmed.exponent.trans (by omega)⟩
    · exact ⟨slim.digits, by omega⟩

theorem shortestSlim {m : Nat} {e : Int} (bounded : m < 2 ^ 53) (least : leastExponent ≤ e) (most : e ≤ 971) :
    (shortest m e).Slim 2080 3172 := by
  unfold shortest
  split
  · exact ⟨by decide, by decide⟩
  · obtain ⟨num, den⟩ := scaledDigits bounded least most
    have mantissa : digitCount m ≤ 16 := (digitCountBelow (by decide)).mpr (bounded.trans (by decide))
    have slim := shortestFromSlim 1 17 mantissa num (leadSmall num den) (by decide)
    have trimmed := trimFromSlim slim (digitCount (shortestFrom m e
      (decimalExponent (scaled m 1 e).1 (scaled m 1 e).2) 1 17).digits)
    exact ⟨trimmed.digits, trimmed.exponent.trans (by have := slim.digits; omega)⟩

/-! Texts -/

theorem positionalShort {d : Decimal} {count size : Nat} (slim : d.Slim count size) :
    (positionalChars d 1).length ≤ count + size + 3 := by
  have digits := slim.digits
  have exponent := slim.exponent
  unfold digitCount at digits
  unfold positionalChars
  dsimp only
  split
  · split
    · contradiction
    · split
      · simp [zeros]
      · simp [zeros]
        omega
  · simp [zeros]
    omega

theorem scientificShort {d : Decimal} {count size : Nat} (slim : d.Slim count size) :
    (scientificChars d 'e' 2).length ≤ 2 * count + size + 6 := by
  have digits := slim.digits
  have exponent := slim.exponent
  have leading : d.leading.natAbs ≤ count + size := by
    have some := digitCountSome d.digits
    unfold Decimal.leading
    omega
  have places := digitCountSmall d.leading.natAbs
  have mantissa (cs : List Char) : (led cs).length ≤ cs.length + 1 := by
    unfold led
    split <;> simp
  have front := mantissa (digitChars d.digits)
  unfold digitCount at digits places
  simp only [scientificLed, exponentChars, zeros, List.length_append, List.length_cons, List.length_replicate]
  omega

theorem magnitudeShort {d : Decimal} {count size : Nat} (slim : d.Slim count size) :
    (magnitudeChars plainStyle d).length ≤ 2 * count + size + 6 := by
  unfold magnitudeChars
  split
  · simp
  · split
    · exact (positionalShort slim).trans (by omega)
    · exact scientificShort slim

theorem floatShort (x : Float) : (floatText plainStyle x).length ≤ 10000 := by
  unfold floatText
  split
  · decide
  · split <;> decide
  · rename_i m e is
    have normal := ofBitsNormal is
    have short := magnitudeShort (shortestSlim normal.bounded normal.least (formExponent is))
    rw [String.length_ofList]
    split
    · rw [List.length_cons]
      omega
    · omega

theorem writableBelow {n : Int} (fits : writable n = true) : n.natAbs < 10 ^ maxTextDigits := by
  unfold writable at fits
  split at fits
  · rename_i small
    by_cases zero : n.natAbs = 0
    · rw [zero]
      exact Nat.pow_pos (by decide)
    · rw [Nat.log2_lt zero, Nat.pow_mul] at small
      exact small.trans_le (Nat.pow_le_pow_left (by decide) _)
  · generalize maxTextDigits = most at fits ⊢
    exact of_decide_eq_true fits

theorem intTextShort {n : Int} {s : String} (found : intText? n = some s) : s.length ≤ 4301 := by
  unfold intText? at found
  split at found
  · rename_i fits
    cases found
    have digits := (digitCountBelow (by decide)).mpr (writableBelow fits)
    unfold digitCount maxTextDigits at digits
    rw [String.length_ofList, intChars]
    split
    · rw [List.length_cons]
      omega
    · omega
  · contradiction

end Number

theorem partShort (x : Float) : (partText x).length ≤ 10000 := by
  have short := Number.floatShort x
  unfold partText
  rw [String.length_ofList]
  split
  · simp only [List.length_take, String.length_toList]
    omega
  · rwa [String.length_toList]

theorem complexShort (re im : Float) : (complexText re im).length ≤ 20004 := by
  have left := partShort re
  have right := partShort im
  unfold complexText
  dsimp only
  split
  · rw [String.length_append]
    exact (Nat.add_le_add_right right 1).trans (by decide)
  · have sign : (if (partText im).startsWith "-" then "" else "+").length ≤ 1 := by split <;> decide
    simp only [String.length_append]
    have marks : "(".length = 1 ∧ "j)".length = 2 := by decide
    omega

end DecisionRules
