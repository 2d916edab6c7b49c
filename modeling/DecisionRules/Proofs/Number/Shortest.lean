import DecisionRules.Number.Shortest
import DecisionRules.Proofs.Number.Binary
import Mathlib.Algebra.Order.Field.Power
import Mathlib.Algebra.Order.Ring.Rat
import Mathlib.Tactic.FieldSimp
import Mathlib.Tactic.Linarith
import Mathlib.Tactic.NormNum
import Mathlib.Tactic.Positivity
import Mathlib.Tactic.Ring

/-! The shortest digits of a float tell it apart from every other. They lie among the rationals that round
to it, as seventeen digits always do, and no rational rounds to two floats. -/
namespace DecisionRules.Number

def ratio (q : Nat × Nat) : ℚ := (q.1 : ℚ) / q.2

def Decimal.value (d : Decimal) : ℚ := d.digits * (10 : ℚ) ^ d.exponent

/-! Scaling -/

theorem scaleRatio {base : Nat} (positive : 0 < base) (num den : Nat) (shift : Int) :
    ratio (if shift < 0 then (num, den * Nat.pow base shift.natAbs)
      else (num * Nat.pow base shift.natAbs, den)) = ratio (num, den) * (base : ℚ) ^ shift := by
  have nonzero : (base : ℚ) ≠ 0 := by exact_mod_cast positive.ne'
  obtain ⟨k, rfl | rfl⟩ := shift.eq_nat_or_neg
  · have up : ¬ (k : Int) < 0 := by omega
    simp only [ratio, up, if_false, Int.natAbs_natCast, zpow_natCast, Nat.pow_eq, Nat.cast_mul, Nat.cast_pow]
    ring
  · by_cases none : k = 0
    · simp [none, ratio]
    · have down : -(k : Int) < 0 := by omega
      simp only [ratio, down, if_true, Int.natAbs_neg, Int.natAbs_natCast, zpow_neg, zpow_natCast,
        Nat.pow_eq, Nat.cast_mul, Nat.cast_pow]
      field_simp

theorem scaledRatio (num den : Nat) (shift : Int) :
    ratio (scaled num den shift) = ratio (num, den) * (2 : ℚ) ^ shift :=
  @scaleRatio 2 (by decide) num den shift

theorem scaledTenRatio (num den : Nat) (shift : Int) :
    ratio (scaledTen num den shift) = ratio (num, den) * (10 : ℚ) ^ shift :=
  @scaleRatio 10 (by decide) num den shift

theorem scaledPositive {num den : Nat} (positive : 0 < den) (shift : Int) :
    0 < (scaled num den shift).2 ∧ 0 < (scaledTen num den shift).2 := by
  unfold scaled scaledTen
  constructor <;> split
  · exact Nat.mul_pos positive (Nat.pow_pos (by decide))
  · exact positive
  · exact Nat.mul_pos positive (Nat.pow_pos (by decide))
  · exact positive

/-! Intervals -/

/-- Is a rational, in quarters of the last place, one of those that round to the float? -/
def Interval.Contains (i : Interval) (q : ℚ) : Prop :=
  if i.closed then i.low ≤ q ∧ q ≤ i.high else i.low < q ∧ q < i.high

theorem Interval.holdsContains (i : Interval) {n d : Nat} (positive : 0 < d) :
    i.holds n d = true ↔ i.Contains (ratio (n, d)) := by
  have above : (0 : ℚ) < d := by exact_mod_cast positive
  unfold Interval.holds Interval.Contains ratio
  split
  · simp only [Bool.and_eq_true, decide_eq_true_iff, le_div_iff₀ above, div_le_iff₀ above]
    norm_cast
  · simp only [Bool.and_eq_true, decide_eq_true_iff, lt_div_iff₀ above, div_lt_iff₀ above]
    norm_cast

section
variable {m n : Nat} {e f : Int} {q : ℚ}

/-- The ends of an interval belong to the even mantissa. -/
theorem containsBounds (within : (roundingInterval m e).Contains q) :
    ((roundingInterval m e).low : ℚ) ≤ q ∧ q ≤ 4 * m + 2 ∧
      (m % 2 = 1 → ((roundingInterval m e).low : ℚ) < q ∧ q < 4 * m + 2) := by
  have high : ((roundingInterval m e).high : ℚ) = 4 * m + 2 := by simp [roundingInterval]
  by_cases even : m % 2 = 0
  · simp only [Interval.Contains, roundingInterval, even, beq_self_eq_true, if_true] at within high ⊢
    exact ⟨within.1, high ▸ within.2, by simp⟩
  · have odd : (m % 2 == 0) = false := by simp [even]
    simp only [Interval.Contains, roundingInterval, odd, Bool.false_eq_true, if_false] at within high ⊢
    rw [high] at within
    exact ⟨within.1.le, within.2.le, fun _ => within⟩

theorem lowAtLeast : 4 * m - 2 ≤ (roundingInterval m e).low := by
  unfold roundingInterval
  dsimp only
  split <;> omega

theorem lowAtMost (positive : 0 < m) :
    (roundingInterval m e).low + 1 ≤ 4 * m ∧ (m ≠ 2 ^ 52 → (roundingInterval m e).low + 2 ≤ 4 * m) := by
  unfold roundingInterval
  dsimp only
  split
  · rename_i narrow
    simp only [fractionBits, Nat.pow_eq, Bool.and_eq_true, beq_iff_eq] at narrow
    omega
  · omega

/-- A rational rounds to one mantissa of the exponent. -/
theorem containsOrder (less : m < n) (left : (roundingInterval m e).Contains q)
    (right : (roundingInterval n e).Contains q) : False := by
  obtain ⟨_, under, strict⟩ := containsBounds left
  obtain ⟨beyond, _, strict'⟩ := containsBounds right
  have low : ((4 * n - 2 : Nat) : ℚ) ≤ (roundingInterval n e).low := by exact_mod_cast lowAtLeast
  rw [Nat.cast_sub (by omega)] at low
  push_cast at low
  by_cases next : n = m + 1
  · subst next
    push_cast at low
    -- the interval that has the common end is that of the even mantissa; the other lacks it
    rcases Nat.mod_two_eq_zero_or_one m with even | odd
    · have := (strict' (by omega)).1
      linarith
    · have := (strict odd).2
      linarith
  · have apart : (m : ℚ) + 2 ≤ n := by exact_mod_cast (by omega : m + 2 ≤ n)
    linarith

/-- Below a float that has all its digits the next one is half as far away at the least. -/
theorem lowFull (full : 2 ^ 52 ≤ n) (above : leastExponent < f) :
    (2 : ℚ) ^ 54 - 1 ≤ (roundingInterval n f).low := by
  have bound : 2 ^ 54 - 1 ≤ (roundingInterval n f).low := by
    by_cases power : n = 2 ^ 52
    · simp [roundingInterval, fractionBits, power, above]
    · have := lowAtLeast (m := n) (e := f)
      omega
  have cast : ((2 ^ 54 - 1 : Nat) : ℚ) ≤ (roundingInterval n f).low := by exact_mod_cast bound
  norm_num at cast ⊢
  exact cast

theorem containsExponent (normal : Normal m e) (normal' : Normal n f) (less : e < f)
    (left : (roundingInterval m e).Contains (q / (2 : ℚ) ^ e))
    (right : (roundingInterval n f).Contains (q / (2 : ℚ) ^ f)) : False := by
  obtain ⟨_, under, strict⟩ := containsBounds left
  obtain ⟨beyond, _, _⟩ := containsBounds right
  have above : leastExponent < f := lt_of_le_of_lt normal.least less
  have full : 2 ^ 52 ≤ n := normal'.full.resolve_right above.ne'
  have positive : (0 : ℚ) < (2 : ℚ) ^ e := by positivity
  have positive' : (0 : ℚ) < (2 : ℚ) ^ f := by positivity
  have doubled : 2 * (2 : ℚ) ^ e ≤ (2 : ℚ) ^ f := by
    have step : (2 : ℚ) ^ (e + 1) ≤ (2 : ℚ) ^ f := zpow_le_zpow_right₀ (by norm_num) (by omega)
    rwa [zpow_add_one₀ (by norm_num), mul_comm] at step
  have lower : (2 : ℚ) ^ 55 - 2 ≤ q / (2 : ℚ) ^ e := by
    rw [le_div_iff₀ positive]
    calc ((2 : ℚ) ^ 55 - 2) * (2 : ℚ) ^ e = ((2 : ℚ) ^ 54 - 1) * (2 * (2 : ℚ) ^ e) := by ring
      _ ≤ ((2 : ℚ) ^ 54 - 1) * (2 : ℚ) ^ f := mul_le_mul_of_nonneg_left doubled (by norm_num)
      _ ≤ q := by
        rw [← le_div_iff₀ positive']
        exact (lowFull full above).trans beyond
  -- the common end would be that of the greatest mantissa, which is odd
  by_cases greatest : m = 2 ^ 53 - 1
  · have inside := (strict (by rw [greatest]; norm_num)).2
    have counted : (m : ℚ) = 2 ^ 53 - 1 := by rw [greatest]; norm_num
    linarith
  · have bounded := normal.bounded
    have fewer : (m : ℚ) + 2 ≤ 2 ^ 53 := by exact_mod_cast (by omega : m + 2 ≤ 2 ^ 53)
    linarith

/-- A rational rounds to one float. -/
theorem containsSame (normal : Normal m e) (normal' : Normal n f)
    (left : (roundingInterval m e).Contains (q / (2 : ℚ) ^ e))
    (right : (roundingInterval n f).Contains (q / (2 : ℚ) ^ f)) : m = n ∧ e = f := by
  rcases lt_trichotomy e f with less | rfl | more
  · exact (containsExponent normal normal' less left right).elim
  · rcases lt_trichotomy m n with less | rfl | more
    · exact (containsOrder less left right).elim
    · exact ⟨rfl, rfl⟩
    · exact (containsOrder more right left).elim
  · exact (containsExponent normal' normal more right left).elim

/-! Grids -/

/-- Does the decimal read back as the float? -/
def Decimal.Reads (d : Decimal) (m : Nat) (e : Int) : Prop :=
  (roundingInterval m e).Contains (4 * d.value / (2 : ℚ) ^ e)

def readsBack (m : Nat) (e unit : Int) (k : Nat) : Bool :=
  let (n, d) := scaledTen k 1 unit
  let (n, d) := scaled n d (2 - e)
  (roundingInterval m e).holds n d

theorem readsBackReads {unit : Int} {k : Nat} :
    readsBack m e unit k = true ↔ Decimal.Reads ⟨k, unit⟩ m e := by
  have positive := (@scaledPositive k 1 (by decide) unit).2
  rw [readsBack, Interval.holdsContains _ (scaledPositive positive _).1, scaledRatio, scaledTenRatio,
    Decimal.Reads, Decimal.value, zpow_sub₀ (by norm_num)]
  refine iff_of_eq (congrArg _ ?_)
  simp only [ratio]
  norm_num
  ring

theorem gridChoice (reads : Nat → Bool) {first second : Nat} {unit : Int} {d : Decimal}
    (found : (if first != 0 && reads first then some (Decimal.mk first unit)
      else if second != 0 && reads second then some ⟨second, unit⟩ else none) = some d) :
    ∃ k, d = ⟨k, unit⟩ ∧ 0 < k ∧ reads k = true := by
  split at found
  · rename_i near
    cases found
    simp only [Bool.and_eq_true, bne_iff_ne] at near
    exact ⟨first, rfl, Nat.pos_of_ne_zero near.1, near.2⟩
  · split at found
    · rename_i other
      cases found
      simp only [Bool.and_eq_true, bne_iff_ne] at other
      exact ⟨second, rfl, Nat.pos_of_ne_zero other.1, other.2⟩
    · contradiction

theorem onGridReads {unit : Int} {d : Decimal} (found : onGrid? m e unit = some d) :
    0 < d.digits ∧ d.Reads m e := by
  obtain ⟨k, rfl, positive, reads⟩ := gridChoice (readsBack m e unit) found
  exact ⟨positive, readsBackReads.mp reads⟩

theorem roundDivNear (num : Nat) {den : Nat} (positive : 0 < den) :
    |(roundDiv num den : ℚ) - ratio (num, den)| ≤ 1 / 2 := by
  have above : (0 : ℚ) < den := by exact_mod_cast positive
  have parts : num / den * den + num % den = num := Nat.div_add_mod' num den
  have small := Nat.mod_lt num positive
  have near : 2 * (roundDiv num den * den) ≤ 2 * num + den ∧ 2 * num ≤ 2 * (roundDiv num den * den) + den := by
    unfold roundDiv
    dsimp only
    split
    · rename_i up
      simp only [Bool.or_eq_true, Bool.and_eq_true, decide_eq_true_iff, beq_iff_eq] at up
      rw [Nat.add_mul]
      omega
    · rename_i down
      simp only [Bool.or_eq_true, Bool.and_eq_true, decide_eq_true_iff, beq_iff_eq] at down
      omega
  have under : (2 : ℚ) * (roundDiv num den * den) ≤ 2 * num + den := by exact_mod_cast near.1
  have beyond : (2 : ℚ) * num ≤ 2 * (roundDiv num den * den) + den := by exact_mod_cast near.2
  rw [abs_le, ratio, neg_le_sub_iff_le_add, sub_le_iff_le_add, div_le_iff₀ above, ← sub_le_iff_le_add',
    le_div_iff₀ above]
  constructor <;> linarith

theorem insideContains (beyond : ((roundingInterval m e).low : ℚ) < q) (under : q < 4 * m + 2) :
    (roundingInterval m e).Contains q := by
  have high : q < (roundingInterval m e).high := by simpa [roundingInterval] using under
  unfold Interval.Contains
  split
  · exact ⟨beyond.le, high.le⟩
  · exact ⟨beyond, high⟩

/-- The interval is wider than the grid of seventeen digits, on either side of the float. -/
theorem wideInterval (positive : 0 < m) (bounded : m < 2 ^ 53)
    (near : |q - 4 * m| ≤ 2 * m / 10 ^ 16) : (roundingInterval m e).Contains q := by
  obtain ⟨beyond, under⟩ := abs_le.mp near
  have few : (m : ℚ) < 2 ^ 53 := by exact_mod_cast bounded
  refine insideContains ?_ (by linarith)
  obtain ⟨low, lower⟩ := lowAtMost (e := e) positive
  by_cases power : m = 2 ^ 52
  · have less : ((roundingInterval m e).low : ℚ) + 1 ≤ 4 * m := by exact_mod_cast low
    have counted : (m : ℚ) = 2 ^ 52 := by exact_mod_cast power
    rw [counted] at beyond less
    linarith
  · have less : ((roundingInterval m e).low : ℚ) + 2 ≤ 4 * m := by exact_mod_cast lower power
    linarith

theorem onGridNearest {unit : Int} {k : Nat}
    (nearest : roundDiv (scaledTen (scaled m 1 e).1 (scaled m 1 e).2 (-unit)).1
      (scaledTen (scaled m 1 e).1 (scaled m 1 e).2 (-unit)).2 = k)
    (nonzero : k ≠ 0) (reads : Decimal.Reads ⟨k, unit⟩ m e) : onGrid? m e unit = some ⟨k, unit⟩ := by
  subst nearest
  exact if_pos (Bool.and_eq_true_iff.mpr ⟨bne_iff_ne.mpr nonzero, readsBackReads.mpr reads⟩)

/-- Seventeen digits suffice. -/
theorem onGridFinds (positive : 0 < m) (bounded : m < 2 ^ 53) {unit : Int}
    (fine : (10 : ℚ) ^ unit * 10 ^ 16 ≤ m * (2 : ℚ) ^ e) : ∃ d, onGrid? m e unit = some d := by
  have step : (0 : ℚ) < (10 : ℚ) ^ unit := by positivity
  have place : (0 : ℚ) < (2 : ℚ) ^ e := by positivity
  have dens := (@scaledPositive (scaled m 1 e).1 _ (@scaledPositive m 1 (by decide) e).1 (-unit)).2
  obtain ⟨k, nearest⟩ : ∃ k, roundDiv (scaledTen (scaled m 1 e).1 (scaled m 1 e).2 (-unit)).1
      (scaledTen (scaled m 1 e).1 (scaled m 1 e).2 (-unit)).2 = k := ⟨_, rfl⟩
  have near := roundDivNear (scaledTen (scaled m 1 e).1 (scaled m 1 e).2 (-unit)).1 dens
  rw [nearest, scaledTenRatio, scaledRatio, zpow_neg, ← div_eq_mul_inv] at near
  simp only [ratio, Nat.cast_one, div_one] at near
  have many : (10 : ℚ) ^ 16 ≤ m * (2 : ℚ) ^ e / (10 : ℚ) ^ unit := by
    rw [le_div_iff₀ step]
    linarith
  have nonzero : k ≠ 0 := by
    rintro rfl
    have := (abs_le.mp near).1
    norm_num at this many
    linarith
  refine ⟨_, onGridNearest nearest nonzero (wideInterval positive bounded ?_)⟩
  have scale : 4 * Decimal.value ⟨k, unit⟩ / (2 : ℚ) ^ e - 4 * m =
      4 * ((10 : ℚ) ^ unit / (2 : ℚ) ^ e) * (k - m * (2 : ℚ) ^ e / (10 : ℚ) ^ unit) := by
    unfold Decimal.value
    field_simp
  have small : (10 : ℚ) ^ unit / (2 : ℚ) ^ e ≤ m / 10 ^ 16 := by
    rw [div_le_div_iff₀ place (by norm_num)]
    exact fine
  rw [scale, abs_mul, abs_of_pos (by positivity)]
  calc 4 * ((10 : ℚ) ^ unit / (2 : ℚ) ^ e) * |(k : ℚ) - m * (2 : ℚ) ^ e / (10 : ℚ) ^ unit|
      ≤ 4 * (m / 10 ^ 16) * (1 / 2) := by gcongr
    _ = 2 * m / 10 ^ 16 := by ring

/-! The search -/

theorem digitCountBounds {n : Nat} (positive : 0 < n) :
    10 ^ (digitCount n - 1) ≤ n ∧ n < 10 ^ digitCount n := by
  have some : 0 < digitCount n := Nat.length_toDigits_pos
  refine ⟨?_, (Nat.length_toDigits_le_iff (by decide) some).mp (le_refl _)⟩
  by_cases one : digitCount n - 1 = 0
  · rw [one]
    exact positive
  · by_contra less
    have short := (Nat.length_toDigits_le_iff (by decide) (Nat.pos_of_ne_zero one)).mpr (not_le.mp less)
    change digitCount n ≤ digitCount n - 1 at short
    omega

theorem decimalExponentBelow {num den : Nat} (above : 0 < num) (below : 0 < den) :
    (10 : ℚ) ^ decimalExponent num den ≤ ratio (num, den) := by
  have dens : (0 : ℚ) < den := by exact_mod_cast below
  unfold decimalExponent
  dsimp only
  split
  · have least : (10 : ℚ) ^ (digitCount num - 1) ≤ num := by exact_mod_cast (digitCountBounds above).1
    have most : (den : ℚ) ≤ 10 ^ digitCount den := by exact_mod_cast (digitCountBounds below).2.le
    have some : 1 ≤ digitCount num := Nat.length_toDigits_pos
    rw [ratio, le_div_iff₀ dens]
    calc (10 : ℚ) ^ ((digitCount num : Int) - digitCount den - 1) * den
        ≤ (10 : ℚ) ^ ((digitCount num : Int) - digitCount den - 1) * 10 ^ digitCount den := by gcongr
      _ = (10 : ℚ) ^ (digitCount num - 1) := by
        rw [← zpow_natCast, ← zpow_natCast, ← zpow_add₀ (by norm_num), Nat.cast_sub some]
        congr 1
        omega
      _ ≤ num := least
  · rename_i enough
    have scaledDens := (@scaledPositive num den below
      (-((digitCount num : Int) - digitCount den))).2
    have one : 1 ≤ ratio (scaledTen num den (-((digitCount num : Int) - digitCount den))) := by
      rw [ratio, le_div_iff₀ (by exact_mod_cast scaledDens), one_mul]
      exact_mod_cast not_lt.mp enough
    rw [scaledTenRatio, zpow_neg, ← div_eq_mul_inv, le_div_iff₀ (by positivity), one_mul] at one
    exact one

theorem shortestFromFinds {lead : Int} {fuel count last : Nat} {d : Decimal}
    (found : onGrid? m e (lead + 1 - last) = some d) (after : count ≤ last) (reached : last < count + fuel) :
    ∃ unit, onGrid? m e unit = some (shortestFrom m e lead count fuel) := by
  induction fuel generalizing count with
  | zero => omega
  | succ fuel ih =>
    unfold shortestFrom
    cases here : onGrid? m e (lead + 1 - count) with
    | some first => exact ⟨_, here⟩
    | none =>
      have later : count ≠ last := fun same => by simp [same, found] at here
      exact ih (by omega) (by omega)

theorem trimFromValue (d : Decimal) (fuel : Nat) : (d.trimFrom fuel).value = d.value := by
  induction fuel generalizing d with
  | zero => rfl
  | succ fuel ih =>
    unfold Decimal.trimFrom
    split
    · rename_i whole
      simp only [Bool.and_eq_true, beq_iff_eq] at whole
      have tens : d.digits = d.digits / 10 * 10 := (Nat.div_mul_cancel (Nat.dvd_of_mod_eq_zero whole.2)).symm
      rw [ih, Decimal.value, Decimal.value, zpow_add_one₀ (by norm_num)]
      nth_rewrite 2 [tens]
      push_cast
      ring
    · rfl

theorem shortestValue (positive : 0 < m) :
    (shortest m e).value = (shortestFrom m e
      (decimalExponent (scaled m 1 e).1 (scaled m 1 e).2) 1 17).value := by
  have nonzero : ¬ (m == 0) = true := by simpa using positive.ne'
  unfold shortest
  rw [if_neg nonzero]
  exact trimFromValue _ _

theorem leadBelow (positive : 0 < m) :
    (10 : ℚ) ^ decimalExponent (scaled m 1 e).1 (scaled m 1 e).2 ≤ m * (2 : ℚ) ^ e := by
  have exact : ratio (scaled m 1 e) = m * (2 : ℚ) ^ e := by rw [scaledRatio]; simp [ratio]
  have above : 0 < (scaled m 1 e).1 := by
    have some : 0 < ratio (scaled m 1 e) := by rw [exact]; positivity
    exact Nat.pos_of_ne_zero fun zero => by simp [ratio, zero] at some
  exact exact ▸ decimalExponentBelow above (@scaledPositive m 1 (by decide) e).1

theorem shortestReads (positive : 0 < m) (bounded : m < 2 ^ 53) :
    0 < (shortest m e).value ∧ (shortest m e).Reads m e := by
  obtain ⟨lead, is⟩ : ∃ lead, decimalExponent (scaled m 1 e).1 (scaled m 1 e).2 = lead := ⟨_, rfl⟩
  have below := is ▸ leadBelow (e := e) positive
  obtain ⟨d, found⟩ : ∃ d, onGrid? m e (lead + 1 - (17 : Nat)) = some d := by
    refine onGridFinds positive bounded ?_
    have places : (10 : ℚ) ^ (lead + 1 - (17 : Nat)) * 10 ^ 16 = (10 : ℚ) ^ lead := by
      rw [← zpow_natCast, ← zpow_add₀ (by norm_num)]
      congr 1
      omega
    exact places ▸ below
  obtain ⟨unit, there⟩ := shortestFromFinds found (by decide : 1 ≤ 17) (by decide : 17 < 1 + 17)
  obtain ⟨digits, reads⟩ := onGridReads there
  unfold Decimal.Reads at reads ⊢
  rw [shortestValue positive, is]
  refine ⟨?_, reads⟩
  have some : (0 : ℚ) < (shortestFrom m e lead 1 17).digits := by exact_mod_cast digits
  unfold Decimal.value
  positivity

theorem shortestSame (normal : Normal m e) (normal' : Normal n f)
    (same : (shortest m e).value = (shortest n f).value) : m = n ∧ e = f := by
  have zero (k : Int) : (shortest 0 k).value = 0 := by simp [shortest, Decimal.value]
  have none {m : Nat} {e : Int} (normal : Normal m e) (empty : m = 0) : e = leastExponent :=
    normal.full.resolve_left (by omega)
  rcases Nat.eq_zero_or_pos m with empty | positive <;> rcases Nat.eq_zero_or_pos n with empty' | positive'
  · exact ⟨empty.trans empty'.symm, (none normal empty).trans (none normal' empty').symm⟩
  · subst empty
    exact absurd ((zero e).symm.trans same) (shortestReads positive' normal'.bounded).1.ne
  · subst empty'
    exact absurd ((zero f).symm.trans same.symm) (shortestReads positive normal.bounded).1.ne
  · have reads := (shortestReads (e := e) positive normal.bounded).2
    have reads' := (shortestReads (e := f) positive' normal'.bounded).2
    unfold Decimal.Reads at reads reads'
    exact containsSame normal normal' (same ▸ reads) reads'

end
end DecisionRules.Number
