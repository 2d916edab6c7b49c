import DecisionRules.Proofs.Expression.Embedding

/-! Digits of all scripts, and the integers that they write. A text of digits is read if all of them are decimal
and there are not too many; other digits, such as superscripts, are never read. -/
namespace DecisionRules

namespace Text

theorem digitValueFacts {c : Char} {d : Nat} (found : digitValue? c = some d) :
    d < 10 ∧ ∃ z ∈ digitZeros, c.toNat = z + d := by
  unfold digitValue? at found
  obtain ⟨z, first, rfl⟩ := Option.map_eq_some_iff.mp found
  have within := List.find?_some first
  simp only [Bool.and_eq_true, decide_eq_true_eq] at within
  exact ⟨by omega, z, List.mem_of_find?_eq_some first, by omega⟩

/-- Digits that are not decimal are neither blank nor ASCII. -/
theorem otherDigitFacts {c : Char} (other : otherDigitRanges.holds c.toNat = true) :
    isBlank c = false ∧ 128 ≤ c.toNat := by
  have apart : ∀ r ∈ otherDigitRanges, 128 ≤ r.1 ∧ ∀ s ∈ blankRanges, r.2 < s.1 ∨ s.2 < r.1 := by decide
  obtain ⟨r, member, low, high⟩ := rangesHold other
  obtain ⟨least, disjoint⟩ := apart r member
  refine ⟨Bool.eq_false_iff.mpr fun blank => ?_, by omega⟩
  obtain ⟨s, member', low', high'⟩ := rangesHold blank
  have := disjoint s member'
  omega

end Text

namespace Number
open Text (isDecimal isDigit isBlank digitValue?)

/-- A decimal digit is read as its value, and any other digit stays as it is. -/
theorem plainDigit {c : Char} (digit : isDigit c = true) : isBlank c = false ∧
    ((∃ d, digitValue? c = some d ∧ (plainChar c).isDigit = true ∧ (plainChar c).toNat = 48 + d) ∨
      isDecimal c = false ∧ plainChar c = c ∧ 128 ≤ c.toNat) := by
  cases value : digitValue? c with
  | some d =>
    have decimal : isDecimal c = true := by simp [isDecimal, value]
    have blank : isBlank c = false := by
      by_contra blank
      simp [Text.blankApart (by simpa using blank)] at decimal
    refine ⟨blank, .inl ⟨d, rfl, ?_⟩⟩
    obtain ⟨small, z, member, code⟩ := Text.digitValueFacts value
    have plain : plainChar c = Char.ofNat (48 + d) := by
      by_cases ascii : c.toNat < 128
      · have zeros : ∀ z ∈ Text.digitZeros, z = 48 ∨ 128 ≤ z := by decide
        rcases zeros z member with rfl | wide
        · rw [← code, Char.ofNat_toNat]
          exact if_pos ascii
        · omega
      · simp [plainChar, ascii, blank, value]
    have each : ∀ d < 10, (Char.ofNat (48 + d)).isDigit = true ∧ (Char.ofNat (48 + d)).toNat = 48 + d := by decide
    rw [plain]
    exact each d small
  | none =>
    have decimal : isDecimal c = false := by simp [isDecimal, value]
    have other : Text.otherDigitRanges.holds c.toNat = true := by simpa [isDigit, decimal] using digit
    obtain ⟨blank, wide⟩ := Text.otherDigitFacts other
    exact ⟨blank, .inr ⟨decimal, by simp [plainChar, blank, value], wide⟩⟩

/-- What joins digits is ASCII. -/
theorem joinedPlain {cs ds : List Char} (joined : joinedDigits? cs = some ds) : ∀ c ∈ cs, c.toNat < 128 := by
  have plain {c : Char} (digit : isAsciiDigit c = true) : c.toNat < 128 := by
    have most : c ≤ '9' := by simpa [isAsciiDigit] using ((Bool.and_eq_true _ _).mp digit).2
    exact Nat.lt_of_le_of_lt (UInt32.le_iff_toNat_le.mp most) (by decide)
  fun_induction joinedDigits? cs generalizing ds with
  | case1 | case3 | case5 | case7 => cases joined
  | case2 c digit => exact List.forall_mem_singleton.mpr (plain digit)
  | case4 c rest digit ih =>
    obtain ⟨more, joined, _⟩ := Option.map_eq_some_iff.mp joined
    exact List.forall_mem_cons.mpr ⟨plain digit, List.forall_mem_cons.mpr ⟨by decide, ih joined⟩⟩
  | case6 c rest _ _ digit ih =>
    obtain ⟨more, joined, _⟩ := Option.map_eq_some_iff.mp joined
    exact List.forall_mem_cons.mpr ⟨plain digit, ih joined⟩

/-- The number that decimal digits write, of whatever scripts they are. -/
def decimalValue (cs : List Char) : Nat := cs.foldl (fun n c => 10 * n + (digitValue? c).getD 0) 0

theorem readIntDigits {cs : List Char} (filled : cs ≠ []) (digits : ∀ c ∈ cs, isDigit c = true) :
    ((∀ c ∈ cs, isDecimal c = true) ∧ cs.length ≤ maxTextDigits →
      readInt? (String.ofList cs) = some (decimalValue cs : Int)) ∧
    (¬ ((∀ c ∈ cs, isDecimal c = true) ∧ cs.length ≤ maxTextDigits) → readInt? (String.ofList cs) = none) := by
  have facts (c : Char) (member : c ∈ cs) := plainDigit (digits c member)
  have plain : plain (String.ofList cs) = cs.map plainChar := by
    rw [Number.plain, String.toList_ofList, stripNone fun c member => (facts c member).1]
  have unsigned : splitSign (cs.map plainChar) = (false, cs.map plainChar) := by
    obtain ⟨c, rest, rfl⟩ := List.exists_cons_of_ne_nil filled
    have unsigned : plainChar c ≠ '-' ∧ plainChar c ≠ '+' := by
      rcases (facts c List.mem_cons_self).2 with ⟨_, _, digit, _⟩ | ⟨_, same, wide⟩
      · have facts := digitFacts digit
        exact ⟨facts.2.2.2.2.1, facts.2.2.2.2.2.1⟩
      · rw [same]
        constructor
        · rintro rfl
          exact absurd wide (by decide)
        · rintro rfl
          exact absurd wide (by decide)
    rw [List.map_cons, splitSign]
    · exact fun _ same => unsigned.1 (List.cons.inj same).1
    · exact fun _ same => unsigned.2 (List.cons.inj same).1
  unfold readInt?
  rw [plain, unsigned]
  dsimp only
  by_cases decimal : ∀ c ∈ cs, isDecimal c = true
  · have values (c : Char) (member : c ∈ cs) : (plainChar c).isDigit = true ∧
        (plainChar c).toNat - 48 = (digitValue? c).getD 0 := by
      rcases (facts c member).2 with ⟨d, value, digit, code⟩ | ⟨other, _⟩
      · exact ⟨digit, by simp [value, code]⟩
      · cases other.symm.trans (decimal c member)
    have ascii : ∀ d ∈ cs.map plainChar, d.isDigit = true := by
      simp only [List.mem_map, forall_exists_index, and_imp, forall_apply_eq_imp_iff₂]
      exact fun c member => (values c member).1
    have value : natOfDigits (cs.map plainChar) = decimalValue cs := by
      unfold natOfDigits decimalValue
      rw [List.foldl_map]
      exact List.foldl_ext _ _ _ fun n c member => by rw [(values c member).2]
    rw [joinedDigits (by simpa using filled) ascii]
    simp only [List.length_map, value]
    by_cases room : cs.length ≤ maxTextDigits
    · rw [if_neg (by omega), if_neg Bool.false_ne_true]
      exact ⟨fun _ => rfl, fun strange => absurd ⟨decimal, room⟩ strange⟩
    · rw [if_pos (by omega)]
      exact ⟨fun both => absurd both.2 room, fun _ => rfl⟩
  · have none : joinedDigits? (cs.map plainChar) = none := by
      refine Option.eq_none_iff_forall_ne_some.mpr fun ds joined => decimal fun c member => ?_
      rcases (facts c member).2 with ⟨d, value, _⟩ | ⟨_, same, wide⟩
      · simp [isDecimal, value]
      · have narrow := joinedPlain joined (plainChar c) (List.mem_map_of_mem member)
        rw [same] at narrow
        omega
    rw [none]
    exact ⟨fun both => absurd both.1 decimal, fun _ => rfl⟩

end Number
end DecisionRules
