import DecisionRules.Proofs.Number.Digits
import DecisionRules.Proofs.Number.Shortest

/-! Numbers are written so that they can be told apart: the text of a float has the value of its shortest
digits, and a point or a letter that no integer has. -/
namespace DecisionRules.Number

/-! Positional texts -/

/-- Digits on both sides of a point, and what they stand for. -/
def Pointed (cs : List Char) (q : ℚ) : Prop :=
  ∃ whole fraction, cs = whole ++ '.' :: fraction ∧ whole ≠ [] ∧ (∀ c ∈ whole ++ fraction, c.isDigit = true) ∧
    q = Nat.ofDigitChars 10 (whole ++ fraction) 0 / (10 : ℚ) ^ fraction.length

theorem Pointed.unique {cs : List Char} {q r : ℚ} (left : Pointed cs q) (right : Pointed cs r) : q = r := by
  obtain ⟨whole, fraction, rfl, _, digits, rfl⟩ := left
  obtain ⟨whole', fraction', same, _, digits', rfl⟩ := right
  have point : '.'.isDigit = false := by decide
  have free := notDigit (fun c member => digits c (List.mem_append_left _ member)) point
  have free' := notDigit (fun c member => digits' c (List.mem_append_left _ member)) point
  obtain ⟨rfl, rfl⟩ := frontsSame free free' same
  rfl

theorem wholePointed {d : Decimal} (whole : 0 ≤ d.exponent) : Pointed (positionalChars d 1) d.value := by
  obtain ⟨n, e⟩ := d
  obtain ⟨k, rfl⟩ := Int.eq_ofNat_of_zero_le whole
  unfold positionalChars
  simp only [whole, if_true, Int.natAbs_natCast, one_ne_zero, beq_iff_eq, if_false]
  refine ⟨if n = 0 then ['0'] else digitChars n ++ zeros k, zeros 1, by simp, ?_, ?_, ?_⟩
  · split
    · simp
    · simp [digitCharsSome]
  · intro c member
    rcases List.mem_append.mp member with member | member
    · split at member
      · exact List.mem_singleton.mp member ▸ rfl
      · rcases List.mem_append.mp member with member | member
        · exact digitCharsDigit member
        · exact zerosDigit member
    · exact zerosDigit member
  · have read : Nat.ofDigitChars 10 (if n = 0 then ['0'] else digitChars n ++ zeros k) 0 = n * 10 ^ k := by
      split
      · rename_i zero
        simp [zero, Nat.ofDigitChars]
      · simp [Nat.ofDigitChars_append, digitCharsRead, zeros, Nat.mul_comm]
    rw [Nat.ofDigitChars_append, read, zeros, Nat.ofDigitChars_replicate_zero, List.length_replicate]
    simp [Decimal.value]

theorem partPointed {d : Decimal} (part : d.exponent < 0) : Pointed (positionalChars d 1) d.value := by
  obtain ⟨n, e⟩ := d
  obtain ⟨k, rfl⟩ : ∃ k : Nat, e = -(k + 1 : Nat) := ⟨e.natAbs - 1, by dsimp at part; omega⟩
  have down : ¬ (0 : Int) ≤ -(k + 1 : Nat) := by omega
  unfold positionalChars
  simp only [down, if_false, Int.natAbs_neg, Int.natAbs_natCast]
  generalize shape : zeros (k + 1 + 1 - (digitChars n).length) ++ digitChars n = padded
  have long : k + 1 < padded.length := by
    rw [← shape, List.length_append, zeros, List.length_replicate]
    omega
  have count : (padded.drop (padded.length - (k + 1))).length = k + 1 := by
    rw [List.length_drop]
    omega
  refine ⟨padded.take (padded.length - (k + 1)), padded.drop (padded.length - (k + 1)), ?_, ?_, ?_, ?_⟩
  · simp [count, zeros]
  · rw [ne_eq, ← List.length_eq_zero_iff, List.length_take]
    omega
  · rw [List.take_append_drop, ← shape]
    intro c member
    rcases List.mem_append.mp member with member | member
    · exact zerosDigit member
    · exact digitCharsDigit member
  · rw [count, List.take_append_drop, ← shape, zerosRead, digitCharsRead, Decimal.value, zpow_neg,
      zpow_natCast, div_eq_mul_inv]

theorem positionalPointed (d : Decimal) : Pointed (positionalChars d 1) d.value := by
  rcases Int.lt_or_le d.exponent 0 with part | whole
  · exact partPointed part
  · exact wholePointed whole

/-! Texts with an exponent -/

theorem exponentSame {mark : Char} {width : Nat} {a b : Int}
    (same : exponentChars mark width a = exponentChars mark width b) : a = b := by
  unfold exponentChars at same
  obtain ⟨sign, digits⟩ := List.cons.inj (List.cons.inj same).2
  have read := congrArg (Nat.ofDigitChars 10 · 0) digits
  simp only [zerosRead, digitCharsRead] at read
  split at sign <;> split at sign
  · omega
  · simp at sign
  · simp at sign
  · omega

/-- The first digit before a point, the others after it. -/
def led : List Char → List Char
  | [] => ['0']
  | [c] => [c]
  | c :: rest => c :: '.' :: rest

theorem scientificLed (d : Decimal) (mark : Char) (width : Nat) :
    scientificChars d mark width = led (digitChars d.digits) ++ exponentChars mark width d.leading := rfl

theorem ledSame {a b : List Char} (some : a ≠ []) (some' : b ≠ []) (same : led a = led b) : a = b := by
  rcases a with _ | ⟨c, _ | ⟨d, rest⟩⟩
  · exact absurd rfl some
  · rcases b with _ | ⟨c', _ | ⟨d', rest'⟩⟩ <;> simp_all [led]
  · rcases b with _ | ⟨c', _ | ⟨d', rest'⟩⟩ <;> simp_all [led]

theorem ledMember {cs : List Char} {c : Char} (member : c ∈ led cs) : c ∈ cs ∨ c = '.' ∨ c = '0' := by
  rcases cs with _ | ⟨d, _ | ⟨e, rest⟩⟩ <;> simp [led] at member ⊢ <;> tauto

theorem scientificSame {a b : Decimal} {width : Nat}
    (same : scientificChars a 'e' width = scientificChars b 'e' width) : a = b := by
  have free (d : Decimal) : 'e' ∉ led (digitChars d.digits) := fun member => by
    rcases ledMember member with digit | point | zero
    · exact absurd (digitCharsDigit digit) (by decide)
    · contradiction
    · contradiction
  rw [scientificLed, scientificLed] at same
  obtain ⟨digits, exponents⟩ := frontsSame (free a) (free b) same
  have counts := digitCharsSame (ledSame (digitCharsSome _) (digitCharsSome _) digits)
  have leading := @exponentSame 'e' _ _ _ (congrArg ('e' :: ·) exponents)
  obtain ⟨n, e⟩ := a
  obtain ⟨n', f⟩ := b
  dsimp only at counts
  subst counts
  have places : e = f := by
    unfold Decimal.leading at leading
    dsimp only at leading
    omega
  rw [places]

/-! Floats -/

theorem magnitudeShape (d : Decimal) :
    Pointed (magnitudeChars structuredStyle d) d.value ∨
      magnitudeChars structuredStyle d = scientificChars d 'e' 2 := by
  unfold magnitudeChars
  split
  · rename_i zero
    refine .inl ⟨['0'], ['0'], rfl, by simp, by simp, ?_⟩
    simp only [beq_iff_eq] at zero
    simp [Decimal.value, zero, Nat.ofDigitChars]
  · split
    · exact .inl (positionalPointed d)
    · exact .inr rfl

theorem exponentMember {mark : Char} {width : Nat} {e : Int} {c : Char}
    (member : c ∈ exponentChars mark width e) : c.isDigit = true ∨ c = mark ∨ c = '+' ∨ c = '-' := by
  unfold exponentChars at member
  rcases List.mem_cons.mp member with here | member
  · exact .inr (.inl here)
  · rcases List.mem_cons.mp member with here | member
    · split at here
      · exact .inr (.inr (.inr here))
      · exact .inr (.inr (.inl here))
    · rcases List.mem_append.mp member with member | member
      · exact .inl (zerosDigit member)
      · exact .inl (digitCharsDigit member)

theorem magnitudeMember {d : Decimal} {c : Char} (member : c ∈ magnitudeChars structuredStyle d) :
    c.isDigit = true ∨ c = '.' ∨ c = 'e' ∨ c = '+' ∨ c = '-' := by
  rcases magnitudeShape d with ⟨whole, fraction, shape, _, digits, _⟩ | shape
  · rw [shape] at member
    rcases List.mem_append.mp member with member | member
    · exact .inl (digits c (List.mem_append_left _ member))
    · rcases List.mem_cons.mp member with here | member
      · exact .inr (.inl here)
      · exact .inl (digits c (List.mem_append_right _ member))
  · rw [shape, scientificLed] at member
    rcases List.mem_append.mp member with member | member
    · rcases ledMember member with digit | point | zero
      · exact .inl (digitCharsDigit digit)
      · exact .inr (.inl point)
      · exact .inl (zero ▸ rfl)
    · exact (exponentMember member).imp_right .inr

theorem magnitudeMarked (d : Decimal) :
    '.' ∈ magnitudeChars structuredStyle d ∨ 'e' ∈ magnitudeChars structuredStyle d := by
  rcases magnitudeShape d with ⟨whole, fraction, shape, _⟩ | shape
  · exact .inl (by simp [shape])
  · exact .inr (by simp [shape, scientificLed, exponentChars])

theorem magnitudeHead (d : Decimal) :
    ∃ c rest, magnitudeChars structuredStyle d = c :: rest ∧ c.isDigit = true := by
  rcases magnitudeShape d with ⟨whole, fraction, shape, some, digits, _⟩ | shape
  · obtain ⟨c, rest, rfl⟩ := List.exists_cons_of_ne_nil some
    exact ⟨c, _, shape, digits c (by simp)⟩
  · obtain ⟨c, rest, first⟩ := List.exists_cons_of_ne_nil (digitCharsSome d.digits)
    have digit : c.isDigit = true := digitCharsDigit (first ▸ List.mem_cons_self)
    rw [shape, scientificLed, first]
    cases rest with
    | nil => exact ⟨c, _, rfl, digit⟩
    | cons e more => exact ⟨c, _, rfl, digit⟩

theorem magnitudeSame {a b : Decimal}
    (same : magnitudeChars structuredStyle a = magnitudeChars structuredStyle b) : a.value = b.value := by
  have apart {a b : Decimal} (point : Pointed (magnitudeChars structuredStyle a) a.value)
      (letter : magnitudeChars structuredStyle b = scientificChars b 'e' 2)
      (same : magnitudeChars structuredStyle a = magnitudeChars structuredStyle b) : False := by
    obtain ⟨whole, fraction, shape, _, digits, _⟩ := point
    have there : 'e' ∈ whole ++ '.' :: fraction := by
      rw [← shape, same, letter, scientificLed]
      simp [exponentChars]
    have within : 'e' ∈ whole ++ fraction := by simpa using there
    exact absurd (digits _ within) (by decide)
  rcases magnitudeShape a with point | letter <;> rcases magnitudeShape b with point' | letter'
  · exact (same ▸ point).unique point'
  · exact (apart point letter' same).elim
  · exact (apart point' letter same.symm).elim
  · rw [letter, letter'] at same
    rw [scientificSame same]

def Form.negative : Form → Bool
  | .nan => false
  | .infinity negative | .finite negative _ _ => negative

def Form.unsigned : Form → List Char
  | .nan => ['N', 'a', 'N']
  | .infinity _ => ['I', 'n', 'f', 'i', 'n', 'i', 't', 'y']
  | .finite _ m e => magnitudeChars structuredStyle (shortest m e)

def floatChars (x : Float) : List Char := (floatText structuredStyle x).toList

theorem floatSigned (x : Float) :
    floatChars x = if (form x).negative then '-' :: (form x).unsigned else (form x).unsigned := by
  unfold floatChars floatText
  cases form x with
  | nan => rfl
  | infinity negative => cases negative <;> rfl
  | finite negative m e => cases negative <;> simp [Form.negative, Form.unsigned]

theorem unsignedHead (f : Form) : ∃ c rest, f.unsigned = c :: rest ∧
    (c.isDigit = true ∨ c = 'N' ∨ c = 'I') := by
  cases f with
  | nan => exact ⟨'N', _, rfl, .inr (.inl rfl)⟩
  | infinity negative => exact ⟨'I', _, rfl, .inr (.inr rfl)⟩
  | finite negative m e =>
    obtain ⟨c, rest, shape, digit⟩ := magnitudeHead (shortest m e)
    exact ⟨c, rest, shape, .inl digit⟩

theorem floatHead (x : Float) : ∃ c rest, floatChars x = c :: rest ∧
    (c.isDigit = true ∨ c = 'N' ∨ c = 'I' ∨ c = '-') := by
  obtain ⟨c, rest, shape, head⟩ := unsignedHead (form x)
  rw [floatSigned]
  split
  · exact ⟨'-', _, rfl, .inr (.inr (.inr rfl))⟩
  · exact ⟨c, rest, shape, head.imp_right (.imp_right .inl)⟩

theorem floatMarked (x : Float) : ∃ c ∈ floatChars x, c.isDigit = false ∧ c ≠ '-' := by
  have some : ∃ c ∈ (form x).unsigned, c.isDigit = false ∧ c ≠ '-' := by
    cases form x with
    | nan => exact ⟨'N', by simp [Form.unsigned], by decide⟩
    | infinity negative => exact ⟨'I', by simp [Form.unsigned], by decide⟩
    | finite negative m e =>
      rcases magnitudeMarked (shortest m e) with point | letter
      · exact ⟨'.', point, by decide⟩
      · exact ⟨'e', letter, by decide⟩
  obtain ⟨c, member, mark⟩ := some
  refine ⟨c, ?_, mark⟩
  rw [floatSigned]
  split
  · exact List.mem_cons_of_mem _ member
  · exact member

theorem floatMember {x : Float} {c : Char} (member : c ∈ floatChars x) :
    c.isAlphanum = true ∨ c = '.' ∨ c = '+' ∨ c = '-' := by
  have within : c ∈ (form x).unsigned ∨ c = '-' := by
    rw [floatSigned] at member
    split at member
    · exact (List.mem_cons.mp member).symm
    · exact .inl member
  rcases within with member | rfl
  · cases shape : form x with
    | nan =>
      simp only [shape, Form.unsigned, List.mem_cons, List.not_mem_nil, or_false] at member
      rcases member with rfl | rfl | rfl <;> exact .inl (by decide)
    | infinity negative =>
      simp only [shape, Form.unsigned, List.mem_cons, List.not_mem_nil, or_false] at member
      rcases member with rfl | rfl | rfl | rfl | rfl | rfl | rfl | rfl <;> exact .inl (by decide)
    | finite negative m e =>
      rw [shape] at member
      rcases magnitudeMember member with digit | rfl | rfl | rfl | rfl
      · exact .inl (by simp [Char.isAlphanum, digit])
      · exact .inr (.inl rfl)
      · exact .inl (by decide)
      · exact .inr (.inr (.inl rfl))
      · exact .inr (.inr (.inr rfl))
  · exact .inr (.inr (.inr rfl))

theorem unsignedSame {f g : Form} (sign : f.negative = g.negative) (same : f.unsigned = g.unsigned)
    (normal : ∀ negative m e, f = .finite negative m e → Normal m e)
    (normal' : ∀ negative m e, g = .finite negative m e → Normal m e) : f = g := by
  have head {d : Decimal} {c : Char} {rest : List Char} (other : c.isDigit = false)
      (same : magnitudeChars structuredStyle d = c :: rest) : False := by
    obtain ⟨digit, _, shape, is⟩ := magnitudeHead d
    obtain ⟨rfl, _⟩ := List.cons.inj (shape.symm.trans same)
    simp [is] at other
  cases f with
  | nan => cases g with
    | nan => rfl
    | infinity => simp [Form.unsigned] at same
    | finite => exact (head (by decide) same.symm).elim
  | infinity negative => cases g with
    | nan => simp [Form.unsigned] at same
    | infinity => exact congrArg _ sign
    | finite => exact (head (by decide) same.symm).elim
  | finite negative m e => cases g with
    | nan => exact (head (by decide) same).elim
    | infinity => exact (head (by decide) same).elim
    | finite negative' n f =>
      obtain ⟨rfl, rfl⟩ := shortestSame (normal _ _ _ rfl) (normal' _ _ _ rfl) (magnitudeSame same)
      exact congrArg (Form.finite · m e) sign

theorem floatSame {x y : Float} (same : floatChars x = floatChars y) : x = y := by
  have free (f : Form) {cs : List Char} (minus : f.unsigned = '-' :: cs) : False := by
    obtain ⟨c, _, shape, head⟩ := unsignedHead f
    obtain ⟨rfl, _⟩ := List.cons.inj (shape.symm.trans minus)
    simp at head
  have parts : (form x).negative = (form y).negative ∧ (form x).unsigned = (form y).unsigned := by
    rw [floatSigned, floatSigned] at same
    split at same <;> split at same <;> rename_i sign sign'
    · exact ⟨sign.trans sign'.symm, (List.cons.inj same).2⟩
    · exact (free _ same.symm).elim
    · exact (free _ same).elim
    · simp only [Bool.not_eq_true] at sign sign'
      exact ⟨sign.trans sign'.symm, same⟩
  exact formSame (unsignedSame parts.1 parts.2 (fun _ _ _ => ofBitsNormal) (fun _ _ _ => ofBitsNormal))

end DecisionRules.Number
