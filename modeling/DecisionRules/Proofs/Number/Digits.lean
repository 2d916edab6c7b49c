import DecisionRules.Number.Layout

/-! Decimal digits read back as their number, so that integers are told apart by their texts. -/
namespace DecisionRules.Number

/-- A mark that neither front has ends both of them. -/
theorem frontsSame {mark : Char} {a b c d : List Char} (left : mark ∉ a) (right : mark ∉ b)
    (same : a ++ mark :: c = b ++ mark :: d) : a = b ∧ c = d := by
  induction a generalizing b with
  | nil => cases b with
    | nil => exact ⟨rfl, (List.cons.inj same).2⟩
    | cons x rest =>
      obtain ⟨rfl, _⟩ := List.cons.inj same
      simp at right
  | cons x rest ih => cases b with
    | nil =>
      obtain ⟨rfl, _⟩ := List.cons.inj same
      simp at left
    | cons y more =>
      obtain ⟨rfl, tail⟩ := List.cons.inj same
      obtain ⟨rfl, ends⟩ := ih (fun there => left (List.mem_cons_of_mem _ there))
        (fun there => right (List.mem_cons_of_mem _ there)) tail
      exact ⟨rfl, ends⟩

theorem digitCharsRead (n : Nat) : Nat.ofDigitChars 10 (digitChars n) 0 = n := Nat.ofDigitChars_ten_toDigits

theorem digitCharsDigit {n : Nat} {c : Char} (member : c ∈ digitChars n) : c.isDigit = true :=
  Nat.isDigit_of_mem_toDigits (by decide) (by decide) member

theorem digitCharsSame {a b : Nat} (same : digitChars a = digitChars b) : a = b := by
  rw [← digitCharsRead a, same, digitCharsRead]

theorem digitCharsSome (n : Nat) : digitChars n ≠ [] := Nat.toDigits_ne_nil

theorem zerosDigit {n : Nat} {c : Char} (member : c ∈ zeros n) : c.isDigit = true := by
  rw [(List.mem_replicate.mp member).2]
  rfl

theorem zerosRead (n : Nat) (cs : List Char) :
    Nat.ofDigitChars 10 (zeros n ++ cs) 0 = Nat.ofDigitChars 10 cs 0 := by
  simp [Nat.ofDigitChars_append, zeros]

theorem notDigit {cs : List Char} {mark : Char} (digits : ∀ c ∈ cs, c.isDigit = true)
    (other : mark.isDigit = false) : mark ∉ cs := fun member => by simp [digits mark member] at other

theorem digitCharsFree (n : Nat) {mark : Char} (other : mark.isDigit = false) : mark ∉ digitChars n :=
  notDigit (fun _ => digitCharsDigit) other

theorem intCharsSame {a b : Int} (same : intChars a = intChars b) : a = b := by
  have minus (n : Nat) : '-' ∉ digitChars n := digitCharsFree n (by decide)
  unfold intChars at same
  split at same <;> split at same
  · have := digitCharsSame (List.cons.inj same).2
    omega
  · exact absurd (same ▸ List.mem_cons_self) (minus _)
  · exact absurd (same.symm ▸ List.mem_cons_self) (minus _)
  · have := digitCharsSame same
    omega

theorem intCharsPlain {n : Int} {c : Char} (member : c ∈ intChars n) : c.isDigit = true ∨ c = '-' := by
  unfold intChars at member
  split at member
  · rcases List.mem_cons.mp member with rfl | member
    · exact .inr rfl
    · exact .inl (digitCharsDigit member)
  · exact .inl (digitCharsDigit member)

theorem intCharsSome (n : Int) : intChars n ≠ [] := by
  unfold intChars
  split
  · exact List.cons_ne_nil _ _
  · exact digitCharsSome _

end DecisionRules.Number
