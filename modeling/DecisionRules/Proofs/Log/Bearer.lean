import DecisionRules.Proofs.Log.Masking
import DecisionRules.Text.Word

/-! Bearer credentials at the end of a text. Two passes mask the text, and in both the word in front of the credential
can be taken for a value itself; then it is masked in the credential's place, which is left as it is. -/
namespace DecisionRules

namespace Text

theorem lettersUnblank : letterRanges.all fun r => blankRanges.all fun s => Nat.blt r.2 s.1 || Nat.blt s.2 r.1 := by
  decide +kernel

theorem wordFacts {c : Char} (word : isWord c = true) :
    isBlank c = false ∧ c ≠ '*' ∧ c ≠ '=' ∧ c ≠ ':' ∧ c ≠ ',' ∧ c ≠ ';' := by
  have marks : ['*', '=', ':', ',', ';'].all (fun d => !isWord d) = true := by decide
  have other (d : Char) (mark : d ∈ ['*', '=', ':', ',', ';']) : c ≠ d := by
    rintro rfl
    simpa [word] using List.all_eq_true.mp marks c mark
  refine ⟨Bool.eq_false_iff.mpr fun blank => ?_, other _ (by decide), other _ (by decide), other _ (by decide),
    other _ (by decide), other _ (by decide)⟩
  rcases (Bool.or_eq_true _ _).mp word with underscore | letter
  · rw [eq_of_beq underscore] at blank
    exact absurd blank (by decide)
  · obtain ⟨r, member, low, high⟩ := rangesHold letter
    obtain ⟨s, member', low', high'⟩ := rangesHold blank
    have apart : r.2 < s.1 ∨ s.2 < r.1 := by
      simpa [Nat.blt_eq] using List.all_eq_true.mp (List.all_eq_true.mp lettersUnblank r member) s member'
    omega

end Text

namespace Log
open Text (isBlank isWord plainLetter)

def credential (w : List Char) : List Char := "Bearer".toList ++ ' ' :: w

theorem credentialParts (w : List Char) : credential w = "Bearer".toList ++ ' ' :: w := rfl

/-- What is kept before a value, once the scan has come to it; the value goes on to the end of the text, so that the
word behind it is a part of it. -/
def Swallows (keeps : List Char → Prop) (masks : Char → Bool) (w p : List Char) : Prop :=
  ∃ s kept v out, p = s ++ (kept ++ v) ∧ Scanned keeps masks (kept ++ v ++ credential w) s out ∧
    keeps kept ∧ ∀ c ∈ v, masks c = true

/-- The word `Bearer` does not stand inside what is kept, and it can be the end of a value. -/
structure Mistakes (keeps : List Char → Prop) (masks : Char → Bool) : Prop where
  outside : ∀ kept, keeps kept → 'B' ∉ kept.tail
  inside : ∀ c ∈ "Bearer".toList, masks c = true
  ends : masks ' ' = false

theorem assignsWithout {c : Char} (letter : ∀ name ∈ secretNames, plainLetter c ∉ name)
    (filled : isBlank c = false) (other : c ≠ '=' ∧ c ≠ ':') {kept : List Char} (assigns : Assigns kept) :
    c ∉ kept := by
  obtain @⟨name, _, named, @⟨before, after, mark, blanks, marked, more⟩⟩ := assigns
  simp only [List.mem_append, List.mem_cons, not_or]
  refine ⟨fun there => letter _ named (List.mem_map_of_mem there), fun there => ?_, ?_, fun there => ?_⟩
  · exact Bool.false_ne_true (filled.symm.trans (blanks c there))
  · rcases marked with rfl | rfl
    · exact other.1
    · exact other.2
  · exact Bool.false_ne_true (filled.symm.trans (more c there))

theorem bearsWithout {c : Char} (letter : plainLetter c ∉ bearerWord) (filled : isBlank c = false)
    {kept : List Char} (bears : Bears kept) : c ∉ kept := by
  obtain @⟨name, gap, named, -, blanks⟩ := bears
  simp only [List.mem_append, not_or]
  exact ⟨fun there => letter (named ▸ List.mem_map_of_mem there),
    fun there => Bool.false_ne_true (filled.symm.trans (blanks c there))⟩

theorem assignsMistakes : Mistakes Assigns isSecretChar where
  outside kept assigns there := assignsWithout (by decide) (by decide) (by decide) assigns
    (List.mem_of_mem_tail there)
  inside := List.all_eq_true.mp (by decide)
  ends := by decide

theorem bearsMistakes : Mistakes Bears isFilled where
  outside kept bears there := by
    obtain @⟨name, gap, named, -, blanks⟩ := bears
    cases name with
    | nil => contradiction
    | cons d name =>
      obtain ⟨-, rest⟩ := List.cons.inj named
      rcases List.mem_append.mp there with inside | blank
      · have spelt : plainLetter 'B' ∈ name.map plainLetter := List.mem_map_of_mem inside
        rw [rest] at spelt
        exact absurd spelt (by decide)
      · exact absurd (blanks _ blank) (by decide)
  inside := List.all_eq_true.mp (by decide)
  ends := by decide

section
variable {find : List Char → Option Hit} {keeps : List Char → Prop} {masks : Char → Bool} {w p : List Char}

theorem Mistakes.crosses (mistakes : Mistakes keeps masks) (crosses : Crosses keeps masks (credential w) p) :
    Swallows keeps masks w p := by
  obtain ⟨s, q, out, kept, value, rest, rfl, scanned, some, whole, hits, beyond⟩ := crosses
  have inside : ∃ v, q = kept ++ v ∧ v ++ credential w = value ++ rest := by
    rw [List.append_assoc] at whole
    rcases List.append_eq_append_iff.mp whole with ⟨across, front, back⟩ | ⟨v, front, back⟩
    · cases across with
      | nil => exact ⟨[], by simpa using front.symm, back⟩
      | cons d across =>
        obtain ⟨c, q, rfl⟩ := List.exists_cons_of_ne_nil some
        obtain ⟨rfl, -⟩ := List.cons.inj back
        refine absurd ?_ (mistakes.outside kept hits.keeps)
        rw [front]
        exact List.mem_append_right q List.mem_cons_self
    · exact ⟨v, front, back.symm⟩
  obtain ⟨v, rfl, tail⟩ := inside
  rcases List.append_eq_append_iff.mp tail with ⟨across, rfl, -⟩ | ⟨across, -, back⟩
  · exact ⟨s, kept, v, out, rfl, scanned, hits.keeps, fun c there => hits.inside c (List.mem_append_left _ there)⟩
  · rw [back, List.length_append] at beyond
    omega

theorem Mistakes.swallowed (mistakes : Mistakes keeps masks) (finds : Finds find keeps masks)
    (idle : maskHits find 0 (' ' :: w) = ' ' :: w) (swallows : Swallows keeps masks w p) :
    ∃ front, maskHits find 0 (p ++ credential w) = front ++ mask ++ ' ' :: w := by
  obtain ⟨s, kept, v, out, rfl, scanned, keep, inside⟩ := swallows
  have hits : Hits keeps masks kept (v ++ "Bearer".toList) (' ' :: w) :=
    ⟨keep, List.append_ne_nil_of_right_ne_nil v (by decide),
      fun c there => (List.mem_append.mp there).elim (inside c) (mistakes.inside c),
      fun c first => by cases first; exact mistakes.ends⟩
  have whole : s ++ (kept ++ v) ++ credential w = s ++ (kept ++ v ++ credential w) := List.append_assoc ..
  have here : kept ++ v ++ credential w = kept ++ (v ++ "Bearer".toList) ++ ' ' :: w := by
    simp only [credentialParts, List.append_assoc]
  refine ⟨out ++ kept, ?_⟩
  rw [whole, scanned.masked finds, here, maskHit finds hits, idle, List.append_assoc, List.append_assoc,
    List.append_assoc]

theorem assignedIdle {cs : List Char} (none : ∀ c ∈ cs, c ≠ '=' ∧ c ≠ ':') : maskHits assignedSecret 0 cs = cs := by
  refine maskIdle assignedFinds fun kept value rest within hits => ?_
  obtain @⟨name, _, -, @⟨before, after, mark, -, marked, -⟩⟩ := hits.keeps
  have there : mark ∈ cs := within.subset (by simp)
  rcases marked with rfl | rfl
  · exact (none _ there).1 rfl
  · exact (none _ there).2 rfl

theorem credentialIdle (word : ∀ c ∈ w, isWord c = true) : maskHits assignedSecret 0 (' ' :: w) = ' ' :: w ∧
    maskHits assignedSecret 0 (credential w) = credential w := by
  have rest : ∀ c ∈ ' ' :: w, c ≠ '=' ∧ c ≠ ':' := by
    intro c there
    rcases List.mem_cons.mp there with rfl | inside
    · decide
    · obtain ⟨-, -, equal, colon, -⟩ := Text.wordFacts (word c inside)
      exact ⟨equal, colon⟩
  have name : "Bearer".toList.all (fun c => c != '=' && c != ':') = true := by decide
  refine ⟨assignedIdle rest, assignedIdle fun c there => (List.mem_append.mp there).elim (fun letter => ?_) (rest c)⟩
  simpa using List.all_eq_true.mp name c letter

theorem bearerIdle (filled : ∀ c ∈ w, isBlank c = false) : maskHits bearerSecret 0 (' ' :: w) = ' ' :: w := by
  refine maskIdle bearerFinds fun kept value rest within hits => ?_
  obtain @⟨name, gap, named, some, blanks⟩ := hits.keeps
  obtain ⟨c, name, rfl⟩ : ∃ c rest, name = c :: rest := List.exists_cons_of_ne_nil fun none => by
    rw [none] at named
    contradiction
  obtain ⟨d, gap, rfl⟩ := List.exists_cons_of_ne_nil some
  have blank : isBlank d = true := blanks d List.mem_cons_self
  have there : d ∈ w := by
    rcases List.suffix_cons_iff.mp within with whole | later
    · rw [← (List.cons.inj whole).2]
      simp
    · exact later.subset (by simp)
  exact Bool.false_ne_true ((filled d there).symm.trans blank)

theorem pairApart {c d : Char} {kept value x y : List Char} (outside : c ∉ kept) (inside : d ∉ value) :
    kept ++ value ≠ x ++ c :: d :: y := by
  intro same
  rcases List.append_eq_append_iff.mp same with ⟨more, -, behind⟩ | ⟨more, front, behind⟩
  · exact inside (behind ▸ by simp)
  · cases more with
    | nil => exact inside (by simp [← show c :: d :: y = value from behind])
    | cons e more =>
      obtain ⟨rfl, -⟩ := List.cons.inj behind
      exact outside (front ▸ by simp)

/-- Behind a mask and a blank, a word is out of reach of the second pass. -/
theorem bearerBehindMask (filled : ∀ c ∈ w, isBlank c = false) (front : List Char) :
    ' ' :: w <:+ maskHits bearerSecret 0 (front ++ mask ++ ' ' :: w) := by
  rcases scansOrCrosses Bears isFilled (' ' :: w) (front ++ mask) with
    ⟨out, scanned⟩ | ⟨s, q, out, kept, value, rest, split, -, some, whole, hits, beyond⟩
  · rw [scanned.masked bearerFinds, bearerIdle filled]
    exact List.suffix_append _ _
  · -- the hit would have a star and a blank behind it, and it has no room for them
    have back : q <:+ front ++ ['*', '*'] ++ ['*'] := ⟨s, by simpa [mask] using split.symm⟩
    obtain ⟨init, rfl, -⟩ := (List.suffix_concat_iff.mp back).resolve_left some
    have star : '*' ∉ kept := bearsWithout (by decide) (by decide) hits.keeps
    have blank : ' ' ∉ value := fun there => absurd (hits.inside _ there) (by decide)
    rcases List.append_eq_append_iff.mp whole with ⟨across, inside, back⟩ | ⟨across, -, back⟩
    · cases across with
      | nil =>
        rw [show rest = ' ' :: w from back.symm] at beyond
        exact absurd beyond (Nat.lt_irrefl _)
      | cons d across =>
        obtain ⟨rfl, -⟩ := List.cons.inj back
        rw [List.append_assoc] at inside
        exact absurd inside (pairApart star blank)
    · rw [back, List.length_append] at beyond
      omega

theorem bothScanned (word : ∀ c ∈ w, isWord c = true) (some : w ≠ []) {q r : List Char}
    (first : Scanned Assigns isSecretChar (credential w) p q) (second : Scanned Bears isFilled (credential w) q r) :
    redactChars (p ++ credential w) = r ++ "Bearer ".toList ++ mask := by
  have hits : Hits Bears isFilled "Bearer ".toList w [] :=
    ⟨@Bears.intro "Bearer".toList [' '] (by decide) (by decide) (List.all_eq_true.mp (by decide)), some,
      fun c there => by simp [isFilled, (Text.wordFacts (word c there)).1], by simp⟩
  have masked : maskHits bearerSecret 0 (credential w) = "Bearer ".toList ++ mask := by
    have whole : credential w = "Bearer ".toList ++ w ++ [] := by simp [credentialParts]
    rw [whole, maskHit bearerFinds hits]
    simp [maskHits]
  unfold redactChars
  rw [first.masked assignedFinds, (credentialIdle word).2, second.masked bearerFinds, masked, List.append_assoc]

/-- What the passes leave of a text that they come to the end of: a word at the end of it stays there, and none is
new. -/
theorem bothKept (word : ∀ c ∈ w, isWord c = true) (some : w ≠ []) (fresh : ¬ w <:+: p)
    (apart : ¬ w <:+: "Bearer ***".toList) {q r : List Char}
    (first : Scanned Assigns isSecretChar (credential w) p q) (second : Scanned Bears isFilled (credential w) q r) :
    w <:+: r ++ "Bearer ".toList ++ mask ↔ w <:+: p ++ "Bearer".toList := by
  have star : '*' ∉ w := fun there => (Text.wordFacts (word _ there)).2.1 rfl
  have blank : ' ' ∉ w := fun there => absurd (Text.wordFacts (word _ there)).1 (by decide)
  constructor
  · intro within
    have shown : w <:+: r ++ "Bearer".toList := by
      rw [← List.append_nil mask, ← List.append_assoc] at within
      rcases infixUnmasked star within with here | none
      · have split : r ++ "Bearer ".toList = r ++ "Bearer".toList ++ ' ' :: [] := by simp
        rw [split] at here
        exact (infixApart blank here).resolve_right fun none => some (List.infix_nil.mp none)
      · exact absurd (List.infix_nil.mp none) some
    exact first.infixKept star (second.infixKept star shown)
  · intro within
    rcases List.infix_append_iff.mp within with old | name | ⟨u, v, rfl, back, front⟩
    · exact absurd old fresh
    · exact absurd (name.trans ⟨[], " ***".toList, by decide⟩) apart
    · have letters : ∀ c ∈ u, isWord c = true := fun c there => word c (List.mem_append_left v there)
      have secret : ∀ c ∈ u, isSecretChar c = true := fun c there => by
        obtain ⟨filled, -, -, -, comma, semicolon⟩ := Text.wordFacts (letters c there)
        simp [isSecretChar, filled, comma, semicolon]
      have filled : ∀ c ∈ u, isFilled c = true := fun c there => by
        simp [isFilled, (Text.wordFacts (letters c there)).1]
      have left := first.runKept ⟨'B', rfl, by decide⟩ secret back
      obtain ⟨before, rfl⟩ := second.runKept ⟨'B', rfl, by decide⟩ filled left
      obtain ⟨after, name⟩ := front
      refine ⟨before, after ++ " ***".toList, ?_⟩
      have split : "Bearer ".toList ++ mask = "Bearer".toList ++ " ***".toList := by decide
      rw [List.append_assoc _ _ mask, split, ← name]
      simp

/-- Both passes come to the end of the text, or one of them takes the word behind it for a value. -/
theorem passes (w p : List Char) :
    (∃ q r, Scanned Assigns isSecretChar (credential w) p q ∧ Scanned Bears isFilled (credential w) q r) ∨
      Swallows Assigns isSecretChar w p ∨
      ∃ q, Scanned Assigns isSecretChar (credential w) p q ∧ Swallows Bears isFilled w q := by
  rcases scansOrCrosses Assigns isSecretChar (credential w) p with ⟨q, first⟩ | crosses
  · rcases scansOrCrosses Bears isFilled (credential w) q with ⟨r, second⟩ | crosses
    · exact .inl ⟨q, r, first, second⟩
    · exact .inr (.inr ⟨q, first, bearsMistakes.crosses crosses⟩)
  · exact .inr (.inl (assignsMistakes.crosses crosses))

theorem swallowedSurvives (word : ∀ c ∈ w, isWord c = true) (swallows : Swallows Assigns isSecretChar w p ∨
    ∃ q, Scanned Assigns isSecretChar (credential w) p q ∧ Swallows Bears isFilled w q) :
    w <:+: redactChars (p ++ credential w) := by
  have filled : ∀ c ∈ w, isBlank c = false := fun c there => (Text.wordFacts (word c there)).1
  have left : ' ' :: w <:+ redactChars (p ++ credential w) := by
    unfold redactChars
    rcases swallows with swallows | ⟨q, scanned, swallows⟩
    · obtain ⟨front, masked⟩ := assignsMistakes.swallowed assignedFinds (credentialIdle word).1 swallows
      rw [masked]
      exact bearerBehindMask filled front
    · obtain ⟨front, masked⟩ := bearsMistakes.swallowed bearerFinds (bearerIdle filled) swallows
      rw [scanned.masked assignedFinds, (credentialIdle word).2, masked]
      exact List.suffix_append _ _
  exact ((List.suffix_cons ' ' w).trans left).isInfix

theorem redactedChars (p w : String) :
    (redact (p ++ "Bearer " ++ w)).toList = redactChars (p.toList ++ credential w.toList) := by
  rw [redact, String.toList_ofList]
  simp [credentialParts]

end
end Log

section
open Log

/-- When a credential that ends a text is left in it: one of the passes takes the word in front of it for a value, or
the text and that word spell it together. -/
theorem credentialSurvives {p w : String} (some : w ≠ "") (word : ∀ c ∈ w.toList, Text.isWord c = true)
    (fresh : ¬ w.toList <:+: p.toList) (apart : ¬ w.toList <:+: "Bearer ***".toList) :
    w.toList <:+: (redact (p ++ "Bearer " ++ w)).toList ↔
      (Swallows Assigns isSecretChar w.toList p.toList ∨
        ∃ q, Scanned Assigns isSecretChar (credential w.toList) p.toList q ∧ Swallows Bears isFilled w.toList q) ∨
      w.toList <:+: p.toList ++ "Bearer".toList := by
  have filled : w.toList ≠ [] := fun none => some (String.toList_eq_nil_iff.mp none)
  rw [redactedChars]
  rcases passes w.toList p.toList with ⟨q, r, first, second⟩ | swallows
  · have kept := bothKept word filled fresh apart first second
    rw [← bothScanned word filled first second] at kept
    exact ⟨fun within => .inr (kept.mp within), fun either => either.elim (swallowedSurvives word) kept.mpr⟩
  · exact iff_of_true (swallowedSurvives word swallows) (.inl swallows)

/-- Behind a name and a mark it survives, and in a message that ends neither in an assignment nor in a credential it
does not. -/
theorem credentialSurvivesName :
    "abc123".toList <:+: (redact ("Token = " ++ "Bearer " ++ "abc123")).toList ∧
    ¬ Swallows Assigns isSecretChar "xyz".toList "calling hook with token=abc123 and ".toList := by
  have word (w : String) (each : w.toList.all Text.isWord = true) : ∀ c ∈ w.toList, Text.isWord c = true :=
    List.all_eq_true.mp each
  refine ⟨(credentialSurvives (by decide) (word _ (by decide)) (by decide +kernel) (by decide +kernel)).mpr
    (.inl (.inl ?_)), fun swallows => ?_⟩
  · refine ⟨[], "Token = ".toList, [], [], by decide, .done, ?_, by simp⟩
    have marks : Marks " = ".toList :=
      @Marks.intro [' '] [' '] '=' (List.all_eq_true.mp (by decide)) (by decide) (List.all_eq_true.mp (by decide))
    exact @Assigns.intro "Token".toList _ (by decide) marks
  · have survives := (credentialSurvives (p := "calling hook with token=abc123 and ") (w := "xyz") (by decide)
      (word _ (by decide)) (by decide +kernel) (by decide +kernel)).mpr (.inl (.inl swallows))
    rw [redactedChars] at survives
    exact absurd survives (by decide +kernel)

theorem credentialsSurvive : ¬ ∀ p w : String, w ≠ "" → (∀ c ∈ w.toList, Text.isWord c = true) →
    ¬ w.toList <:+: p.toList → ¬ w.toList <:+: "Bearer ***".toList →
    ¬ w.toList <:+: (redact (p ++ "Bearer " ++ w)).toList := by
  intro claim
  refine claim "token=" "abc123" (by decide) (List.all_eq_true.mp (by decide)) (by decide)
    (by decide +kernel) ?_
  rw [redactedChars]
  decide +kernel

end
end DecisionRules
