import DecisionRules.Log.Redact
import DecisionRules.Proofs.Expression.Boundary
import Mathlib.Data.List.TakeWhile

/-! Masking of texts. What a hit keeps and what it masks, and the scan from left to right that takes one hit after
the other: it comes to the end of the part before some text, or a hit reaches over that end. -/
namespace DecisionRules

namespace Text

theorem beginsIff {word cs : List Char} : beginsWithWord cs word = true ↔
    ∃ front rest, cs = front ++ rest ∧ front.map plainLetter = word := by
  induction word generalizing cs with
  | nil => simp [beginsWithWord]
  | cons w word ih =>
    cases cs with
    | nil => simp [beginsWithWord]
    | cons c cs =>
      simp only [beginsWithWord, Bool.and_eq_true, beq_iff_eq, ih]
      constructor
      · rintro ⟨rfl, front, rest, rfl, rfl⟩
        exact ⟨c :: front, rest, rfl, rfl⟩
      · rintro ⟨front, rest, whole, spelt⟩
        cases front with
        | nil => contradiction
        | cons d front =>
          obtain ⟨rfl, rfl⟩ := List.cons.inj whole
          obtain ⟨rfl, rfl⟩ := List.cons.inj spelt
          exact ⟨rfl, front, rest, rfl, rfl⟩

end Text

namespace Log
open Text (isBlank plainLetter)

/-! Runs of characters of a class -/

section
variable {masks : Char → Bool} {run rest : List Char}

theorem runWhole (inside : ∀ c ∈ run, masks c = true) (ends : ∀ c ∈ rest.head?, masks c = false) :
    (run ++ rest).takeWhile masks = run :=
  (Expression.runAppend fun _ => ends).trans (List.takeWhile_eq_self_iff.mpr inside)

theorem runSplit (masks : Char → Bool) (cs : List Char) : ∃ run rest, cs = run ++ rest ∧
    cs.takeWhile masks = run ∧ (∀ c ∈ run, masks c = true) ∧ ∀ c ∈ rest.head?, masks c = false := by
  refine ⟨cs.takeWhile masks, cs.dropWhile masks, List.takeWhile_append_dropWhile.symm, rfl, ?_, ?_⟩
  · exact fun c member => List.all_eq_true.mp List.all_takeWhile c member
  · intro c first
    have stops := List.head?_dropWhile_not masks cs
    rw [first] at stops
    exact stops

end

/-! Hits -/

/-- What is kept, and the value behind it, which is masked and goes as far as it can -/
structure Hits (keeps : List Char → Prop) (masks : Char → Bool) (kept value rest : List Char) : Prop where
  keeps : keeps kept
  some : value ≠ []
  inside : ∀ c ∈ value, masks c = true
  ends : ∀ c ∈ rest.head?, masks c = false

/-- The search finds the hits that a text begins with. -/
def Finds (find : List Char → Option Hit) (keeps : List Char → Prop) (masks : Char → Bool) : Prop :=
  ∀ cs hit, find cs = some hit ↔ ∃ kept value rest, cs = kept ++ value ++ rest ∧
    Hits keeps masks kept value rest ∧ hit = ⟨kept, kept.length + value.length⟩

/-- A mark between a name and its value, with the blanks around it -/
inductive Marks : List Char → Prop
  | intro {before after : List Char} {mark : Char} (blanks : ∀ c ∈ before, isBlank c = true)
      (marked : mark = '=' ∨ mark = ':') (more : ∀ c ∈ after, isBlank c = true) : Marks (before ++ mark :: after)

/-- A secret's name and the mark behind it -/
inductive Assigns : List Char → Prop
  | intro {name rest : List Char} (named : name.map plainLetter ∈ secretNames) (marks : Marks rest) :
      Assigns (name ++ rest)

/-- The word for a bearer credential and the blanks behind it -/
inductive Bears : List Char → Prop
  | intro {name gap : List Char} (named : name.map plainLetter = bearerWord) (some : gap ≠ [])
      (blanks : ∀ c ∈ gap, isBlank c = true) : Bears (name ++ gap)

def isFilled (c : Char) : Bool := !isBlank c

theorem secretNamesApart {name other : List Char} (member : name ∈ secretNames) (too : other ∈ secretNames)
    (same : name.head? = other.head?) : name = other := by
  have each : ∀ a ∈ secretNames, ∀ b ∈ secretNames, a.head? = b.head? → a = b := by decide
  exact each name member other too same

theorem namedFirst {name : List Char} (named : name.map plainLetter ∈ secretNames) (rest : List Char) :
    secretNames.find? (Text.beginsWithWord (name ++ rest)) = some (name.map plainLetter) := by
  have begins : Text.beginsWithWord (name ++ rest) (name.map plainLetter) = true :=
    Text.beginsIff.mpr ⟨name, rest, rfl, rfl⟩
  cases found : secretNames.find? (Text.beginsWithWord (name ++ rest)) with
  | none => exact absurd begins (List.find?_eq_none.mp found _ named)
  | some other =>
    have member := List.mem_of_find?_eq_some found
    obtain ⟨front, tail, whole, spelt⟩ := Text.beginsIff.mp (List.find?_some found)
    have filled : ∀ a ∈ secretNames, a ≠ [] := by decide
    -- both names spell the first letter of the text, and no two names begin alike
    refine congrArg some (secretNamesApart member named ?_)
    cases name with
    | nil => exact absurd rfl (filled _ named)
    | cons c name =>
      cases front with
      | nil => exact absurd spelt.symm (filled _ member)
      | cons d front =>
        obtain ⟨rfl, -⟩ := List.cons.inj whole
        rw [← spelt]
        rfl

theorem assignmentFinds : Finds assignment Marks isSecretChar := by
  intro cs hit
  constructor
  · intro found
    obtain ⟨before, tail, rfl, run, blanks, -⟩ := runSplit isBlank cs
    simp only [assignment, Log.blanks, run, List.drop_left] at found
    cases tail with
    | nil => contradiction
    | cons mark tail =>
      obtain ⟨after, tail, rfl, run', more, -⟩ := runSplit isBlank tail
      obtain ⟨value, rest, rfl, run'', inside, ends⟩ := runSplit isSecretChar tail
      simp only [run', List.drop_left, run''] at found
      split at found
      · rename_i marked
        split at found
        · contradiction
        · rename_i some
          refine ⟨before ++ mark :: after, value, rest, by simp, ⟨⟨blanks, by simpa using marked, more⟩, ?_, inside,
            ends⟩, (Option.some.inj found).symm⟩
          simpa using some
      · contradiction
  · rintro ⟨_, value, rest, rfl, ⟨@⟨before, after, mark, blanks, marked, more⟩, some, inside, ends⟩, rfl⟩
    have plain : isBlank mark = false := by
      rcases marked with rfl | rfl <;> decide
    have filled : ∀ c ∈ (value ++ rest).head?, isBlank c = false := by
      obtain ⟨c, value, rfl⟩ := List.exists_cons_of_ne_nil some
      intro d here
      cases here
      have first := inside c List.mem_cons_self
      simp only [isSecretChar, Bool.not_eq_true', Bool.or_eq_false_iff] at first
      exact first.1.1
    have run : (before ++ mark :: (after ++ (value ++ rest))).takeWhile isBlank = before :=
      runWhole blanks fun d here => by cases here; exact plain
    have run' : (after ++ (value ++ rest)).takeWhile isBlank = after := runWhole more filled
    have run'' : (value ++ rest).takeWhile isSecretChar = value := runWhole inside ends
    have test : (mark == '=' || mark == ':') = true := by simpa using marked
    have whole : before ++ mark :: after ++ value ++ rest = before ++ mark :: (after ++ (value ++ rest)) := by simp
    have none : value.isEmpty = false := by simp [some]
    rw [whole]
    simp only [assignment, Log.blanks, run, List.drop_left, test, if_true, run', run'', none]
    rfl

theorem assignedFinds : Finds assignedSecret Assigns isSecretChar := by
  intro cs hit
  constructor
  · intro found
    unfold assignedSecret at found
    split at found
    · contradiction
    · rename_i name first
      obtain ⟨front, tail, rfl, rfl⟩ := Text.beginsIff.mp (List.find?_some first)
      rw [List.length_map, List.drop_left, List.take_left] at found
      obtain ⟨inner, found', rfl⟩ := Option.map_eq_some_iff.mp found
      obtain ⟨kept, value, rest, rfl, hits, rfl⟩ := (assignmentFinds tail inner).mp found'
      refine ⟨front ++ kept, value, rest, by simp, ⟨⟨List.mem_of_find?_eq_some first, hits.keeps⟩, hits.some,
        hits.inside, hits.ends⟩, ?_⟩
      rw [List.length_append, Nat.add_assoc]
  · rintro ⟨_, value, rest, rfl, ⟨@⟨name, kept, named, marks⟩, some, inside, ends⟩, rfl⟩
    have tail : assignment (kept ++ value ++ rest) = Option.some ⟨kept, kept.length + value.length⟩ :=
      (assignmentFinds _ _).mpr ⟨kept, value, rest, rfl, ⟨marks, some, inside, ends⟩, rfl⟩
    have whole : name ++ kept ++ value ++ rest = name ++ (kept ++ value ++ rest) := by simp
    rw [whole, assignedSecret, namedFirst named]
    simp only [List.length_map, List.drop_left, List.take_left, tail, Option.map_some]
    rw [List.length_append, Nat.add_assoc]

theorem bearerFinds : Finds bearerSecret Bears isFilled := by
  intro cs hit
  constructor
  · intro found
    unfold bearerSecret at found
    split at found
    · rename_i begins
      obtain ⟨name, tail, rfl, named⟩ := Text.beginsIff.mp begins
      obtain ⟨gap, tail, rfl, run, blanks, -⟩ := runSplit isBlank tail
      obtain ⟨value, rest, rfl, run', inside, ends⟩ := runSplit isFilled tail
      have length : bearerWord.length = name.length := by rw [← named, List.length_map]
      simp only [length, List.drop_left, List.take_left, Log.blanks, run] at found
      change (if (gap.isEmpty || ((value ++ rest).takeWhile isFilled).isEmpty) = true then none else _) = _ at found
      split at found
      · contradiction
      · rename_i some
        simp only [run', Bool.or_eq_true, List.isEmpty_iff, not_or] at some
        refine ⟨name ++ gap, value, rest, by simp, ⟨⟨named, some.1, blanks⟩, some.2, inside, ends⟩, ?_⟩
        rw [← run']
        exact (Option.some.inj found).symm
    · contradiction
  · rintro ⟨_, value, rest, rfl, ⟨@⟨name, gap, named, filled, blanks⟩, some, inside, ends⟩, rfl⟩
    have begins : Text.beginsWithWord (name ++ gap ++ value ++ rest) bearerWord = true :=
      Text.beginsIff.mpr ⟨name, gap ++ (value ++ rest), by simp, named⟩
    have length : bearerWord.length = name.length := by rw [← named, List.length_map]
    have plain : ∀ c ∈ (value ++ rest).head?, isBlank c = false := by
      obtain ⟨c, value, rfl⟩ := List.exists_cons_of_ne_nil some
      intro d here
      cases here
      simpa [isFilled] using inside c List.mem_cons_self
    have run : (gap ++ (value ++ rest)).takeWhile isBlank = gap := runWhole blanks plain
    have run' : (value ++ rest).takeWhile (fun c => !isBlank c) = value := runWhole inside ends
    have none : (gap.isEmpty || value.isEmpty) = false := by simp [filled, some]
    unfold bearerSecret
    rw [if_pos begins, List.append_assoc, List.append_assoc]
    simp only [length, List.drop_left, List.take_left, Log.blanks, run, run', none]
    rfl

/-! The scan -/

section
variable {find : List Char → Option Hit} {keeps : List Char → Prop} {masks : Char → Bool}
variable {after p out : List Char}

theorem maskSkips (n : Nat) (cs : List Char) : maskHits find n cs = maskHits find 0 (cs.drop n) := by
  induction n generalizing cs with
  | zero => rfl
  | succ n ih =>
    cases cs with
    | nil => rfl
    | cons c rest => exact ih rest

theorem findsNone (finds : Finds find keeps masks) {cs : List Char}
    (none : ∀ kept value rest, cs = kept ++ value ++ rest → ¬ Hits keeps masks kept value rest) :
    find cs = .none := by
  cases found : find cs with
  | none => rfl
  | some hit =>
    obtain ⟨kept, value, rest, whole, hits, -⟩ := (finds _ _).mp found
    exact absurd hits (none kept value rest whole)

theorem maskPlain {c : Char} (none : find (c :: p) = .none) : maskHits find 0 (c :: p) = c :: maskHits find 0 p := by
  rw [maskHits, none]

theorem maskHit (finds : Finds find keeps masks) {kept value : List Char} (hits : Hits keeps masks kept value p) :
    maskHits find 0 (kept ++ value ++ p) = kept ++ mask ++ maskHits find 0 p := by
  have found : find (kept ++ value ++ p) = some ⟨kept, kept.length + value.length⟩ :=
    (finds _ _).mpr ⟨kept, value, p, rfl, hits, rfl⟩
  have filled : (kept ++ value).length ≠ 0 := by simp [hits.some]
  obtain ⟨c, rest, whole⟩ := List.exists_cons_of_ne_nil (List.length_pos_iff.mp (Nat.pos_of_ne_zero filled))
  have size : kept.length + value.length - 1 = rest.length := by
    have := congrArg List.length whole
    rw [List.length_append, List.length_cons] at this
    omega
  rw [whole, List.cons_append] at found ⊢
  rw [maskHits, found]
  simp only [size]
  rw [maskSkips, List.drop_left]

theorem maskIdle (finds : Finds find keeps masks) {cs : List Char}
    (none : ∀ kept value rest, kept ++ value ++ rest <:+ cs → ¬ Hits keeps masks kept value rest) :
    maskHits find 0 cs = cs := by
  induction cs with
  | nil => rfl
  | cons c rest ih =>
    have here : find (c :: rest) = .none :=
      findsNone finds fun kept value tail whole => none kept value tail (whole ▸ List.suffix_refl _)
    have later : ∀ kept value tail, kept ++ value ++ tail <:+ rest → ¬ Hits keeps masks kept value tail :=
      fun kept value tail within => none kept value tail (within.trans (List.suffix_cons c rest))
    rw [maskPlain here, ih later]

/-- Before what comes after it, a part is scanned from its start to its end, and this is left of it. -/
inductive Scanned (keeps : List Char → Prop) (masks : Char → Bool) (after : List Char) :
    List Char → List Char → Prop
  | done : Scanned keeps masks after [] []
  | plain {c : Char} {p out : List Char}
      (none : ∀ kept value rest, c :: (p ++ after) = kept ++ value ++ rest → ¬ Hits keeps masks kept value rest)
      (tail : Scanned keeps masks after p out) : Scanned keeps masks after (c :: p) (c :: out)
  | hit {kept value p out : List Char} (hits : Hits keeps masks kept value (p ++ after))
      (tail : Scanned keeps masks after p out) : Scanned keeps masks after (kept ++ value ++ p) (kept ++ mask ++ out)

theorem Scanned.masked (finds : Finds find keeps masks) (scanned : Scanned keeps masks after p out) :
    maskHits find 0 (p ++ after) = out ++ maskHits find 0 after := by
  induction scanned with
  | done => rfl
  | plain none _ ih => rw [List.cons_append, maskPlain (findsNone finds none), ih, List.cons_append]
  | hit hits _ ih => rw [List.append_assoc, maskHit finds hits, ih, List.append_assoc (_ ++ mask)]

/-- A hit that the scan of the part comes to reaches over its end. -/
def Crosses (keeps : List Char → Prop) (masks : Char → Bool) (after p : List Char) : Prop :=
  ∃ s q out kept value rest, p = s ++ q ∧ Scanned keeps masks (q ++ after) s out ∧ q ≠ [] ∧
    q ++ after = kept ++ value ++ rest ∧ Hits keeps masks kept value rest ∧ rest.length < after.length

theorem frontWithin {front rest : List Char} (whole : p ++ after = front ++ rest) (long : after.length ≤ rest.length) :
    ∃ q, p = front ++ q ∧ rest = q ++ after := by
  rcases List.append_eq_append_iff.mp whole with ⟨across, same, back⟩ | ⟨q, same, back⟩
  · have length := congrArg List.length back
    rw [List.length_append] at length
    obtain rfl : across = [] := List.eq_nil_of_length_eq_zero (by omega)
    exact ⟨[], by simpa using same.symm, by simpa using back.symm⟩
  · exact ⟨q, same, back⟩

theorem scansOrCrosses (keeps : List Char → Prop) (masks : Char → Bool) (after p : List Char) :
    (∃ out, Scanned keeps masks after p out) ∨ Crosses keeps masks after p := by
  induction length : p.length using Nat.strongRecOn generalizing p with
  | ind n ih =>
    cases p with
    | nil => exact .inl ⟨[], .done⟩
    | cons c p =>
      by_cases hit : ∃ kept value rest, c :: (p ++ after) = kept ++ value ++ rest ∧ Hits keeps masks kept value rest
      · obtain ⟨kept, value, rest, whole, hits⟩ := hit
        by_cases beyond : rest.length < after.length
        · exact .inr ⟨[], c :: p, [], kept, value, rest, rfl, .done, by simp, whole, hits, beyond⟩
        · -- the hit lies within the part, and what is behind it is shorter
          obtain ⟨q, part, rfl⟩ := frontWithin (p := c :: p) whole (Nat.not_lt.mp beyond)
          have filled := List.length_pos_iff.mpr hits.some
          have shorter : q.length < n := by
            rw [← length, part, List.length_append, List.length_append]
            omega
          rw [part]
          rcases ih q.length shorter q rfl with
            ⟨out, scanned⟩ | ⟨s, r, out, kept', value', rest', rfl, scanned, cross⟩
          · exact .inl ⟨kept ++ mask ++ out, .hit hits scanned⟩
          · refine .inr ⟨kept ++ value ++ s, r, kept ++ mask ++ out, kept', value', rest', by simp, ?_, cross⟩
            exact .hit (by rwa [List.append_assoc] at hits) scanned
      · have none : ∀ kept value rest, c :: (p ++ after) = kept ++ value ++ rest →
            ¬ Hits keeps masks kept value rest := fun kept value rest whole hits =>
          hit ⟨kept, value, rest, whole, hits⟩
        rcases ih p.length (by rw [← length]; exact Nat.lt_succ_self _) p rfl with
          ⟨out, scanned⟩ | ⟨s, q, out, kept, value, rest, rfl, scanned, cross⟩
        · exact .inl ⟨c :: out, .plain none scanned⟩
        · refine .inr ⟨c :: s, q, c :: out, kept, value, rest, rfl, ?_, cross⟩
          exact .plain (by rwa [List.append_assoc] at none) scanned

/-! What a scan leaves -/

theorem prefixApart {c : Char} {u a b : List Char} (free : c ∉ u) (front : u <+: a ++ c :: b) : u <+: a := by
  rcases List.prefix_or_prefix_of_prefix front (List.prefix_append a (c :: b)) with short | ⟨more, rfl⟩
  · exact short
  · cases more with
    | nil => simp
    | cons d more =>
      rw [List.prefix_append_right_inj, List.cons_prefix_cons] at front
      exact absurd (by simp [front.1]) free

theorem infixApart {c : Char} {u a b : List Char} (free : c ∉ u) (within : u <:+: a ++ c :: b) :
    u <:+: a ∨ u <:+: b := by
  induction a with
  | nil =>
    rcases List.infix_cons_iff.mp within with front | later
    · exact .inl (prefixApart (a := []) free front).isInfix
    · exact .inr later
  | cons d a ih =>
    rcases List.infix_cons_iff.mp within with front | later
    · exact .inl (prefixApart (a := d :: a) free front).isInfix
    · exact (ih later).imp (fun inside => inside.trans (List.suffix_cons d a).isInfix) id

theorem infixUnmasked {u a b : List Char} (free : '*' ∉ u) (within : u <:+: a ++ mask ++ b) :
    u <:+: a ∨ u <:+: b := by
  have nothing (none : u <:+: []) : u <:+: a := List.infix_nil.mp none ▸ List.nil_infix
  rw [List.append_assoc] at within
  rcases infixApart free within with here | second
  · exact .inl here
  rcases infixApart (a := []) free second with none | third
  · exact .inl (nothing none)
  rcases infixApart (a := []) free third with none | later
  · exact .inl (nothing none)
  · exact .inr later

/-- Only masks are added: what has no star in it was there before. -/
theorem Scanned.prefixKept (scanned : Scanned keeps masks after p out) {u tail : List Char} (free : '*' ∉ u)
    (front : u <+: out ++ tail) : u <+: p ++ tail := by
  induction scanned generalizing u with
  | done => exact front
  | @plain c p out _ _ ih =>
    rcases List.prefix_cons_iff.mp front with rfl | ⟨v, rfl, later⟩
    · exact List.nil_prefix
    · exact List.cons_prefix_cons.mpr ⟨rfl, ih (fun there => free (List.mem_cons_of_mem c there)) later⟩
  | @hit kept value p out _ _ _ =>
    rw [List.append_assoc, List.append_assoc] at front ⊢
    exact (prefixApart free front).trans (List.prefix_append kept _)

theorem Scanned.infixKept (scanned : Scanned keeps masks after p out) {u tail : List Char} (free : '*' ∉ u)
    (within : u <:+: out ++ tail) : u <:+: p ++ tail := by
  induction scanned with
  | done => exact within
  | @plain c p out none scanned ih =>
    rcases List.infix_cons_iff.mp within with front | later
    · exact ((Scanned.plain none scanned).prefixKept free front).isInfix
    · exact (ih later).trans (List.suffix_cons c _).isInfix
  | @hit kept value p out _ _ ih =>
    rw [List.append_assoc] at within ⊢
    rcases infixUnmasked free within with here | later
    · rw [List.append_assoc]
      exact here.trans (List.prefix_append kept _).isInfix
    · exact (ih later).trans (List.suffix_append _ _).isInfix

/-- A run of characters that are masked, which goes on after the part, is not touched. -/
theorem Scanned.runKept (scanned : Scanned keeps masks after p out) (goesOn : ∃ c ∈ after.head?, masks c = true)
    {u : List Char} (inside : ∀ c ∈ u, masks c = true) (back : u <:+ p) : u <:+ out := by
  -- a hit ends before a character that is not masked, and none stands in the run
  have stops : ∀ {kept value p : List Char}, Hits keeps masks kept value (p ++ after) →
      ¬ ∀ c ∈ p, masks c = true := fun {kept value p} hits all => by
    obtain ⟨d, first, masked⟩ := goesOn
    cases p with
    | nil => simp [hits.ends d first] at masked
    | cons c p => simpa [all c List.mem_cons_self] using hits.ends c rfl
  have whole : ∀ {p out : List Char}, Scanned keeps masks after p out → (∀ c ∈ p, masks c = true) → out = p := by
    intro p out scanned all
    induction scanned with
    | done => rfl
    | plain _ _ ih => rw [ih fun d there => all d (List.mem_cons_of_mem _ there)]
    | hit hits _ _ => exact absurd (fun c there => all c (List.mem_append_right _ there)) (stops hits)
  induction scanned with
  | done => exact back
  | @plain c p out none scanned ih =>
    rcases List.suffix_cons_iff.mp back with rfl | later
    · exact whole (.plain none scanned) inside ▸ List.suffix_refl _
    · exact (ih later).trans (List.suffix_cons c out)
  | @hit kept value p out hits _ ih =>
    rcases List.suffix_or_suffix_of_suffix back (List.suffix_append (kept ++ value) p) with later | ⟨more, rfl⟩
    · exact (ih later).trans (List.suffix_append _ _)
    · exact absurd (fun c there => inside c (List.mem_append_right more there)) (stops hits)

end

end Log
end DecisionRules
