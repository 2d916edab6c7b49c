import DecisionRules.Proofs.Outcome
import DecisionRules.Text.Json
import Mathlib.Data.List.Forall2

/-! Canonical text can be read from its front: a text ends with its second quote that is not escaped, a list
and an object with their bracket, and all else where a comma or a bracket follows. In compact text the text of a
value stands unchanged in that of what holds it. -/
namespace DecisionRules.Text.Json

/-! Texts -/

def special : List Char := '"' :: '\\' :: (List.range 32).map Char.ofNat

theorem escapeKinds (c : Char) : c ∈ special ∨ escape c = [c] ∧ c ≠ '"' ∧ c ≠ '\\' := by
  by_cases control : c.toNat < 32
  · refine .inl (List.mem_cons_of_mem _ (List.mem_cons_of_mem _ (List.mem_map.mpr ⟨c.toNat, ?_, ?_⟩)))
    · exact List.mem_range.mpr control
    · exact Char.ofNat_toNat c
  · by_cases quote : c = '"'
    · exact .inl (by simp [special, quote])
    · by_cases backslash : c = '\\'
      · exact .inl (by simp [special, backslash])
      · have others : c ≠ '\n' ∧ c ≠ '\r' ∧ c ≠ '\t' ∧ c ≠ '\x08' ∧ c ≠ '\x0c' := by
          refine ⟨?_, ?_, ?_, ?_, ?_⟩ <;> rintro rfl <;> exact control (by decide)
        exact .inr ⟨by simp [escape, quote, backslash, control, others], quote, backslash⟩

theorem specialStarts {c : Char} (is : c ∈ special) : ∃ rest, escape c = '\\' :: rest := by
  have all : special.all (fun c => (escape c).head? == some '\\') = true := by decide
  exact List.head?_eq_some_iff.mp (eq_of_beq (List.all_eq_true.mp all c is))

theorem specialApart {c d : Char} (is : c ∈ special) (is' : d ∈ special) (front : escape c <+: escape d) :
    c = d := by
  have all : special.all (fun c => special.all fun d => !(escape c).isPrefixOf (escape d) || c == d) = true := by
    decide +kernel
  have either := List.all_eq_true.mp (List.all_eq_true.mp all c is) d is'
  simpa [List.isPrefixOf_iff_prefix.mpr front] using either

/-- No escape is the front of another. -/
theorem escapePrefix {c d : Char} (front : escape c <+: escape d) : c = d := by
  rcases escapeKinds c with is | ⟨self, _, plain⟩ <;> rcases escapeKinds d with is' | ⟨self', _, plain'⟩
  · exact specialApart is is' front
  · obtain ⟨rest, shape⟩ := specialStarts is
    rw [shape, self', List.cons_prefix_cons] at front
    exact absurd front.1.symm plain'
  · obtain ⟨rest, shape⟩ := specialStarts is'
    rw [self, shape, List.cons_prefix_cons] at front
    exact absurd front.1 plain
  · rw [self, self', List.cons_prefix_cons] at front
    exact front.1

variable {x y : List Char}

theorem escapeReads {c d : Char} (same : escape c ++ x = escape d ++ y) : c = d ∧ x = y := by
  have equal : c = d := by
    rcases List.append_eq_append_iff.mp same with ⟨more, shape, _⟩ | ⟨more, shape, _⟩
    · exact escapePrefix ⟨more, shape.symm⟩
    · exact (escapePrefix ⟨more, shape.symm⟩).symm
  subst equal
  exact ⟨rfl, List.append_cancel_left same⟩

theorem escapeOpen (c : Char) : escape c ++ x ≠ '"' :: y := by
  intro same
  rcases escapeKinds c with is | ⟨self, quote, _⟩
  · obtain ⟨rest, shape⟩ := specialStarts is
    simp [shape] at same
  · rw [self] at same
    exact quote (List.cons.inj same).1

theorem escapedReads {cs ds : List Char}
    (same : cs.flatMap escape ++ '"' :: x = ds.flatMap escape ++ '"' :: y) : cs = ds ∧ x = y := by
  induction cs generalizing ds with
  | nil => cases ds with
    | nil => exact ⟨rfl, (List.cons.inj same).2⟩
    | cons d rest =>
      simp only [List.flatMap_nil, List.nil_append, List.flatMap_cons, List.append_assoc] at same
      exact (escapeOpen d same.symm).elim
  | cons c rest ih => cases ds with
    | nil =>
      simp only [List.flatMap_nil, List.nil_append, List.flatMap_cons, List.append_assoc] at same
      exact (escapeOpen c same).elim
    | cons d more =>
      simp only [List.flatMap_cons, List.append_assoc] at same
      obtain ⟨rfl, tail⟩ := escapeReads same
      obtain ⟨rfl, ends⟩ := ih tail
      exact ⟨rfl, ends⟩

theorem quotedReads {s t : String} (same : quotedText s ++ x = quotedText t ++ y) : s = t ∧ x = y := by
  simp only [quotedText, List.cons_append, List.append_assoc, List.cons.injEq, true_and,
    List.nil_append] at same
  obtain ⟨chars, ends⟩ := escapedReads same
  exact ⟨String.toList_inj.mp chars, ends⟩

/-! Words and numbers -/

def wordChar (c : Char) : Bool := c.isAlphanum || c == '.' || c == '+' || c == '-'

/-- Nothing that goes on with a word. -/
def Ends (cs : List Char) : Prop := ∀ c ∈ cs.head?, wordChar c = false

theorem wordReads {a b : List Char} (word : ∀ c ∈ a, wordChar c = true) (word' : ∀ c ∈ b, wordChar c = true)
    (ends : Ends x) (ends' : Ends y) (same : a ++ x = b ++ y) : a = b ∧ x = y := by
  induction a generalizing b with
  | nil => cases b with
    | nil => exact ⟨rfl, same⟩
    | cons d more =>
      have goes := ends d (by simpa using congrArg List.head? same)
      simp [word' d List.mem_cons_self] at goes
  | cons c rest ih => cases b with
    | nil =>
      have goes := ends' c (by simpa using (congrArg List.head? same).symm)
      simp [word c List.mem_cons_self] at goes
    | cons d more =>
      obtain ⟨rfl, tail⟩ := List.cons.inj same
      simp only [List.mem_cons, forall_eq_or_imp] at word word'
      obtain ⟨rfl, left⟩ := ih word.2 word'.2 tail
      exact ⟨rfl, left⟩

/-! Parts between commas -/

/-- The rest of a list of parts after the first of them. -/
def resume (close : Char) (x : List Char) : List (List Char) → List Char
  | [] => close :: x
  | next :: rest => ',' :: (separate [','] (next :: rest) ++ close :: x)

theorem separateResume (close : Char) (x part : List Char) (rest : List (List Char)) :
    separate [','] (part :: rest) ++ close :: x = part ++ resume close x rest := by
  cases rest with
  | nil => rfl
  | cons next more => simp [separate, resume]

theorem resumeEnds {close : Char} (closing : wordChar close = false) (x : List Char)
    (rest : List (List Char)) : Ends (resume close x rest) := by
  cases rest with
  | nil => simpa [Ends, resume] using closing
  | cons next more => simp [Ends, resume]; decide

theorem resumeReads {close : Char} (comma : close ≠ ',') {as bs : List (List Char)}
    (same : resume close x as = resume close y bs) :
    separate [','] as ++ close :: x = separate [','] bs ++ close :: y := by
  cases as <;> cases bs
  · exact same
  · exact absurd (List.cons.inj same).1 comma
  · exact absurd (List.cons.inj same).1.symm comma
  · exact (List.cons.inj same).2

theorem separateReads {α β : Type} {R : α → β → Prop} {f : α → List Char} {g : β → List Char} {close : Char}
    (comma : close ≠ ',') (closing : wordChar close = false) {as : List α} {bs : List β}
    (opens : ∀ a ∈ as, ∀ x y, f a ++ x ≠ close :: y) (opens' : ∀ b ∈ bs, ∀ x y, g b ++ x ≠ close :: y)
    (reads : ∀ a ∈ as, ∀ b ∈ bs, ∀ x y, Ends x → Ends y → f a ++ x = g b ++ y → R a b ∧ x = y)
    (same : separate [','] (as.map f) ++ close :: x = separate [','] (bs.map g) ++ close :: y) :
    List.Forall₂ R as bs ∧ x = y := by
  induction as generalizing bs with
  | nil => cases bs with
    | nil => exact ⟨.nil, (List.cons.inj same).2⟩
    | cons b more =>
      rw [List.map_cons, separateResume] at same
      exact (opens' b List.mem_cons_self _ _ same.symm).elim
  | cons a rest ih => cases bs with
    | nil =>
      rw [List.map_cons, separateResume] at same
      exact (opens a List.mem_cons_self _ _ same).elim
    | cons b more =>
      simp only [List.map_cons, separateResume] at same
      simp only [List.mem_cons, forall_eq_or_imp] at opens opens' reads
      obtain ⟨related, left⟩ := reads.1.1 _ _ (resumeEnds closing x _) (resumeEnds closing y _) same
      obtain ⟨others, ends⟩ := ih opens.2 opens'.2 (fun a there => (reads.2 a there).2) (resumeReads comma left)
      exact ⟨.cons related others, ends⟩

/-! Where a reader stands -/

inductive Place where
  | outside
  | inside
  | escaped
  | closed
  deriving DecidableEq

/-- A bar is read within a text only, and after a text what ends a part. -/
def Place.step : Place → Char → Option Place
  | outside, c => if c = '"' then some inside else if c = '|' then none else some outside
  | inside, c => if c = '"' then some closed else if c = '\\' then some escaped else some inside
  | escaped, _ => some inside
  | closed, c => if c = ',' ∨ c = ':' ∨ c = ']' ∨ c = '\x7d' then some outside else none

def Place.scan (p : Place) (cs : List Char) : Option Place := cs.foldlM Place.step p

theorem scanAppend (p : Place) (cs ds : List Char) :
    p.scan (cs ++ ds) = (p.scan cs).bind fun q => q.scan ds := List.foldlM_append

theorem scanCons (p : Place) (c : Char) (cs : List Char) :
    p.scan (c :: cs) = (p.step c).bind fun q => q.scan cs := List.foldlM_cons

theorem scanStays {p : Place} {cs : List Char} (stays : ∀ c ∈ cs, p.step c = some p) (rest : List Char) :
    p.scan (cs ++ rest) = p.scan rest := by
  induction cs with
  | nil => rfl
  | cons c more ih =>
    simp only [List.mem_cons, forall_eq_or_imp] at stays
    rw [List.cons_append, scanCons, stays.1]
    exact ih stays.2

theorem escapeScans (c : Char) : Place.inside.scan (escape c) = some .inside := by
  rcases escapeKinds c with is | ⟨self, quote, backslash⟩
  · have all : special.all (fun c => Place.inside.scan (escape c) == some .inside) = true := by decide +kernel
    exact eq_of_beq (List.all_eq_true.mp all c is)
  · simp [self, Place.step, quote, backslash, Place.scan]

theorem quotedScans (s : String) : Place.outside.scan (quotedText s) = some .closed := by
  have inside (cs : List Char) : Place.inside.scan (cs.flatMap escape ++ ['"']) = some .closed := by
    induction cs with
    | nil => rfl
    | cons c rest ih => rw [List.flatMap_cons, List.append_assoc, scanAppend, escapeScans]; exact ih
  exact inside s.toList

/-- A part after which what ends a part can be read. -/
def Rests (cs : List Char) : Prop :=
  Place.outside.scan cs = some .outside ∨ Place.outside.scan cs = some .closed

theorem Rests.resumes {cs : List Char} (rests : Rests cs) {mark : Char}
    (ends : mark = ',' ∨ mark = ':' ∨ mark = ']' ∨ mark = '\x7d') (rest : List Char) :
    Place.outside.scan (cs ++ mark :: rest) = Place.outside.scan rest := by
  rcases rests with outside | closed
  · rw [scanAppend, outside]
    rcases ends with rfl | rfl | rfl | rfl <;> rfl
  · rw [scanAppend, closed]
    rcases ends with rfl | rfl | rfl | rfl <;> rfl

theorem wordRests {cs : List Char} (word : ∀ c ∈ cs, wordChar c = true) : Rests cs := by
  refine .inl ?_
  have stays : ∀ c ∈ cs, Place.outside.step c = some .outside := fun c member => by
    have is := word c member
    have quote : c ≠ '"' := by rintro rfl; exact absurd is (by decide)
    have bar : c ≠ '|' := by rintro rfl; exact absurd is (by decide)
    simp [Place.step, quote, bar]
  simpa [Place.scan] using scanStays stays []

theorem separateScans {close : Char} (closing : close = ']' ∨ close = '\x7d') {parts : List (List Char)}
    (each : ∀ part ∈ parts, Rests part) :
    Place.outside.scan (separate [','] parts ++ [close]) = some .outside := by
  induction parts with
  | nil => rcases closing with rfl | rfl <;> rfl
  | cons part rest ih =>
    simp only [List.mem_cons, forall_eq_or_imp] at each
    rw [separateResume]
    cases rest with
    | nil => exact each.1.resumes (.inr (.inr closing)) []
    | cons next more => exact (each.1.resumes (.inl rfl) _).trans (ih each.2)

theorem fieldRests {e : String × List Char} (rests : Rests e.2) : Rests (field canonical e) := by
  have same : Place.outside.scan (field canonical e) = Place.outside.scan e.2 := by
    rw [field, List.append_assoc]
    exact Rests.resumes (.inr (quotedScans e.1)) (.inr (.inl rfl)) e.2
  unfold Rests
  rwa [same]

/-! What is written around a value -/

theorem separateAround (mark : List Char) (before after : List (List Char)) :
    ∃ lead trail, ∀ part, separate mark (before ++ part :: after) = lead ++ part ++ trail := by
  induction before with
  | nil =>
    cases after with
    | nil => exact ⟨[], [], fun part => by simp [separate]⟩
    | cons next rest => exact ⟨[], mark ++ separate mark (next :: rest), fun part => by simp [separate]⟩
  | cons first before ih =>
    obtain ⟨lead, trail, splits⟩ := ih
    refine ⟨first ++ mark ++ lead, trail, fun part => ?_⟩
    obtain ⟨next, rest, more⟩ : ∃ next rest, before ++ part :: after = next :: rest :=
      List.exists_cons_of_ne_nil (by simp)
    have whole := splits part
    rw [more] at whole
    rw [List.cons_append, more, separate, whole]
    · simp
    · exact List.cons_ne_nil next rest

/-- The text of what is put in stands between texts that do not depend on it. -/
def Frames (whole : Value → Value) : Prop :=
  ∃ lead trail, ∀ v, chars compact (whole v) = (chars compact v).map fun cs => lead ++ cs ++ trail

theorem Frames.here : Frames id :=
  ⟨[], [], fun v => by cases written : chars compact v <;> simp [Except.map, written]⟩

theorem Frames.within {outer inner : Value → Value} (frames : Frames outer) (more : Frames inner) :
    Frames fun v => outer (inner v) := by
  obtain ⟨lead, trail, outside⟩ := frames
  obtain ⟨lead', trail', inside⟩ := more
  refine ⟨lead ++ lead', trail' ++ trail, fun v => ?_⟩
  rw [outside, inside]
  cases chars compact v <;> simp [Except.map]

theorem Frames.same {whole : Value → Value} (frames : Frames whole) {v w : Value} :
    chars compact (whole v) = chars compact (whole w) ↔ chars compact v = chars compact w := by
  obtain ⟨lead, trail, splits⟩ := frames
  rw [splits, splits]
  cases chars compact v <;> cases chars compact w <;> simp [Except.map]

theorem Frames.written {whole : Value → Value} (frames : Frames whole) {v : Value} {cs : List Char}
    (written : chars compact (whole v) = .ok cs) : ∃ part, chars compact v = .ok part := by
  obtain ⟨lead, trail, splits⟩ := frames
  rw [splits] at written
  obtain ⟨part, is, -⟩ := mapAccepts.mp written
  exact ⟨part, is⟩

theorem itemsAround {before after : List Value} {v : Value} {parts : List (List Char)}
    (written : itemChars compact (before ++ v :: after) = .ok parts) : ∃ front back, ∀ w,
      itemChars compact (before ++ w :: after) = (chars compact w).map fun cs => front ++ cs :: back := by
  induction before generalizing parts with
  | nil =>
    simp only [List.nil_append, itemChars, bindAccepts] at written
    obtain ⟨_, -, back, rest, -⟩ := written
    refine ⟨[], back, fun w => ?_⟩
    simp only [List.nil_append, itemChars, rest]
    cases chars compact w <;> rfl
  | cons first before ih =>
    simp only [List.cons_append, itemChars, bindAccepts] at written
    obtain ⟨cs, here, _, rest, -⟩ := written
    obtain ⟨front, back, splits⟩ := ih rest
    refine ⟨cs :: front, back, fun w => ?_⟩
    simp only [List.cons_append, itemChars, here, splits]
    cases chars compact w <;> rfl

theorem fieldsAround {before after : Fields} {key : String} {v : Value} {parts : List (String × List Char)}
    (written : fieldChars compact (before ++ (key, v) :: after) = .ok parts) : ∃ front back, ∀ w,
      fieldChars compact (before ++ (key, w) :: after) =
        (chars compact w).map fun cs => front ++ (key, cs) :: back := by
  induction before generalizing parts with
  | nil =>
    simp only [List.nil_append, fieldChars, bindAccepts] at written
    obtain ⟨_, -, back, rest, -⟩ := written
    refine ⟨[], back, fun w => ?_⟩
    simp only [List.nil_append, fieldChars, rest]
    cases chars compact w <;> rfl
  | cons first before ih =>
    simp only [List.cons_append, fieldChars, bindAccepts] at written
    obtain ⟨cs, here, _, rest, -⟩ := written
    obtain ⟨front, back, splits⟩ := ih rest
    refine ⟨(first.1, cs) :: front, back, fun w => ?_⟩
    simp only [List.cons_append, fieldChars, here, splits]
    cases chars compact w <;> rfl

theorem listFrames {before after : List Value} {v : Value} {cs : List Char}
    (written : chars compact (.list (before ++ v :: after)) = .ok cs) :
    Frames fun w => .list (before ++ w :: after) := by
  simp only [chars, bindAccepts] at written
  obtain ⟨_, parts, -⟩ := written
  obtain ⟨front, back, splits⟩ := itemsAround parts
  obtain ⟨lead, trail, around⟩ := separateAround compact.betweenItems front back
  refine ⟨'[' :: lead, trail ++ [']'], fun w => ?_⟩
  simp only [chars, splits]
  cases chars compact w with
  | error b => rfl
  | ok part => exact congrArg Except.ok (by simp [around])

theorem objectFrames {before after : Fields} {key : String} {v : Value} {cs : List Char}
    (written : chars compact (.object (before ++ (key, v) :: after)) = .ok cs) :
    Frames fun w => .object (before ++ (key, w) :: after) := by
  simp only [chars, bindAccepts] at written
  obtain ⟨_, parts, -⟩ := written
  obtain ⟨front, back, splits⟩ := fieldsAround parts
  obtain ⟨lead, trail, around⟩ := separateAround compact.betweenItems (front.map (field compact))
    (back.map (field compact))
  have order (all : List (String × List Char)) : inOrder compact all = all := rfl
  refine ⟨'\x7b' :: (lead ++ quotedText key ++ compact.afterKey), trail ++ ['\x7d'], fun w => ?_⟩
  simp only [chars, splits]
  cases chars compact w with
  | error b => rfl
  | ok part => exact congrArg Except.ok (by simp [order, around, field])

end DecisionRules.Text.Json
