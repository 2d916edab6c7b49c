import DecisionRules.Proofs.Expression.Cutting

/-! Lexemes are longest matches. A lexeme stays what it is before any other text, as long as that text up to its
first blank is one that the lexeme stood before already. -/
namespace DecisionRules.Expression
open Text (isBlank isDecimal)

/-- The length of a match at the front of a text: more text can only lengthen it, a front that holds the match has the
same one, and none goes on past a blank. -/
structure Longest (length : List Char → Nat) : Prop where
  grows : ∀ cs after, length cs ≤ length (cs ++ after)
  cut : ∀ cs after, length (cs ++ after) ≤ cs.length → length (cs ++ after) = length cs
  stops : ∀ cs after, (∀ d ∈ after.head?, isBlank d = true) → length (cs ++ after) ≤ cs.length

/-- The characters before the first blank. -/
def untilBlank (cs : List Char) : List Char := cs.takeWhile fun c => !isBlank c

theorem untilBlankNone {cs : List Char} (blank : ∀ d ∈ cs.head?, isBlank d = true) : untilBlank cs = [] := by
  cases cs with
  | nil => rfl
  | cons d rest =>
    have first : isBlank d = true := blank d rfl
    simp [untilBlank, first]

theorem untilBlankSplits (cs : List Char) :
    ∃ rest, cs = untilBlank cs ++ rest ∧ ∀ d ∈ rest.head?, isBlank d = true := by
  refine ⟨cs.dropWhile fun c => !isBlank c, List.takeWhile_append_dropWhile.symm, fun d first => ?_⟩
  have ends := List.head?_dropWhile_not (fun c => !isBlank c) cs
  rw [Option.mem_def.mp first] at ends
  simpa using ends

theorem Longest.stable {length : List Char → Nat} (longest : Longest length) {part rest after : List Char}
    (found : length (part ++ rest) = part.length) (front : untilBlank after <+: rest) :
    length (part ++ after) = part.length := by
  have whole : length part = part.length := by rw [← longest.cut part rest (Nat.le_of_eq found), found]
  obtain ⟨back, shape, blank⟩ := untilBlankSplits after
  obtain ⟨more, same⟩ := front
  -- what is matched lies before the first blank, and so in the old text too
  have bounded : length (part ++ after) ≤ part.length := by
    rw [shape, ← List.append_assoc, longest.cut _ _ (longest.stops _ back blank)]
    calc length (part ++ untilBlank after)
        ≤ length (part ++ untilBlank after ++ more) := longest.grows _ _
      _ = part.length := by rw [List.append_assoc, same, found]
  exact Nat.le_antisymm bounded (whole ▸ longest.grows part after)

theorem runLongest {p : Char → Bool} (ends : ∀ d, isBlank d = true → p d = false) :
    Longest fun cs => (cs.takeWhile p).length where
  grows cs after := by
    rw [List.takeWhile_append]
    split
    · rename_i whole
      rw [whole, List.length_append]
      exact Nat.le_add_right _ _
    · exact Nat.le_refl _
  cut cs after within := by
    have short : (cs ++ []).takeWhile p = (cs ++ after).takeWhile p := runShort within nofun
    rw [List.append_nil] at short
    rw [short]
  stops cs after blank := by
    cases after with
    | nil =>
      rw [List.append_nil]
      exact (List.takeWhile_prefix p).length_le
    | cons d rest => exact runBefore (ends d (blank d rfl)) cs rest

theorem digitsLongest : Longest digitRun := runLongest fun _ => Text.blankApart

/-- One character and then a match, of a length that may depend on whether that is empty. -/
def headLength (p : Char → Bool) (extend : Nat → Nat) (length : List Char → Nat) : List Char → Nat
  | c :: rest => if p c then extend (length rest) else 0
  | [] => 0

/-- A character before a match counts only if there is something to match. -/
def beforeSome (n : Nat) : Nat := if n = 0 then 0 else n + 1

def followLength (first second : List Char → Nat) (cs : List Char) : Nat :=
  if first cs = 0 then 0 else first cs + second (cs.drop (first cs))

namespace Longest
variable {first second : List Char → Nat}

theorem headed (longest : Longest first) {p : Char → Bool} (ends : ∀ d, isBlank d = true → p d = false)
    {extend : Nat → Nat} (one : ∀ n, extend n = n + 1 ∨ n = 0 ∧ extend n = 0) :
    Longest (headLength p extend first) where
  grows cs after := by
    cases cs with
    | nil => exact Nat.zero_le _
    | cons c rest =>
      have more := longest.grows rest after
      have short := one (first rest)
      simp only [List.cons_append, headLength]
      split
      · rcases one (first (rest ++ after)) with long | ⟨none, long⟩
        · omega
        · rw [none, Nat.le_zero] at more
          rw [none, more]
      · exact Nat.le_refl _
  cut cs after within := by
    cases cs with
    | nil => exact Nat.eq_zero_of_le_zero within
    | cons c rest =>
      simp only [List.cons_append, headLength, List.length_cons] at within ⊢
      split
      · rename_i here
        rw [if_pos here] at within
        rw [longest.cut rest after]
        rcases one (first (rest ++ after)) with long | ⟨none, _⟩
        · omega
        · exact none ▸ Nat.zero_le _
      · rfl
  stops cs after blank := by
    cases cs with
    | nil =>
      cases after with
      | nil => exact Nat.le_refl _
      | cons d rest => simp [headLength, ends d (blank d rfl)]
    | cons c rest =>
      have within := longest.stops rest after blank
      simp only [List.cons_append, headLength, List.length_cons]
      split
      · rcases one (first (rest ++ after)) with long | ⟨_, long⟩ <;> omega
      · exact Nat.zero_le _

theorem either (longest : Longest first) (other : Longest second) :
    Longest fun cs => max (first cs) (second cs) where
  grows cs after := max_le_max (longest.grows cs after) (other.grows cs after)
  cut cs after within := by
    rw [longest.cut cs after (le_of_max_le_left within), other.cut cs after (le_of_max_le_right within)]
  stops cs after blank := max_le (longest.stops cs after blank) (other.stops cs after blank)

theorem within (longest : Longest first) (cs : List Char) : first cs ≤ cs.length := by
  simpa using longest.stops cs [] nofun

/-- One match after another, as long as the first one changes only where it reaches the end of the text. -/
theorem followed (longest : Longest first) (other : Longest second)
    (settled : ∀ cs after, 0 < first cs → first cs ≠ cs.length → first (cs ++ after) = first cs) :
    Longest (followLength first second) where
  grows cs after := by
    have more := longest.grows cs after
    unfold followLength
    split
    · exact Nat.zero_le _
    · rename_i some
      rw [if_neg (by omega)]
      by_cases whole : first cs = cs.length
      · have none := other.within (cs.drop (first cs))
        rw [List.length_drop] at none
        omega
      · rw [settled cs after (by omega) whole, List.drop_append_of_le_length (longest.within cs)]
        exact Nat.add_le_add_left (other.grows _ after) _
  cut cs after within := by
    have more := longest.grows cs after
    unfold followLength at within ⊢
    by_cases none : first (cs ++ after) = 0
    · rw [if_pos none, if_pos (by omega)]
    · rw [if_neg none] at within ⊢
      have same := longest.cut cs after (by omega)
      rw [same, List.drop_append_of_le_length (longest.within cs)] at within ⊢
      rw [if_neg (same ▸ none), other.cut]
      rw [List.length_drop]
      omega
  stops cs after blank := by
    have short := longest.stops cs after blank
    unfold followLength
    split
    · exact Nat.zero_le _
    · have within := longest.within cs
      have rest := other.stops (cs.drop (first cs)) after blank
      rw [longest.cut cs after short, List.drop_append_of_le_length within]
      rw [List.length_drop] at rest
      omega

end Longest

theorem beforeSomeOne (n : Nat) : beforeSome n = n + 1 ∨ n = 0 ∧ beforeSome n = 0 := by
  unfold beforeSome
  split
  · exact .inr ⟨by assumption, rfl⟩
  · exact .inl rfl

theorem blankNot {c d : Char} (other : isBlank c = false) (blank : isBlank d = true) : (d == c) = false := by
  refine beq_false_of_ne fun same => ?_
  rw [← same, blank] at other
  contradiction

theorem exponentForm (cs : List Char) : exponentLength cs =
    headLength (fun c => c == 'e' || c == 'E') beforeSome
      (fun cs => max (headLength (fun s => s == '+' || s == '-') beforeSome digitRun cs) (digitRun cs)) cs := by
  match cs with
  | [] => rfl
  | [c] => simp [exponentLength, headLength, beforeSome, digitRun]
  | c :: s :: more =>
    have signs (sign : (s == '+' || s == '-') = true) : digitRun (s :: more) = 0 := by
      have plain : isDecimal s = false := by
        simp only [Bool.or_eq_true, beq_iff_eq] at sign
        rcases sign with rfl | rfl <;> decide
      simp [digitRun, plain]
    simp only [exponentLength, headLength, beq_iff_eq]
    split
    · split
      · rename_i sign
        rw [signs sign, Nat.max_zero]
        cases digitRun more with
        | zero => rfl
        | succ n => simp [beforeSome, Nat.add_comm 2]
      · simp [beforeSome, Nat.add_comm]
    · rfl

theorem exponentLongest : Longest exponentLength := by
  have sign : Longest (headLength (fun s => s == '+' || s == '-') beforeSome digitRun) :=
    digitsLongest.headed (fun d blank => by simp [blankNot (c := '+') (by decide) blank,
      blankNot (c := '-') (by decide) blank]) beforeSomeOne
  rw [funext exponentForm]
  exact (sign.either digitsLongest).headed (fun d blank => by simp [blankNot (c := 'e') (by decide) blank,
    blankNot (c := 'E') (by decide) blank]) beforeSomeOne

theorem pointNone {extend : Nat → Nat} {cs : List Char} (plain : ∀ rest, cs ≠ '.' :: rest) :
    headLength (· == '.') extend digitRun cs = 0 := by
  cases cs with
  | nil => rfl
  | cons c rest =>
    have other : c ≠ '.' := fun same => plain rest (by rw [same])
    simp [headLength, other]

theorem mantissaForm (cs : List Char) : mantissaLength cs =
    max (followLength digitRun (headLength (· == '.') (· + 1) digitRun) cs)
      (headLength (· == '.') beforeSome digitRun cs) := by
  have pointRun (rest : List Char) : digitRun ('.' :: rest) = 0 := by
    have point : isDecimal '.' = false := by decide
    simp [digitRun, point]
  have digits (some : digitRun cs ≠ 0) (rest : List Char) : cs ≠ '.' :: rest := by
    rintro rfl
    exact some (pointRun rest)
  unfold mantissaLength followLength
  dsimp only
  by_cases none : digitRun cs = 0
  · rw [none, if_pos rfl, Nat.zero_max, List.drop_zero]
    split
    · rename_i rest
      cases more : digitRun rest with
      | zero => simp [headLength, beforeSome, more]
      | succ n => simp [headLength, beforeSome, more, Nat.add_comm]
    · rename_i plain
      exact (pointNone plain).symm
  · rw [if_neg none, pointNone (digits none), Nat.max_zero]
    split
    · rename_i rest shape
      simp [shape, headLength, none, Nat.add_comm 1, Nat.add_assoc]
    · rename_i plain
      rw [pointNone plain, Nat.add_zero]

theorem mantissaLongest : Longest mantissaLength := by
  have ends (d : Char) (blank : isBlank d = true) : (d == '.') = false := blankNot (by decide) blank
  have settled (cs after : List Char) (_ : 0 < digitRun cs) (short : digitRun cs ≠ cs.length) :
      digitRun (cs ++ after) = digitRun cs := digitsAppend fun whole => absurd whole short
  rw [funext mantissaForm]
  exact (digitsLongest.followed (digitsLongest.headed ends fun n => .inl rfl) settled).either
    (digitsLongest.headed ends beforeSomeOne)

theorem numberLongest : Longest numberLength := by
  have form : numberLength = followLength mantissaLength exponentLength := by
    funext cs
    simp [numberLength, followLength]
  rw [form]
  exact mantissaLongest.followed exponentLongest fun cs after positive short =>
    mantissaAppend positive fun whole => absurd whole short

theorem nameLongest : Longest nameLength := by
  have apart (d : Char) (blank : isBlank d = true) : nameChar d = false := by
    refine Bool.eq_false_iff.mpr fun name => ?_
    rw [nameNotBlank name] at blank
    contradiction
  have form : nameLength = headLength startsName (· + 1) fun cs => (cs.takeWhile nameChar).length := by
    funext cs
    cases cs with
    | nil => rfl
    | cons c rest =>
      simp only [nameLength, headLength, Nat.add_comm 1]
      rfl
  rw [form]
  refine (runLongest apart).headed (fun d blank => ?_) fun n => .inl rfl
  exact ((Bool.or_eq_false_iff).mp (apart d blank)).1

/-! Operators -/

def operatorForms : List (List Char) := longOperators ++ shortOperators.map fun c => [c]

theorem operatorReaches {op cs : List Char} (member : op ∈ operatorForms) (front : op <+: cs) :
    op.length ≤ operatorLength cs := by
  have sorted : longOperators.Pairwise fun op other => other.length ≤ op.length := by decide
  have isFront : op.isPrefixOf cs = true := List.isPrefixOf_iff_prefix.mpr front
  unfold operatorLength
  cases found : longOperators.find? fun op => op.isPrefixOf cs with
  | none =>
    rcases List.mem_append.mp member with long | short
    · exact absurd isFront (List.find?_eq_none.mp found op long)
    · obtain ⟨c, inside, rfl⟩ := List.mem_map.mp short
      obtain ⟨rest, rfl⟩ := front
      exact Nat.le_of_eq (if_pos (List.contains_iff_mem.mpr inside)).symm
  | some first =>
    obtain ⟨_, before, after, shape, others⟩ := List.find?_eq_some_iff_append.mp found
    rcases List.mem_append.mp member with long | short
    · rw [shape] at long sorted
      rcases List.mem_append.mp long with early | late
      · have other := others op early
        rw [isFront] at other
        contradiction
      · rcases List.mem_cons.mp late with rfl | late
        · exact Nat.le_refl _
        · exact (List.pairwise_cons.mp (List.pairwise_append.mp sorted).2.1).1 op late
    · obtain ⟨c, _, rfl⟩ := List.mem_map.mp short
      have filled : ∀ op ∈ longOperators, 0 < op.length := by decide
      exact filled first (List.mem_of_find?_eq_some found)

theorem operatorFound (cs : List Char) :
    operatorLength cs = 0 ∨ ∃ op ∈ operatorForms, op <+: cs ∧ op.length = operatorLength cs := by
  unfold operatorLength
  cases found : longOperators.find? fun op => op.isPrefixOf cs with
  | some op =>
    have front : op.isPrefixOf cs = true := List.find?_some (p := fun op => List.isPrefixOf op cs) found
    have member : op ∈ operatorForms := List.mem_append_left _ (List.mem_of_find?_eq_some found)
    exact .inr ⟨op, member, List.isPrefixOf_iff_prefix.mp front, rfl⟩
  | none =>
    cases cs with
    | nil => exact .inl rfl
    | cons c rest =>
      by_cases short : shortOperators.contains c = true
      · have member : [c] ∈ operatorForms :=
          List.mem_append_right _ (List.mem_map_of_mem (List.contains_iff_mem.mp short))
        exact .inr ⟨[c], member, ⟨rest, rfl⟩, (if_pos short).symm⟩
      · exact .inl (if_neg short)

theorem operatorPlain {op : List Char} (member : op ∈ operatorForms) {c : Char} (inside : c ∈ op) : isBlank c = false := by
  have each : operatorForms.all (fun op => op.all marks.contains) = true := by decide
  have mark := List.all_eq_true.mp (List.all_eq_true.mp each op member) c inside
  exact (marksFacts (List.contains_iff_mem.mp mark)).1

theorem operatorLongest : Longest operatorLength := by
  have grows (cs after : List Char) : operatorLength cs ≤ operatorLength (cs ++ after) := by
    rcases operatorFound cs with none | ⟨op, member, front, length⟩
    · exact none ▸ Nat.zero_le _
    · exact length ▸ operatorReaches member (front.trans (List.prefix_append cs after))
  refine ⟨grows, fun cs after within => ?_, fun cs after blank => ?_⟩
  · rcases operatorFound (cs ++ after) with none | ⟨op, member, front, length⟩
    · exact none.trans (Nat.eq_zero_of_le_zero (none ▸ grows cs after)).symm
    · have front' : op <+: cs := List.prefix_of_prefix_length_le front (List.prefix_append cs after) (length ▸ within)
      exact Nat.le_antisymm (length ▸ operatorReaches member front') (grows cs after)
  · rcases operatorFound (cs ++ after) with none | ⟨op, member, front, length⟩
    · exact none ▸ Nat.zero_le _
    · rw [← length]
      refine Nat.le_of_not_lt fun long => ?_
      obtain ⟨more, rfl⟩ := List.prefix_of_prefix_length_le (List.prefix_append cs after) front (Nat.le_of_lt long)
      -- the operator goes on past the text before the blank, and so holds the blank
      obtain ⟨d, back, rfl⟩ : ∃ d back, more = d :: back := List.exists_cons_of_ne_nil fun none => by simp [none] at long
      obtain ⟨rest, rfl⟩ := List.prefix_append_right_inj cs |>.mp front
      have plain := operatorPlain member (c := d) (by simp)
      rw [blank d rfl] at plain
      contradiction

/-! Quoted texts end at a quote, whatever comes after it. -/

theorem closingPositive {q : Char} {cs : List Char} {k : Nat} (closed : closingLength? q cs = some k) : 0 < k := by
  unfold closingLength? at closed
  split at closed
  · contradiction
  · split at closed
    · contradiction
    · obtain ⟨j, _, rfl⟩ := Option.map_eq_some_iff.mp closed
      exact Nat.succ_pos _
  · split at closed
    · cases closed
      exact Nat.one_pos
    · split at closed
      · contradiction
      · obtain ⟨j, _, rfl⟩ := Option.map_eq_some_iff.mp closed
        exact Nat.succ_pos _

theorem closingCut {q : Char} (quote : isQuote q = true) {cs after : List Char} {k : Nat}
    (closed : closingLength? q (cs ++ after) = some k) (within : k ≤ cs.length) : closingLength? q cs = some k := by
  fun_induction closingLength? q cs generalizing k with
  | case1 => exact absurd (closingPositive closed) (Nat.not_lt.mpr within)
  | case2 c rest line =>
    rw [eq_of_beq line, List.cons_append, List.cons_append, closingLine] at closed
    contradiction
  | case3 c rest line ih =>
    rw [List.cons_append, List.cons_append, closingEscape (by simpa using line)] at closed
    obtain ⟨j, inner, rfl⟩ := Option.map_eq_some_iff.mp closed
    rw [ih inner (by simpa using within)]
    rfl
  | case4 c rest _ same =>
    rw [eq_of_beq same, List.cons_append, closingQuote quote] at closed
    exact closed
  | case5 c rest shape other back =>
    -- a backslash that ends the front takes the character after it along
    obtain rfl : c = '\\' := eq_of_beq back
    obtain rfl : rest = [] := by
      cases rest with
      | nil => rfl
      | cons d more => exact absurd rfl (shape d more rfl)
    cases after with
    | nil => simp [closingLength?, other] at closed
    | cons d more =>
      change closingLength? q ('\\' :: d :: more) = some k at closed
      by_cases line : d = '\n'
      · rw [line, closingLine] at closed
        contradiction
      · rw [closingEscape line] at closed
        obtain ⟨j, _, rfl⟩ := Option.map_eq_some_iff.mp closed
        simp at within
  | case6 c rest shape other plain ih =>
    rw [List.cons_append, closingPlain (by simpa using other) (by simpa using plain)] at closed
    obtain ⟨j, inner, rfl⟩ := Option.map_eq_some_iff.mp closed
    rw [ih inner (by simpa using within)]
    rfl

/-! Lexemes -/

theorem lexemeStable {part rest after : List Char} {kind : TokenKind}
    (found : lexeme? (part ++ rest) = some (.token kind, part.length)) (front : untilBlank after <+: rest) :
    lexeme? (part ++ after) = some (.token kind, part.length) := by
  obtain ⟨positive, _⟩ := lexemeFacts found
  have measure := lexemeMeasure found
  obtain ⟨c, more, rfl⟩ := List.exists_cons_of_length_pos positive
  have head := lexemeHead found
  cases kind with
  | number =>
    have length := numberLongest.stable measure.symm front
    rw [← length]
    exact lexemeNumber (numberHead head) (length ▸ positive)
  | string =>
    rw [List.cons_append, lexemeQuoted head] at found ⊢
    obtain ⟨k, closed, same⟩ := Option.map_eq_some_iff.mp found
    have length : k = more.length := Nat.succ.inj (congrArg Prod.snd same)
    rw [(closingAppend head after (closingCut head closed (Nat.le_of_eq length))).2, length]
    rfl
  | op =>
    have length := operatorLongest.stable measure.symm front
    rw [← length]
    exact lexemeOperator head (length ▸ positive)
  | name =>
    have length := nameLongest.stable measure.symm front
    rw [← length]
    exact lexemeName head _
  | stop => exact measure.elim

end DecisionRules.Expression
