import DecisionRules.Proofs.Expression.Quoted
import Mathlib.Tactic.ByContra

/-! Where lexemes end. Its first character tells the class of a lexeme, and what comes after a lexeme does not
change it, unless it goes on with it. -/
namespace DecisionRules

namespace Text

theorem rangesHold {ranges : Ranges} {n : Nat} (holds : ranges.holds n = true) :
    ∃ r ∈ ranges, r.1 ≤ n ∧ n ≤ r.2 := by
  induction ranges with
  | nil => contradiction
  | cons r rest ih =>
    obtain ⟨low, high⟩ := r
    unfold Ranges.holds at holds
    split at holds
    · contradiction
    · split at holds
      · exact ⟨(low, high), List.mem_cons_self, by omega, by omega⟩
      · obtain ⟨r, member, within⟩ := ih holds
        exact ⟨r, List.mem_cons_of_mem _ member, within⟩

theorem blankApart {c : Char} (blank : isBlank c = true) : isDecimal c = false := by
  have apart : ∀ z ∈ digitZeros, ∀ r ∈ blankRanges, r.2 < z ∨ z + 10 ≤ r.1 := by decide
  obtain ⟨r, member, low, high⟩ := rangesHold blank
  by_contra decimal
  simp only [isDecimal, digitValue?, Option.isSome_map, Bool.not_eq_false, List.find?_isSome, Bool.and_eq_true,
    decide_eq_true_eq] at decimal
  obtain ⟨z, member', low', high'⟩ := decimal
  have := apart z member' r member
  omega

end Text

namespace Expression
open Text (isBlank isDecimal)

def nameChar (c : Char) : Bool := startsName c || c.isDigit

/-- Does a number end before the character? -/
def endsNumber (c : Char) : Bool := !(isDecimal c || c == '.' || c == 'e' || c == 'E')

/-- The characters that operators begin with. -/
def marks : List Char := ['=', '!', '*', '<', '>', '&', '|', '-', '+', '/', '%', '(', ')', '[', ']', ',']

/-! First characters -/

theorem marksFacts {c : Char} (mark : c ∈ marks) :
    isBlank c = false ∧ isDecimal c = false ∧ c ≠ '.' ∧ isQuote c = false ∧ endsNumber c = true := by
  have each : marks.all (fun c => !isBlank c && !isDecimal c && c != '.' && !isQuote c && endsNumber c) = true := by
    decide +kernel
  simpa [and_assoc] using List.all_eq_true.mp each c mark

theorem startsFacts {c : Char} (starts : startsName c = true) :
    isBlank c = false ∧ isDecimal c = false ∧ c ≠ '.' ∧ isQuote c = false ∧ c ∉ marks := by
  have each : ∀ n < 128, startsName (Char.ofNat n) = true → isBlank (Char.ofNat n) = false ∧
      isDecimal (Char.ofNat n) = false ∧ Char.ofNat n ≠ '.' ∧ isQuote (Char.ofNat n) = false ∧
      Char.ofNat n ∉ marks := by decide +kernel
  have upper (letter : c.isUpper = true) : c.toNat ≤ 90 := (of_decide_eq_true letter).2
  have lower (letter : c.isLower = true) : c.toNat ≤ 122 := of_decide_eq_true ((Bool.and_eq_true _ _).mp letter).2
  have ascii : c.toNat < 128 := by
    rcases (Bool.or_eq_true _ _).mp starts with alpha | underscore
    · rcases (Bool.or_eq_true _ _).mp alpha with letter | letter
      · exact Nat.lt_of_le_of_lt (upper letter) (by decide)
      · exact Nat.lt_of_le_of_lt (lower letter) (by decide)
    · rw [eq_of_beq underscore]
      decide
  simpa only [Char.ofNat_toNat] using each c.toNat ascii (by rwa [Char.ofNat_toNat])

theorem numberNone {c : Char} (plain : isDecimal c = false) (point : c ≠ '.') (cs : List Char) :
    numberLength (c :: cs) = 0 := by
  have run : digitRun (c :: cs) = 0 := by simp [digitRun, plain]
  have mantissa : mantissaLength (c :: cs) = 0 := by
    unfold mantissaLength
    simp only [run, List.drop_zero]
    split
    · rename_i shape
      exact absurd (List.cons.inj shape).1 point
    · rfl
  simp [numberLength, mantissa]

theorem operatorNone {c : Char} (plain : c ∉ marks) (cs : List Char) : operatorLength (c :: cs) = 0 := by
  have heads : ∀ op ∈ longOperators, ∃ d rest, op = d :: rest ∧ d ∈ marks := by
    simp [longOperators, marks]
  have short : ∀ d ∈ shortOperators, d ∈ marks := by
    simp [shortOperators, marks]
  unfold operatorLength
  split
  · rename_i op found
    obtain ⟨d, rest, rfl, mark⟩ := heads op (List.mem_of_find?_eq_some found)
    have front := List.find?_some found
    simp only [List.isPrefixOf_cons_cons, Bool.and_eq_true, beq_iff_eq] at front
    exact absurd (front.1 ▸ mark) plain
  · exact if_neg fun there => plain (short c (by simpa using there))

theorem lexemeBlank {c : Char} (blank : isBlank c = true) (cs : List Char) :
    lexeme? (c :: cs) = some (.blank, ((c :: cs).takeWhile isBlank).length) := by
  have some : (((c :: cs).takeWhile isBlank).length != 0) = true := by simp [blank]
  simp only [lexeme?, some, if_true]

theorem lexemeNumber {c : Char} {cs : List Char} (plain : isBlank c = false)
    (positive : 0 < numberLength (c :: cs)) : lexeme? (c :: cs) = some (.token .number, numberLength (c :: cs)) := by
  have none : (c :: cs).takeWhile isBlank = [] := by simp [plain]
  have filled : (numberLength (c :: cs) != 0) = true := by simpa using Nat.ne_of_gt positive
  simp [lexeme?, none, filled]

theorem lexemeOperator {c : Char} {cs : List Char} (mark : c ∈ marks)
    (positive : 0 < operatorLength (c :: cs)) : lexeme? (c :: cs) = some (.token .op, operatorLength (c :: cs)) := by
  obtain ⟨blank, decimal, point, quote, _⟩ := marksFacts mark
  have none : (c :: cs).takeWhile isBlank = [] := by simp [blank]
  have filled : (operatorLength (c :: cs) != 0) = true := by simpa using Nat.ne_of_gt positive
  simp [lexeme?, none, numberNone decimal point, stringLengthPlain quote, filled]

theorem lexemeName {c : Char} (starts : startsName c = true) (cs : List Char) :
    lexeme? (c :: cs) = some (.token .name, nameLength (c :: cs)) := by
  obtain ⟨blank, decimal, point, quote, plain⟩ := startsFacts starts
  have none : (c :: cs).takeWhile isBlank = [] := by simp [blank]
  have filled : (nameLength (c :: cs) != 0) = true := by simp [nameLength, starts]
  simp [lexeme?, none, numberNone decimal point, stringLengthPlain quote, operatorNone plain, filled]

/-- The first character of a lexeme of a class. -/
def LexemeClass.heads : LexemeClass → Char → Prop
  | .blank, c => isBlank c = true
  | .token .number, c => isDecimal c = true ∨ c = '.'
  | .token .string, c => isQuote c = true
  | .token .op, c => c ∈ marks
  | .token .name, c => startsName c = true
  | .token .stop, _ => False

theorem lexemeHead {c : Char} {cs : List Char} {cls : LexemeClass} {n : Nat}
    (found : lexeme? (c :: cs) = some (cls, n)) : cls.heads c := by
  obtain ⟨positive, measure⟩ := lexemeFacts found
  rcases measure with ⟨rfl, rfl⟩ | ⟨rfl, rfl⟩ | ⟨rfl, quoted⟩ | ⟨rfl, rfl⟩ | ⟨rfl, rfl⟩
  · by_contra plain
    simp only [LexemeClass.heads, Bool.not_eq_true] at plain
    simp [plain] at positive
  · by_contra plain
    simp only [LexemeClass.heads, not_or, Bool.not_eq_true] at plain
    rw [numberNone plain.1 plain.2] at positive
    contradiction
  · by_contra plain
    rw [stringLengthPlain (by simpa [LexemeClass.heads] using plain)] at quoted
    contradiction
  · by_contra plain
    rw [operatorNone plain] at positive
    contradiction
  · by_contra plain
    simp only [LexemeClass.heads, Bool.not_eq_true] at plain
    simp [nameLength, plain] at positive

theorem numberHead {c : Char} (head : LexemeClass.heads (.token .number) c) : isBlank c = false := by
  rcases head with decimal | rfl
  · refine Bool.eq_false_iff.mpr fun blank => ?_
    rw [Text.blankApart blank] at decimal
    contradiction
  · decide

/-! Ends -/

section
variable {cs after : List Char}

theorem runAppend {p : Char → Bool}
    (ends : (cs.takeWhile p).length = cs.length → ∀ d ∈ after.head?, p d = false) :
    (cs ++ after).takeWhile p = cs.takeWhile p := by
  rw [List.takeWhile_append]
  split
  · rename_i whole
    have none : after.takeWhile p = [] := by
      cases after with
      | nil => rfl
      | cons d rest => simp [ends whole d rfl]
    rw [none, List.append_nil]
    exact ((List.takeWhile_prefix p).eq_of_length whole).symm
  · rfl

theorem digitsAppend (ends : digitRun cs = cs.length → ∀ d ∈ after.head?, isDecimal d = false) :
    digitRun (cs ++ after) = digitRun cs := by
  unfold digitRun
  rw [runAppend ends]

theorem mantissaAppend (positive : 0 < mantissaLength cs)
    (ends : mantissaLength cs = cs.length → ∀ d ∈ after.head?, endsNumber d = true) :
    mantissaLength (cs ++ after) = mantissaLength cs := by
  have decimal : ∀ d, endsNumber d = true → isDecimal d = false ∧ d ≠ '.' := fun d stops => by
    simp only [endsNumber, Bool.not_eq_true', Bool.or_eq_false_iff, beq_eq_false_iff_ne] at stops
    exact ⟨stops.1.1.1, stops.1.1.2⟩
  have whole : digitRun cs = cs.length → mantissaLength cs = cs.length := fun all => by
    simp [mantissaLength, all]
  have run : digitRun (cs ++ after) = digitRun cs :=
    digitsAppend fun all d first => (decimal d (ends (whole all) d first)).1
  have within := digitRunWithin cs
  unfold mantissaLength at positive ends ⊢
  dsimp only at positive ends ⊢
  rw [run, List.drop_append_of_le_length within]
  cases left : cs.drop (digitRun cs) with
  | nil =>
    rw [left] at ends
    have all : digitRun cs = cs.length := by
      have := List.drop_eq_nil_iff.mp left
      omega
    cases after with
    | nil => rfl
    | cons d rest =>
      have point := (decimal d (ends all d rfl)).2
      simp [point]
  | cons c rest =>
    by_cases point : c = '.'
    · subst point
      simp only [left] at positive ends
      simp only [List.cons_append]
      have length := congrArg List.length left
      rw [List.length_drop, List.length_cons] at length
      rw [digitsAppend fun all d first => ?_]
      split at positive
      · exact absurd positive (Nat.lt_irrefl 0)
      · rename_i some
        rw [if_neg some] at ends
        exact (decimal d (ends (by omega) d first)).1
    · simp [point]

theorem exponentAppend (ends : ∀ d ∈ ((cs ++ after).drop (exponentLength cs)).head?, endsNumber d = true) :
    exponentLength (cs ++ after) = exponentLength cs := by
  have letter : ∀ d, endsNumber d = true → isDecimal d = false ∧ (d == 'e' || d == 'E') = false := fun d stops => by
    simp only [endsNumber, Bool.not_eq_true', Bool.or_eq_false_iff] at stops
    exact ⟨stops.1.1.1, by simp [stops.1.2, stops.2]⟩
  cases cs with
  | nil =>
    cases after with
    | nil => rfl
    | cons d rest =>
      have other := (letter d (ends d rfl)).2
      simp only [List.nil_append, exponentLength, other]
      rfl
  | cons c rest =>
    by_cases e : (c == 'e' || c == 'E') = true
    · -- a letter without digits is not taken, and then stands where the number ends
      have taken : exponentLength (c :: rest) ≠ 0 := fun none => by
        have stops := (letter c (ends c (by simp [none]))).2
        simp [stops] at e
      cases rest with
      | nil => simp [exponentLength, e] at taken
      | cons s more =>
        by_cases sign : (s == '+' || s == '-') = true
        · have digits : digitRun more ≠ 0 := fun none => taken (by simp [exponentLength, e, sign, none])
          have length : exponentLength (c :: s :: more) = 2 + digitRun more := by
            simp [exponentLength, e, sign, digits]
          have run : digitRun (more ++ after) = digitRun more := digitsAppend fun all d first => by
            refine (letter d (ends d ?_)).1
            rw [length, all, Nat.add_comm]
            simpa using first
          simp [exponentLength, e, sign, run]
        · have digits : digitRun (s :: more) ≠ 0 := fun none => taken (by simp [exponentLength, e, sign, none])
          have length : exponentLength (c :: s :: more) = 1 + digitRun (s :: more) := by
            simp [exponentLength, e, sign, digits]
          have run : digitRun (s :: more ++ after) = digitRun (s :: more) := digitsAppend fun all d first => by
            refine (letter d (ends d ?_)).1
            rw [length, all, Nat.add_comm]
            simpa using first
          rw [List.cons_append] at run
          simp [exponentLength, e, sign, run]
    · simp [exponentLength, e]

theorem numberAppend (positive : 0 < numberLength cs)
    (ends : ∀ d ∈ ((cs ++ after).drop (numberLength cs)).head?, endsNumber d = true) :
    numberLength (cs ++ after) = numberLength cs := by
  have some : mantissaLength cs ≠ 0 := fun none => by simp [numberLength, none] at positive
  have length : numberLength cs = mantissaLength cs + exponentLength (cs.drop (mantissaLength cs)) := by
    simp [numberLength, some]
  have within := mantissaWithin cs
  rw [length, ← List.drop_drop, List.drop_append_of_le_length within] at ends
  have mantissa : mantissaLength (cs ++ after) = mantissaLength cs := by
    refine mantissaAppend (Nat.pos_of_ne_zero some) fun all d first => ends d ?_
    simpa [all, exponentLength] using first
  rw [length]
  unfold numberLength
  dsimp only
  rw [mantissa, List.drop_append_of_le_length within, exponentAppend ends]
  simp [some]

theorem prefixAppend {op : List Char} (ends : ∀ d ∈ after.head?, d ∉ op) :
    op.isPrefixOf (cs ++ after) = op.isPrefixOf cs := by
  induction op generalizing cs with
  | nil => simp
  | cons o rest ih =>
    cases cs with
    | nil =>
      cases after with
      | nil => rfl
      | cons d more =>
        have other := ends d rfl
        simp only [List.mem_cons, not_or] at other
        simp [List.isPrefixOf_cons_cons, Ne.symm other.1]
    | cons c cs =>
      simp only [List.cons_append, List.isPrefixOf_cons_cons]
      rw [ih fun d first there => ends d first (List.mem_cons_of_mem o there)]

theorem operatorAppend (filled : cs ≠ []) (ends : ∀ d ∈ after.head?, d ∉ ['=', '*', '&', '|']) :
    operatorLength (cs ++ after) = operatorLength cs := by
  obtain ⟨c, rest, rfl⟩ := List.exists_cons_of_ne_nil filled
  have same : ∀ op ∈ longOperators, op.isPrefixOf (c :: rest ++ after) = op.isPrefixOf (c :: rest) := by
    intro op member
    have tail : ∀ op ∈ longOperators, ∀ d ∈ op.tail, d ∈ ['=', '*', '&', '|'] := by
      simp [longOperators]
    cases op with
    | nil => simp
    | cons o more =>
      simp only [List.cons_append, List.isPrefixOf_cons_cons]
      have same : more.isPrefixOf (rest ++ after) = more.isPrefixOf rest :=
        prefixAppend fun d first there => ends d first (tail _ member d there)
      rw [same]
  have found : (longOperators.find? fun op => op.isPrefixOf (c :: rest ++ after)) =
      longOperators.find? fun op => op.isPrefixOf (c :: rest) := by
    simp only [longOperators, List.mem_cons, List.not_mem_nil, or_false, forall_eq_or_imp, forall_eq] at same
    simp only [longOperators, List.find?_cons, List.find?_nil, same]
  unfold operatorLength
  rw [found]
  rfl

theorem closingAppend {q : Char} (quote : isQuote q = true) (after : List Char) {k : Nat}
    (closed : closingLength? q cs = some k) : k ≤ cs.length ∧ closingLength? q (cs ++ after) = some k := by
  fun_induction closingLength? q cs generalizing k with
  | case1 => contradiction
  | case2 => contradiction
  | case3 c rest line ih =>
    obtain ⟨j, inner, rfl⟩ := Option.map_eq_some_iff.mp closed
    obtain ⟨within, more⟩ := ih inner
    refine ⟨by simp only [List.length_cons]; omega, ?_⟩
    rw [List.cons_append, List.cons_append, closingEscape (by simpa using line), more]
    rfl
  | case4 c rest _ same =>
    cases closed
    cases eq_of_beq same
    exact ⟨by simp, closingQuote quote _⟩
  | case5 => contradiction
  | case6 c rest shape other plain ih =>
    obtain ⟨j, inner, rfl⟩ := Option.map_eq_some_iff.mp closed
    obtain ⟨within, more⟩ := ih inner
    refine ⟨by simp only [List.length_cons]; omega, ?_⟩
    rw [List.cons_append, closingPlain (by simpa using other) (by simpa using plain), more]
    rfl

/-- Does the character go on with a lexeme of the class? -/
def LexemeClass.goesOn : LexemeClass → Char → Bool
  | .blank, d => isBlank d
  | .token .number, d => !endsNumber d
  | .token .op, d => d == '=' || d == '*' || d == '&' || d == '|'
  | .token .name, d => nameChar d
  | .token .string, _ | .token .stop, _ => false

theorem lexemeBounded {cls : LexemeClass} {n : Nat} (found : lexeme? cs = some (cls, n)) : n ≤ cs.length := by
  have measure := lexemeMeasure found
  rcases cls with _ | kind
  · exact measure ▸ (List.takeWhile_prefix _).length_le
  cases kind with
  | number => exact measure ▸ numberWithin cs
  | string =>
    obtain ⟨c, rest, rfl, _⟩ := lexemePositive found
    have quote : isQuote c = true := lexemeHead found
    rw [lexemeQuoted quote] at found
    obtain ⟨k, closed, same⟩ := Option.map_eq_some_iff.mp found
    obtain rfl : k + 1 = n := congrArg Prod.snd same
    exact Nat.succ_le_succ (closingAppend quote [] closed).1
  | op => exact measure ▸ operatorWithin cs
  | name => exact measure ▸ nameWithin cs
  | stop => exact measure.elim

/-- A lexeme is the same in a longer text, if the number that it may be ends and the new text does not go on
with it. -/
theorem lexemeAppend {cls : LexemeClass} {n : Nat} (found : lexeme? cs = some (cls, n))
    (inside : cls = .token .number → ∀ d ∈ (cs.drop n).head?, endsNumber d = true)
    (ends : cls = .token .op ∨ n = cs.length → ∀ d ∈ after.head?, cls.goesOn d = false) :
    lexeme? (cs ++ after) = some (cls, n) := by
  obtain ⟨c, rest, rfl, positive⟩ := lexemePositive found
  have head := lexemeHead found
  obtain ⟨_, measure⟩ := lexemeFacts found
  rcases measure with ⟨rfl, rfl⟩ | ⟨rfl, rfl⟩ | ⟨rfl, quoted⟩ | ⟨rfl, rfl⟩ | ⟨rfl, rfl⟩
  · rw [List.cons_append, lexemeBlank head, ← List.cons_append,
      runAppend (p := isBlank) fun all d first => ends (.inr all) d first]
  · have within := numberWithin (c :: rest)
    have blank : isBlank c = false := numberHead head
    have length : numberLength (c :: rest ++ after) = numberLength (c :: rest) := by
      refine numberAppend positive fun d first => ?_
      rw [List.drop_append_of_le_length within, List.head?_append] at first
      cases left : ((c :: rest).drop (numberLength (c :: rest))).head? with
      | some e =>
        rw [left] at first
        exact inside rfl d (left.trans first)
      | none =>
        rw [left] at first
        have all : numberLength (c :: rest) = (c :: rest).length := by
          have := List.drop_eq_nil_iff.mp (List.head?_eq_none_iff.mp left)
          omega
        simpa [LexemeClass.goesOn] using ends (.inr all) d first
    rw [← length] at positive ⊢
    exact lexemeNumber blank positive
  · rw [lexemeQuoted head] at found
    obtain ⟨k, closed, same⟩ := Option.map_eq_some_iff.mp found
    obtain rfl : k + 1 = n := congrArg Prod.snd same
    rw [List.cons_append, lexemeQuoted head, (closingAppend head after closed).2]
    rfl
  · have length : operatorLength (c :: rest ++ after) = operatorLength (c :: rest) :=
      operatorAppend (by simp) fun d first => by simpa [LexemeClass.goesOn, and_assoc] using ends (.inl rfl) d first
    rw [← length] at positive ⊢
    exact lexemeOperator head positive
  · rw [List.cons_append, lexemeName head]
    have starts : startsName c = true := head
    simp only [nameLength, starts, if_true] at ends ⊢
    rw [runAppend (p := fun d => startsName d || d.isDigit) fun all d first =>
      ends (.inr (by rw [all, List.length_cons, Nat.add_comm])) d first]
end

/-! Parts of texts -/

/-- Before what comes after it, the part is scanned to the tokens. -/
def Scans (part after : List Char) (position : Nat) (us : List Token) : Prop :=
  scan position (part ++ after) = (scan (position + part.length) after).map (us ++ ·)

namespace Scans
variable {part other after : List Char} {position : Nat} {us vs : List Token}

theorem append (first : Scans part (other ++ after) position us)
    (second : Scans other after (position + part.length) vs) : Scans (part ++ other) after position (us ++ vs) := by
  unfold Scans at *
  rw [List.append_assoc, first, second, List.length_append, Nat.add_assoc]
  cases scan (position + (part.length + other.length)) after with
  | error fault => rfl
  | ok ts => exact congrArg Except.ok (List.append_assoc us vs ts).symm

theorem cons {c : Char} (first : Scans [c] (other ++ after) position us)
    (second : Scans other after (position + 1) vs) : Scans (c :: other) after position (us ++ vs) :=
  append first second

theorem lexeme {kind : TokenKind} (found : lexeme? (part ++ after) = some (.token kind, part.length)) :
    Scans part after position [Token.ofLexeme kind (String.ofList part) position] := by
  have scanned := scanToken found position
  rwa [List.drop_left, List.take_left] at scanned

theorem mark {c : Char} (mark : c ∈ marks) (single : operatorLength (c :: after) = 1) :
    Scans [c] after position [⟨.op, String.ofList [c], position⟩] := by
  have found : lexeme? ([c] ++ after) = some (.token .op, [c].length) := by
    rw [List.singleton_append, lexemeOperator mark (by omega), single]
    rfl
  exact lexeme found

theorem blank {c : Char} (blank : isBlank c = true) : Scans [c] after position [] := by
  have whole (cs : List Char) (position : Nat) : scan position cs =
      scan (position + (cs.takeWhile isBlank).length) (cs.drop (cs.takeWhile isBlank).length) := by
    cases cs with
    | nil => rfl
    | cons d rest =>
      by_cases more : isBlank d = true
      · exact scanBlank (lexemeBlank more rest) position
      · simp [more]
  unfold Scans
  rw [List.singleton_append, whole, whole after]
  simp only [List.takeWhile_cons, blank, if_true, List.length_cons, List.drop_succ_cons, List.length_nil]
  rw [Nat.zero_add, Nat.add_assoc position 1, Nat.add_comm 1]
  cases scan _ _ <;> rfl

theorem whole (scans : Scans part [] position us) :
    scan position part = .ok (us ++ [⟨.stop, "", position + part.length⟩]) := by
  unfold Scans at scans
  rw [List.append_nil] at scans
  rw [scans, scan]
  rfl

end Scans

end Expression
end DecisionRules
