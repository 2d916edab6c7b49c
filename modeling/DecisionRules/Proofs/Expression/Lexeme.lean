import DecisionRules.Proofs.Expression.Reading

/-! How far a lexeme reaches. Blanks, numbers and operators stop before a quote and before the word null,
so what comes after does not matter to them; a name stops before a quote only. -/
namespace DecisionRules.Expression
open Text (isBlank isDecimal)

def isQuote (c : Char) : Bool := c == '"' || c == '\''

theorem quoteFacts {q : Char} (quote : isQuote q = true) : q = '"' ∨ q = '\'' := by
  simpa [isQuote] using quote

/-- The end of a text, or the word null or a quote with whatever comes after. -/
inductive Stops : List Char → Prop where
  | done : Stops []
  | word (cs : List Char) : Stops ('n' :: 'u' :: 'l' :: 'l' :: cs)
  | quote {q : Char} (quote : isQuote q = true) (cs : List Char) : Stops (q :: cs)

theorem stopsHead {tail : List Char} (stops : Stops tail) :
    ∀ c ∈ tail.head?, c = 'n' ∨ c = '"' ∨ c = '\'' := by
  cases stops with
  | done => simp
  | word => simp
  | quote quote => simpa using .inr (quoteFacts quote)

theorem runStops {p : Char → Bool} (letter : p 'n' = false) (quote : p '"' = false)
    (apostrophe : p '\'' = false) {tail : List Char} (stops : Stops tail) (front : List Char) :
    (front ++ tail).takeWhile p = front.takeWhile p := by
  induction front with
  | nil =>
    cases tail with
    | nil => rfl
    | cons c rest =>
      rcases stopsHead stops c rfl with rfl | rfl | rfl
      · simp [letter]
      · simp [quote]
      · simp [apostrophe]
  | cons c rest ih => simp only [List.cons_append, List.takeWhile_cons, ih]

theorem digitRunStops {tail : List Char} (stops : Stops tail) (front : List Char) :
    digitRun (front ++ tail) = digitRun front := by
  unfold digitRun
  rw [runStops (by decide) (by decide) (by decide) stops]

theorem digitRunWithin (cs : List Char) : digitRun cs ≤ cs.length :=
  (List.takeWhile_prefix _).length_le

theorem exponentStops {tail : List Char} (stops : Stops tail) (front : List Char) :
    exponentLength (front ++ tail) = exponentLength front := by
  have none := digitRunStops stops []
  match front with
  | [] =>
    cases tail with
    | nil => rfl
    | cons d more => rcases stopsHead stops d rfl with rfl | rfl | rfl <;> rfl
  | [c] =>
    cases tail with
    | nil => rfl
    | cons d more =>
      have digits : digitRun (d :: more) = 0 := by simpa [digitRun] using none
      rcases stopsHead stops d rfl with rfl | rfl | rfl <;> simp [exponentLength, digits]
  | c :: s :: more =>
    have rest := digitRunStops stops (s :: more)
    have last := digitRunStops stops more
    simp only [List.cons_append] at rest
    simp only [exponentLength, List.cons_append, rest, last]

theorem exponentWithin (cs : List Char) : exponentLength cs ≤ cs.length := by
  unfold exponentLength
  match cs with
  | [] => simp
  | [c] => simp
  | c :: s :: more =>
    have rest := digitRunWithin (s :: more)
    have last := digitRunWithin more
    simp only [List.length_cons] at *
    repeat' split
    all_goals omega

theorem mantissaWithin (cs : List Char) : mantissaLength cs ≤ cs.length := by
  unfold mantissaLength
  have whole := digitRunWithin cs
  dsimp only
  split
  · rename_i rest shape
    have after := digitRunWithin rest
    have len := congrArg List.length shape
    simp only [List.length_drop, List.length_cons] at len
    split <;> omega
  · exact whole

theorem mantissaStops {tail : List Char} (stops : Stops tail) (front : List Char) :
    mantissaLength (front ++ tail) = mantissaLength front := by
  unfold mantissaLength
  dsimp only
  rw [digitRunStops stops, List.drop_append_of_le_length (digitRunWithin front)]
  cases front.drop (digitRun front) with
  | nil =>
    cases tail with
    | nil => rfl
    | cons c more => rcases stopsHead stops c rfl with rfl | rfl | rfl <;> rfl
  | cons c rest =>
    by_cases point : c = '.'
    · subst point
      simp only [List.cons_append, digitRunStops stops]
    · simp [point]

theorem numberStops {tail : List Char} (stops : Stops tail) (front : List Char) :
    numberLength (front ++ tail) = numberLength front := by
  unfold numberLength
  dsimp only
  rw [mantissaStops stops, List.drop_append_of_le_length (mantissaWithin front), exponentStops stops]

theorem numberWithin (cs : List Char) : numberLength cs ≤ cs.length := by
  unfold numberLength
  have whole := mantissaWithin cs
  have more := exponentWithin (cs.drop (mantissaLength cs))
  rw [List.length_drop] at more
  dsimp only
  split <;> omega

theorem isPrefixStops {tail op : List Char} (stops : Stops tail) (letter : 'n' ∉ op) (quote : '"' ∉ op)
    (apostrophe : '\'' ∉ op) (front : List Char) :
    op.isPrefixOf (front ++ tail) = op.isPrefixOf front := by
  induction op generalizing front with
  | nil => simp
  | cons c rest ih =>
    simp only [List.mem_cons, not_or] at letter quote apostrophe
    cases front with
    | nil =>
      cases tail with
      | nil => rfl
      | cons d more =>
        rcases stopsHead stops d rfl with rfl | rfl | rfl
        · simp [List.isPrefixOf_cons_cons, Ne.symm letter.1]
        · simp [List.isPrefixOf_cons_cons, Ne.symm quote.1]
        · simp [List.isPrefixOf_cons_cons, Ne.symm apostrophe.1]
    | cons d front =>
      simp only [List.cons_append, List.isPrefixOf_cons_cons, ih letter.2 quote.2 apostrophe.2 front]

theorem operatorStops {tail : List Char} (stops : Stops tail) (front : List Char) :
    operatorLength (front ++ tail) = operatorLength front := by
  have same : ∀ op ∈ longOperators, op.isPrefixOf (front ++ tail) = op.isPrefixOf front := by
    intro op member
    have plain : 'n' ∉ op ∧ '"' ∉ op ∧ '\'' ∉ op := by
      revert op
      decide
    exact isPrefixStops stops plain.1 plain.2.1 plain.2.2 front
  have found : (longOperators.find? fun op => op.isPrefixOf (front ++ tail)) =
      longOperators.find? fun op => op.isPrefixOf front := by
    simp only [longOperators, List.mem_cons, List.not_mem_nil, or_false, forall_eq_or_imp,
      forall_eq] at same
    simp only [longOperators, List.find?_cons, List.find?_nil, same]
  unfold operatorLength
  rw [found]
  cases front with
  | nil =>
    cases tail with
    | nil => rfl
    | cons c more => rcases stopsHead stops c rfl with rfl | rfl | rfl <;> rfl
  | cons c rest => rfl

theorem operatorWithin (cs : List Char) : operatorLength cs ≤ cs.length := by
  unfold operatorLength
  split
  · rename_i op found
    have front := List.find?_some found
    exact (List.isPrefixOf_iff_prefix.mp front).length_le
  · split
    · split <;> simp
    · simp

theorem nameWithin (cs : List Char) : nameLength cs ≤ cs.length := by
  unfold nameLength
  split
  · rename_i c rest
    have run := (List.takeWhile_prefix (l := rest) fun d => startsName d || d.isDigit).length_le
    simp only [List.length_cons]
    split <;> omega
  · simp

theorem runShort {p : Char → Bool} {front tail other : List Char}
    (short : ((front ++ tail).takeWhile p).length ≤ front.length) (ends : ∀ c ∈ other.head?, p c = false) :
    (front ++ other).takeWhile p = (front ++ tail).takeWhile p := by
  induction front with
  | nil =>
    have none : tail.takeWhile p = [] := List.eq_nil_of_length_eq_zero (by simpa using short)
    cases other with
    | nil => simp [none]
    | cons c rest => simp [none, ends c rfl]
  | cons c rest ih =>
    simp only [List.cons_append, List.takeWhile_cons] at short ⊢
    cases holds : p c
    · rfl
    · simp only [holds, if_true, List.length_cons] at short ⊢
      rw [ih (by omega)]

theorem nameShort {front tail other : List Char} (filled : front ≠ [])
    (short : nameLength (front ++ tail) ≤ front.length)
    (ends : ∀ c ∈ other.head?, (startsName c || c.isDigit) = false) :
    nameLength (front ++ other) = nameLength (front ++ tail) := by
  cases front with
  | nil => contradiction
  | cons c rest =>
    simp only [List.cons_append, nameLength] at short ⊢
    cases starts : startsName c
    · rfl
    · simp only [starts, if_true, List.length_cons] at short ⊢
      have inside : ((rest ++ tail).takeWhile fun d => startsName d || d.isDigit).length ≤
          rest.length := by omega
      rw [runShort inside ends]

theorem lexemeFacts {cs : List Char} {cls : LexemeClass} {n : Nat} (found : lexeme? cs = some (cls, n)) :
    0 < n ∧ (cls = .blank ∧ n = (cs.takeWhile isBlank).length ∨
      cls = .token .number ∧ n = numberLength cs ∨ cls = .token .string ∧ stringLength? cs = some n ∨
      cls = .token .op ∧ n = operatorLength cs ∨ cls = .token .name ∧ n = nameLength cs) := by
  unfold lexeme? at found
  dsimp only at found
  split at found
  · rename_i some
    cases found
    exact ⟨by simp only [bne_iff_ne] at some; omega, .inl ⟨rfl, rfl⟩⟩
  · split at found
    · rename_i some
      cases found
      exact ⟨by simp only [bne_iff_ne] at some; omega, .inr (.inl ⟨rfl, rfl⟩)⟩
    · split at found
      · rename_i quoted
        cases found
        refine ⟨?_, .inr (.inr (.inl ⟨rfl, quoted⟩))⟩
        unfold stringLength? at quoted
        split at quoted
        · split at quoted
          · obtain ⟨k, _, rfl⟩ := Option.map_eq_some_iff.mp quoted
            omega
          · contradiction
        · contradiction
      · split at found
        · rename_i some
          cases found
          exact ⟨by simp only [bne_iff_ne] at some; omega, .inr (.inr (.inr (.inl ⟨rfl, rfl⟩)))⟩
        · split at found
          · rename_i some
            cases found
            exact ⟨by simp only [bne_iff_ne] at some; omega, .inr (.inr (.inr (.inr ⟨rfl, rfl⟩)))⟩
          · contradiction

/-- How long a lexeme of a class is. -/
def LexemeClass.Measures : LexemeClass → List Char → Nat → Prop
  | .blank, cs, n => n = (cs.takeWhile isBlank).length
  | .token .number, cs, n => n = numberLength cs
  | .token .string, cs, n => stringLength? cs = some n
  | .token .op, cs, n => n = operatorLength cs
  | .token .name, cs, n => n = nameLength cs
  | .token .stop, _, _ => False

theorem lexemeMeasure {cs : List Char} {cls : LexemeClass} {n : Nat} (found : lexeme? cs = some (cls, n)) :
    cls.Measures cs n := by
  rcases (lexemeFacts found).2 with ⟨rfl, same⟩ | ⟨rfl, same⟩ | ⟨rfl, same⟩ | ⟨rfl, same⟩ | ⟨rfl, same⟩ <;> exact same

theorem nameFacts {cs : List Char} {n : Nat} (found : lexeme? cs = some (.token .name, n)) :
    n = nameLength cs := lexemeMeasure found

theorem stringLengthPlain {c : Char} (plain : isQuote c = false) (rest : List Char) :
    stringLength? (c :: rest) = none := by
  unfold isQuote at plain
  simp only [stringLength?, plain, Bool.false_eq_true, if_false]

theorem quoteStops {other : List Char} (ends : ∀ d ∈ other.head?, isQuote d = true) : Stops other := by
  cases other with
  | nil => exact .done
  | cons d rest => exact .quote (ends d rfl) rest

theorem lexemeWithin {c : Char} {rest tail : List Char} {cls : LexemeClass} {n : Nat}
    (plain : isQuote c = false) (stops : Stops tail)
    (found : lexeme? (c :: rest ++ tail) = some (cls, n)) (other : cls ≠ .token .name) :
    n ≤ (c :: rest).length := by
  rcases (lexemeFacts found).2 with ⟨_, rfl⟩ | ⟨_, rfl⟩ | ⟨_, quoted⟩ | ⟨_, rfl⟩ | ⟨same, _⟩
  · rw [runStops (by decide) (by decide) (by decide) stops]
    exact (List.takeWhile_prefix _).length_le
  · rw [numberStops stops]
    exact numberWithin _
  · rw [List.cons_append, stringLengthPlain plain] at quoted
    contradiction
  · rw [operatorStops stops]
    exact operatorWithin _
  · exact absurd same other

theorem lexemeAgrees {c : Char} {rest tail other : List Char} {cls : LexemeClass} {n : Nat}
    (plain : isQuote c = false) (stops : Stops tail) (ends : ∀ d ∈ other.head?, isQuote d = true)
    (found : lexeme? (c :: rest ++ tail) = some (cls, n)) (short : n ≤ (c :: rest).length) :
    lexeme? (c :: rest ++ other) = some (cls, n) := by
  have stops' := quoteStops ends
  have name : cls = .token .name → nameLength (c :: rest ++ other) = nameLength (c :: rest ++ tail) := by
    rintro rfl
    refine nameShort (by simp) (nameFacts found ▸ short) fun d head => ?_
    rcases quoteFacts (ends d head) with rfl | rfl <;> decide
  have blanks : (c :: rest ++ other).takeWhile isBlank = (c :: rest ++ tail).takeWhile isBlank :=
    (runStops (by decide) (by decide) (by decide) stops' _).trans (runStops (by decide) (by decide) (by decide) stops _).symm
  have numbers : numberLength (c :: rest ++ other) = numberLength (c :: rest ++ tail) :=
    (numberStops stops' _).trans (numberStops stops _).symm
  have operators : operatorLength (c :: rest ++ other) = operatorLength (c :: rest ++ tail) :=
    (operatorStops stops' _).trans (operatorStops stops _).symm
  have quoted : stringLength? (c :: rest ++ other) = none := stringLengthPlain plain _
  have quoted' : stringLength? (c :: rest ++ tail) = none := stringLengthPlain plain _
  unfold lexeme? at found ⊢
  rw [blanks, numbers, operators, quoted]
  rw [quoted'] at found
  dsimp only at found ⊢
  split at found
  · rename_i some
    rw [if_pos some, found]
  · rename_i none
    rw [if_neg none]
    split at found
    · rename_i some
      rw [if_pos some, found]
    · rename_i none
      rw [if_neg none]
      split at found
      · rename_i some
        rw [if_pos some, found]
      · rename_i none
        rw [if_neg none]
        split at found
        · rename_i some
          cases found
          rw [name rfl, if_pos some]
        · contradiction

theorem lexemeQuoted {q : Char} (quote : isQuote q = true) (cs : List Char) :
    lexeme? (q :: cs) = (closingLength? q cs).map fun k => (.token .string, k + 1) := by
  have blank : isBlank q = false := by rcases quoteFacts quote with rfl | rfl <;> decide
  have number : numberLength (q :: cs) = 0 := by rcases quoteFacts quote with rfl | rfl <;> rfl
  have others : operatorLength (q :: cs) = 0 ∧ nameLength (q :: cs) = 0 := by
    rcases quoteFacts quote with rfl | rfl <;> exact ⟨rfl, rfl⟩
  have quoted : stringLength? (q :: cs) = (closingLength? q cs).map (· + 1) := by
    simp only [isQuote] at quote
    simp only [stringLength?, quote, if_true]
  unfold lexeme?
  simp only [List.takeWhile_cons, blank, number, others.1, others.2, quoted]
  cases closingLength? q cs <;> rfl

theorem lexemeStars (cs : List Char) : lexeme? ('*' :: '*' :: cs) = some (.token .op, 2) := rfl

theorem lexemeWord (cs : List Char) : lexeme? ('n' :: 'u' :: 'l' :: 'l' :: cs) =
    some (.token .name, nameLength ('n' :: 'u' :: 'l' :: 'l' :: cs)) := by
  have blanks : ('n' :: 'u' :: 'l' :: 'l' :: cs).takeWhile isBlank = [] := rfl
  have number : numberLength ('n' :: 'u' :: 'l' :: 'l' :: cs) = 0 := rfl
  have quoted : stringLength? ('n' :: 'u' :: 'l' :: 'l' :: cs) = none := rfl
  have operator : operatorLength ('n' :: 'u' :: 'l' :: 'l' :: cs) = 0 := rfl
  have name : (nameLength ('n' :: 'u' :: 'l' :: 'l' :: cs) != 0) = true := by
    simp [nameLength, show startsName 'n' = true from rfl]
  unfold lexeme?
  simp only [blanks, number, quoted, operator, name]
  rfl

theorem lexemePositive {cs : List Char} {cls : LexemeClass} {n : Nat}
    (found : lexeme? cs = some (cls, n)) : ∃ c rest, cs = c :: rest ∧ 0 < n := by
  cases cs with
  | nil => contradiction
  | cons c rest => exact ⟨c, rest, rfl, (lexemeFacts found).1⟩

theorem scanBlank {cs : List Char} {n : Nat} (found : lexeme? cs = some (.blank, n)) (position : Nat) :
    scan position cs = scan (position + n) (cs.drop n) := by
  obtain ⟨c, rest, rfl, positive⟩ := lexemePositive found
  obtain ⟨m, rfl⟩ : ∃ m, n = m + 1 := ⟨n - 1, by omega⟩
  rw [scan]
  simp only [found, Nat.max_eq_left positive, List.drop_succ_cons, Nat.add_sub_cancel]
  exact bind_pure _

theorem scanToken {cs : List Char} {kind : TokenKind} {n : Nat}
    (found : lexeme? cs = some (.token kind, n)) (position : Nat) :
    scan position cs = (scan (position + n) (cs.drop n)).map
      (Token.ofLexeme kind (String.ofList (cs.take n)) position :: ·) := by
  obtain ⟨c, rest, rfl, positive⟩ := lexemePositive found
  obtain ⟨m, rfl⟩ : ∃ m, n = m + 1 := ⟨n - 1, by omega⟩
  rw [scan]
  simp only [found, Nat.max_eq_left positive, List.drop_succ_cons, Nat.add_sub_cancel]
  cases scan (position + (m + 1)) (rest.drop m) <;> rfl

def knownWords : List String :=
  ["and", "or", "not", "in", "true", "True", "false", "False", "null", "None", "undefined"]

theorem knownWord {text : String} {position : Nat}
    (known : (Token.ofLexeme .name text position).Known) : text ∈ knownWords := by
  unfold Token.ofLexeme wordOperator? at known
  unfold knownWords
  split at known
  · rename_i found
    split at found <;> simp_all
  · rcases known with kind | ⟨v, value⟩
    · contradiction
    · simp only [Token.value?, keyword?] at value
      split at value <;> simp_all

/-- A word that writes something holds null only as a whole. -/
theorem nullAlone {text : String} {position : Nat} (known : (Token.ofLexeme .name text position).Known)
    {front back : List Char} (shape : text.toList = front ++ ('n' :: 'u' :: 'l' :: 'l' :: back)) :
    front = [] ∧ back = [] := by
  have only : ∀ w ∈ knownWords, w.toList.length < 10 ∧ ∀ i < 10,
      ['n', 'u', 'l', 'l'].isPrefixOf (w.toList.drop i) = true → i = 0 ∧ w.toList.length = 4 := by decide
  obtain ⟨short, alone⟩ := only text (knownWord known)
  have size := congrArg List.length shape
  simp only [List.length_append, List.length_cons] at size
  obtain ⟨first, length⟩ := alone front.length (by omega) (by simp [shape])
  exact ⟨List.eq_nil_of_length_eq_zero first, List.eq_nil_of_length_eq_zero (by omega)⟩

theorem runBefore {p : Char → Bool} {c : Char} (ends : p c = false) (front rest : List Char) :
    ((front ++ c :: rest).takeWhile p).length ≤ front.length := by
  induction front with
  | nil => simp [ends]
  | cons d front ih =>
    simp only [List.cons_append, List.takeWhile_cons]
    split
    · simpa using ih
    · simp

theorem nameBeforeQuote {q : Char} (quote : isQuote q = true) {front : List Char} (filled : front ≠ [])
    (cs : List Char) : nameLength (front ++ q :: cs) ≤ front.length := by
  cases front with
  | nil => contradiction
  | cons c rest =>
    have ends : (startsName q || q.isDigit) = false := by rcases quoteFacts quote with rfl | rfl <;> rfl
    have run := runBefore (p := fun d => startsName d || d.isDigit) ends rest cs
    simp only [List.cons_append, nameLength, List.length_cons]
    split <;> omega

theorem nameThroughNull {front cs : List Char} (filled : front ≠ [])
    (long : front.length < nameLength (front ++ 'n' :: 'u' :: 'l' :: 'l' :: cs)) :
    ∃ back, (front ++ 'n' :: 'u' :: 'l' :: 'l' :: cs).take
      (nameLength (front ++ 'n' :: 'u' :: 'l' :: 'l' :: cs)) = front ++ 'n' :: 'u' :: 'l' :: 'l' :: back := by
  cases front with
  | nil => contradiction
  | cons c rest =>
    simp only [List.cons_append, nameLength, List.length_cons] at long ⊢
    split at long
    · rename_i starts
      rw [if_pos starts, List.takeWhile_append] at *
      split at long
      · rename_i whole
        rw [if_pos whole]
        refine ⟨cs.takeWhile fun d => startsName d || d.isDigit, ?_⟩
        have word : ('n' :: 'u' :: 'l' :: 'l' :: cs).takeWhile (fun d => startsName d || d.isDigit) =
            'n' :: 'u' :: 'l' :: 'l' :: cs.takeWhile fun d => startsName d || d.isDigit := rfl
        rw [word, Nat.add_comm, List.take_succ_cons, List.length_append, List.take_length_add_append]
        have run := List.prefix_iff_eq_take.mp (List.takeWhile_prefix (l := cs) fun d => startsName d || d.isDigit)
        simp only [List.length_cons, List.take_succ_cons, ← run]
      · have within := (List.takeWhile_prefix (l := rest) fun d => startsName d || d.isDigit).length_le
        omega
    · omega

theorem nameBefore {front tail : List Char} {n position : Nat} (filled : front ≠ []) (stops : Stops tail)
    (found : lexeme? (front ++ tail) = some (.token .name, n))
    (known : (Token.ofLexeme .name (String.ofList ((front ++ tail).take n)) position).Known) :
    n ≤ front.length := by
  obtain rfl := nameFacts found
  cases stops with
  | done =>
    rw [List.append_nil]
    exact nameWithin front
  | quote quote cs => exact nameBeforeQuote quote filled cs
  | word cs =>
    by_cases short : nameLength (front ++ 'n' :: 'u' :: 'l' :: 'l' :: cs) ≤ front.length
    · exact short
    · obtain ⟨back, shape⟩ := nameThroughNull filled (Nat.lt_of_not_le short)
      rw [shape] at known
      exact absurd (nullAlone known String.toList_ofList).1 filled

theorem nullLength {cs : List Char} {position : Nat}
    (known : (Token.ofLexeme .name (String.ofList (('n' :: 'u' :: 'l' :: 'l' :: cs).take
      (nameLength ('n' :: 'u' :: 'l' :: 'l' :: cs)))) position).Known) :
    nameLength ('n' :: 'u' :: 'l' :: 'l' :: cs) = 4 := by
  have length : nameLength ('n' :: 'u' :: 'l' :: 'l' :: cs) =
      (cs.takeWhile fun d => startsName d || d.isDigit).length + 4 := Nat.add_comm _ _
  rw [length] at known ⊢
  have shape : (String.ofList (('n' :: 'u' :: 'l' :: 'l' :: cs).take
      ((cs.takeWhile fun d => startsName d || d.isDigit).length + 4))).toList =
      [] ++ 'n' :: 'u' :: 'l' :: 'l' :: cs.take (cs.takeWhile fun d => startsName d || d.isDigit).length :=
    String.toList_ofList
  have none := (nullAlone known shape).2
  rw [List.prefix_iff_eq_take.mp (List.takeWhile_prefix _), none]
  rfl

theorem scanLexeme {cs : List Char} {position : Nat} {ts : List Token} (scanned : scan position cs = .ok ts)
    (filled : cs ≠ []) : ∃ cls n, lexeme? cs = some (cls, n) := by
  cases cs with
  | nil => contradiction
  | cons c rest =>
    cases found : lexeme? (c :: rest) with
    | none =>
      rw [scan] at scanned
      simp only [found] at scanned
      contradiction
    | some lexeme => exact ⟨lexeme.1, lexeme.2, rfl⟩

theorem ofLexemeAlike (kind : TokenKind) (text : String) (position other : Nat) :
    (Token.ofLexeme kind text position).kind = (Token.ofLexeme kind text other).kind ∧
    (Token.ofLexeme kind text position).text = (Token.ofLexeme kind text other).text := by
  unfold Token.ofLexeme
  split <;> exact ⟨rfl, rfl⟩

theorem lexemeKind {cs : List Char} {kind : TokenKind} {n : Nat}
    (found : lexeme? cs = some (.token kind, n)) (text : String) (position : Nat) :
    (Token.ofLexeme kind text position).kind ≠ .stop := by
  have other : kind ≠ .stop := by
    rintro rfl
    rcases (lexemeFacts found).2 with ⟨same, _⟩ | ⟨same, _⟩ | ⟨same, _⟩ | ⟨same, _⟩ | ⟨same, _⟩ <;>
      contradiction
  unfold Token.ofLexeme
  split
  · simp
  · exact other

theorem scanEnds (cs : List Char) {position : Nat} {ts : List Token} (scanned : scan position cs = .ok ts) :
    ∃ body last, ts = body ++ [last] ∧ last.kind = .stop ∧ ∀ t ∈ body, t.kind ≠ .stop := by
  match cs with
  | [] =>
    rw [scan] at scanned
    cases scanned
    exact ⟨[], _, rfl, rfl, by simp⟩
  | c :: rest =>
    obtain ⟨cls, n, found⟩ := scanLexeme scanned (by simp)
    have positive := (lexemeFacts found).1
    cases cls with
    | blank =>
      rw [scanBlank found] at scanned
      exact scanEnds _ scanned
    | token kind =>
      rw [scanToken found] at scanned
      obtain ⟨more, after, rfl⟩ := mapAccepts.mp scanned
      obtain ⟨body, last, rfl, ends, others⟩ := scanEnds _ after
      exact ⟨_ :: body, last, rfl, ends, by simpa using ⟨lexemeKind found _ _, others⟩⟩
termination_by cs.length
decreasing_by all_goals simp only [List.length_drop, List.length_cons]; omega

end DecisionRules.Expression
