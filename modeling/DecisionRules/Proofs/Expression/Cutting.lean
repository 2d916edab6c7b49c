import DecisionRules.Proofs.Expression.Embedding
import Mathlib.Data.List.Chain

/-! Runs of an expression text that end in an operator. The tokens of a run stay the same before whatever does not
go on with that operator, and a digit after a word makes another word of it, which means nothing. -/
namespace DecisionRules.Expression
open Text (isBlank)

/-- The characters are cut into these tokens, with blanks between them. -/
inductive Cuts : Nat → List Char → List Token → Prop where
  | done {position} : Cuts position [] []
  | blank {position part rest ts} (found : lexeme? (part ++ rest) = some (.blank, part.length))
      (tail : Cuts (position + part.length) rest ts) : Cuts position (part ++ rest) ts
  | token {position kind part rest ts} (found : lexeme? (part ++ rest) = some (.token kind, part.length))
      (tail : Cuts (position + part.length) rest ts) :
      Cuts position (part ++ rest) (.ofLexeme kind (String.ofList part) position :: ts)

theorem scanCuts (cs : List Char) {position : Nat} {us : List Token} (scanned : scan position cs = .ok us) :
    ∃ ts last, us = ts ++ [last] ∧ last.kind = .stop ∧ Cuts position cs ts := by
  match cs with
  | [] =>
    rw [scan] at scanned
    cases scanned
    exact ⟨[], _, rfl, rfl, .done⟩
  | c :: rest =>
    obtain ⟨cls, n, found⟩ := scanLexeme scanned (by simp)
    have positive := (lexemeFacts found).1
    have length : ((c :: rest).take n).length = n := List.length_take_of_le (lexemeBounded found)
    have parts := List.take_append_drop n (c :: rest)
    cases cls with
    | blank =>
      rw [scanBlank found] at scanned
      obtain ⟨ts, last, rfl, stop, cuts⟩ := scanCuts _ scanned
      refine ⟨ts, last, rfl, stop, parts ▸ .blank (by rw [parts, length, found]) ?_⟩
      rwa [length]
    | token kind =>
      rw [scanToken found] at scanned
      obtain ⟨more, after, rfl⟩ := mapAccepts.mp scanned
      obtain ⟨ts, last, rfl, stop, cuts⟩ := scanCuts _ after
      refine ⟨_ :: ts, last, rfl, stop, ?_⟩
      have first : lexeme? ((c :: rest).take n ++ (c :: rest).drop n) =
          some (.token kind, ((c :: rest).take n).length) := by rw [parts, length, found]
      have tail : Cuts position ((c :: rest).take n ++ (c :: rest).drop n) _ := .token first (by rwa [length])
      rwa [parts] at tail
termination_by cs.length
decreasing_by all_goals simp only [List.length_drop, List.length_cons]; omega

theorem cutsNone {position : Nat} {cs : List Char} {ts : List Token} (cuts : Cuts position cs ts) (none : cs = []) :
    ts = [] := by
  cases cuts with
  | done => rfl
  | blank found | token found =>
    rw [none] at found
    contradiction

theorem cutsLive {position : Nat} {cs : List Char} {ts : List Token} (cuts : Cuts position cs ts) :
    ∀ t ∈ ts, t.kind ≠ .stop := by
  induction cuts with
  | done => nofun
  | blank _ _ ih => exact ih
  | token found _ ih => exact List.forall_mem_cons.mpr ⟨lexemeKind found _ _, ih⟩

/-- Of two neighbours one is an operator. -/
def Parted (t u : Token) : Prop := t.kind = .op ∨ u.kind = .op

theorem Derives.parted {p : Phrase} {ts : List Token} {e : Expr} (derives : Derives p ts e) : ts.IsChain Parted := by
  have join (ts : List Token) {us : List Token} {t : Token} (op : t.kind = .op) (before : ts.IsChain Parted)
      (after : us.IsChain Parted) : (ts ++ t :: us).IsChain Parted :=
    List.isChain_append.mpr ⟨before, List.isChain_cons.mpr ⟨fun _ _ => .inl op, after⟩, fun _ _ u first =>
      .inr (Option.some.inj first ▸ op)⟩
  induction derives with
  | pass _ _ inner => exact inner
  | chain _ op _ _ _ before after => exact join _ op before after
  | negation word _ operand => exact join [] (isOpFacts.mp word).1 .nil operand
  | sign mark _ operand => exact join [] (isOpFacts.mp mark).1 .nil operand
  | power _ stars _ before after => exact join _ (isOpFacts.mp stars).1 before after
  | literal => exact .singleton _
  | group opens _ closes inside | list opens _ closes inside =>
    exact join [] (isOpFacts.mp opens).1 .nil (join _ (isOpFacts.mp closes).1 inside .nil)
  | noItems opens closes => exact join [] (isOpFacts.mp opens).1 .nil (.singleton _)
  | item _ only => exact only
  | items _ comma _ before after => exact join _ (isOpFacts.mp comma).1 before after

theorem wordHeads {text : String} {position : Nat} (op : (Token.ofLexeme .name text position).kind = .op) :
    text ∈ ["and", "or", "not", "in"] := by
  unfold Token.ofLexeme wordOperator? at op
  split at op
  · rename_i found
    split at found <;> simp_all
  · contradiction

theorem headEnds {position : Nat} {cs : List Char} {ts : List Token} (cuts : Cuts position cs ts)
    (first : ∀ t ∈ ts.head?, t.kind = .op) : ∀ d ∈ cs.head?, endsNumber d = true := by
  intro d head
  cases cuts with
  | done => contradiction
  | @blank _ part rest _ found =>
    obtain ⟨more, shape⟩ : ∃ more, part ++ rest = d :: more := List.head?_eq_some_iff.mp head
    rw [shape] at found
    have blank : isBlank d = true := lexemeHead found
    have others : isBlank '.' = false ∧ isBlank 'e' = false ∧ isBlank 'E' = false := by decide
    have differ {c : Char} (other : isBlank c = false) : d ≠ c := fun same => by
      rw [same, other] at blank
      contradiction
    simp [endsNumber, Text.blankApart blank, differ others.1, differ others.2.1, differ others.2.2]
  | @token _ kind part rest _ found =>
    have op := first _ rfl
    obtain ⟨more, shape⟩ : ∃ more, part ++ rest = d :: more := List.head?_eq_some_iff.mp head
    have positive := (lexemeFacts found).1
    rw [shape] at found
    have heads := lexemeHead found
    cases kind with
    | number | string | stop => contradiction
    | op => exact (marksFacts heads).2.2.2.2
    | name =>
      obtain ⟨c, back, rfl⟩ := List.exists_cons_of_length_pos positive
      obtain rfl : c = d := (List.cons.inj shape).1
      have words : ∀ w ∈ ["and", "or", "not", "in"], w.toList.head?.all endsNumber = true := by decide
      simpa using words _ (wordHeads op)

/-! Runs before what comes after them -/

/-- The character does not go on with the run, which ends in an operator. -/
structure EndsBefore (run : List Char) (ts : List Token) (d : Char) : Prop where
  op : ∀ t ∈ ts.getLast?, t.kind = .op
  blank : isBlank d = false
  mark : LexemeClass.goesOn (.token .op) d = false
  name : nameChar d = true → ∀ c ∈ run.getLast?, nameChar c = false

def Same (ts us : List Token) : Prop := List.Forall₂ (fun t u => u.kind = t.kind ∧ u.text = t.text) ts us

theorem Scans.blanks {part after : List Char} {position : Nat}
    (found : lexeme? (part ++ after) = some (.blank, part.length)) : Scans part after position [] := by
  unfold Scans
  rw [scanBlank found, List.drop_left]
  cases scan _ _ <;> rfl

theorem nameWhole {run : List Char} (found : lexeme? run = some (.token .name, run.length)) :
    ∀ c ∈ run, nameChar c = true := by
  obtain ⟨c, rest, rfl, _⟩ := lexemePositive found
  have starts : startsName c = true := lexemeHead found
  have length := nameFacts found
  simp only [nameLength, starts, if_true, List.length_cons, Nat.add_comm 1, Nat.add_right_cancel_iff] at length
  refine List.forall_mem_cons.mpr ⟨by simp [nameChar, starts], ?_⟩
  exact List.takeWhile_eq_self_iff.mp ((List.takeWhile_prefix _).eq_of_length length.symm)

theorem EndsBefore.rest {part rest : List Char} (more : List Token) {ts : List Token} {d : Char}
    (ends : EndsBefore (part ++ rest) (more ++ ts) d) : EndsBefore rest ts d := by
  refine ⟨fun t last => ends.op t ?_, ends.blank, ends.mark, fun name c last => ends.name name c ?_⟩
  · rw [List.getLast?_append, last]
    rfl
  · rw [List.getLast?_append, last]
    rfl

theorem goesNot {part rest : List Char} {kind : TokenKind} {ts : List Token} {position other : Nat} {d : Char}
    (found : lexeme? (part ++ rest) = some (.token kind, part.length)) (tail : Cuts other rest ts)
    (last : LexemeClass.token kind = .token .op ∨ part.length = (part ++ rest).length)
    (ends : EndsBefore (part ++ rest) (.ofLexeme kind (String.ofList part) position :: ts) d) :
    (LexemeClass.token kind).goesOn d = false := by
  rcases last with op | whole
  · cases op
    exact ends.mark
  · rw [List.length_append, Nat.left_eq_add, List.length_eq_zero_iff] at whole
    subst whole
    obtain rfl := cutsNone tail rfl
    have op := ends.op _ rfl
    cases kind with
    | number => contradiction
    | string | stop => rfl
    | op => exact ends.mark
    | name =>
      rw [List.append_nil] at found ends
      refine Bool.eq_false_iff.mpr fun more => ?_
      obtain ⟨c, rest, rfl, _⟩ := lexemePositive found
      have other := ends.name more _ (List.getLast?_eq_some_getLast (List.cons_ne_nil c rest))
      rw [nameWhole found _ (List.getLast_mem _)] at other
      contradiction

theorem insideEnds {part rest : List Char} {kind : TokenKind} {text : String} {ts : List Token} {position other : Nat}
    (tail : Cuts position rest ts) (first : ∀ u ∈ ts.head?, Parted (.ofLexeme kind text other) u) :
    LexemeClass.token kind = .token .number → ∀ d ∈ ((part ++ rest).drop part.length).head?, endsNumber d = true := by
  rintro ⟨⟩
  rw [List.drop_left]
  exact headEnds tail fun u head => (first u head).resolve_left nofun

theorem runScans {run after : List Char} {position : Nat} {ts : List Token} (cuts : Cuts position run ts)
    (parted : ts.IsChain Parted) (ends : ∀ d ∈ after.head?, EndsBefore run ts d) (other : Nat) :
    ∃ us, Scans run after other us ∧ Same ts us := by
  induction cuts generalizing other with
  | done =>
    refine ⟨[], ?_, .nil⟩
    unfold Scans
    rw [List.nil_append, List.length_nil, Nat.add_zero]
    cases scan other after <;> rfl
  | @blank _ part rest ts found tail ih =>
    obtain ⟨us, scans, same⟩ := ih parted (fun d first => (ends d first).rest []) (other + part.length)
    have found' := lexemeAppend found nofun fun _ d first => (ends d first).blank
    rw [List.append_assoc] at found'
    exact ⟨us, .append (.blanks found') scans, same⟩
  | @token position kind part rest ts found tail ih =>
    obtain ⟨first, parted⟩ := List.isChain_cons.mp parted
    obtain ⟨us, scans, same⟩ := ih parted (fun d head => (ends d head).rest [_]) (other + part.length)
    -- a number ends at the operator after it, and the last lexeme of the run at what follows the run
    have found' := lexemeAppend found (insideEnds tail first) fun last d head =>
      goesNot found tail last (ends d head)
    rw [List.append_assoc] at found'
    exact ⟨_, (Scans.lexeme found').append scans, .cons (ofLexemeAlike kind _ _ _) same⟩

/-! A number that runs into a word -/

theorem operatorWhole {cs : List Char} (found : lexeme? cs = some (.token .op, cs.length)) :
    ∀ c ∈ cs, nameChar c = false := by
  have whole : cs.length = operatorLength cs := lexemeMeasure found
  unfold operatorLength at whole
  split at whole
  · rename_i op found
    have front : op.isPrefixOf cs = true := List.find?_some (p := fun op => List.isPrefixOf op cs) found
    have plain : ∀ op ∈ longOperators, op.any nameChar = false := by decide
    have same := (List.isPrefixOf_iff_prefix.mp front).eq_of_length whole.symm
    simpa only [same, List.any_eq_false, Bool.not_eq_true] using plain op (List.mem_of_find?_eq_some found)
  · cases cs with
    | nil => nofun
    | cons c rest =>
      have plain : shortOperators.any nameChar = false := by decide
      dsimp only at whole
      split at whole
      · rename_i short
        obtain rfl : rest = [] := List.eq_nil_of_length_eq_zero (by simpa using whole)
        have plain := List.any_eq_false.mp plain c (by simpa using short)
        exact List.forall_mem_singleton.mpr (Bool.not_eq_true _ ▸ plain)
      · simp at whole

theorem nameNotBlank {c : Char} (name : nameChar c = true) : isBlank c = false := by
  rcases (Bool.or_eq_true _ _).mp name with starts | digit
  · exact (startsFacts starts).1
  · exact (Number.digitFacts digit).2.2.1

theorem blankWhole {cs : List Char} (found : lexeme? cs = some (.blank, cs.length)) :
    ∀ c ∈ cs, nameChar c = false := by
  have whole : cs.length = (cs.takeWhile isBlank).length := lexemeMeasure found
  intro c member
  have blank := List.takeWhile_eq_self_iff.mp ((List.takeWhile_prefix _).eq_of_length whole.symm) c member
  refine Bool.eq_false_iff.mpr fun name => ?_
  rw [nameNotBlank name] at blank
  contradiction

theorem wordRunsOn {word after : List Char} {d : Char} (digit : d.isDigit = true)
    (found : lexeme? word = some (.token .name, word.length)) {position : Nat} {us : List Token}
    (scanned : scan position (word ++ d :: after) = .ok us) : ∃ u ∈ us, u.kind ≠ .stop ∧ ¬ u.Known := by
  obtain ⟨c, rest, rfl, _⟩ := lexemePositive found
  have names := nameWhole found
  have starts : startsName c = true := lexemeHead found
  have goes : nameChar d = true := by simp [nameChar, digit]
  have length : nameLength (c :: rest ++ d :: after) = (c :: rest ++ d :: after.takeWhile nameChar).length := by
    have run : (rest ++ d :: after).takeWhile nameChar = rest ++ d :: after.takeWhile nameChar := by
      rw [List.takeWhile_append_of_pos fun c member => names c (List.mem_cons_of_mem _ member),
        List.takeWhile_cons_of_pos goes]
    simp only [List.cons_append, nameLength, starts, if_true, List.length_cons, ← run, Nat.add_comm 1]
    rfl
  have found' := lexemeName starts (rest ++ d :: after)
  rw [← List.cons_append, length] at found'
  rw [scanToken found'] at scanned
  obtain ⟨more, _, rfl⟩ := mapAccepts.mp scanned
  refine ⟨_, List.mem_cons_self, lexemeKind found' _ _, fun known => ?_⟩
  have digits : ∀ w ∈ knownWords, w.toList.any Char.isDigit = false := by decide
  have plain := List.any_eq_false.mp (digits _ (knownWord known)) d
  rw [String.toList_ofList, List.length_append, List.take_length_add_append] at plain
  simp [digit] at plain

theorem digitGoesNot {d : Char} (digit : d.isDigit = true) : LexemeClass.goesOn (.token .op) d = false := by
  refine Bool.eq_false_iff.mpr fun more => ?_
  simp only [LexemeClass.goesOn, Bool.or_eq_true, beq_iff_eq] at more
  rcases more with ((rfl | rfl) | rfl) | rfl <;> contradiction

theorem numberRunsOn {run after : List Char} {d : Char} (digit : d.isDigit = true) {position : Nat} {ts : List Token}
    (cuts : Cuts position run ts) (parted : ts.IsChain Parted) (op : ∀ t ∈ ts.getLast?, t.kind = .op)
    {c : Char} (last : run.getLast? = some c) (name : nameChar c = true) {other : Nat} {us : List Token}
    (scanned : scan other (run ++ d :: after) = .ok us) : ∃ u ∈ us, u.kind ≠ .stop ∧ ¬ u.Known := by
  induction cuts generalizing other us with
  | done => contradiction
  | @blank _ part rest ts found tail ih =>
    cases rest with
    | nil =>
      rw [List.append_nil] at found last
      have other := blankWhole found c (List.mem_of_getLast? last)
      rw [name] at other
      contradiction
    | cons e rest =>
      have found' : lexeme? (part ++ e :: rest ++ d :: after) = _ := lexemeAppend found nofun fun whole => ?_
      · rw [List.append_assoc] at found' scanned
        rw [scanBlank found', List.drop_left] at scanned
        exact ih parted op (by simpa [List.getLast?_append] using last) scanned
      · simp at whole
  | @token position kind part rest ts found tail ih =>
    obtain ⟨first, parted⟩ := List.isChain_cons.mp parted
    cases rest with
    | nil =>
      obtain rfl := cutsNone tail rfl
      have op := op _ rfl
      rw [List.append_nil] at found last scanned
      cases kind with
      | number | string | stop => contradiction
      | op =>
        have other := operatorWhole found c (List.mem_of_getLast? last)
        rw [name] at other
        contradiction
      | name => exact wordRunsOn digit found scanned
    | cons e rest =>
      have found' : lexeme? (part ++ e :: rest ++ d :: after) = _ := lexemeAppend found (insideEnds tail first) ?_
      · rw [List.append_assoc] at found' scanned
        rw [scanToken found', List.drop_left] at scanned
        obtain ⟨more, after, rfl⟩ := mapAccepts.mp scanned
        have op' (t : Token) (same : t ∈ ts.getLast?) : t.kind = .op :=
          op t (by simp [List.getLast?_cons, Option.mem_def.mp same])
        obtain ⟨u, member, unknown⟩ := ih parted op' (by simpa [List.getLast?_append] using last) after
        exact ⟨u, List.mem_cons_of_mem _ member, unknown⟩
      · rintro (same | whole)
        · cases same
          rintro _ ⟨⟩
          exact digitGoesNot digit
        · simp at whole

end DecisionRules.Expression
