import DecisionRules.Proofs.Expression.Longest

/-! The layout of expression texts. A text is its tokens as they are written, with blanks between them, and the
tokens depend on the blanks only in that they part what would otherwise be one word. -/
namespace DecisionRules.Expression
open Text (isBlank)

/-! Tokens up to their places -/

theorem Same.symm {ts us : List Token} (same : Same ts us) : Same us ts :=
  same.flip.imp fun _ _ alike => ⟨alike.1.symm, alike.2.symm⟩

theorem sameOp {t : Token} {ts us : List Token} {mark : String} (found : t.isOp mark = true) (same : Same (t :: ts) us) :
    ∃ u vs, us = u :: vs ∧ u.isOp mark = true ∧ Same ts vs := by
  cases same with
  | cons alike rest => exact ⟨_, _, rfl, (isOpAlike alike.1 alike.2 mark).trans found, rest⟩

theorem sameAppend {ts ts' us : List Token} (same : Same (ts ++ ts') us) :
    ∃ vs vs', us = vs ++ vs' ∧ Same ts vs ∧ Same ts' vs' := by
  induction ts generalizing us with
  | nil => exact ⟨[], us, rfl, .nil, same⟩
  | cons t ts ih =>
    cases same with
    | cons alike rest =>
      obtain ⟨vs, vs', rfl, first, second⟩ := ih rest
      exact ⟨_ :: vs, vs', rfl, .cons alike first, second⟩

theorem sameMark {ts ts' us : List Token} {t : Token} {mark : String} (found : t.isOp mark = true)
    (same : Same (ts ++ t :: ts') us) :
    ∃ vs u vs', us = vs ++ u :: vs' ∧ Same ts vs ∧ u.isOp mark = true ∧ Same ts' vs' := by
  obtain ⟨vs, ws, rfl, first, second⟩ := sameAppend same
  obtain ⟨u, vs', rfl, found', rest⟩ := sameOp found second
  exact ⟨vs, u, vs', rfl, first, found', rest⟩

theorem Derives.alike {p : Phrase} {ts us : List Token} {e : Expr} (derives : Derives p ts e) (same : Same ts us) :
    Derives p us e := by
  induction derives generalizing us with
  | pass next _ inner => exact .pass next (inner same)
  | chain next op connects _ _ before last =>
    obtain ⟨vs, ws, rfl, first, second⟩ := sameAppend same
    cases second with
    | cons alike rest =>
      exact .chain next (alike.1.trans op) (alike.2.symm ▸ connects) (before first) (last rest)
  | negation word _ operand =>
    obtain ⟨u, vs, rfl, word', rest⟩ := sameOp word same
    exact .negation word' (operand rest)
  | sign mark _ operand =>
    obtain ⟨u, vs, rfl, mark', rest⟩ := sameOp mark same
    exact .sign mark' (operand rest)
  | power _ stars _ left right =>
    obtain ⟨vs, u, ws, rfl, first, stars', rest⟩ := sameMark stars same
    exact .power (left first) stars' (right rest)
  | literal value =>
    cases same with
    | cons alike rest =>
      cases rest
      exact .literal ((valueAlike alike.1 alike.2).trans value)
  | group opens _ closes inside =>
    obtain ⟨u, vs, rfl, opens', rest⟩ := sameOp opens same
    obtain ⟨vs, w, xs, rfl, first, closes', last⟩ := sameMark closes rest
    cases last
    exact .group opens' (inside first) closes'
  | noItems opens closes =>
    obtain ⟨u, vs, rfl, opens', rest⟩ := sameOp opens same
    obtain ⟨w, xs, rfl, closes', last⟩ := sameOp closes rest
    cases last
    exact .noItems opens' closes'
  | list opens _ closes inside =>
    obtain ⟨u, vs, rfl, opens', rest⟩ := sameOp opens same
    obtain ⟨vs, w, xs, rfl, first, closes', last⟩ := sameMark closes rest
    cases last
    exact .list opens' (inside first) closes'
  | item _ only => exact .item (only same)
  | items _ comma _ before last =>
    obtain ⟨vs, u, ws, rfl, first, comma', rest⟩ := sameMark comma same
    exact .items (before first) comma' (last rest)

theorem tokenizeAccepts {source : String} {ts : List Token} :
    tokenize source = .ok ts ↔ source.toList.length ≤ maxLength ∧ scan 0 source.toList = .ok ts := by
  unfold tokenize
  dsimp only
  split
  · rename_i long
    exact ⟨nofun, fun accepted => absurd accepted.1 (Nat.not_le.mpr long)⟩
  · rename_i room
    exact ⟨fun scanned => ⟨Nat.le_of_not_lt room, scanned⟩, fun accepted => accepted.2⟩

/-- The two texts have the same tokens up to their places, and parse to the same tree if to any. -/
def Agree (source other : String) : Prop :=
  ∃ ts us, tokenize source = .ok ts ∧ tokenize other = .ok us ∧ Same ts us ∧
    ∀ e, parse other = .ok e ↔ parse source = .ok e

theorem sameParses {source other : String} {ts us : List Token} (tokens : tokenize source = .ok ts)
    (tokens' : tokenize other = .ok us) (same : Same ts us) {e : Expr} (parsed : parse source = .ok e) :
    parse other = .ok e := by
  obtain ⟨vs, found, body, last, rfl, stop, derives⟩ := parsedSentence parsed
  cases tokens.symm.trans found
  obtain ⟨ws, ends, rfl, first, second⟩ := sameAppend same
  cases second with
  | cons alike rest =>
    cases rest
    exact sentenceParses tokens' ⟨ws, _, rfl, alike.1.trans stop, derives.alike first⟩

theorem sameAgree {source other : String} {ts us : List Token} (tokens : tokenize source = .ok ts)
    (tokens' : tokenize other = .ok us) (same : Same ts us) : Agree source other :=
  ⟨ts, us, tokens, tokens', same, fun _ => ⟨sameParses tokens' tokens same.symm, sameParses tokens tokens' same⟩⟩

/-! Texts laid out -/

/-- The blanks before a token, and the word that writes it. The end of a text is written by no characters. -/
structure Slot where
  gap : List Char
  word : List Char

def Slot.chars (s : Slot) : List Char := s.gap ++ s.word

def laidOut (slots : List Slot) : List Char := slots.flatMap Slot.chars

def Blanks (gap : List Char) : Prop := ∀ c ∈ gap, isBlank c = true

/-- The words for a token: its text, and for two operators also the word in whose place they stand. -/
inductive Token.Spelled : Token → List Char → Prop where
  | text (t : Token) : Spelled t t.text.toList
  | conjunction {t : Token} (kind : t.kind = .op) (text : t.text = "&&") : Spelled t ['a', 'n', 'd']
  | disjunction {t : Token} (kind : t.kind = .op) (text : t.text = "||") : Spelled t ['o', 'r']

/-- From a place of the text on, the slots hold the tokens. -/
inductive Holds : Nat → List Slot → List Token → Prop where
  | stop {position gap} (blank : Blanks gap) : Holds position [⟨gap, []⟩] [⟨.stop, "", position + gap.length⟩]
  | token {position gap word t slots ts} (blank : Blanks gap) (filled : word ≠ []) (spelled : t.Spelled word)
      (place : t.position = position + gap.length) (tail : Holds (t.position + word.length) slots ts) :
      Holds position (⟨gap, word⟩ :: slots) (t :: ts)

namespace Holds
variable {position : Nat} {slots : List Slot} {ts : List Token}

theorem ahead (holds : Holds position slots ts) : ∀ t ∈ ts, position ≤ t.position := by
  induction holds with
  | stop => simp
  | token _ _ _ place _ ih =>
    refine List.forall_mem_cons.mpr ⟨by omega, fun t member => ?_⟩
    have := ih t member
    omega

theorem increasing (holds : Holds position slots ts) : ts.Pairwise fun t u => t.position < u.position := by
  induction holds with
  | stop => exact List.pairwise_singleton _ _
  | token _ filled _ _ tail ih =>
    refine List.pairwise_cons.mpr ⟨fun u member => ?_, ih⟩
    have := tail.ahead u member
    have := List.length_pos_iff.mpr filled
    omega

theorem ends (holds : Holds position slots ts) : ts.getLast? = some ⟨.stop, "", position + (laidOut slots).length⟩ := by
  induction holds with
  | stop => simp [laidOut, Slot.chars]
  | token _ _ _ place _ ih =>
    rw [List.getLast?_cons, ih, place]
    simp [laidOut, Slot.chars, Nat.add_assoc]

theorem stands (holds : Holds position slots ts) {front : List Char} (before : front.length = position) :
    ∀ t ∈ ts, ∃ word, t.Spelled word ∧ word <+: (front ++ laidOut slots).drop t.position := by
  induction holds generalizing front with
  | stop => exact List.forall_mem_singleton.mpr ⟨[], .text _, List.nil_prefix⟩
  | @token _ gap word t slots ts _ _ spelled place _ ih =>
    have shape : front ++ laidOut (⟨gap, word⟩ :: slots) = front ++ gap ++ word ++ laidOut slots := by
      simp [laidOut, Slot.chars]
    rw [shape]
    refine List.forall_mem_cons.mpr ⟨⟨word, spelled, ?_⟩, ih (by simp; omega)⟩
    have length : t.position = (front ++ gap).length := by rw [List.length_append]; omega
    rw [List.append_assoc _ word, length, List.drop_left]
    exact List.prefix_append _ _

end Holds

/-! What the scan does -/

/-- The scan, one lexeme after another, with the blanks before each. -/
inductive Laid : Nat → List Slot → List Token → Prop where
  | stop {position gap} (blank : Blanks gap) : Laid position [⟨gap, []⟩] [⟨.stop, "", position + gap.length⟩]
  | token {position gap kind word slots ts} (blank : Blanks gap)
      (found : lexeme? (word ++ laidOut slots) = some (.token kind, word.length))
      (tail : Laid (position + gap.length + word.length) slots ts) :
      Laid position (⟨gap, word⟩ :: slots) (.ofLexeme kind (String.ofList word) (position + gap.length) :: ts)

theorem gapScans {gap : List Char} (blank : Blanks gap) (after : List Char) (position : Nat) :
    Scans gap after position [] := by
  induction gap generalizing position with
  | nil =>
    unfold Scans
    rw [List.nil_append, List.length_nil, Nat.add_zero]
    cases scan position after <;> rfl
  | cons c gap ih =>
    obtain ⟨first, rest⟩ := List.forall_mem_cons.mp blank
    exact (Scans.blank first).cons (ih rest _)

theorem Laid.scanned {position : Nat} {slots : List Slot} {ts : List Token} (laid : Laid position slots ts) :
    scan position (laidOut slots) = .ok ts := by
  induction laid with
  | stop blank => simpa [laidOut, Slot.chars] using (gapScans blank [] _).whole
  | @token position gap kind word slots ts blank found tail ih =>
    have scans := (gapScans blank (word ++ laidOut slots) position).append (.lexeme found)
    unfold Scans at scans
    rw [List.length_append, ← Nat.add_assoc, ih] at scans
    simpa [laidOut, Slot.chars, Except.map] using scans

theorem Laid.indent {part : List Char} {position : Nat} {slots : List Slot} {ts : List Token} (blank : Blanks part)
    (laid : Laid (position + part.length) slots ts) :
    ∃ others, laidOut others = part ++ laidOut slots ∧ Laid position others ts := by
  have more {gap : List Char} (rest : Blanks gap) : Blanks (part ++ gap) := List.forall_mem_append.mpr ⟨blank, rest⟩
  cases laid with
  | @stop _ gap rest =>
    refine ⟨[⟨part ++ gap, []⟩], by simp [laidOut, Slot.chars], ?_⟩
    rw [Nat.add_assoc, ← List.length_append]
    exact .stop (more rest)
  | @token _ gap kind word slots ts rest found tail =>
    refine ⟨⟨part ++ gap, word⟩ :: slots, by simp [laidOut, Slot.chars], ?_⟩
    rw [Nat.add_assoc position, ← List.length_append] at tail ⊢
    exact .token (more rest) found tail

theorem cutsLaid {position : Nat} {cs : List Char} {ts : List Token} (cuts : Cuts position cs ts) :
    ∃ slots, laidOut slots = cs ∧ Laid position slots (ts ++ [⟨.stop, "", position + cs.length⟩]) := by
  induction cuts with
  | @done position => exact ⟨[⟨[], []⟩], rfl, .stop nofun⟩
  | @blank position part rest ts found tail ih =>
    obtain ⟨slots, rfl, laid⟩ := ih
    have length : part.length = ((part ++ laidOut slots).takeWhile isBlank).length := lexemeMeasure found
    have run := List.takeWhile_prefix (l := part ++ laidOut slots) isBlank
    have same := (List.prefix_of_prefix_length_le (List.prefix_append part _) run (Nat.le_of_eq length)).eq_of_length length
    have blank : Blanks part := fun c member => List.mem_takeWhile_imp (same ▸ member)
    obtain ⟨others, shape, laid'⟩ := laid.indent blank
    refine ⟨others, shape, ?_⟩
    rwa [List.length_append, ← Nat.add_assoc]
  | @token position kind part rest ts found tail ih =>
    obtain ⟨slots, rfl, laid⟩ := ih
    refine ⟨⟨[], part⟩ :: slots, rfl, ?_⟩
    rw [List.length_append, ← Nat.add_assoc]
    exact .token nofun found laid

theorem scanLaid {position : Nat} {cs : List Char} {ts : List Token} (scanned : scan position cs = .ok ts) :
    ∃ slots, laidOut slots = cs ∧ Laid position slots ts := by
  obtain ⟨body, last, rfl, _, cuts⟩ := scanCuts cs scanned
  obtain ⟨slots, rfl, laid⟩ := cutsLaid cuts
  exact ⟨slots, rfl, Except.ok.inj (laid.scanned.symm.trans scanned) ▸ laid⟩

/-- A lexeme's token has its text, unless it is one of two words for an operator. -/
theorem ofLexemeCases (kind : TokenKind) (word : List Char) (position : Nat) :
    (∃ same, Token.ofLexeme kind (String.ofList word) position = ⟨same, String.ofList word, position⟩) ∨
    word = ['a', 'n', 'd'] ∧ Token.ofLexeme kind (String.ofList word) position = ⟨.op, "&&", position⟩ ∨
    word = ['o', 'r'] ∧ Token.ofLexeme kind (String.ofList word) position = ⟨.op, "||", position⟩ := by
  unfold Token.ofLexeme
  split
  · rename_i op found
    unfold wordOperator? at found
    split at found
    · rename_i text
      cases found
      exact .inr (.inl ⟨by simpa using congrArg String.toList text, rfl⟩)
    · rename_i text
      cases found
      exact .inr (.inr ⟨by simpa using congrArg String.toList text, rfl⟩)
    · rename_i text
      cases found
      exact .inl ⟨.op, by rw [text]⟩
    · rename_i text
      cases found
      exact .inl ⟨.op, by rw [text]⟩
    · contradiction
  · exact .inl ⟨_, rfl⟩

theorem Laid.holds {position : Nat} {slots : List Slot} {ts : List Token} (laid : Laid position slots ts) :
    Holds position slots ts := by
  induction laid with
  | stop blank => exact .stop blank
  | @token position gap kind word slots ts blank found _ ih =>
    have filled := List.length_pos_iff.mp (lexemeFacts found).1
    rcases ofLexemeCases kind word (position + gap.length) with ⟨own, same⟩ | ⟨rfl, same⟩ | ⟨rfl, same⟩
    · have spelled := Token.Spelled.text ⟨own, String.ofList word, position + gap.length⟩
      rw [String.toList_ofList] at spelled
      exact same ▸ .token blank filled spelled rfl ih
    · exact same ▸ .token blank filled (.conjunction rfl rfl) rfl ih
    · exact same ▸ .token blank filled (.disjunction rfl rfl) rfl ih

/-! Other layouts -/

/-- The same word behind blanks of its own, which may be none only where there were none. -/
structure Slot.Loosens (s other : Slot) : Prop where
  word : other.word = s.word
  blank : Blanks other.gap
  kept : other.gap = [] → s.gap = []

theorem untilBlankGap {gap : List Char} (blank : Blanks gap) (some : gap ≠ []) (rest : List Char) :
    untilBlank (gap ++ rest) = [] := by
  obtain ⟨c, more, rfl⟩ := List.exists_cons_of_ne_nil some
  refine untilBlankNone fun d first => ?_
  exact blank d (Option.some.inj first ▸ List.mem_cons_self)

theorem loosenedFront {slots others : List Slot} (looser : List.Forall₂ Slot.Loosens slots others) :
    untilBlank (laidOut others) <+: laidOut slots := by
  induction looser with
  | nil => exact List.nil_prefix
  | @cons s o slots others loosens _ ih =>
    obtain ⟨gap, word⟩ := s
    obtain ⟨gap', word'⟩ := o
    obtain ⟨same, blank, kept⟩ := loosens
    dsimp only at same blank kept
    subst same
    by_cases none : gap' = []
    · obtain rfl := kept none
      subst none
      change untilBlank (word' ++ laidOut others) <+: word' ++ laidOut slots
      unfold untilBlank at ih ⊢
      rw [List.takeWhile_append]
      split
      · exact List.prefix_append_right_inj word' |>.mpr ih
      · exact (List.takeWhile_prefix _).trans (List.prefix_append _ _)
    · have shape : laidOut (⟨gap', word'⟩ :: others) = gap' ++ (word' ++ laidOut others) := by
        simp [laidOut, Slot.chars]
      rw [shape, untilBlankGap blank none]
      exact List.nil_prefix

theorem Laid.loosened {position : Nat} {slots others : List Slot} {ts : List Token} (laid : Laid position slots ts)
    (looser : List.Forall₂ Slot.Loosens slots others) (other : Nat) : ∃ us, Laid other others us ∧ Same ts us := by
  induction laid generalizing others other with
  | stop =>
    cases looser with
    | @cons _ o _ _ loosens rest =>
      cases rest
      obtain ⟨gap, word⟩ := o
      obtain ⟨rfl, blank, _⟩ := loosens
      exact ⟨_, .stop blank, .cons ⟨rfl, rfl⟩ .nil⟩
  | @token _ _ kind _ _ _ _ found _ ih =>
    cases looser with
    | @cons _ o _ _ loosens rest =>
      obtain ⟨gap, word⟩ := o
      obtain ⟨rfl, blank, _⟩ := loosens
      obtain ⟨us, laid, same⟩ := ih rest (other + gap.length + word.length)
      exact ⟨_, .token blank (lexemeStable found (loosenedFront rest)) laid, .cons (ofLexemeAlike kind _ _ _) same⟩

/-- Before a blank or the end, the text of a token is read as the token again. -/
theorem textRead {word rest after : List Char} {kind : TokenKind}
    (found : lexeme? (word ++ rest) = some (.token kind, word.length)) (parted : untilBlank after = [])
    {position : Nat} {t : Token} (made : Token.ofLexeme kind (String.ofList word) position = t) :
    ∃ own, lexeme? (t.text.toList ++ after) = some (.token own, t.text.toList.length) ∧
      ∀ other, (Token.ofLexeme own (String.ofList t.text.toList) other).kind = t.kind ∧
        (Token.ofLexeme own (String.ofList t.text.toList) other).text = t.text := by
  rcases ofLexemeCases kind word position with ⟨_, same⟩ | ⟨rfl, same⟩ | ⟨rfl, same⟩
  · have text : t.text = String.ofList word := by rw [← made, same]
    refine ⟨kind, ?_, fun other => ?_⟩
    · rw [text, String.toList_ofList]
      exact lexemeStable found (parted ▸ List.nil_prefix)
    · have alike := ofLexemeAlike kind (String.ofList word) other position
      rw [String.ofList_toList]
      rwa [made, ← text] at alike
  · obtain rfl := made.symm.trans same
    have chars : "&&".toList = ['&', '&'] := rfl
    exact ⟨.op, by rw [chars]; rfl, fun _ => ⟨rfl, String.ofList_toList⟩⟩
  · obtain rfl := made.symm.trans same
    have chars : "||".toList = ['|', '|'] := rfl
    exact ⟨.op, by rw [chars]; rfl, fun _ => ⟨rfl, String.ofList_toList⟩⟩

/-- The texts of the tokens with single spaces between them, a gap before the first one and a gap at the end. -/
def joinedSlots (gap last : List Char) : List Token → List Slot
  | [] => [⟨last, []⟩]
  | t :: ts => ⟨gap, t.text.toList⟩ :: joinedSlots [' '] last ts

theorem joinedChars (gap last : List Char) (t : Token) (ts : List Token) :
    laidOut (joinedSlots gap last (t :: ts)) = gap ++ (" ".intercalate ((t :: ts).map (·.text))).toList ++ last := by
  induction ts generalizing gap t with
  | nil => simp [joinedSlots, laidOut, Slot.chars]
  | cons u ts ih =>
    have step : laidOut (joinedSlots gap last (t :: u :: ts)) =
        gap ++ t.text.toList ++ laidOut (joinedSlots [' '] last (u :: ts)) := rfl
    simp only [step, ih, List.map_cons, String.intercalate_cons_cons, String.toList_append, List.append_assoc]
    rfl

theorem joinedParted {last : List Char} (blank : Blanks last) (ts : List Token) :
    untilBlank (laidOut (joinedSlots [' '] last ts)) = [] := by
  refine untilBlankNone ?_
  cases ts with
  | nil =>
    intro d first
    have shape : laidOut (joinedSlots [' '] last []) = last := by simp [joinedSlots, laidOut, Slot.chars]
    rw [shape] at first
    exact blank d (List.mem_of_head? first)
  | cons t ts =>
    rintro _ ⟨⟩
    decide

theorem Laid.joined {position : Nat} {slots : List Slot} {ts : List Token} (laid : Laid position slots ts)
    {gap last : List Char} (before : Blanks gap) (behind : Blanks last) (other : Nat) :
    ∃ us, Laid other (joinedSlots gap last ts.dropLast) us ∧ Same ts us := by
  induction laid generalizing gap other with
  | stop => exact ⟨_, .stop behind, .cons ⟨rfl, rfl⟩ .nil⟩
  | @token _ _ _ word slots ts _ found tail ih =>
    have more : ts ≠ [] := by
      rintro rfl
      cases tail
    obtain ⟨own, found', alike⟩ := textRead found (joinedParted behind ts.dropLast) rfl
    have space : Blanks [' '] := List.forall_mem_singleton.mpr (by decide)
    obtain ⟨us, laid, same⟩ := ih space (other + gap.length + _)
    rw [List.dropLast_cons_of_ne_nil more]
    exact ⟨_, .token before found' laid, .cons (alike _) same⟩

theorem joinedText (last : List Char) (ts : List Token) :
    laidOut (joinedSlots [] last ts) = (" ".intercalate (ts.map (·.text))).toList ++ last := by
  cases ts with
  | nil => simp [joinedSlots, laidOut, Slot.chars]
  | cons t ts => exact joinedChars [] last t ts

/-- The joined texts with or without the empty text of the end. -/
theorem joinedLast {ts : List Token} {position : Nat} (ends : ts.getLast? = some ⟨.stop, "", position⟩) :
    ∀ shown ∈ [ts, ts.dropLast], ∃ last, Blanks last ∧
      laidOut (joinedSlots [] last ts.dropLast) = (" ".intercalate (shown.map (·.text))).toList := by
  have shape := List.dropLast_append_getLast? _ ends
  refine List.forall_mem_cons.mpr ⟨?_, List.forall_mem_singleton.mpr ⟨[], nofun, ?_⟩⟩
  · cases body : ts.dropLast with
    | nil =>
      rw [body] at shape
      exact ⟨[], nofun, by simp [← shape, joinedSlots, laidOut, Slot.chars]⟩
    | cons t rest =>
      refine ⟨[' '], List.forall_mem_singleton.mpr (by decide), ?_⟩
      rw [joinedText, ← shape, body, List.map_append, String.intercalate_append_of_ne_nil (by simp) (by simp)]
      simp
  · rw [joinedText, List.append_nil]

theorem laidAgree {source : String} {slots : List Slot} {ts us : List Token} (tokens : tokenize source = .ok ts)
    (laid : Laid 0 slots us) (same : Same ts us) (room : (laidOut slots).length ≤ maxLength) :
    Agree source (String.ofList (laidOut slots)) := by
  refine sameAgree tokens (tokenizeAccepts.mpr ?_) same
  rw [String.toList_ofList]
  exact ⟨room, laid.scanned⟩

/-- The tokens of a text stand in it in order, with nothing but blanks between them, and the end stands where the text
ends. A text with more or other blanks in the gaps, or with the tokens' own texts and single spaces in between, has the
same tokens and the same tree, unless it is too long. -/
theorem layoutIgnored {source : String} {ts : List Token} (tokens : tokenize source = .ok ts) :
    ts.Pairwise (fun t u => t.position < u.position) ∧
    ts.getLast? = some ⟨.stop, "", source.length⟩ ∧
    (∀ t ∈ ts, ∃ word, t.Spelled word ∧ word <+: source.toList.drop t.position) ∧
    (∃ slots, laidOut slots = source.toList ∧ Holds 0 slots ts ∧
      ∀ others, List.Forall₂ Slot.Loosens slots others → (laidOut others).length ≤ maxLength →
        Agree source (String.ofList (laidOut others))) ∧
    ∀ shown ∈ [ts, ts.dropLast], (" ".intercalate (shown.map (·.text))).length ≤ maxLength →
      Agree source (" ".intercalate (shown.map (·.text))) := by
  obtain ⟨_, scanned⟩ := tokenizeAccepts.mp tokens
  obtain ⟨slots, shape, laid⟩ := scanLaid scanned
  have holds := laid.holds
  have ends := holds.ends
  rw [shape, Nat.zero_add, String.length_toList] at ends
  refine ⟨holds.increasing, ends, ?_, ⟨slots, shape, holds, fun others looser room => ?_⟩, fun shown member room => ?_⟩
  · have stands := holds.stands List.length_nil
    rwa [List.nil_append, shape] at stands
  · obtain ⟨us, laid', same⟩ := laid.loosened looser 0
    exact laidAgree tokens laid' same room
  · obtain ⟨last, blank, text⟩ := joinedLast ends shown member
    have none : Blanks [] := nofun
    obtain ⟨us, laid', same⟩ := laid.joined none blank 0
    have agree := laidAgree tokens laid' same (by rwa [text, String.length_toList])
    rwa [text, String.ofList_toList] at agree

theorem layoutIgnoredWords :
    let ts : List Token := [⟨.number, "1.", 0⟩, ⟨.op, "&&", 2⟩, ⟨.number, ".5", 6⟩, ⟨.op, ">=", 8⟩, ⟨.number, "2", 10⟩,
      ⟨.op, "||", 11⟩, ⟨.string, "'a b'", 13⟩, ⟨.stop, "", 18⟩]
    tokenize "1.and .5>=2or'a b'" = .ok ts ∧ ts.Pairwise (fun t u => t.position < u.position) ∧
      Agree "1.and .5>=2or'a b'" "1. && .5 >= 2 || 'a b'" := by
  intro ts
  have tokens : tokenize "1.and .5>=2or'a b'" = .ok ts := by decide +kernel
  obtain ⟨increasing, _, _, _, joined⟩ := layoutIgnored tokens
  exact ⟨tokens, increasing, joined ts.dropLast (by simp) (by decide)⟩

end DecisionRules.Expression
