import DecisionRules.Proofs.Expression.Boundary
import DecisionRules.Proofs.Expression.Evaluation
import DecisionRules.Proofs.Expression.Grammar
import DecisionRules.Proofs.Number.Width
import DecisionRules.Proofs.Text.Json
import DecisionRules.Scope.Resolve
import Mathlib.Data.List.TakeWhile

/-! Literals read back. What JSON writes of a value without objects and floats is an expression text, with one
token for a text, and its value is that value again. -/
namespace DecisionRules

/-- Null, booleans, integers, texts and lists of such values. -/
inductive Value.Literal : Value → Prop where
  | null : Literal .null
  | bool (truth : Bool) : Literal (.bool truth)
  | int (n : Int) : Literal (.int n)
  | text (s : String) : Literal (.text s)
  | list {items : List Value} (each : ∀ v ∈ items, Literal v) : Literal (.list items)

/-! Digits -/

namespace Number

theorem digitFacts {c : Char} (digit : c.isDigit = true) : isAsciiDigit c = true ∧ Text.isDecimal c = true ∧
    Text.isBlank c = false ∧ plainChar c = c ∧ c ≠ '-' ∧ c ≠ '+' ∧ c ≠ '.' ∧ c ≠ 'e' ∧ c ≠ 'E' := by
  have each : ∀ n < 128, (Char.ofNat n).isDigit = true → isAsciiDigit (Char.ofNat n) = true ∧
      Text.isDecimal (Char.ofNat n) = true ∧ Text.isBlank (Char.ofNat n) = false ∧
      plainChar (Char.ofNat n) = Char.ofNat n ∧ Char.ofNat n ≠ '-' ∧ Char.ofNat n ≠ '+' ∧ Char.ofNat n ≠ '.' ∧
      Char.ofNat n ≠ 'e' ∧ Char.ofNat n ≠ 'E' := by decide +kernel
  have ascii : c.toNat < 128 := by
    simp only [Char.isDigit, Bool.and_eq_true, decide_eq_true_eq, UInt32.le_iff_toNat_le] at digit
    exact Nat.lt_of_le_of_lt digit.2 (by decide)
  simpa only [Char.ofNat_toNat] using each c.toNat ascii (by rwa [Char.ofNat_toNat])

theorem stripNone {cs : List Char} (plain : ∀ c ∈ cs, Text.isBlank c = false) : stripChars cs = cs := by
  have drop (cs : List Char) (plain : ∀ c ∈ cs, Text.isBlank c = false) : Text.dropBlanks cs = cs := by
    cases cs with
    | nil => rfl
    | cons c rest => simp [Text.dropBlanks, plain c List.mem_cons_self]
  unfold stripChars
  rw [drop cs plain, drop cs.reverse fun c member => plain c (List.mem_reverse.mp member), List.reverse_reverse]

theorem joinedDigits {cs : List Char} (filled : cs ≠ []) (digits : ∀ c ∈ cs, c.isDigit = true) :
    joinedDigits? cs = some cs := by
  have ascii : ∀ c ∈ cs, isAsciiDigit c = true := fun c member => (digitFacts (digits c member)).1
  fun_induction joinedDigits? cs with
  | case1 => contradiction
  | case2 => rfl
  | case3 c other => exact absurd (ascii c List.mem_cons_self) other
  | case4 c rest | case5 c rest =>
    have mark := digits '_' (by simp)
    contradiction
  | case6 c rest some _ digit ih =>
    rw [ih (by simpa using some) (fun d member => digits d (List.mem_cons_of_mem c member))
      fun d member => ascii d (List.mem_cons_of_mem c member)]
    rfl
  | case7 c rest _ _ other => exact absurd (ascii c List.mem_cons_self) other

theorem readIntChars {n : Int} (fits : writable n = true) : readInt? (String.ofList (intChars n)) = some n := by
  have short := (digitCountBelow (by decide)).mpr (writableBelow fits)
  have digits : ∀ c ∈ digitChars n.natAbs, c.isDigit = true := fun c member => digitCharsDigit member
  have same : ∀ c ∈ intChars n, Text.isBlank c = false ∧ plainChar c = c := by
    intro c member
    rcases intCharsPlain member with digit | rfl
    · exact ⟨(digitFacts digit).2.2.1, (digitFacts digit).2.2.2.1⟩
    · decide
  have plain : plain (String.ofList (intChars n)) = intChars n := by
    unfold Number.plain
    rw [String.toList_ofList, stripNone fun c member => (same c member).1]
    refine (List.map_congr_left fun c member => (same c member).2).trans ?_
    simp
  have sign : splitSign (intChars n) = (decide (n < 0), digitChars n.natAbs) := by
    unfold intChars
    split
    · rename_i negative
      simp [splitSign, negative]
    · rename_i natural
      simp only [natural, decide_false]
      unfold splitSign
      split
      · rename_i rest shape
        exact absurd rfl (digitFacts (digits '-' (by simp [shape]))).2.2.2.2.1
      · rename_i rest shape
        exact absurd rfl (digitFacts (digits '+' (by simp [shape]))).2.2.2.2.2.1
      · rfl
  have value : natOfDigits (digitChars n.natAbs) = n.natAbs := digitCharsRead n.natAbs
  unfold digitCount at short
  unfold readInt?
  simp only [plain, sign, joinedDigits (digitCharsSome n.natAbs) digits, value]
  rw [if_neg (by omega)]
  simp only [decide_eq_true_eq, Option.some.injEq]
  split <;> omega

end Number

namespace Expression

/-! Texts -/

theorem unescapePlain {c : Char} (plain : c ≠ '\\') (rest : List Char) :
    unescape (c :: rest) = c.toNat :: unescape rest := by
  rw [unescape]
  · simp [plain]
  · simp [plain]

theorem unescapeEscape (c : Char) (rest : List Char) :
    unescape (Text.Json.escape c ++ rest) = c.toNat :: unescape rest := by
  rcases Text.Json.escapeKinds c with special | ⟨self, _, plain⟩
  · have hex : ∀ n < 32, Text.hexNumber? (Text.hexFixed 4 n) = some n := by decide
    have kinds : Text.Json.special.all (fun c =>
        (['"', '\\', 'n', 'r', 't', 'b', 'f'].any fun d =>
          Text.Json.escape c == ['\\', d] && d != 'u' && escapeUnit d == c.toNat) ||
        Text.Json.escape c == '\\' :: 'u' :: Text.hexFixed 4 c.toNat && c.toNat < 32) = true := by decide +kernel
    have kinds : (∃ d ∈ ['"', '\\', 'n', 'r', 't', 'b', 'f'],
        Text.Json.escape c = ['\\', d] ∧ d ≠ 'u' ∧ escapeUnit d = c.toNat) ∨
        Text.Json.escape c = '\\' :: 'u' :: Text.hexFixed 4 c.toNat ∧ c.toNat < 32 := by
      simpa only [Bool.or_eq_true, Bool.and_eq_true, List.any_eq_true, beq_iff_eq, bne_iff_ne, decide_eq_true_eq,
        and_assoc] using List.all_eq_true.mp kinds c special
    rcases kinds with ⟨d, _, shape, other, unit⟩ | ⟨shape, control⟩
    · rw [shape, List.cons_append, List.cons_append, List.nil_append, unescape, unit]
      simp [other]
    · have number := hex c.toNat control
      rw [shape]
      simp only [Text.hexFixed, List.nil_append, List.cons_append] at number ⊢
      rw [unescape, number]
  · rw [self]
    exact unescapePlain plain rest

theorem unescapeText (cs : List Char) : unescape (cs.flatMap Text.Json.escape) = cs.map Char.toNat := by
  induction cs with
  | nil => rfl
  | cons c rest ih => rw [List.flatMap_cons, unescapeEscape, ih, List.map_cons]

theorem ofUnitChar (c : Char) : Text.isHighSurrogate c.toNat = false ∧ Text.ofUnit c.toNat = c := by
  have valid : c.toNat < 0xd800 ∨ 0xdfff < c.toNat ∧ c.toNat < 0x110000 := c.valid
  have high : Text.isHighSurrogate c.toNat = false := by
    simp only [Text.isHighSurrogate, Bool.and_eq_false_iff, decide_eq_false_iff_not]
    omega
  have low : Text.isLowSurrogate c.toNat = false := by
    simp only [Text.isLowSurrogate, Bool.and_eq_false_iff, decide_eq_false_iff_not]
    omega
  exact ⟨high, by simp [Text.ofUnit, high, low, Char.ofNat_toNat]⟩

theorem ofUnitsChars (cs : List Char) : Text.ofUnits (cs.map Char.toNat) = cs := by
  induction cs with
  | nil => rfl
  | cons c rest ih =>
    obtain ⟨high, char⟩ := ofUnitChar c
    cases rest with
    | nil => simp [Text.ofUnits, char]
    | cons d more =>
      simp only [List.map_cons] at ih ⊢
      rw [Text.ofUnits, high, ih, char]
      rfl

theorem unquoteQuoted (s : String) : unquote (Text.Json.quotedText s) = s := by
  have inside : ((Text.Json.quotedText s).drop 1).dropLast = s.toList.flatMap Text.Json.escape := by
    simp [Text.Json.quotedText]
  rw [unquote, inside, unescapeText, ofUnitsChars, String.ofList_toList]

theorem quotedLexeme (s : String) (after : List Char) :
    lexeme? (Text.Json.quotedText s ++ after) = some (.token .string, (Text.Json.quotedText s).length) := by
  have closes : Closes '"' after (s.toList.flatMap Text.Json.escape ++ '"' :: after) 0 :=
    closesEscapedText rfl (.inl rfl) (closesQuote rfl)
  obtain ⟨k, closed, left⟩ : ∃ k, closingLength? '"' (s.toList.flatMap Text.Json.escape ++ '"' :: after) = some k ∧
      (s.toList.flatMap Text.Json.escape ++ '"' :: after).drop k = after := by
    cases closes with
    | once closed left => exact ⟨_, closed, left⟩
  have within := (closingAppend rfl [] closed).1
  have length := congrArg List.length left
  simp only [List.length_drop, List.length_append, List.length_cons] at length within
  have shape : Text.Json.quotedText s ++ after = '"' :: (s.toList.flatMap Text.Json.escape ++ '"' :: after) := by
    simp [Text.Json.quotedText]
  rw [shape, lexemeQuoted rfl, closed]
  simp only [Text.Json.quotedText, Option.map_some, Option.some.injEq, Prod.mk.injEq, List.length_cons,
    List.length_append, List.length_nil, true_and]
  omega

/-! Literals -/

/-- Where the text of a literal ends: what comes after it does not go on with it. -/
def Closed (after : List Char) : Prop := ∀ d ∈ after.head?, endsNumber d = true ∧ nameChar d = false

theorem Closed.number {after : List Char} (closed : Closed after) : ∀ d ∈ after.head?, endsNumber d = true :=
  fun d first => (closed d first).1

theorem Closed.name {after : List Char} (closed : Closed after) : ∀ d ∈ after.head?, nameChar d = false :=
  fun d first => (closed d first).2

theorem Closed.before {d : Char} (number : endsNumber d = true) (name : nameChar d = false) (rest : List Char) :
    Closed (d :: rest) := by
  rintro d ⟨⟩
  exact ⟨number, name⟩

/-- Before whatever closes it, the text is scanned to tokens that derive the tree. -/
def Writes (cs : List Char) (e : Expr) : Prop :=
  ∀ after, Closed after → ∀ position, ∃ us, Scans cs after position us ∧ Derives (.level .sign) us e

theorem Writes.token {cs : List Char} {kind : TokenKind} {v : Value}
    (found : ∀ after, Closed after → lexeme? (cs ++ after) = some (.token kind, cs.length))
    (value : ∀ position, (Token.ofLexeme kind (String.ofList cs) position).value? = some v) :
    Writes cs (.literal v) := fun after closed position =>
  ⟨_, .lexeme (found after closed), .looser (.literal (value position)) (by decide)⟩

theorem writesWord {cs : List Char} {v : Value} (found : lexeme? cs = some (.token .name, cs.length))
    (value : ∀ position, (Token.ofLexeme .name (String.ofList cs) position).value? = some v) :
    Writes cs (.literal v) :=
  .token (fun _ closed => (lexemeAppend found (fun same => by cases same) fun _ => closed.name)) value

theorem digitsLength {cs : List Char} (digits : ∀ c ∈ cs, c.isDigit = true) : numberLength cs = cs.length := by
  have run : digitRun cs = cs.length := by
    unfold digitRun
    exact congrArg _ (List.takeWhile_eq_self_iff.mpr fun c member => (Number.digitFacts (digits c member)).2.1)
  have mantissa : mantissaLength cs = cs.length := by simp [mantissaLength, run]
  cases cs with
  | nil => rfl
  | cons c rest => simp [numberLength, mantissa, exponentLength]

theorem digitsLexeme {cs after : List Char} (filled : cs ≠ []) (digits : ∀ c ∈ cs, c.isDigit = true)
    (ends : ∀ d ∈ after.head?, endsNumber d = true) :
    lexeme? (cs ++ after) = some (.token .number, cs.length) := by
  obtain ⟨c, rest, rfl⟩ := List.exists_cons_of_ne_nil filled
  have length := digitsLength digits
  have alone : lexeme? (c :: rest) = some (.token .number, (c :: rest).length) := by
    rw [← length]
    exact lexemeNumber (Number.digitFacts (digits c List.mem_cons_self)).2.2.1 (by rw [length]; simp)
  exact lexemeAppend alone (by simp) fun _ d first => by simp [LexemeClass.goesOn, ends d first]

theorem intValue {n : Int} (fits : Number.writable n = true) (position : Nat) :
    Token.value? ⟨.number, String.ofList (Number.intChars n), position⟩ = some (.int n) := by
  have plain : (Number.intChars n).any (fun c => c == '.' || c == 'e' || c == 'E') = false := by
    refine List.any_eq_false.mpr fun c member => ?_
    rcases Number.intCharsPlain member with digit | rfl
    · have facts := (Number.digitFacts digit).2.2.2.2.2.2
      simp [facts.1, facts.2.1, facts.2.2]
    · decide
  simp [Token.value?, numberValue, plain, Number.readIntChars fits]

theorem naturalScans {n : Nat} {after : List Char} (ends : ∀ d ∈ after.head?, endsNumber d = true) (position : Nat) :
    Scans (Number.digitChars n) after position [⟨.number, String.ofList (Number.digitChars n), position⟩] :=
  have found := digitsLexeme (Number.digitCharsSome n) (fun _ => Number.digitCharsDigit) ends
  have scans : Scans _ after position [.ofLexeme .number _ position] := .lexeme found
  scans

/-- A negative number is two tokens, and any other is one. -/
theorem intScans {n : Int} (fits : Number.writable n = true) {after : List Char}
    (ends : ∀ d ∈ after.head?, endsNumber d = true) (position : Nat) :
    (0 ≤ n → Scans (Number.intChars n) after position [⟨.number, String.ofList (Number.intChars n), position⟩]) ∧
    (n < 0 → ∃ minus u, minus.isOp "-" = true ∧ u.value? = some (.int (-n)) ∧
      Scans (Number.intChars n) after position [minus, u]) := by
  constructor
  · intro natural
    have chars : Number.intChars n = Number.digitChars n.natAbs := if_neg (by omega)
    exact chars ▸ naturalScans ends position
  · intro negative
    have chars : Number.intChars n = '-' :: Number.digitChars n.natAbs := if_pos negative
    have positive : Number.intChars (-n) = Number.digitChars n.natAbs := by
      rw [Number.intChars, if_neg (by omega), Int.natAbs_neg]
    have fits' : Number.writable (-n) = true := by simpa [Number.writable] using fits
    refine ⟨⟨.op, "-", position⟩, ⟨.number, String.ofList (Number.digitChars n.natAbs), position + 1⟩, rfl,
      positive ▸ intValue fits' _, ?_⟩
    rw [chars]
    exact .cons (.mark (by decide) rfl) (naturalScans ends _)

theorem intWrites {n : Int} (fits : Number.writable n = true) :
    ∃ e, Writes (Number.intChars n) e ∧ Evaluates e (.int n) := by
  rcases Int.lt_or_le n 0 with negative | natural
  · refine ⟨.unary .neg (.literal (.int (-n))), fun after closed position => ?_, .unary (.literal _) ?_⟩
    · obtain ⟨minus, u, mark, part, scans⟩ := (intScans fits closed.number position).2 negative
      have mark : minus.isOp UnaryOp.neg.symbol = true := mark
      exact ⟨_, scans, .sign mark (.looser (.literal part) (by decide))⟩
    · exact congrArg (fun m => Except.ok (Value.int m)) (Int.neg_neg n)
  · exact ⟨.literal (.int n), fun after closed position =>
      ⟨_, (intScans fits closed.number position).1 natural, .looser (.literal (intValue fits position)) (by decide)⟩,
      .literal _⟩

theorem textWrites (s : String) : Writes (Text.Json.quotedText s) (.literal (.text s)) :=
  .token (fun after _ => quotedLexeme s after) fun position => by
    simp [Token.ofLexeme, Token.value?, unquoteQuoted]

/-- The items of a list, after those that are written already, up to its bracket. -/
theorem itemsWrite {v : Value} {items : List Value} {parts : List (List Char)}
    (each : ∀ w ∈ v :: items, ∀ cs, Text.Json.chars Text.Json.spaced w = .ok cs → ∃ e, Writes cs e ∧ Evaluates e w)
    (written : Text.Json.itemChars Text.Json.spaced (v :: items) = .ok parts) :
    ∃ es, Evaluates (.list es) (.list (v :: items)) ∧ ∀ before front after position, Begun before front → ∃ us,
      Scans (Text.Json.separate [',', ' '] parts) (']' :: after) position us ∧
      Derives .items (front ++ us) (.list (before.reverse ++ es)) := by
  induction items generalizing v parts with
  | nil =>
    simp only [Text.Json.itemChars] at written
    obtain ⟨cs, here, same⟩ := bindAccepts.mp written
    cases same
    obtain ⟨e, writes, evaluates⟩ := each v List.mem_cons_self cs here
    refine ⟨[e], .item evaluates .noItems, fun before front after position begun => ?_⟩
    obtain ⟨us, scans, derives⟩ := writes (']' :: after) (.before (by decide) (by decide) _) position
    exact ⟨us, scans, by simpa using begun.add (derives.looser (by decide))⟩
  | cons w items ih =>
    unfold Text.Json.itemChars at written
    obtain ⟨cs, here, written⟩ := bindAccepts.mp written
    obtain ⟨others, rest, same⟩ := bindAccepts.mp written
    cases same
    obtain ⟨e, writes, evaluates⟩ := each v List.mem_cons_self cs here
    obtain ⟨es, tail, more⟩ := ih (fun u member => each u (List.mem_cons_of_mem v member)) rest
    refine ⟨e :: es, .item evaluates tail, fun before front after position begun => ?_⟩
    obtain ⟨next, left, rfl⟩ : ∃ next left, others = next :: left := by
      unfold Text.Json.itemChars at rest
      obtain ⟨next, _, rest⟩ := bindAccepts.mp rest
      obtain ⟨left, _, same⟩ := bindAccepts.mp rest
      exact ⟨next, left, by cases same; rfl⟩
    obtain ⟨us, scans, derives⟩ :=
      writes (',' :: ' ' :: (Text.Json.separate [',', ' '] (next :: left) ++ ']' :: after))
        (.before (by decide) (by decide) _) position
    obtain ⟨vs, scans', derives'⟩ := more (e :: before) (front ++ us ++ [⟨.op, ",", position + cs.length⟩]) after
      (position + cs.length + 2) (.inr ⟨_, _, rfl, rfl, begun.add (derives.looser (by decide))⟩)
    have comma : Scans [','] (' ' :: (Text.Json.separate [',', ' '] (next :: left) ++ ']' :: after))
        (position + cs.length) [⟨.op, ",", position + cs.length⟩] := .mark (by decide) rfl
    have space : Scans [' '] (Text.Json.separate [',', ' '] (next :: left) ++ ']' :: after)
        (position + cs.length + 1) [] := .blank (by decide)
    refine ⟨us ++ (⟨.op, ",", position + cs.length⟩ :: vs), ?_, by simpa using derives'⟩
    have joined := scans.append (comma.cons (space.cons scans'))
    simpa [Text.Json.separate] using joined

theorem literalWrites {v : Value} (literal : v.Literal) {cs : List Char}
    (written : Text.Json.chars Text.Json.spaced v = .ok cs) : ∃ e, Writes cs e ∧ Evaluates e v := by
  induction literal generalizing cs with
  | null =>
    cases written
    exact ⟨_, writesWord (v := .null) (by decide) fun _ => rfl, .literal _⟩
  | bool truth =>
    cases truth
    · cases written
      exact ⟨_, writesWord (v := .bool false) (by decide) fun _ => rfl, .literal _⟩
    · cases written
      exact ⟨_, writesWord (v := .bool true) (by decide) fun _ => rfl, .literal _⟩
  | int n =>
    simp only [Text.Json.chars] at written
    split at written
    · rename_i fits
      cases written
      exact intWrites fits
    · contradiction
  | text s =>
    cases written
    exact ⟨_, textWrites s, .literal _⟩
  | @list items each ih =>
    simp only [Text.Json.chars] at written
    obtain ⟨parts, inside, same⟩ := bindAccepts.mp written
    cases same
    have opens (after : List Char) (position : Nat) : Scans ['['] after position [⟨.op, "[", position⟩] :=
      .mark (by decide) rfl
    have closes (after : List Char) (position : Nat) : Scans [']'] after position [⟨.op, "]", position⟩] :=
      .mark (by decide) rfl
    cases items with
    | nil =>
      cases inside
      refine ⟨.list [], fun after closed position => ?_, .noItems⟩
      refine ⟨_, .cons (opens _ _) (closes _ _), ?_⟩
      exact .looser (.noItems rfl rfl) (by decide)
    | cons v rest =>
      obtain ⟨es, evaluates, writes⟩ := itemsWrite ih inside
      refine ⟨.list es, fun after closed position => ?_, evaluates⟩
      obtain ⟨us, scans, derives⟩ := writes [] [] after (position + 1) (.inl ⟨rfl, rfl⟩)
      refine ⟨_, .cons (opens _ _) (.append scans (closes _ _)), ?_⟩
      exact .looser (.list rfl (by simpa using derives) rfl) (by decide)

end Expression

namespace Scope
open Expression

theorem substituteWhole {s : Scope} {source text : String} {name : List Char} {v : Value}
    (whole : Segment.whole? source.toList = some name) (bound : s.lookup (referenceName name) = .ok (some v))
    (written : s.substituteLiterals source = .ok text) :
    Text.Json.chars Text.Json.spaced v = .ok text.toList := by
  have cut : Segment.cut source.toList = [.reference name] := by
    unfold Segment.whole? at whole
    split at whole
    · rename_i shape
      cases whole
      exact shape
    · contradiction
  unfold substituteLiterals at written
  rw [cut] at written
  simp only [Segment.replaceAll, inserted, bound] at written
  obtain ⟨cs, filled, same⟩ := bindAccepts.mp written
  obtain ⟨here, rendered, joined⟩ := bindAccepts.mp filled
  obtain ⟨_, none, joined⟩ := bindAccepts.mp joined
  cases none
  cases joined
  cases same
  rw [String.toList_ofList, List.append_nil]
  exact rendered

end Scope
end DecisionRules
