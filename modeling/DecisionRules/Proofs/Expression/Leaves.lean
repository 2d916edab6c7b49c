import DecisionRules.Proofs.Expression.Evaluation
import DecisionRules.Proofs.Expression.Grammar
import Mathlib.Algebra.Order.Group.Nat

/-! The leaves of a parsed tree are tokens of its text: there are no more nodes than tokens, and no leaf is
larger than its token is long. -/
namespace DecisionRules

namespace Number

theorem natOfDigitsBelow {cs : List Char} (digits : ∀ c ∈ cs, isAsciiDigit c = true) :
    natOfDigits cs < 10 ^ cs.length := by
  have step (n : Nat) : cs.foldl (fun n c => 10 * n + (c.toNat - 48)) n < (n + 1) * 10 ^ cs.length := by
    induction cs generalizing n with
    | nil => simp
    | cons c rest ih =>
      simp only [List.mem_cons, forall_eq_or_imp] at digits
      have digit : c.toNat - 48 ≤ 9 := by
        have is := digits.1
        simp only [isAsciiDigit, Bool.and_eq_true, decide_eq_true_eq, Char.le_def, UInt32.le_iff_toNat_le] at is
        have nine : c.toNat ≤ 57 := is.2
        omega
      refine (ih digits.2 _).trans_le ?_
      rw [List.length_cons, Nat.pow_succ, Nat.mul_comm (10 ^ rest.length), ← Nat.mul_assoc]
      refine Nat.mul_le_mul_right _ ?_
      dsimp only
      omega
  unfold natOfDigits
  simpa using step 0

theorem joinedDigitsFacts {cs digits : List Char} (joined : joinedDigits? cs = some digits) :
    digits.length ≤ cs.length ∧ ∀ c ∈ digits, isAsciiDigit c = true := by
  fun_induction joinedDigits? cs generalizing digits with
  | case1 => contradiction
  | case2 c digit =>
    cases joined
    simpa using digit
  | case3 => contradiction
  | case4 c rest digit ih =>
    obtain ⟨more, found, rfl⟩ := Option.map_eq_some_iff.mp joined
    obtain ⟨short, digits⟩ := ih found
    exact ⟨by simp only [List.length_cons]; omega, by simpa [digit] using digits⟩
  | case5 => contradiction
  | case6 c rest _ _ digit ih =>
    obtain ⟨more, found, rfl⟩ := Option.map_eq_some_iff.mp joined
    obtain ⟨short, digits⟩ := ih found
    exact ⟨by simp only [List.length_cons]; omega, by simpa [digit] using digits⟩
  | case7 => contradiction

theorem stripShorter (cs : List Char) : (stripChars cs).length ≤ cs.length := by
  have drop (cs : List Char) : (Text.dropBlanks cs).length ≤ cs.length := (List.dropWhile_suffix _).length_le
  have first := drop cs
  have second := drop (Text.dropBlanks cs).reverse
  simp only [stripChars, List.length_reverse] at *
  omega

theorem splitSignShorter (cs : List Char) : (splitSign cs).2.length ≤ cs.length := by
  unfold splitSign
  split <;> simp

theorem readIntBelow {s : String} {n : Int} (read : readInt? s = some n) : n.natAbs < 10 ^ s.length := by
  unfold readInt? at read
  dsimp only at read
  split at read
  · contradiction
  · rename_i digits joined
    split at read
    · contradiction
    · cases read
      obtain ⟨short, are⟩ := joinedDigitsFacts joined
      have below := natOfDigitsBelow are
      have body := splitSignShorter (plain s)
      have stripped := stripShorter s.toList
      have length : digits.length ≤ s.length := by
        simp only [plain, List.length_map, String.length_toList] at *
        omega
      have same : (if (splitSign (plain s)).1 = true then -(natOfDigits digits : Int) else natOfDigits digits).natAbs
          = natOfDigits digits := by
        split <;> simp
      rw [same]
      exact below.trans_le (Nat.pow_le_pow_right (by decide) length)

end Number

namespace Expression

theorem unescapeShorter (cs : List Char) : (unescape cs).length ≤ cs.length := by
  fun_induction unescape cs with
  | case1 => exact Nat.le_refl _
  | case2 a b c d rest u _ ih => simp only [List.length_cons]; omega
  | case3 a b c d rest _ ih => simp only [List.length_cons] at *; omega
  | case4 c rest _ ih => simp only [List.length_cons]; omega
  | case5 c rest _ _ ih => simp only [List.length_cons]; omega

theorem ofUnitsShorter (us : List Nat) : (Text.ofUnits us).length ≤ us.length := by
  fun_induction Text.ofUnits us with
  | case1 => exact Nat.le_refl _
  | case2 => exact Nat.le_refl _
  | case3 u v rest _ ih => simp only [List.length_cons]; omega
  | case4 u v rest _ ih => simp only [List.length_cons] at *; omega

theorem unquoteShorter (cs : List Char) : (unquote cs).length ≤ cs.length := by
  have chars := ofUnitsShorter (unescape (cs.drop 1).dropLast)
  have units := unescapeShorter (cs.drop 1).dropLast
  simp only [unquote, String.length_ofList, List.length_dropLast, List.length_drop] at *
  omega

/-! Leaves of trees -/

theorem Connects.children {level : Level} {symbol : String} {node : Expr → Expr → Expr}
    (connects : Connects level symbol node) (left right : Expr) : (node left right).children = [left, right] := by
  cases connects <;> rfl

theorem Derives.leaves {p : Phrase} {ts : List Token} {e : Expr} (derives : Derives p ts e) {v : Value}
    (inside : Within (.literal v) e) : ∃ t ∈ ts, t.value? = some v := by
  have node {e : Expr} (inside : Within (.literal v) e) (some : e.children ≠ []) :
      ∃ child ∈ e.children, Within (.literal v) child := by
    rcases withinChildren.mp inside with rfl | below
    · exact absurd rfl some
    · exact below
  have here {us : List Token} (more : List Token) (found : ∃ t ∈ us, t.value? = some v)
      (part : ∀ t ∈ us, t ∈ more) : ∃ t ∈ more, t.value? = some v := by
    obtain ⟨t, member, value⟩ := found
    exact ⟨t, part t member, value⟩
  induction derives with
  | pass _ _ inner => exact inner inside
  | @chain _ _ t _ _ us _ _ _ _ connects _ _ before last =>
    obtain ⟨child, member, below⟩ := node inside (by simp [connects.children])
    rw [connects.children, List.mem_cons, List.mem_singleton] at member
    rcases member with rfl | rfl
    · exact here _ (before below) (by simp +contextual)
    · exact here _ (last below) (by simp +contextual)
  | negation _ _ operand | sign _ _ operand =>
    obtain ⟨child, member, below⟩ := node inside (by simp [Expr.children])
    cases List.mem_singleton.mp member
    exact here _ (operand below) (by simp +contextual)
  | power _ _ _ left right =>
    obtain ⟨child, member, below⟩ := node inside (by simp [Expr.children])
    rw [Expr.children, List.mem_cons, List.mem_singleton] at member
    rcases member with rfl | rfl
    · exact here _ (left below) (by simp +contextual)
    · exact here _ (right below) (by simp +contextual)
  | @literal t w value =>
    rcases withinChildren.mp inside with same | ⟨_, none, _⟩
    · cases same
      exact ⟨t, List.mem_singleton_self t, value⟩
    · contradiction
  | group _ _ _ within | list _ _ _ within => exact here _ (within inside) (by simp +contextual)
  | noItems => rcases withinChildren.mp inside with same | ⟨_, none, _⟩ <;> contradiction
  | item _ only =>
    obtain ⟨child, member, below⟩ := node inside (by simp [Expr.children])
    cases List.mem_singleton.mp member
    exact only below
  | items _ _ _ before last =>
    obtain ⟨child, member, below⟩ := node inside (by simp [Expr.children])
    rw [Expr.children, List.mem_append, List.mem_singleton] at member
    rcases member with member | rfl
    · exact here _ (before (.deeper member below)) (by simp +contextual)
    · exact here _ (last below) (by simp +contextual)

/-- Items are derived without the brackets that make them a node. -/
def Phrase.missing : Phrase → Nat
  | .level _ => 0
  | .items => 1

theorem Derives.size {p : Phrase} {ts : List Token} {e : Expr} (derives : Derives p ts e) :
    e.size ≤ ts.length + p.missing := by
  induction derives with
  | pass _ _ inner => exact inner
  | chain _ _ connects _ _ before last =>
    rw [Expr.sizeChildren, connects.children]
    simp [Expr.sizeAll, Phrase.missing] at *
    omega
  | negation _ _ operand | sign _ _ operand =>
    simp [Expr.size, Phrase.missing] at *
    omega
  | power _ _ _ left right =>
    simp [Expr.size, Phrase.missing] at *
    omega
  | literal => simp [Expr.size]
  | group _ _ _ within | list _ _ _ within =>
    simp [Phrase.missing] at *
    omega
  | noItems => simp [Expr.size, Expr.sizeAll, Phrase.missing]
  | item _ only =>
    simp [Expr.size, Expr.sizeAll, Phrase.missing] at *
    omega
  | items _ _ _ before last =>
    simp [Expr.size, Expr.sizeAllAppend, Expr.sizeAll, Phrase.missing] at *
    omega

theorem ofLexemeText (kind : TokenKind) (text : String) (position : Nat) :
    (Token.ofLexeme kind text position).text.length ≤ text.length := by
  unfold Token.ofLexeme
  split
  · rename_i op word
    unfold wordOperator? at word
    split at word <;> cases word <;> (dsimp only; decide)
  · exact Nat.le_refl _

theorem scanTexts {cs : List Char} {position : Nat} {ts : List Token} (scanned : scan position cs = .ok ts) :
    ∀ t ∈ ts, t.text.length ≤ cs.length := by
  match cs with
  | [] =>
    rw [scan] at scanned
    cases scanned
    simp
  | c :: rest =>
    obtain ⟨cls, n, found⟩ := scanLexeme scanned (by simp)
    have positive := (lexemeFacts found).1
    have shorter : ((c :: rest).drop n).length ≤ (c :: rest).length := by simp
    cases cls with
    | blank =>
      rw [scanBlank found] at scanned
      exact fun t member => (scanTexts scanned t member).trans shorter
    | token kind =>
      rw [scanToken found] at scanned
      obtain ⟨more, after, rfl⟩ := mapAccepts.mp scanned
      have first : (Token.ofLexeme kind (String.ofList ((c :: rest).take n)) position).text.length ≤
          (c :: rest).length := by
        refine (ofLexemeText _ _ _).trans ?_
        rw [String.length_ofList]
        exact List.length_take_le' _ _
      simp only [List.mem_cons, forall_eq_or_imp]
      exact ⟨first, fun t member => (scanTexts after t member).trans shorter⟩
termination_by cs.length
decreasing_by all_goals simp only [List.length_drop, List.length_cons]; omega

/-- There are more tokens in a text than nodes in its tree, and every literal in the tree is a token. -/
theorem parsedLeaves {source : String} {e : Expr} (parsed : parse source = .ok e) :
    ∃ ts, tokenize source = .ok ts ∧ e.size < ts.length ∧ ∀ v, Within (.literal v) e →
      ∃ t ∈ ts, t.value? = some v ∧ t.text.length ≤ maxLength := by
  obtain ⟨ts, tokens, body, last, rfl, stop, derives⟩ := parsedSentence parsed
  refine ⟨_, tokens, ?_, fun v inside => ?_⟩
  · have size := derives.size
    simp only [Phrase.missing] at size
    simp only [List.length_append, List.length_singleton]
    omega
  · obtain ⟨t, member, value⟩ := derives.leaves inside
    have there := List.mem_append_left [last] member
    refine ⟨t, there, value, ?_⟩
    simp only [tokenize] at tokens
    split at tokens
    · contradiction
    · rename_i room
      exact (scanTexts tokens t there).trans (Nat.le_of_not_lt room)

end Expression
end DecisionRules
