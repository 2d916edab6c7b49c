import DecisionRules.Proofs.Expression.Growth
import DecisionRules.Proofs.Expression.Lexeme
import DecisionRules.Text.Json

/-! Quoted texts with something put into them. What is put in may close the text, raise it to a power and
open it again, any number of times; the scan then finds that many powers where it found one text. -/
namespace DecisionRules.Expression

theorem closingQuote {q : Char} (quote : isQuote q = true) (cs : List Char) :
    closingLength? q (q :: cs) = some 1 := by
  rcases quoteFacts quote with rfl | rfl <;> simp [closingLength?]

theorem closingPlain {q c : Char} (other : c ≠ q) (plain : c ≠ '\\') (cs : List Char) :
    closingLength? q (c :: cs) = (closingLength? q cs).map (· + 1) := by
  rw [closingLength?]
  · simp [other, plain]
  · simp [plain]

theorem closingEscape {q c : Char} (sameLine : c ≠ '\n') (cs : List Char) :
    closingLength? q ('\\' :: c :: cs) = (closingLength? q cs).map (· + 2) := by
  rw [closingLength?]
  simp [sameLine]

theorem closingLine (q : Char) (cs : List Char) : closingLength? q ('\\' :: '\n' :: cs) = none := by
  rw [closingLength?]
  rfl

theorem hexPlain (k : Nat) : ∀ c ∈ Text.hexFixed 4 k, isQuote c = false ∧ c ≠ '\\' := by
  have digits : ∀ d < 16, isQuote (Text.hexDigit d) = false ∧ Text.hexDigit d ≠ '\\' := by decide
  intro c member
  simp only [Text.hexFixed, List.nil_append, List.cons_append, List.mem_cons, List.not_mem_nil,
    or_false] at member
  rcases member with rfl | rfl | rfl | rfl <;> exact digits _ (Nat.mod_lt _ (by decide))

theorem escapeShape (c : Char) :
    Text.Json.escape c = [c] ∧ c ≠ '"' ∧ c ≠ '\\' ∨
    ∃ d rest, Text.Json.escape c = '\\' :: d :: rest ∧ d ≠ '\n' ∧
      ∀ e ∈ rest, isQuote e = false ∧ e ≠ '\\' := by
  by_cases special : c = '"' ∨ c = '\\'
  · refine .inr ⟨c, [], by rcases special with rfl | rfl <;> rfl, ?_, ?_⟩
    · rintro rfl
      simp at special
    · simp
  · simp only [not_or] at special
    by_cases control : c.toNat < 0x20
    · refine .inr ?_
      unfold Text.Json.escape
      simp only [special.1, special.2, control, beq_iff_eq, Bool.or_eq_true, or_self, if_false, if_true]
      split
      · exact ⟨'n', [], rfl, by decide, by simp⟩
      · split
        · exact ⟨'r', [], rfl, by decide, by simp⟩
        · split
          · exact ⟨'t', [], rfl, by decide, by simp⟩
          · split
            · exact ⟨'b', [], rfl, by decide, by simp⟩
            · split
              · exact ⟨'f', [], rfl, by decide, by simp⟩
              · exact ⟨'u', _, rfl, by decide, hexPlain _⟩
    · have others : c ≠ '\n' ∧ c ≠ '\r' ∧ c ≠ '\t' ∧ c ≠ '\x08' ∧ c ≠ '\x0c' := by
        refine ⟨?_, ?_, ?_, ?_, ?_⟩ <;> rintro rfl <;> exact control (by decide)
      exact .inl ⟨by simp [Text.Json.escape, special, control, others], special⟩

/-- The inside of a quoted text that closes as many times more as counted, each time before a sign of power
and another quote, and goes on with the last text when it closes for good. -/
inductive Closes (q : Char) (last : List Char) : List Char → Nat → Prop where
  | once {cs k} (closed : closingLength? q cs = some k) (after : cs.drop k = last) : Closes q last cs 0
  | again {cs more k n} (closed : closingLength? q cs = some k)
      (after : cs.drop k = '*' :: '*' :: q :: more) (rest : Closes q last more n) : Closes q last cs (n + 1)

section
variable {q : Char} {last cs : List Char} {n : Nat}

theorem closesQuote (quote : isQuote q = true) : Closes q last (q :: last) 0 :=
  .once (closingQuote quote last) rfl

theorem closesAgain (quote : isQuote q = true) (closes : Closes q last cs n) :
    Closes q last (q :: '*' :: '*' :: q :: cs) (n + 1) :=
  .again (closingQuote quote _) rfl closes

theorem closesPlain {c : Char} (other : c ≠ q) (plain : c ≠ '\\') (closes : Closes q last cs n) :
    Closes q last (c :: cs) n := by
  cases closes with
  | once closed after => exact .once (by rw [closingPlain other plain, closed]; rfl) after
  | again closed after rest => exact .again (by rw [closingPlain other plain, closed]; rfl) after rest

theorem closesEscape {c : Char} (sameLine : c ≠ '\n') (closes : Closes q last cs n) :
    Closes q last ('\\' :: c :: cs) n := by
  cases closes with
  | once closed after => exact .once (by rw [closingEscape sameLine, closed]; rfl) after
  | again closed after rest => exact .again (by rw [closingEscape sameLine, closed]; rfl) after rest

theorem closesPlainList {front : List Char} (plain : ∀ c ∈ front, c ≠ q ∧ c ≠ '\\')
    (closes : Closes q last cs n) : Closes q last (front ++ cs) n := by
  induction front with
  | nil => exact closes
  | cons c rest ih =>
    simp only [List.mem_cons, forall_eq_or_imp] at plain
    exact closesPlain plain.1.1 plain.1.2 (ih plain.2)

theorem closesEscaped (quote : isQuote q = true) {c : Char} (harmless : c = q → q = '"')
    (closes : Closes q last cs n) : Closes q last (Text.Json.escape c ++ cs) n := by
  rcases escapeShape c with ⟨same, double, backslash⟩ | ⟨d, rest, same, sameLine, plain⟩
  · rw [same]
    exact closesPlain (fun same => double (same.trans (harmless same))) backslash closes
  · rw [same]
    refine closesEscape sameLine (closesPlainList (fun e member => ?_) closes)
    obtain ⟨ordinary, other⟩ := plain e member
    exact ⟨fun same => by simp [same, quote] at ordinary, other⟩

theorem closesEscapedText (quote : isQuote q = true) {text : List Char}
    (harmless : q = '"' ∨ q ∉ text) (closes : Closes q last cs n) :
    Closes q last (text.flatMap Text.Json.escape ++ cs) n := by
  induction text with
  | nil => exact closes
  | cons c rest ih =>
    simp only [List.flatMap_cons, List.append_assoc]
    refine closesEscaped quote (fun same => ?_) (ih ?_)
    · rcases harmless with double | absent
      · exact double
      · simp [same] at absent
    · rcases harmless with double | absent
      · exact .inl double
      · exact .inr fun member => absent (List.mem_cons_of_mem c member)

end

/-- The scan of the second text at any position gives a list that the given tokens have grown into. -/
def Yields (cs : List Char) (ts : List Token) (n : Nat) : Prop :=
  ∀ position, ∃ us, scan position cs = .ok us ∧ Expands ts us n

theorem scanQuoted {q : Char} (quote : isQuote q = true) {cs : List Char} {k : Nat}
    (closed : closingLength? q cs = some k) (position : Nat) :
    ∃ t v, t.value? = some v ∧
      scan position (q :: cs) = (scan (position + (k + 1)) (cs.drop k)).map (t :: ·) := by
  have found : lexeme? (q :: cs) = some (.token .string, k + 1) := by
    rw [lexemeQuoted quote, closed]
    rfl
  exact ⟨_, _, rfl, scanToken found position⟩

theorem scanStars (cs : List Char) (position : Nat) :
    scan position ('*' :: '*' :: cs) = (scan (position + 2) cs).map (⟨.op, "**", position⟩ :: ·) :=
  scanToken (lexemeStars cs) position

theorem closesYields {q : Char} (quote : isQuote q = true) {last cs : List Char} {m n : Nat}
    {t : Token} {v : Value} {ts : List Token} (closes : Closes q last cs m) (value : t.value? = some v)
    (yields : Yields last ts n) : Yields (q :: cs) (t :: ts) (m + n) := by
  induction closes with
  | once closed after =>
    intro position
    obtain ⟨u, w, value', scanned⟩ := scanQuoted quote closed position
    obtain ⟨us, rest, expands⟩ := yields (position + (_ + 1))
    rw [after, rest] at scanned
    exact ⟨u :: us, scanned, by simpa using .value value value' expands⟩
  | again closed after _ ih =>
    intro position
    obtain ⟨u, w, value', scanned⟩ := scanQuoted quote closed position
    obtain ⟨us, rest, expands⟩ := ih (position + (_ + 1) + 2)
    rw [after, scanStars, rest] at scanned
    exact ⟨_, scanned, by simpa [Nat.add_right_comm] using .power value value' rfl expands⟩

end DecisionRules.Expression
