import DecisionRules.Proofs.Expression.Quoted
import DecisionRules.Template

/-! Expression texts with references filled in. The places of the references are read off the text with
null in their stead; as long as what is filled in behaves at each place, the scan of the filled text gives
the same tokens, grown by what the places weigh. -/
namespace DecisionRules.Expression
open Segment (plain reference)

/-- Where a character of an expression text stands. -/
inductive Place where
  | outside
  | inside (quote : Char)
  /-- Inside a quoted text, right after a backslash that stands for itself. -/
  | escaped (quote : Char)
  deriving DecidableEq, Repr

def Place.after : Place → Char → Place
  | outside, c => if isQuote c then inside c else outside
  | inside q, c => if c == q then outside else if c == '\\' then escaped q else inside q
  | escaped q, _ => inside q

def Place.afterWord : Place → Place
  | escaped q => inside q
  | place => place

def references (place : Place) : List Segment → List (Place × List Char)
  | [] => []
  | plain c :: rest => references (place.after c) rest
  | reference name :: rest => (place, name) :: references place.afterWord rest

def Place.Proper : Place → Prop
  | outside => True
  | inside q | escaped q => isQuote q = true

theorem Place.afterProper {place : Place} (proper : place.Proper) (c : Char) : (place.after c).Proper := by
  cases place with
  | outside =>
    simp only [after]
    split
    · assumption
    · trivial
  | inside q =>
    simp only [after]
    split
    · trivial
    · split <;> exact proper
  | escaped q => exact proper

theorem Place.afterWordProper {place : Place} (proper : place.Proper) : place.afterWord.Proper := by
  cases place <;> exact proper

theorem referencesProper {place : Place} (proper : place.Proper) {segments : List Segment}
    {r : Place × List Char} (member : r ∈ references place segments) : r.1.Proper := by
  induction segments generalizing place with
  | nil => simp [references] at member
  | cons s rest ih =>
    cases s with
    | plain c => exact ih (Place.afterProper proper c) member
    | reference name =>
      simp only [references, List.mem_cons] at member
      rcases member with rfl | member
      · exact proper
      · exact ih (Place.afterWordProper proper) member

theorem referencesNames {place : Place} {segments : List Segment} {r : Place × List Char}
    (member : r ∈ references place segments) : reference r.2 ∈ segments := by
  induction segments generalizing place with
  | nil => simp [references] at member
  | cons s rest ih =>
    cases s with
    | plain c => exact List.mem_cons_of_mem _ (ih member)
    | reference name =>
      simp only [references, List.mem_cons] at member
      rcases member with rfl | member
      · exact List.mem_cons_self
      · exact List.mem_cons_of_mem _ (ih member)

def fill (put : List Char → List Char) : List Segment → List Char
  | [] => []
  | plain c :: rest => c :: fill put rest
  | reference name :: rest => put name ++ fill put rest

def blank (segments : List Segment) : List Char := fill (fun _ => ['n', 'u', 'l', 'l']) segments

def filled (text : List Char → String) (segments : List Segment) : List Char :=
  fill (fun name => Text.Json.quotedText (text name)) segments

theorem fillPlain (put : List Char → List Char) (front : List Char) (rest : List Segment) :
    fill put (front.map plain ++ rest) = front ++ fill put rest := by
  induction front with
  | nil => rfl
  | cons c front ih => simp only [List.map_cons, List.cons_append, fill, ih]

theorem fillLength {put : List Char → List Char} {n : Nat} (sized : ∀ name, (put name).length = n + 4)
    (place : Place) (segments : List Segment) :
    (fill put segments).length = (blank segments).length + n * (references place segments).length := by
  induction segments generalizing place with
  | nil => rfl
  | cons s rest ih =>
    cases s with
    | plain c =>
      have more := ih (place.after c)
      simp only [fill, blank, references, List.length_cons] at *
      omega
    | reference name =>
      have more := ih place.afterWord
      simp only [fill, blank, references, List.length_append, List.length_cons, List.length_nil, sized,
        Nat.mul_add] at *
      omega

theorem referencesPlain {front : List Char} (unquoted : ∀ c ∈ front, isQuote c = false)
    (rest : List Segment) : references .outside (front.map plain ++ rest) = references .outside rest := by
  induction front with
  | nil => rfl
  | cons c front ih =>
    simp only [List.mem_cons, forall_eq_or_imp] at unquoted
    simp only [List.map_cons, List.cons_append, references, Place.after, unquoted.1,
      Bool.false_eq_true, if_false, ih unquoted.2]

section
variable {text : List Char → String} {weight : Place → Nat}

/-- The filled-in text closes and opens the quoted text around it as often as its place weighs. -/
def Joins (text : List Char → String) (weight : Place → Nat) (r : Place × List Char) : Prop :=
  match r.1 with
  | .outside => weight .outside = 0
  | .inside q => ∀ {last cs n}, Closes q last cs n →
      Closes q last (Text.Json.quotedText (text r.2) ++ cs) (weight (.inside q) + n)
  | .escaped q => ∀ {last cs n}, Closes q last cs n →
      Closes q last ('\\' :: (Text.Json.quotedText (text r.2) ++ cs)) (weight (.escaped q) + n)

def total (weight : Place → Nat) (rs : List (Place × List Char)) : Nat := (rs.map (weight ·.1)).sum

theorem closingNull {q : Char} (quote : isQuote q = true) (cs : List Char) :
    closingLength? q ('n' :: 'u' :: 'l' :: 'l' :: cs) = (closingLength? q cs).map (· + 4) := by
  have other : 'n' ≠ q ∧ 'u' ≠ q ∧ 'l' ≠ q := by rcases quoteFacts quote with rfl | rfl <;> decide
  rw [closingPlain other.1 (by decide), closingPlain other.2.1 (by decide),
    closingPlain other.2.2 (by decide), closingPlain other.2.2 (by decide)]
  cases closingLength? q cs <;> rfl

theorem closingEscapedNull {q : Char} (quote : isQuote q = true) (cs : List Char) :
    closingLength? q ('\\' :: 'n' :: 'u' :: 'l' :: 'l' :: cs) = (closingLength? q cs).map (· + 5) := by
  have other : 'u' ≠ q ∧ 'l' ≠ q := by rcases quoteFacts quote with rfl | rfl <;> decide
  rw [closingEscape (by decide), closingPlain other.1 (by decide), closingPlain other.2 (by decide),
    closingPlain other.2 (by decide)]
  cases closingLength? q cs <;> rfl

/-- Where the quoted text in the blank text closes, the filled one closes too, after the references within. -/
def ClosesAlike (text : List Char → String) (weight : Place → Nat) (q : Char) (segments : List Segment)
    (k : Nat) : Prop :=
  ∃ rest within, rest.length < segments.length ∧ (blank segments).drop k = blank rest ∧
    references (.inside q) segments = within ++ references .outside rest ∧
    Closes q (filled text rest) (filled text segments) (total weight within)

theorem ClosesAlike.prepend {q : Char} {segments : List Segment} {k : Nat}
    (alike : ClosesAlike text weight q segments k) (front : List Segment) {shown : List Char}
    {own : List (Place × List Char)} (blanks : blank (front ++ segments) = shown ++ blank segments)
    (places : references (.inside q) (front ++ segments) = own ++ references (.inside q) segments)
    (fills : ∀ {last n}, Closes q last (filled text segments) n →
      Closes q last (filled text (front ++ segments)) (total weight own + n)) :
    ClosesAlike text weight q (front ++ segments) (k + shown.length) := by
  obtain ⟨rest, within, shorter, same, parts, closes⟩ := alike
  refine ⟨rest, own ++ within, ?_, ?_, ?_, ?_⟩
  · rw [List.length_append]
    omega
  · rw [blanks, Nat.add_comm, List.drop_length_add_append, same]
  · rw [places, parts, List.append_assoc]
  · have sum : total weight (own ++ within) = total weight own + total weight within := by simp [total]
    rw [sum]
    exact fills closes

/-- After a backslash in the quoted text: what comes next is escaped, reference or not. -/
theorem closesBackslash {q : Char} (quote : isQuote q = true) (ends : '\\' ≠ q) (segments : List Segment)
    (next : ∀ rest, rest.length < segments.length → ∀ {k}, closingLength? q (blank rest) = some k →
      (∀ r ∈ references (.inside q) rest, Joins text weight r) → ClosesAlike text weight q rest k)
    {k : Nat} (closed : closingLength? q ('\\' :: blank segments) = some k)
    (joins : ∀ r ∈ references (.inside q) (plain '\\' :: segments), Joins text weight r) :
    ClosesAlike text weight q (plain '\\' :: segments) k := by
  cases segments with
  | nil => simp [blank, fill, closingLength?, ends] at closed
  | cons s rest =>
    have shorter : rest.length < (s :: rest).length := Nat.lt_succ_self _
    cases s with
    | reference name =>
      have shape : blank ([plain '\\', reference name] ++ rest) =
          ['\\', 'n', 'u', 'l', 'l'] ++ blank rest := rfl
      have place : references (.inside q) ([plain '\\', reference name] ++ rest) =
          [(.escaped q, name)] ++ references (.inside q) rest := by
        simp [references, Place.after, Place.afterWord, ends]
      have closed : closingLength? q ('\\' :: 'n' :: 'u' :: 'l' :: 'l' :: blank rest) = some k := closed
      rw [closingEscapedNull quote] at closed
      obtain ⟨k, ended, rfl⟩ := Option.map_eq_some_iff.mp closed
      have joins : ∀ r ∈ [(.escaped q, name)] ++ references (.inside q) rest, Joins text weight r := by
        rwa [← place]
      simp only [List.cons_append, List.nil_append, List.mem_cons, forall_eq_or_imp] at joins
      exact (next rest shorter ended joins.2).prepend [plain '\\', reference name] shape place
        fun closes => by simpa [total, filled, fill] using joins.1 closes
    | plain d =>
      have shape : blank ([plain '\\', plain d] ++ rest) = ['\\', d] ++ blank rest := rfl
      have place : references (.inside q) ([plain '\\', plain d] ++ rest) =
          [] ++ references (.inside q) rest := by
        simp [references, Place.after, ends]
      have closed : closingLength? q ('\\' :: d :: blank rest) = some k := closed
      by_cases line : d = '\n'
      · rw [line, closingLine] at closed
        contradiction
      · rw [closingEscape line] at closed
        obtain ⟨k, ended, rfl⟩ := Option.map_eq_some_iff.mp closed
        have joins : ∀ r ∈ [] ++ references (.inside q) rest, Joins text weight r := by
          rwa [← place]
        exact (next rest shorter ended joins).prepend [plain '\\', plain d] shape place
          fun closes => by simpa [total, filled, fill] using closesEscape line closes

theorem closesFilled {q : Char} (quote : isQuote q = true) (segments : List Segment) {k : Nat}
    (closed : closingLength? q (blank segments) = some k)
    (joins : ∀ r ∈ references (.inside q) segments, Joins text weight r) :
    ClosesAlike text weight q segments k := by
  cases segments with
  | nil => simp [blank, fill, closingLength?] at closed
  | cons s rest =>
    cases s with
    | reference name =>
      have shape : blank (reference name :: rest) = ['n', 'u', 'l', 'l'] ++ blank rest := rfl
      have place : references (.inside q) (reference name :: rest) =
          [(.inside q, name)] ++ references (.inside q) rest := rfl
      rw [shape, List.cons_append, List.cons_append, List.cons_append, List.cons_append, List.nil_append,
        closingNull quote] at closed
      obtain ⟨k, ended, rfl⟩ := Option.map_eq_some_iff.mp closed
      simp only [place, List.cons_append, List.nil_append, List.mem_cons, forall_eq_or_imp] at joins
      exact (closesFilled quote rest ended joins.2).prepend [reference name] shape place
        fun closes => by simpa [total, filled, fill] using joins.1 closes
    | plain c =>
      have shape : blank (plain c :: rest) = [c] ++ blank rest := rfl
      rw [shape, List.cons_append, List.nil_append] at closed
      by_cases ends : c = q
      · subst ends
        rw [closingQuote quote] at closed
        cases closed
        refine ⟨rest, [], by simp, rfl, ?_, closesQuote quote⟩
        simp [references, Place.after]
      by_cases backslash : c = '\\'
      · subst backslash
        exact closesBackslash quote ends rest (fun back _ => closesFilled quote back) closed joins
      · have place : references (.inside q) ([plain c] ++ rest) = [] ++ references (.inside q) rest := by
          simp [references, Place.after, ends, backslash]
        rw [closingPlain ends backslash] at closed
        obtain ⟨k, ended, rfl⟩ := Option.map_eq_some_iff.mp closed
        have joins : ∀ r ∈ [] ++ references (.inside q) rest, Joins text weight r := by
          rwa [← place]
        exact (closesFilled quote rest ended joins).prepend [plain c] shape place
          fun closes => by simpa [total, filled, fill] using closesPlain ends backslash closes
termination_by segments.length
decreasing_by
  all_goals
    subst_vars
    simp only [List.length_cons]
    omega

theorem unquotedFront (text : List Char → String) (segments : List Segment) :
    ∃ (front : List Char) (rest : List Segment), segments = front.map plain ++ rest ∧
      (∀ c ∈ front, isQuote c = false) ∧ Stops (blank rest) ∧ ∀ d ∈ (filled text rest).head?, isQuote d = true := by
  induction segments with
  | nil => exact ⟨[], [], rfl, by simp, .done, by simp [filled, fill]⟩
  | cons s segments ih =>
    cases s with
    | reference name =>
      exact ⟨[], reference name :: segments, rfl, by simp, .word _,
        by simp [filled, fill, Text.Json.quotedText, isQuote]⟩
    | plain c =>
      cases quote : isQuote c with
      | true =>
        exact ⟨[], plain c :: segments, rfl, by simp, .quote quote _, by simp [filled, fill, quote]⟩
      | false =>
        obtain ⟨front, rest, rfl, unquoted, stops, ends⟩ := ih
        exact ⟨c :: front, rest, rfl, by simpa [quote] using unquoted, stops, ends⟩

theorem valueAlike {t u : Token} (kind : u.kind = t.kind) (text : u.text = t.text) :
    u.value? = t.value? := by
  simp only [Token.value?, kind, text]

theorem yieldsToken {cs : List Char} {kind : TokenKind} {n m position : Nat} {ts : List Token}
    (found : lexeme? cs = some (.token kind, n))
    (known : (Token.ofLexeme kind (String.ofList (cs.take n)) position).Known)
    (yields : Yields (cs.drop n) ts m) :
    Yields cs (Token.ofLexeme kind (String.ofList (cs.take n)) position :: ts) m := by
  intro other
  obtain ⟨us, rest, expands⟩ := yields (other + n)
  obtain ⟨alike, same⟩ := ofLexemeAlike kind (String.ofList (cs.take n)) other position
  refine ⟨_ :: us, by rw [scanToken found, rest]; rfl, ?_⟩
  rcases known with op | ⟨v, value⟩
  · exact .op op (alike.trans op) same expands
  · exact .value value ((valueAlike alike same).trans value) expands

theorem yieldsBlank {cs : List Char} {n m : Nat} {ts : List Token} (found : lexeme? cs = some (.blank, n))
    (yields : Yields (cs.drop n) ts m) : Yields cs ts m := by
  intro position
  obtain ⟨us, rest, expands⟩ := yields (position + n)
  exact ⟨us, by rw [scanBlank found, rest], expands⟩

/-- The filled text of the segments gives the tokens of the blank one, grown by what the places weigh. -/
def ScansAlike (text : List Char → String) (weight : Place → Nat) (segments : List Segment) : Prop :=
  ∀ position ts, scan position (blank segments) = .ok ts → (∀ t ∈ ts, t.kind ≠ .stop → t.Known) →
    (∀ r ∈ references .outside segments, Joins text weight r) →
    Yields (filled text segments) ts (total weight (references .outside segments))

theorem scansReference {name : List Char} {rest : List Segment} (next : ScansAlike text weight rest) :
    ScansAlike text weight (reference name :: rest) := by
  intro position ts scanned known joins
  have found := lexemeWord (blank rest)
  have scanned : scan position ('n' :: 'u' :: 'l' :: 'l' :: blank rest) = .ok ts := scanned
  rw [scanToken found] at scanned
  obtain ⟨more, after, rfl⟩ := mapAccepts.mp scanned
  have word := known _ List.mem_cons_self (lexemeKind found _ _)
  have length := nullLength word
  rw [length] at after word known ⊢
  simp only [references, Place.afterWord, List.mem_cons, forall_eq_or_imp] at joins
  have yields := next _ _ after (fun t member => known t (List.mem_cons_of_mem _ member)) joins.2
  have closes : Closes '"' (filled text rest)
      ((text name).toList.flatMap Text.Json.escape ++ '"' :: filled text rest) 0 :=
    closesEscapedText rfl (.inl rfl) (closesQuote rfl)
  have weightless : weight .outside = 0 := joins.1
  have value : (Token.ofLexeme .name (String.ofList ['n', 'u', 'l', 'l']) position).value? = some .null :=
    rfl
  simpa [references, Place.afterWord, total, weightless, filled, fill, Text.Json.quotedText] using
    closesYields rfl closes value yields

theorem scansQuoted {c : Char} {rest : List Segment} (quote : isQuote c = true)
    (next : ∀ back : List Segment, back.length < rest.length → ScansAlike text weight back) :
    ScansAlike text weight (plain c :: rest) := by
  intro position ts scanned known joins
  have scanned : scan position (c :: blank rest) = .ok ts := scanned
  obtain ⟨k, closed⟩ : ∃ k, closingLength? c (blank rest) = some k := by
    obtain ⟨cls, n, found⟩ := scanLexeme scanned (by simp)
    rw [lexemeQuoted quote] at found
    obtain ⟨k, closed, _⟩ := Option.map_eq_some_iff.mp found
    exact ⟨k, closed⟩
  obtain ⟨t, v, value, tail⟩ := scanQuoted quote closed position
  rw [tail] at scanned
  obtain ⟨more, after, rfl⟩ := mapAccepts.mp scanned
  have place : references .outside (plain c :: rest) = references (.inside c) rest := by
    simp [references, Place.after, quote]
  rw [place] at joins ⊢
  obtain ⟨back, within, shorter, same, parts, closes⟩ := closesFilled quote rest closed joins
  rw [same] at after
  rw [parts] at joins ⊢
  have yields := next back shorter _ _ after (fun t member => known t (List.mem_cons_of_mem _ member))
    fun r member => joins r (List.mem_append_right _ member)
  have grown := closesYields quote closes value yields
  rwa [show total weight within + total weight (references .outside back) =
    total weight (within ++ references .outside back) by simp [total]] at grown

/-- Text before the next quote or reference: its first lexeme is one of the filled text too, and the scan
goes on in what the lexeme leaves of it. -/
theorem scansUnquoted {c : Char} {front : List Char} {back : List Segment}
    (unquoted : ∀ d ∈ c :: front, isQuote d = false) (stops : Stops (blank back))
    (ends : ∀ d ∈ (filled text back).head?, isQuote d = true)
    (next : ∀ n, 0 < n → ScansAlike text weight (((c :: front).drop n).map plain ++ back)) :
    ScansAlike text weight ((c :: front).map plain ++ back) := by
  intro position ts scanned known joins
  have quote : isQuote c = false := unquoted c List.mem_cons_self
  have unquoted' (n : Nat) : ∀ d ∈ (c :: front).drop n, isQuote d = false :=
    fun d member => unquoted d (List.mem_of_mem_drop member)
  simp only [blank, filled, fillPlain] at scanned ⊢
  change scan position (c :: front ++ blank back) = .ok ts at scanned
  change Yields (c :: front ++ filled text back) ts _
  obtain ⟨cls, n, found⟩ := scanLexeme scanned (by simp)
  have within : n ≤ (c :: front).length := by
    by_cases name : cls = .token .name
    · subst name
      rw [scanToken found] at scanned
      obtain ⟨more, _, rfl⟩ := mapAccepts.mp scanned
      exact nameBefore (by simp) stops found (known _ List.mem_cons_self (lexemeKind found _ _))
    · exact lexemeWithin quote stops found name
  have found' := lexemeAgrees quote stops ends found within
  rw [referencesPlain unquoted] at joins ⊢
  have go {other : Nat} {more : List Token}
      (after : scan other ((c :: front ++ blank back).drop n) = .ok more)
      (known : ∀ t ∈ more, t.kind ≠ .stop → t.Known) :
      Yields ((c :: front ++ filled text back).drop n) more (total weight (references .outside back)) := by
    have yields := next n (lexemeFacts found).1 other more
    rw [blank, filled, fillPlain, fillPlain, referencesPlain (unquoted' n)] at yields
    rw [List.drop_append_of_le_length within] at after ⊢
    exact yields after known joins
  cases cls with
  | blank =>
    rw [scanBlank found] at scanned
    exact yieldsBlank found' (go scanned known)
  | token kind =>
    rw [scanToken found] at scanned
    obtain ⟨more, after, rfl⟩ := mapAccepts.mp scanned
    have front' : (c :: front ++ blank back).take n = (c :: front ++ filled text back).take n := by
      rw [List.take_append_of_le_length within, List.take_append_of_le_length within]
    have yields := go after fun t member => known t (List.mem_cons_of_mem _ member)
    rw [front'] at known ⊢
    exact yieldsToken found' (known _ List.mem_cons_self (lexemeKind found _ _)) yields

/-- By induction on the length of the segments, a lexeme of the blank text at each step. -/
theorem scanFilled (segments : List Segment) : ScansAlike text weight segments := by
  match segments with
  | [] =>
    intro position ts scanned _ _
    have scanned : scan position [] = .ok ts := scanned
    rw [scan] at scanned
    cases scanned
    intro other
    exact ⟨[⟨.stop, "", other⟩], by rw [filled, fill, scan], .stop rfl rfl⟩
  | reference name :: rest => exact scansReference (scanFilled rest)
  | plain c :: rest =>
    cases quote : isQuote c with
    | true => exact scansQuoted quote fun back shorter => scanFilled back
    | false =>
      obtain ⟨front, back, split, unquoted, stops, ends⟩ := unquotedFront text rest
      have size := congrArg List.length split
      have unquoted : ∀ d ∈ c :: front, isQuote d = false := by simpa [quote] using unquoted
      have shape : plain c :: rest = (c :: front).map plain ++ back := by rw [split]; rfl
      rw [shape]
      exact scansUnquoted unquoted stops ends fun n positive =>
        scanFilled (((c :: front).drop n).map plain ++ back)
termination_by segments.length
decreasing_by
  all_goals
    simp only [List.length_cons, List.length_append, List.length_map, List.length_drop] at *
    omega

theorem stopLast {used more body : List Token} {t last : Token} (shape : used ++ t :: more = body ++ [last])
    (ends : t.kind = .stop) (others : ∀ u ∈ body, u.kind ≠ .stop) : more = [] ∧ t = last := by
  rcases List.eq_nil_or_concat more with rfl | ⟨init, final, rfl⟩
  · exact ⟨rfl, (List.append_singleton_inj.mp shape).2⟩
  · rw [List.concat_eq_append, ← List.cons_append, ← List.append_assoc] at shape
    obtain ⟨rfl, _⟩ := List.append_singleton_inj.mp shape
    exact absurd ends (others t (by simp))

/-- The tree of a list of tokens that ends in a stop. -/
def parseTokens (ts : List Token) : Except ExpressionFault Expr := do
  let (e, ⟨rest, _⟩) ← parseAt .or ts
  match rest with
  | [] => return e
  | t :: _ => if t.kind == .stop then return e else .error (.unexpectedToken t.text t.position)

theorem parseSteps (source : String) : parse source = (do parseTokens (← tokenize source)) := rfl

theorem parseTokensFacts {ts body : List Token} {last : Token} {tree : Expr} (shape : ts = body ++ [last])
    (stop : last.kind = .stop) (others : ∀ t ∈ body, t.kind ≠ .stop) (parsed : parseTokens ts = .ok tree) :
    Reads (.level .or) ts tree [last] ∧ ∀ t ∈ body, t.Known := by
  unfold parseTokens at parsed
  obtain ⟨⟨e, rest, fewer⟩, found, parsed⟩ := bindAccepts.mp parsed
  have reads := parseAtReads _ _ found
  obtain ⟨used, parts, known⟩ := reads.uses
  have shape' := parts.symm.trans shape
  dsimp only at parsed
  split at parsed
  · rw [List.append_nil] at shape'
    have known := known last (by simp [shape'])
    rcases known with op | ⟨v, value⟩
    · simp [stop] at op
    · exact absurd stop (valueKind value).2
  · rename_i t more
    split at parsed
    · rename_i kind
      cases parsed
      obtain ⟨rfl, rfl⟩ := stopLast shape' (by simpa using kind) others
      obtain ⟨rfl, _⟩ := List.append_singleton_inj.mp shape'
      exact ⟨reads, known⟩
    · contradiction

theorem parseFacts {cs : List Char} {tree : Expr} (parsed : parse (String.ofList cs) = .ok tree) :
    cs.length ≤ maxLength ∧ ∃ ts last, scan 0 cs = .ok ts ∧ Reads (.level .or) ts tree [last] ∧
      last.kind = .stop ∧ ∀ t ∈ ts, t.kind ≠ .stop → t.Known := by
  rw [parseSteps] at parsed
  obtain ⟨ts, scanned, parsed⟩ := bindAccepts.mp parsed
  rw [tokenize, String.toList_ofList] at scanned
  split at scanned
  · contradiction
  · rename_i room
    obtain ⟨body, last, rfl, stop, others⟩ := scanEnds cs scanned
    obtain ⟨reads, known⟩ := parseTokensFacts rfl stop others parsed
    refine ⟨by omega, _, last, scanned, reads, stop, fun t member live => ?_⟩
    rcases List.mem_append.mp member with inside | ends
    · exact known t inside
    · exact absurd (List.mem_singleton.mp ends ▸ stop) live

/-- A filled text either is too long or parses to the tree of the blank one, grown by what its references
weigh. -/
theorem parseFilled {segments : List Segment} {tree : Expr}
    (parsed : parse (String.ofList (blank segments)) = .ok tree)
    (joins : ∀ r ∈ references .outside segments, Joins text weight r) :
    if maxLength < (filled text segments).length then
      parse (String.ofList (filled text segments)) = .error .tooLong
    else ∃ grown, parse (String.ofList (filled text segments)) = .ok grown ∧
      Grows tree grown (total weight (references .outside segments)) := by
  obtain ⟨_, ts, last, scanned, reads, stop, known⟩ := parseFacts parsed
  obtain ⟨us, scanned', expands⟩ := scanFilled segments _ _ scanned known joins 0
  obtain ⟨grown, left, k, l, sum, reads', grows, after⟩ :=
    reads.follows.simulates (by simp) _ _ _ _ (.level .or) expands
  obtain ⟨u, rfl, ends, rfl⟩ := expandsEnd stop after
  obtain ⟨fewer, found⟩ := reads'.parses
  unfold parse tokenize
  rw [String.toList_ofList]
  split
  · rename_i long
    simp only [long, if_true]
    rfl
  · rename_i room
    refine ⟨grown, ?_, ?_⟩
    · simp only [room, if_false, scanned', bind, Except.bind, found, ends]
      rfl
    · rw [sum]
      simpa using grows

end

end DecisionRules.Expression
