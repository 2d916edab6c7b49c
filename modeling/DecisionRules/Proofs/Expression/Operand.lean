import DecisionRules.Proofs.Expression.Cutting
import DecisionRules.Proofs.Expression.Regroup
import DecisionRules.Proofs.Expression.Substitution

/-! Numbers put into expressions. A number in the place of a reference is read as one operand, unless it runs
into a word before it. If it is negative it is read as two tokens, and as the base of a power it leaves its
sign outside of the power. -/
namespace DecisionRules

namespace Segment

/-- The characters before the first reference, and each reference with the characters after it. -/
def runs : List Segment → List Char × List (List Char × List Char)
  | [] => ([], [])
  | plain c :: rest => (c :: (runs rest).1, (runs rest).2)
  | reference name :: rest => ([], (name, (runs rest).1) :: (runs rest).2)

end Segment

namespace Expression
variable {number : List Char → Int}

/-- One token for a number. A negative one has its sign in the text, and no text is cut to such a token. -/
def operandToken (n : Int) : Token := ⟨.number, String.ofList (Number.intChars n), 0⟩

/-- The tokens of the runs, each of them cut alone, with the numbers between them. -/
def operandTokens (number : List Char → Int) (run : List Char) :
    List (List Char × List Char) → Except ExpressionFault (List Token)
  | [] => scan 0 run
  | (name, next) :: rest => do
    let before ← scan 0 run
    let after ← operandTokens number next rest
    return before.dropLast ++ operandToken (number name) :: after

def operandChars (number : List Char → Int) (run : List Char) (parts : List (List Char × List Char)) : List Char :=
  run ++ parts.flatMap fun part => Number.intChars (number part.1) ++ part.2

/-- Does each number have a sign, or no character of a name right before it? -/
def spaced (number : List Char → Int) (run : List Char) : List (List Char × List Char) → Bool
  | [] => true
  | (name, next) :: rest => (number name < 0 || run.getLast?.all (!nameChar ·)) && spaced number next rest

/-- Is a negative number the base of a power? -/
def negativeBase : List Token → Bool
  | t :: u :: rest =>
    (match t.value? with
      | some (.int n) => n < 0 && u.isOp "**"
      | _ => false) || negativeBase (u :: rest)
  | _ => false

theorem negativeBaseSuffix (front : List Token) {ts : List Token} (found : negativeBase ts = true) :
    negativeBase (front ++ ts) = true := by
  induction front with
  | nil => exact found
  | cons t front ih =>
    cases after : front ++ ts with
    | nil =>
      rw [after] at ih
      contradiction
    | cons u rest =>
      rw [after] at ih
      rw [List.cons_append, after, negativeBase, ih, Bool.or_true]

theorem splitsSame {based : Prop} {ts us back vs : List Token} (same : Same ts us) (splits : Splits based back vs) :
    Splits based (ts ++ back) (us ++ vs) := by
  induction same with
  | nil => exact splits
  | cons alike _ ih => exact .alike alike.1 alike.2 ih

theorem numberBegins {n : Int} {run after : List Char} {ts : List Token} (op : ∀ t ∈ ts.getLast?, t.kind = .op)
    (apart : (n < 0 || run.getLast?.all (!nameChar ·)) = true) :
    ∀ d ∈ (Number.intChars n ++ after).head?, EndsBefore run ts d := by
  intro d first
  rcases Int.lt_or_le n 0 with negative | natural
  · have chars : Number.intChars n = '-' :: Number.digitChars n.natAbs := if_pos negative
    rw [chars] at first
    cases first
    exact ⟨op, by decide, by decide, nofun⟩
  · have chars : Number.intChars n = Number.digitChars n.natAbs := if_neg (by omega)
    obtain ⟨c, rest, digits⟩ := List.exists_cons_of_ne_nil (Number.digitCharsSome n.natAbs)
    rw [chars, digits] at first
    cases first
    have digit : d.isDigit = true := Number.digitCharsDigit (digits ▸ List.mem_cons_self)
    refine ⟨op, (Number.digitFacts digit).2.2.1, digitGoesNot digit, fun _ c last => ?_⟩
    rw [Option.mem_def.mp last] at apart
    simpa [Int.not_lt.mpr natural] using apart

/-- A run and the number after it are scanned to the tokens of the run and that number, which may have split. -/
theorem numberScans {n : Int} (fits : Number.writable n = true) {run rest : List Char} {before : List Token}
    (cuts : Cuts 0 run before) (parted : before.IsChain Parted) (op : ∀ t ∈ before.getLast?, t.kind = .op)
    (apart : (n < 0 || run.getLast?.all (!nameChar ·)) = true) (ends : ∀ d ∈ rest.head?, endsNumber d = true)
    (position : Nat) : ∃ us, Scans (run ++ Number.intChars n) rest position us ∧
      ∀ {based : Prop} {back vs : List Token}, Splits based back vs →
        (n < 0 → ∀ u ∈ back.head?, u.isOp "**" = true → based) →
        Splits based (before ++ operandToken n :: back) (us ++ vs) := by
  obtain ⟨us, scans, same⟩ := runScans cuts parted (numberBegins op apart) position
  obtain ⟨whole, parts⟩ := intScans fits ends (position + run.length)
  rcases Int.lt_or_le n 0 with negative | natural
  · obtain ⟨minus, u, mark, part, here⟩ := parts negative
    refine ⟨_, .append scans here, fun splits base => ?_⟩
    rw [List.append_assoc]
    refine splitsSame same (.split ?_ mark part (base negative) splits)
    rw [Int.neg_neg]
    exact intValue fits 0
  · refine ⟨_, .append scans (whole natural), fun splits _ => ?_⟩
    rw [List.append_assoc]
    exact splitsSame same (.alike rfl rfl splits)

/-! Numbers between runs -/

theorem operandStep {run name next : List Char} {rest : List (List Char × List Char)} {ts : List Token}
    (atoms : operandTokens number run ((name, next) :: rest) = .ok ts) :
    ∃ before after, Cuts 0 run before ∧ operandTokens number next rest = .ok after ∧
      ts = before ++ operandToken (number name) :: after := by
  obtain ⟨front, scanned, atoms⟩ := bindAccepts.mp atoms
  obtain ⟨after, others, same⟩ := bindAccepts.mp atoms
  obtain ⟨before, last, rfl, _, cuts⟩ := scanCuts run scanned
  cases same
  exact ⟨before, after, cuts, others, by rw [List.dropLast_concat]⟩

theorem operandEnds {run : List Char} {parts : List (List Char × List Char)} {ts : List Token}
    (atoms : operandTokens number run parts = .ok ts) :
    ∃ body last, ts = body ++ [last] ∧ last.kind = .stop ∧ ∀ t ∈ body, t.kind ≠ .stop := by
  induction parts generalizing run ts with
  | nil => exact scanEnds run atoms
  | cons part rest ih =>
    obtain ⟨before, after, cuts, others, rfl⟩ := operandStep atoms
    obtain ⟨body, last, rfl, stop, live⟩ := ih others
    refine ⟨before ++ operandToken (number part.1) :: body, last, by simp, stop, ?_⟩
    exact List.forall_mem_append.mpr ⟨cutsLive cuts, List.forall_mem_cons.mpr ⟨nofun, live⟩⟩

theorem operandHead {run : List Char} {parts : List (List Char × List Char)} {body : List Token} {last : Token}
    (atoms : operandTokens number run parts = .ok (body ++ [last])) (stop : last.kind = .stop)
    (first : ∀ t ∈ body.head?, t.kind = .op) : ∀ d ∈ (operandChars number run parts).head?, endsNumber d = true := by
  cases parts with
  | nil =>
    obtain ⟨ts, u, shape, _, cuts⟩ := scanCuts run atoms
    obtain ⟨rfl, _⟩ := List.append_singleton_inj.mp shape
    simpa [operandChars] using headEnds cuts first
  | cons part rest =>
    obtain ⟨before, after, cuts, _, shape⟩ := operandStep atoms
    cases before with
    | nil =>
      cases body with
      | nil => simp [(List.cons.inj shape).1, operandToken] at stop
      | cons t body => simp [(List.cons.inj shape).1, operandToken] at first
    | cons t more =>
      obtain ⟨c, cs, rfl⟩ : ∃ c cs, run = c :: cs := List.exists_cons_of_ne_nil fun none => by
        cases cutsNone cuts none
      refine fun d head => headEnds cuts (fun u same => first u ?_) d head
      cases body with
      | nil => simp at shape
      | cons v body => exact (List.cons.inj shape).1 ▸ same

/-- What the operand tokens of a run and of the number after it are, if they have operators between them. -/
theorem operandParts {run name next : List Char} {rest : List (List Char × List Char)} {body : List Token}
    {last : Token} (atoms : operandTokens number run ((name, next) :: rest) = .ok (body ++ [last]))
    (parted : body.IsChain Parted) : ∃ before back, Cuts 0 run before ∧ before.IsChain Parted ∧
      (∀ t ∈ before.getLast?, t.kind = .op) ∧ body = before ++ operandToken (number name) :: back ∧
      operandTokens number next rest = .ok (back ++ [last]) ∧ back.IsChain Parted ∧
      ∀ d ∈ (operandChars number next rest).head?, endsNumber d = true := by
  obtain ⟨before, after, cuts, others, shape⟩ := operandStep atoms
  obtain ⟨back, final, rfl, stop, _⟩ := operandEnds others
  rw [← List.cons_append, ← List.append_assoc] at shape
  obtain ⟨rfl, rfl⟩ := List.append_singleton_inj.mp shape
  obtain ⟨front, tail, joint⟩ := List.isChain_append.mp parted
  obtain ⟨first, tail⟩ := List.isChain_cons.mp tail
  refine ⟨before, back, cuts, front, fun t same => (joint t same _ rfl).resolve_right nofun, rfl, others, tail, ?_⟩
  exact operandHead others stop fun t same => (first t same).resolve_left nofun

theorem operandCharsStep (run name next : List Char) (rest : List (List Char × List Char)) :
    operandChars number run ((name, next) :: rest) =
      (run ++ Number.intChars (number name)) ++ operandChars number next rest := by
  simp [operandChars]

theorem operandScans {based : Prop} {run : List Char} {parts : List (List Char × List Char)} {body : List Token}
    {last : Token} (atoms : operandTokens number run parts = .ok (body ++ [last])) (parted : body.IsChain Parted)
    (fits : ∀ part ∈ parts, Number.writable (number part.1) = true)
    (base : negativeBase (body ++ [last]) = true → based) (apart : spaced number run parts = true) (position : Nat) :
    ∃ us stop, scan position (operandChars number run parts) = .ok (us ++ [stop]) ∧ stop.kind = .stop ∧
      Splits based body us := by
  induction parts generalizing run body position with
  | nil =>
    obtain ⟨ts, u, shape, _, cuts⟩ := scanCuts run atoms
    obtain ⟨rfl, _⟩ := List.append_singleton_inj.mp shape
    obtain ⟨us, scans, same⟩ : ∃ us, Scans run [] position us ∧ Same body us :=
      runScans cuts parted (fun _ none => by cases none) position
    refine ⟨us, ⟨.stop, "", position + run.length⟩, ?_, rfl, by simpa using splitsSame same .none⟩
    simpa [operandChars] using scans.whole
  | cons part rest ih =>
    obtain ⟨name, next⟩ := part
    obtain ⟨before, back, cuts, front, op, rfl, others, tail, ends⟩ := operandParts atoms parted
    rw [spaced, Bool.and_eq_true] at apart
    obtain ⟨here, fits⟩ := List.forall_mem_cons.mp fits
    obtain ⟨us, scans, splits⟩ := numberScans here cuts front op apart.1 ends position
    have later (found : negativeBase (back ++ [last]) = true) : based :=
      base (by simpa using negativeBaseSuffix (before ++ [operandToken (number name)]) found)
    -- the sign of the power whose base this number is comes first in what the induction covers
    obtain ⟨vs, stop, scanned, kind, more⟩ := ih others tail fits later apart.2 _
    refine ⟨us ++ vs, stop, ?_, kind, splits more fun negative u first stars => ?_⟩
    · rw [operandCharsStep, scans, scanned]
      simp [Except.map]
    · obtain ⟨rest, rfl⟩ := List.head?_eq_some_iff.mp first
      have found : negativeBase (operandToken (number name) :: u :: (rest ++ [last])) = true := by
        rw [negativeBase, operandToken, intValue here]
        simp [negative, stars]
      exact base (by simpa using negativeBaseSuffix before found)

theorem operandRefused {run : List Char} {parts : List (List Char × List Char)} {body us : List Token} {last : Token}
    (atoms : operandTokens number run parts = .ok (body ++ [last])) (parted : body.IsChain Parted)
    (fits : ∀ part ∈ parts, Number.writable (number part.1) = true) (joined : spaced number run parts = false)
    {position : Nat} (scanned : scan position (operandChars number run parts) = .ok us) :
    ∃ u ∈ us, u.kind ≠ .stop ∧ ¬ u.Known := by
  induction parts generalizing run body position us with
  | nil => contradiction
  | cons part rest ih =>
    obtain ⟨name, next⟩ := part
    obtain ⟨before, back, cuts, front, op, rfl, others, tail, ends⟩ := operandParts atoms parted
    obtain ⟨here, fits⟩ := List.forall_mem_cons.mp fits
    rw [operandCharsStep] at scanned
    cases apart : (number name < 0 || run.getLast?.all (!nameChar ·)) with
    | true =>
      rw [spaced, apart, Bool.true_and] at joined
      obtain ⟨vs, scans, _⟩ := numberScans here cuts front op apart ends position
      rw [scans] at scanned
      obtain ⟨more, after, rfl⟩ := mapAccepts.mp scanned
      obtain ⟨u, member, unknown⟩ := ih others tail fits joined after
      exact ⟨u, List.mem_append_right _ member, unknown⟩
    | false =>
      simp only [Bool.or_eq_false_iff, decide_eq_false_iff_not, Option.all_eq_false, Bool.not_eq_eq_eq_not,
        Bool.not_false] at apart
      obtain ⟨natural, c, last, word⟩ := apart
      obtain ⟨d, digits, shape⟩ := List.exists_cons_of_ne_nil (Number.digitCharsSome (number name).natAbs)
      rw [Number.intChars, if_neg natural, shape, List.append_assoc] at scanned
      exact numberRunsOn (Number.digitCharsDigit (shape ▸ List.mem_cons_self)) cuts front op last word scanned

/-! Trees -/

theorem parseTokensDerives {body : List Token} {last : Token} {tree : Expr} (stop : last.kind = .stop)
    (others : ∀ t ∈ body, t.kind ≠ .stop) (parsed : parseTokens (body ++ [last]) = .ok tree) :
    Derives (.level .or) body tree := by
  obtain ⟨used, shape, derives⟩ := (parseTokensFacts rfl stop others parsed).1.derived
  obtain ⟨rfl, _⟩ := List.append_singleton_inj.mp shape
  exact derives

theorem holdsParsed {source : String} {e : Expr} (parsed : parse source = .ok e) :
    holds source = (interpret e).map Value.truthy := by
  rw [holds, parseSource, parsed]
  change (do return (← interpret e).truthy) = _
  cases interpret e <;> rfl

theorem unknownRefused {source : String}
    (unknown : ∀ ts, tokenize source = .ok ts → ∃ t ∈ ts, t.kind ≠ .stop ∧ ¬ t.Known) :
    ∃ fault, parse source = .error fault := by
  cases parsed : parse source with
  | error fault => exact ⟨fault, rfl⟩
  | ok e =>
    rw [← String.ofList_toList (s := source)] at parsed
    obtain ⟨short, ts, last, scanned, _, _, known⟩ := parseFacts parsed
    have room : ¬ source.toList.length > maxLength := by omega
    obtain ⟨t, member, live, other⟩ := unknown ts (by simpa only [tokenize, if_neg room] using scanned)
    exact absurd (known t member live) other

end Expression

namespace Segment
open Expression (fill)

theorem fillRuns (put : List Char → List Char) (segments : List Segment) : fill put segments =
    (runs segments).1 ++ (runs segments).2.flatMap fun part => put part.1 ++ part.2 := by
  induction segments with
  | nil => rfl
  | cons s rest ih =>
    cases s with
    | plain c => rw [fill, ih, runs, List.cons_append]
    | reference name => simp [fill, ih, runs]

theorem runsNames {segments : List Segment} {part : List Char × List Char} (member : part ∈ (runs segments).2) :
    reference part.1 ∈ segments := by
  induction segments with
  | nil => contradiction
  | cons s rest ih =>
    cases s with
    | plain c => exact List.mem_cons_of_mem _ (ih member)
    | reference name =>
      rcases List.mem_cons.mp member with rfl | member
      · exact List.mem_cons_self
      · exact List.mem_cons_of_mem _ (ih member)

theorem replaceAllEach {f : List Char → Except Breach (List Char)} {segments : List Segment} {cs : List Char}
    (replaced : replaceAll f segments = .ok cs) {name : List Char} (member : reference name ∈ segments) :
    ∃ part, f name = .ok part := by
  induction segments generalizing cs with
  | nil => contradiction
  | cons s rest ih =>
    cases s with
    | plain c =>
      obtain ⟨more, after, _⟩ := bindAccepts.mp replaced
      exact ih after ((List.mem_cons.mp member).resolve_left nofun)
    | reference other =>
      obtain ⟨part, here, more⟩ := bindAccepts.mp replaced
      obtain ⟨_, after, _⟩ := bindAccepts.mp more
      rcases List.mem_cons.mp member with same | member
      · cases same
        exact ⟨part, here⟩
      · exact ih after member

end Segment

namespace Scope
open Expression

def BindsIntegers (s : Scope) (source : String) : Prop :=
  ∀ name, .reference name ∈ Segment.cut source.toList → ∃ n, s.lookup (referenceName name) = .ok (some (.int n))

def bindsInteger (s : Scope) : Segment → Bool
  | .plain _ => true
  | .reference name =>
    match s.lookup (referenceName name) with
    | .ok (some (.int _)) => true
    | _ => false

theorem bindsIntegersEach {s : Scope} {source : String} :
    (∀ part ∈ Segment.cut source.toList, s.bindsInteger part = true) ↔ s.BindsIntegers source := by
  constructor
  · intro each name member
    have binds := each _ member
    simp only [bindsInteger] at binds
    split at binds
    · rename_i n found
      exact ⟨n, found⟩
    · contradiction
  · intro bound part member
    cases part with
    | plain c => rfl
    | reference name =>
      obtain ⟨n, found⟩ := bound name member
      simp only [bindsInteger, found]

instance (s : Scope) (source : String) : Decidable (s.BindsIntegers source) :=
  decidable_of_iff _ bindsIntegersEach

def integerOf (s : Scope) (name : List Char) : Int :=
  match s.lookup (referenceName name) with
  | .ok (some (.int n)) => n
  | _ => 0

/-- The tokens of the text, with one token for each reference. -/
def operandTokens (s : Scope) (source : String) : Except ExpressionFault (List Expression.Token) :=
  let runs := Segment.runs (Segment.cut source.toList)
  Expression.operandTokens s.integerOf runs.1 runs.2

def spaced (s : Scope) (source : String) : Bool :=
  let runs := Segment.runs (Segment.cut source.toList)
  Expression.spaced s.integerOf runs.1 runs.2

theorem substituteIntegers {s : Scope} {source text : String} (bound : s.BindsIntegers source)
    (written : s.substituteLiterals source = .ok text) :
    (∀ name, .reference name ∈ Segment.cut source.toList → Number.writable (s.integerOf name) = true) ∧
    text.toList = fill (fun name => Number.intChars (s.integerOf name)) (Segment.cut source.toList) := by
  obtain ⟨cs, replaced, same⟩ := bindAccepts.mp written
  cases same
  have shown : ∀ name, .reference name ∈ Segment.cut source.toList →
      Number.writable (s.integerOf name) = true ∧
      inserted s.lookup (Text.Json.chars Text.Json.spaced) name = .ok (Number.intChars (s.integerOf name)) := by
    intro name member
    obtain ⟨n, found⟩ := bound name member
    obtain ⟨part, here⟩ := Segment.replaceAllEach replaced member
    have value : s.integerOf name = n := by simp only [integerOf, found]
    have chars : inserted s.lookup (Text.Json.chars Text.Json.spaced) name =
        Text.Json.chars Text.Json.spaced (.int n) := by
      simp only [inserted, found]
      rfl
    rw [chars, Text.Json.chars] at here
    rw [chars, value, Text.Json.chars]
    split at here
    · rename_i fits
      exact ⟨fits, if_pos fits⟩
    · contradiction
  refine ⟨fun name member => (shown name member).1, ?_⟩
  rw [replaceAllFills _ _ fun name member => (shown name member).2] at replaced
  cases replaced
  exact String.toList_ofList

/-- A text that parses with one operand for each reference parses with the integers put in, to the same tree but
for the signs of negative numbers, and has the same value if none of them is the base of a power. Only a number
without a sign that runs into a word makes it fail. -/
theorem integersAreOperands {s : Scope} {source text : String} {ts : List Expression.Token} {tree : Expr}
    (bound : s.BindsIntegers source) (written : s.substituteLiterals source = .ok text)
    (room : text.length ≤ maxLength) (atoms : s.operandTokens source = .ok ts) (parsed : parseTokens ts = .ok tree) :
    (s.spaced source = true →
      (∃ grown, parse text = .ok grown ∧ Regroups (negativeBase ts = true) tree grown) ∧
      (negativeBase ts = false → holds text = (interpret tree).map Value.truthy)) ∧
    (s.spaced source = false → ∃ fault, holds text = .error (.expression fault) ∧
      (Failure.expression fault).kind = "ExpressionError") := by
  obtain ⟨fits, chars⟩ := substituteIntegers bound written
  rw [Segment.fillRuns] at chars
  have fits : ∀ part ∈ (Segment.runs (Segment.cut source.toList)).2, Number.writable (s.integerOf part.1) = true :=
    fun part member => fits part.1 (Segment.runsNames member)
  have tokens : tokenize text = scan 0 text.toList := by
    rw [tokenize, String.length_toList]
    exact if_neg (Nat.not_lt.mpr room)
  obtain ⟨body, last, rfl, stop, live⟩ := operandEnds atoms
  have derives := parseTokensDerives stop live parsed
  constructor
  · intro apart
    obtain ⟨us, end', scanned, kind, splits⟩ := operandScans atoms derives.parted fits id apart 0
    obtain ⟨grown, derives', regroups⟩ := (regroupedLoose (by decide)).mp (derives.regrouped splits)
    rw [operandChars, ← chars, ← tokens] at scanned
    have parsed' := sentenceParses scanned ⟨us, end', rfl, kind, derives'⟩
    refine ⟨⟨grown, parsed', regroups⟩, fun free => ?_⟩
    rw [holdsParsed parsed', regroups.interpret (by rw [free]; exact Bool.false_ne_true)]
  · intro joined
    obtain ⟨fault, refused⟩ : ∃ fault, parse text = .error fault := unknownRefused fun us scanned => by
      rw [tokens, chars] at scanned
      exact operandRefused atoms derives.parted fits joined scanned
    refine ⟨fault, ?_, rfl⟩
    rw [holds, parseSource, refused]
    rfl

theorem integersAreOperandsSigned :
    let s : Scope := ⟨⟨[], [("x", .int (-5)), ("y", .int 2)], []⟩, [], []⟩
    let source := "${y} - ${x} * ${y} == 12"
    let text := "2 - -5 * 2 == 12"
    s.BindsIntegers source ∧ s.substituteLiterals source = .ok text ∧ text.length ≤ maxLength ∧
    ∃ ts tree, s.operandTokens source = .ok ts ∧ parseTokens ts = .ok tree ∧ s.spaced source = true ∧
      negativeBase ts = false ∧ holds text = (interpret tree).map Value.truthy := by
  intro s source text
  have bound : s.BindsIntegers source := by decide +kernel
  have written : s.substituteLiterals source = .ok text := by decide +kernel
  have room : text.length ≤ maxLength := by decide
  have parses : (do return (← parseTokens (← s.operandTokens source)).operators) = Except.ok 3 := by decide +kernel
  obtain ⟨ts, atoms, parses⟩ := bindAccepts.mp parses
  obtain ⟨tree, parsed, _⟩ := bindAccepts.mp parses
  have free : (s.operandTokens source).map negativeBase = .ok false := by decide +kernel
  have free : negativeBase ts = false := by
    rw [atoms] at free
    exact Except.ok.inj free
  have apart : s.spaced source = true := by decide +kernel
  exact ⟨bound, written, room, ts, tree, atoms, parsed, apart, free,
    ((integersAreOperands bound written room atoms parsed).1 apart).2 free⟩

/-- Put in before the sign of a power, a negative number leaves its sign outside of it. -/
theorem negativeBaseRegroups :
    let s : Scope := ⟨⟨[], [("x", .int (-2))], []⟩, [], []⟩
    let source := "${x} ** 2 == 4"
    s.BindsIntegers source ∧ s.spaced source = true ∧ ∃ text ts tree, s.substituteLiterals source = .ok text ∧
      text.length ≤ maxLength ∧ s.operandTokens source = .ok ts ∧ parseTokens ts = .ok tree ∧
      (interpret tree).map Value.truthy = .ok true ∧ holds text = .ok false := by
  intro s source
  have answers : (do return (interpret (← parseTokens (← s.operandTokens source))).map Value.truthy) =
      Except.ok (.ok true) := by decide +kernel
  obtain ⟨ts, atoms, answers⟩ := bindAccepts.mp answers
  obtain ⟨tree, parsed, answers⟩ := bindAccepts.mp answers
  exact ⟨by decide +kernel, by decide +kernel, "-2 ** 2 == 4", ts, tree, by decide +kernel, by decide, atoms, parsed,
    Except.ok.inj answers, by decide +kernel⟩

end Scope
end DecisionRules
