import DecisionRules.Proofs.Expression.Embedding
import DecisionRules.Proofs.Scope.Interpolation

/-! Comparisons of two references. With literals in their places, the text is read as the comparison of these
two, whatever they are. -/
namespace DecisionRules

namespace Segment

theorem cutText {cs : List Char} (other : '$' ∉ cs) (rest : List Char) :
    cut (cs ++ rest) = cs.map plain ++ cut rest := by
  induction cs with
  | nil => rfl
  | cons c cs ih =>
    simp only [List.mem_cons, not_or] at other
    have none : reference? (c :: (cs ++ rest)) = none := by
      cases cs ++ rest with
      | nil => rfl
      | cons d more => simp [reference?, Ne.symm other.1]
    rw [List.cons_append, cutOther none, ih other.2]
    rfl

theorem replaceText {f : List Char → Except Breach (List Char)} (cs : List Char) (rest : List Segment) :
    replaceAll f (cs.map plain ++ rest) = (replaceAll f rest).map (cs ++ ·) := by
  induction cs with
  | nil =>
    change replaceAll f rest = (replaceAll f rest).map ([] ++ ·)
    cases replaceAll f rest <;> rfl
  | cons c cs ih =>
    rw [List.map_cons, List.cons_append, replaceAll, ih]
    cases replaceAll f rest <;> rfl

end Segment

namespace Expression

def compared (left : List Char) (op : CompareOp) (right : List Char) : List Char :=
  left ++ ' ' :: (op.symbol.toList ++ ' ' :: right)

/-- The text that compares what two names refer to. -/
def comparing (m : List Char) (op : CompareOp) (n : List Char) : String :=
  String.ofList (compared (Segment.reference m).chars op (Segment.reference n).chars)

theorem symbolScans (op : CompareOp) (after : List Char) (position : Nat) :
    Scans op.symbol.toList (' ' :: after) position [⟨.op, op.symbol, position⟩] := by
  have ends (cls : LexemeClass) (other : cls ≠ .blank) : cls.goesOn ' ' = false := by
    cases cls with
    | blank => contradiction
    | token kind => cases kind <;> decide
  have scans (kind : TokenKind) (found : lexeme? op.symbol.toList = some (.token kind, op.symbol.toList.length))
      (number : kind ≠ .number) : Scans op.symbol.toList (' ' :: after) position
        [Token.ofLexeme kind (String.ofList op.symbol.toList) position] := by
    refine .lexeme (lexemeAppend found (fun same => absurd (by cases same; rfl) number) ?_)
    rintro _ d ⟨⟩
    exact ends _ nofun
  cases op with
  | member => exact scans .name (by decide) nofun
  | _ => exact scans .op (by decide) nofun

theorem comparedParses {op : CompareOp} {v w : Value} {left right : List Char} (literal : v.Literal)
    (literal' : w.Literal) (written : Text.Json.chars Text.Json.spaced v = .ok left)
    (written' : Text.Json.chars Text.Json.spaced w = .ok right)
    (room : (compared left op right).length ≤ maxLength) :
    ∃ e e', parse (String.ofList (compared left op right)) = .ok (.compare op e e') ∧ Evaluates e v ∧
      Evaluates e' w := by
  obtain ⟨e, writes, evaluates⟩ := literalWrites literal written
  obtain ⟨e', writes', evaluates'⟩ := literalWrites literal' written'
  refine ⟨e, e', ?_, evaluates, evaluates'⟩
  obtain ⟨us, first, derives⟩ :=
    writes (' ' :: (op.symbol.toList ++ ' ' :: right) ++ []) (.before (by decide) (by decide) _) 0
  obtain ⟨vs, last, derives'⟩ :=
    writes' [] (by simp [Closed]) (left.length + 1 + op.symbol.toList.length + 1)
  have blank (after : List Char) (position : Nat) : Scans [' '] after position [] := .blank (by decide)
  have scans : Scans (compared left op right) [] 0 (us ++ ⟨.op, op.symbol, left.length + 1⟩ :: vs) := by
    have second := (symbolScans op (right ++ []) (left.length + 1)).append ((blank _ _).cons last)
    have whole := first.append ((blank _ _).cons (by simpa using second))
    simpa [compared] using whole
  have tokens : tokenize (String.ofList (compared left op right)) =
      .ok ((us ++ ⟨.op, op.symbol, left.length + 1⟩ :: vs) ++
        [⟨.stop, "", 0 + (compared left op right).length⟩]) := by
    have short : ¬ (compared left op right).length > maxLength := Nat.not_lt.mpr room
    simp only [tokenize, String.toList_ofList, if_neg short, scans.whole]
  have chain : Derives (.level .comparison) (us ++ ⟨.op, op.symbol, left.length + 1⟩ :: vs) (.compare op e e') :=
    .chain rfl rfl (.comparison op) (derives.looser (by decide)) (derives'.looser (by decide))
  exact sentenceParses tokens ⟨_, _, rfl, rfl, chain.looser (by decide)⟩

theorem holdsShort {text : String} {b : Bool} (answers : holds text = .ok b) : text.length ≤ maxLength := by
  obtain ⟨e, parsed, _⟩ := bindAccepts.mp answers
  unfold parseSource at parsed
  split at parsed
  · rename_i found
    rw [← String.ofList_toList (s := text)] at found
    rw [← String.length_toList]
    exact (parseFacts found).1
  · cases parsed

theorem comparingCut {m n : List Char} (proper : Segment.Proper m) (proper' : Segment.Proper n) (op : CompareOp) :
    Segment.cut (comparing m op n).toList =
      .reference m :: ((' ' :: (op.symbol.toList ++ [' '])).map .plain ++ [.reference n]) := by
  have plain : '$' ∉ ' ' :: (op.symbol.toList ++ [' ']) := by cases op <;> decide
  have begins : Segment.reference? (comparing m op n).toList =
      some (m, (' ' :: (op.symbol.toList ++ [' '])) ++ (Segment.reference n).chars) :=
    Segment.referenceIff.mpr ⟨proper, by simp [comparing, compared]⟩
  rw [Segment.cutReference begins, Segment.cutText plain, Segment.spansIff.mp ⟨proper', rfl⟩]

end Expression

/-- The text that is one reference. -/
def referring (name : List Char) : String := String.ofList (Segment.reference name).chars

namespace Scope
open Expression

/-- A name and the value that a reference to it is resolved to. -/
structure Refers (s : Scope) (name : List Char) (v : Value) : Prop where
  proper : Segment.Proper name
  bound : s.lookup (referenceName name) = .ok (some v)

variable {s : Scope} {m n : List Char} {v w : Value}

theorem Refers.resolves (refers : s.Refers m v) :
    s.resolve (.text (referring m)) = .ok v :=
  becomesIff.mpr (.bound ⟨refers.proper, String.toList_ofList⟩ refers.bound)

theorem comparingWrites (left : s.Refers m v) (right : s.Refers n w) (op : CompareOp) {text : String} :
    s.substituteLiterals (comparing m op n) = .ok text ↔ ∃ cs ds,
      Text.Json.chars Text.Json.spaced v = .ok cs ∧ Text.Json.chars Text.Json.spaced w = .ok ds ∧
      text = String.ofList (compared cs op ds) := by
  have put {name : List Char} {u : Value} (refers : s.Refers name u) :
      inserted s.lookup (Text.Json.chars Text.Json.spaced) name = Text.Json.chars Text.Json.spaced u := by
    unfold inserted
    rw [refers.bound]
    rfl
  unfold substituteLiterals
  rw [comparingCut left.proper right.proper]
  simp only [Segment.replaceAll, Segment.replaceText, put left, put right]
  cases Text.Json.chars Text.Json.spaced v with
  | error b =>
    constructor
    · intro wrote
      cases wrote
    · rintro ⟨_, _, chars, _⟩
      cases chars
  | ok cs => cases Text.Json.chars Text.Json.spaced w with
    | error b =>
      constructor
      · intro wrote
        cases wrote
      · rintro ⟨_, _, _, chars, _⟩
        cases chars
    | ok ds =>
      simp [bind, Except.bind, pure, Except.pure, Except.map, compared, eq_comm]

/-- A comparison of two references to literals holds as the comparison of the two values says. -/
theorem comparingHolds (left : s.Refers m v) (right : s.Refers n w) (literal : v.Literal) (literal' : w.Literal)
    {op : CompareOp} {text : String} (written : s.substituteLiterals (comparing m op n) = .ok text)
    (room : text.length ≤ maxLength) :
    ∃ e e', parse text = .ok (.compare op e e') ∧ Evaluates e v ∧ Evaluates e' w := by
  obtain ⟨cs, ds, chars, chars', rfl⟩ := (comparingWrites left right op).mp written
  exact comparedParses literal literal' chars chars' (by simpa using room)

end Scope
end DecisionRules
