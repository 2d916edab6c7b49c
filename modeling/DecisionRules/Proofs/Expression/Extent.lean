import DecisionRules.Proofs.Expression.Leaves
import DecisionRules.Proofs.Number.Width

/-! Texts and lists within their share of the limit on sequences, one share for each node. Two operators
have no guard: a template may ask for any width, and a list joined to a text is written out. What they give
decides whether everything stays within bounds. -/
namespace DecisionRules

/-- No text and no list in the value is longer. -/
def Value.Extent (b : Nat) (v : Value) : Prop :=
  ∀ w n, Occurs w v → Expression.sequenceLength? w = some n → n ≤ b

/-- The kinds of values that expressions have. -/
def Value.written : Value → Bool
  | .object _ | .pattern .. | .callable _ => false
  | _ => true

structure Value.Sized (b : Nat) (v : Value) : Prop where
  extent : Extent b v
  written : ∀ w, Occurs w v → w.written = true

namespace Value
open Expression (sequenceLength? maxSequence)
variable {b c : Nat}

theorem Sized.more {v : Value} (sized : Sized b v) (more : b ≤ c) : Sized c v :=
  ⟨fun w n occurs length => (sized.extent w n occurs length).trans more, sized.written⟩

theorem sizedScalar {v : Value} (scalar : sequenceLength? v = none) (kind : v.written = true) : Sized b v := by
  have atom : v.list? = none := by cases v <;> first | rfl | cases scalar
  refine ⟨fun w n occurs length => ?_, fun w occurs => ?_⟩
  · rw [(occursAtom atom).mp occurs, scalar] at length
    contradiction
  · rw [(occursAtom atom).mp occurs, kind]

theorem sizedText {s : String} : Sized b (.text s) ↔ s.length ≤ b := by
  constructor
  · exact fun sized => sized.extent _ _ .self rfl
  · intro short
    refine ⟨fun w n occurs length => ?_, fun w occurs => ?_⟩
    · cases (occursAtom rfl).mp occurs
      cases length
      exact short
    · cases (occursAtom rfl).mp occurs
      rfl

theorem sizedList {items : List Value} :
    Sized b (.list items) ↔ items.length ≤ b ∧ ∀ v ∈ items, Sized b v := by
  constructor
  · exact fun sized => ⟨sized.extent _ _ .self rfl, fun v member =>
      ⟨fun w n occurs => sized.extent w n (.item member occurs),
        fun w occurs => sized.written w (.item member occurs)⟩⟩
  · rintro ⟨short, each⟩
    refine ⟨fun w n occurs length => ?_, fun w occurs => ?_⟩
    · rcases occursList.mp occurs with rfl | ⟨v, member, inside⟩
      · cases length
        exact short
      · exact (each v member).extent w n inside length
    · rcases occursList.mp occurs with rfl | ⟨v, member, inside⟩
      · rfl
      · exact (each v member).written w inside

theorem sizedNumeral (a : Numeral) : Sized b (ofNumeral a) := by
  cases a <;> exact sizedScalar rfl rfl

theorem scalarShort {v : Value} {s : String} (scalar : sequenceLength? v = none) (kind : v.written = true)
    (shown : v.stringify = .ok s) : s.length ≤ maxSequence := by
  have room : 20004 ≤ maxSequence := by decide
  cases v with
  | null =>
    cases shown
    decide
  | bool truth =>
    cases shown
    cases truth <;> decide
  | int n =>
    simp only [stringify, display, literal, intText] at shown
    split at shown
    · rename_i found
      cases shown
      exact (Number.intTextShort found).trans (by decide)
    · contradiction
  | float x =>
    simp only [stringify, display, literal] at shown
    cases shown
    exact (Number.floatShort x).trans (by decide)
  | complex re im =>
    simp only [stringify, display, literal] at shown
    cases shown
    exact (complexShort re im).trans room
  | text | list => cases scalar
  | object | pattern | callable => cases kind

/-- What is joined to a text is within its share, unless it is a list. -/
theorem shownShort {v : Value} {s : String} {share : Nat} (sized : Sized (maxSequence * share) v)
    (some : 0 < share) (single : v.list? = none) (shown : v.stringify = .ok s) :
    s.length ≤ maxSequence * share := by
  cases length : sequenceLength? v with
  | none => exact (scalarShort length (sized.written v .self) shown).trans (Nat.le_mul_of_pos_right _ some)
  | some n =>
    cases v with
    | text t =>
      cases shown
      exact sizedText.mp sized
    | list => contradiction
    | _ => cases length

end Value

namespace Expression
open Value (Sized sizedScalar sizedText sizedList sizedNumeral shownShort)
variable {b : Nat}

/-! Operators -/

/-- The operators on texts whose results nothing bounds. -/
def unguarded : BinaryOp → Value → Value → Bool
  | .mod, .text _, _ => true
  | .add, .text _, .list _ => true
  | .add, .list _, .text _ => true
  | _, _, _ => false

theorem joinedSingle {l r : Value} (joins : isText l = true ∨ isText r = true)
    (guarded : unguarded .add l r = false) : l.list? = none ∧ r.list? = none := by
  rcases joins with text | text
  · cases l with
    | text => cases r with
      | list => contradiction
      | _ => exact ⟨rfl, rfl⟩
    | _ => contradiction
  · cases r with
    | text => cases l with
      | list => contradiction
      | _ => exact ⟨rfl, rfl⟩
    | _ => contradiction

theorem repeatedShort {l r sequence : Value} {n : Int} {k : Nat} (repeats : Value.Repeats l r sequence n)
    (length : sequenceLength? sequence = some k) (checked : checkOperands .mul l r = .ok ()) :
    n.toNat * k ≤ max maxSequence k := by
  have guard : repeatsTooMuch l r = false ∧ repeatsTooMuch r l = false := by
    simp only [checkOperands] at checked
    split at checked
    · contradiction
    · rename_i few
      simpa using few
  have counted {count : Value} (counts : count.count? = some n) (few : repeatsTooMuch sequence count = false) :
      n.toNat * k ≤ max maxSequence k := by
    cases count with
    | int m =>
      obtain rfl : m = n := Option.some.inj counts
      simp only [repeatsTooMuch, length, decide_eq_false_iff_not, Int.not_lt] at few
      rcases Int.le_total 0 m with natural | negative
      · have product : ((m.toNat * k : Nat) : Int) = k * m := by
          rw [Nat.cast_mul, Int.toNat_of_nonneg natural, Int.mul_comm]
        omega
      · rw [Int.toNat_of_nonpos negative, Nat.zero_mul]
        exact Nat.zero_le _
    | bool truth =>
      cases counts
      cases truth
      · simp
      · simp
    | _ => cases counts
  rcases repeats with ⟨rfl, counts⟩ | ⟨rfl, counts⟩
  · exact counted counts guard.1
  · exact counted counts guard.2

theorem unguardedText {op : BinaryOp} {l r v : Value} (free : unguarded op l r = true)
    (applied : applyBinary op l r = .ok v) : ∃ s, v = .text s := by
  unfold unguarded at free
  rcases applyBinaryFacts applied with ⟨_, _, s, t, _, _, rfl⟩ | ⟨single, _, found, _⟩
  · exact ⟨s ++ t, rfl⟩
  · split at free
    · obtain ⟨s, _, same⟩ := mapAccepts.mp found
      exact ⟨s, same.symm⟩
    · exact absurd ⟨rfl, .inl rfl⟩ single
    · exact absurd ⟨rfl, .inr rfl⟩ single
    · contradiction

/-- The result of a guarded operator on what is within its share is so too. -/
theorem computeSized {op : BinaryOp} {l r v : Value} {p q share : Nat}
    (left : Sized p l) (right : Sized q r) (room : maxSequence ≤ share) (sum : p + q ≤ share)
    (checked : checkOperands op l r = .ok ()) (found : compute op l r = .ok v)
    (guarded : unguarded op l r = false) (single : ¬ (op = .add ∧ (isText l = true ∨ isText r = true))) :
    Sized share v := by
  have repeated {sequence : Value} {n : Int} {k : Nat} (same : op = .mul)
      (repeats : Value.Repeats l r sequence n) (long : sequenceLength? sequence = some k) :
      n.toNat * k ≤ share := by
    have most := repeatedShort repeats long (same ▸ checked)
    have part : k ≤ share := by
      rcases repeats with ⟨rfl, _⟩ | ⟨rfl, _⟩
      · exact (left.extent _ _ .self long).trans (by omega)
      · exact (right.extent _ _ .self long).trans (by omega)
    omega
  have kept {items : List Value} (same : v = .list items) (short : items.length ≤ share) : Sized share v := by
    subst same
    refine sizedList.mpr ⟨short, fun v member => ?_⟩
    obtain ⟨xs, rfl | rfl, inside⟩ := itemsKept found member
    · exact ((sizedList.mp left).2 v inside).more (by omega)
    · exact ((sizedList.mp right).2 v inside).more (by omega)
  cases computeMakes found with
  | texts s t => exact absurd ⟨rfl, .inl rfl⟩ single
  | lists xs ys =>
    have first := (sizedList.mp left).1
    have second := (sizedList.mp right).1
    refine kept rfl ?_
    rw [List.length_append]
    omega
  | repeatedText repeats length => exact sizedText.mpr (length ▸ repeated rfl repeats rfl)
  | repeatedList repeats length => exact kept rfl (length ▸ repeated rfl repeats rfl)
  | template => contradiction
  | number a same => exact same ▸ sizedNumeral a

theorem applyBinarySized {op : BinaryOp} {l r v : Value} {m n : Nat} (left : Sized (maxSequence * m) l)
    (right : Sized (maxSequence * n) r) (some : 0 < m) (some' : 0 < n) (applied : applyBinary op l r = .ok v)
    (modest : unguarded op l r = true → ∀ s, v = .text s → s.length ≤ maxSequence * (m + n + 1)) :
    Sized (maxSequence * (m + n + 1)) v := by
  have shares : maxSequence * (m + n + 1) = maxSequence * m + maxSequence * n + maxSequence := by
    rw [Nat.mul_add, Nat.mul_add, Nat.mul_one]
  cases guarded : unguarded op l r with
  | false =>
    rcases applyBinaryFacts applied with ⟨rfl, joins, s, t, first, second, rfl⟩ | ⟨single, checked, found, _⟩
    · obtain ⟨one, other⟩ := joinedSingle joins guarded
      have front := shownShort left some one first
      have back := shownShort right some' other second
      rw [sizedText, String.length_append]
      omega
    · exact computeSized left right (by omega) (by omega) checked found guarded single
  | true =>
    obtain ⟨s, rfl⟩ := unguardedText guarded applied
    exact sizedText.mpr (modest guarded s rfl)

theorem applyUnarySized {op : UnaryOp} {v w : Value} (applied : applyUnary op v = .ok w) : Sized b w := by
  unfold applyUnary at applied
  split at applied <;> cases applied <;> exact sizedScalar rfl rfl

/-- The operators without a guard give texts within the share of their nodes. -/
def Modest (e : Expr) : Prop :=
  ∀ op left right l r s, Within (.binary op left right) e → interpret left = .ok l → interpret right = .ok r →
    unguarded op l r = true → applyBinary op l r = .ok (.text s) →
    s.length ≤ maxSequence * (Expr.binary op left right).size

theorem Modest.child {child e : Expr} (modest : Modest e) (member : child ∈ e.children) : Modest child :=
  fun op left right l r s inside => modest op left right l r s (.deeper member inside)

theorem Modest.tail {e : Expr} {rest : List Expr} (modest : Modest (.list (e :: rest))) : Modest (.list rest) :=
  fun op left right l r s inside => modest op left right l r s (inside.tail nofun)

theorem Expr.sizeSome (e : Expr) : 0 < e.size := by
  rw [Expr.sizeChildren]
  exact Nat.succ_pos _

theorem Evaluates.sized {e : Expr} {v : Value} (evaluates : Evaluates e v) (leaves : e.Leaves (Sized maxSequence))
    (modest : Modest e) : Sized (maxSequence * e.size) v := by
  induction evaluates with
  | literal v => exact leaves v .self
  | noItems => exact sizedList.mpr ⟨Nat.zero_le _, by simp⟩
  | @item e rest v vs _ _ head tail =>
    have first := head (leaves.child (by simp [Expr.children])) (modest.child (by simp [Expr.children]))
    have others := tail leaves.tail modest.tail
    have one := e.sizeSome
    have unit : 1 ≤ maxSequence := by decide
    simp only [Expr.size, Expr.sizeAll, Nat.mul_add] at first others ⊢
    have share : maxSequence ≤ maxSequence * e.size := Nat.le_mul_of_pos_right _ one
    obtain ⟨short, each⟩ := sizedList.mp others
    refine sizedList.mpr ⟨?_, List.forall_mem_cons.mpr ⟨first.more (by omega), fun w member => ?_⟩⟩
    · rw [List.length_cons]
      omega
    · exact (each w member).more (by omega)
  | unary _ applied => exact applyUnarySized applied
  | @binary op left right l r v operand operand' applied first second =>
    exact applyBinarySized (first (leaves.child (by simp [Expr.children])) (modest.child (by simp [Expr.children])))
      (second (leaves.child (by simp [Expr.children])) (modest.child (by simp [Expr.children])))
      left.sizeSome right.sizeSome applied fun free s same =>
        modest op left right l r s .self operand.interpret operand'.interpret free (same ▸ applied)
  | settled _ _ first =>
    refine (first (leaves.child (by simp [Expr.children])) (modest.child (by simp [Expr.children]))).more ?_
    exact Nat.mul_le_mul_left _ (by simp only [Expr.size]; omega)
  | unsettled _ _ _ _ second =>
    refine (second (leaves.child (by simp [Expr.children])) (modest.child (by simp [Expr.children]))).more ?_
    exact Nat.mul_le_mul_left _ (by simp only [Expr.size]; omega)
  | compare _ _ applied =>
    obtain ⟨truth, rfl⟩ := applyCompareTruth applied
    exact sizedScalar rfl rfl

theorem tokenSized {t : Token} {v : Value} (value : t.value? = some v) (short : t.text.length ≤ maxLength) :
    Sized maxSequence v := by
  unfold Token.value? at value
  split at value
  · cases value
    unfold numberValue
    split <;> exact sizedScalar rfl rfl
  · cases value
    have fewer := unquoteShorter t.text.toList
    rw [String.length_toList] at fewer
    exact sizedText.mpr ((fewer.trans short).trans (by decide))
  · unfold keyword? at value
    split at value <;> cases value <;> exact sizedScalar rfl rfl
  · contradiction
  · contradiction

/-- Texts and lists have at most as many characters and items as the limit on sequences times the nodes below
them, and so the tokens of the text, if and only if the operators without a guard keep to that. -/
theorem sequencesBounded {source : String} {e : Expr} (parsed : parse source = .ok e) :
    ∃ ts, tokenize source = .ok ts ∧
      (Modest e ↔ ∀ sub v, Within sub e → interpret sub = .ok v → v.Extent (maxSequence * sub.size)) ∧
      (Modest e → ∀ sub v, Within sub e → interpret sub = .ok v → v.Extent (maxSequence * ts.length)) := by
  obtain ⟨ts, tokens, fewer, leaves⟩ := parsedLeaves parsed
  have within (modest : Modest e) (sub : Expr) (v : Value) (inside : Within sub e)
      (evaluated : interpret sub = .ok v) : Sized (maxSequence * sub.size) v := by
    refine (interpretEvaluates evaluated).sized (fun w leaf => ?_) fun op left right l r s deeper =>
      modest op left right l r s (deeper.trans inside)
    obtain ⟨t, _, value, short⟩ := leaves w (leaf.trans inside)
    exact tokenSized value short
  refine ⟨ts, tokens, ⟨fun modest sub v inside evaluated => (within modest sub v inside evaluated).extent, ?_⟩,
    fun modest sub v inside evaluated => ((within modest sub v inside evaluated).more ?_).extent⟩
  · intro every op left right l r s inside first second _ applied
    refine every (.binary op left right) (.text s) inside ?_ _ _ .self rfl
    exact (Evaluates.binary (interpretEvaluates first) (interpretEvaluates second) applied).interpret
  · exact Nat.mul_le_mul_left _ (inside.size.trans (Nat.le_of_lt fewer))

theorem sequencesBoundedRepeated :
    let e := Expr.binary .mul (.literal (.text "ab")) (.literal (.int 3))
    parse "'ab' * 3" = .ok e ∧ interpret e = .ok (.text "ababab") ∧ Modest e ∧
      (Value.text "ababab").Extent (maxSequence * 3) := by
  intro e
  have tokens : tokenize "'ab' * 3" =
      .ok [⟨.string, "'ab'", 0⟩, ⟨.op, "*", 5⟩, ⟨.number, "3", 7⟩, ⟨.stop, "", 8⟩] := by decide +kernel
  have parsed : parse "'ab' * 3" = .ok e := pairParses tokens rfl rfl rfl rfl
  have evaluated : interpret e = .ok (.text "ababab") := rfl
  have modest : Modest e := by
    intro op left right l r s inside first second free
    rcases withinChildren.mp inside with same | ⟨child, member, inside⟩
    · obtain ⟨rfl, rfl, rfl⟩ := Expr.binary.inj same
      cases first
      cases second
      contradiction
    · simp only [e, Expr.children, List.mem_cons, List.not_mem_nil, or_false] at member
      rcases member with rfl | rfl <;>
        rcases withinChildren.mp inside with same | ⟨_, member, _⟩ <;> contradiction
  obtain ⟨ts, _, share, _⟩ := sequencesBounded parsed
  exact ⟨parsed, evaluated, modest, share.mp modest e _ .self evaluated⟩

theorem padWidth {letter : Char} {n : Nat} {c : Text.Percent.Converted} (wide : c.chars.length ≤ n) :
    (Text.Percent.pad [] letter n c).length = n := by
  have parts (cs : List Char) :
      (Text.Percent.signPart [] cs).1.length + (Text.Percent.signPart [] cs).2.length = cs.length := by
    unfold Text.Percent.signPart
    split <;> simp [Nat.add_comm]
  have whole := parts c.chars
  cases numeric : c.numeric <;> simp [Text.Percent.pad, numeric] <;> omega

theorem wideFormat {template : String} {n : Nat} (room : n < Text.Percent.maxWidth) (positive : 0 < n)
    (reads : Text.Percent.pieces 0 template.toList = [.directive ⟨.absent, [], .written n, .absent, some 'd'⟩]) :
    ∃ s, Text.Percent.format template (.int 1) = .ok s ∧ s.length = n := by
  have one : Number.writable 1 = true := by decide
  have fits : ¬ n ≥ Text.Percent.maxWidth := by omega
  have natural : ¬ (n : Int) < 0 := by omega
  have filled : Text.Percent.format template (.int 1) = .ok (String.ofList
      (Text.Percent.pad [] 'd' n (Text.Percent.signedDigits 1 (Number.digitChars 1) [] none))) := by
    simp [Text.Percent.format, reads, Text.Percent.fill, Text.Percent.fillDirective, Text.Percent.Supply.select,
      Text.Percent.Supply.amount, Text.Percent.Supply.next, Text.Percent.convert, Text.Percent.wholeNumber, fits,
      one, natural, bind, Except.bind, pure, Except.pure]
  exact ⟨_, filled, String.length_ofList.trans (padWidth positive)⟩

/-- A template gives a text as wide as it asks for. -/
theorem wideTemplate (template : String) {n : Nat} (room : n < Text.Percent.maxWidth) (positive : 0 < n)
    (reads : Text.Percent.pieces 0 template.toList = [.directive ⟨.absent, [], .written n, .absent, some 'd'⟩]) :
    ∃ s, interpret (.binary .mod (.literal (.text template)) (.literal (.int 1))) = .ok (.text s) ∧
      s.length = n := by
  obtain ⟨s, filled, wide⟩ := wideFormat room positive reads
  have applied : applyBinary .mod (.text template) (.int 1) = .ok (.text s) := by
    simp [applyBinary, checkOperands, compute, Value.mod, filled, checkResult, Except.map, bind, Except.bind,
      pure, Except.pure]
  exact ⟨s, (Evaluates.binary (.literal _) (.literal _) applied).interpret, wide⟩

theorem templateExceeds :
    let e := Expr.binary .mod (.literal (.text "%500000d")) (.literal (.int 1))
    ∃ ts s, tokenize "'%500000d' % 1" = .ok ts ∧ parse "'%500000d' % 1" = .ok e ∧ interpret e = .ok (.text s) ∧
      maxSequence * ts.length < s.length := by
  intro e
  have tokens : tokenize "'%500000d' % 1" =
      .ok [⟨.string, "'%500000d'", 0⟩, ⟨.op, "%", 11⟩, ⟨.number, "1", 13⟩, ⟨.stop, "", 14⟩] := by decide +kernel
  have parsed : parse "'%500000d' % 1" = .ok e := pairParses tokens rfl rfl rfl rfl
  obtain ⟨s, evaluated, wide⟩ := wideTemplate "%500000d" (n := 500000) (by decide) (by decide)
    (by decide +kernel)
  refine ⟨_, s, tokens, parsed, evaluated, ?_⟩
  rw [wide]
  decide

end Expression
end DecisionRules
