import DecisionRules.Proofs.Condition.Operands
import DecisionRules.Proofs.Expression.Comparison
import DecisionRules.Proofs.Value.Equality

/-! Comparisons of two references, as nodes and as expressions. Both forms compare the same values; but a node
keeps a boolean apart from whatever is none, and an expression does so for equality alone. -/
namespace DecisionRules

namespace Value

inductive Scalar : Value → Prop where
  | null : Scalar .null
  | bool (b : Bool) : Scalar (.bool b)
  | int (n : Int) : Scalar (.int n)
  | text (s : String) : Scalar (.text s)

/-- An ordering that holds between a boolean and an integer, if the boolean counts as one. -/
structure Lax (op : ComparisonOperator) (a b : Value) : Prop where
  apart : a.isBool ≠ b.isBool
  counted : ∃ r m n, orderingOf op = some r ∧ a.numeral? = some (.int m) ∧ b.numeral? = some (.int n) ∧
    r.ints m n = true

namespace Scalar
variable {a b : Value} {r : Relation} {t : Bool}

theorem literal (scalar : a.Scalar) : a.Literal := by
  cases scalar with
  | null => exact .null
  | bool b => exact .bool b
  | int n => exact .int n
  | text s => exact .text s

/-- Only texts have an order among scalars, and integers, which booleans count as. -/
theorem related (scalar : a.Scalar) (scalar' : b.Scalar) (related : a.relate r b = .ok t) :
    (∃ s u, a = .text s ∧ b = .text u ∧ t = r.ofOrdering (compare s u)) ∨
    ∃ m n, a.numeral? = some (.int m) ∧ b.numeral? = some (.int n) ∧ t = r.ints m n := by
  cases scalar with
  | null => cases scalar' <;> cases related
  | text s => cases scalar' with
    | text u =>
      cases related
      exact .inl ⟨s, u, rfl, rfl, rfl⟩
    | _ => cases related
  | bool | int => cases scalar' with
    | null | text => cases related
    | bool | int =>
      cases related
      exact .inr ⟨_, _, rfl, rfl, rfl⟩

/-- What is neither above nor below is equal. -/
theorem antisymmetric (scalar : a.Scalar) (scalar' : b.Scalar) (above : a.relate .ge b = .ok true)
    (below : a.relate .le b = .ok true) : a.equal b = true := by
  have neither {o : Ordering} (above : true = Relation.ge.ofOrdering o) (below : true = Relation.le.ofOrdering o) :
      o = .eq := by
    cases o <;> first | rfl | contradiction
  rcases scalar.related scalar' above with ⟨s, u, rfl, rfl, ge⟩ | ⟨m, n, left, right, ge⟩
  · have same : s = u := Std.LawfulEqCmp.eq_of_compare (neither ge (Except.ok.inj below).symm)
    exact beq_iff_eq.mpr same
  · rcases scalar.related scalar' below with ⟨s, u, rfl, _⟩ | ⟨m', n', left', right', le⟩
    · cases left
    · cases left.symm.trans left'
      cases right.symm.trans right'
      have same : m = n := Std.LawfulEqCmp.eq_of_compare (neither ge le)
      rw [equalNumeral left, equalNumbers, left, right]
      exact beq_iff_eq.mpr same

theorem strictlyEqual (scalar : a.Scalar) (scalar' : b.Scalar) (above : a.relate .ge b = .ok true)
    (below : a.relate .le b = .ok true) : a.strictEquals b = true ↔ a.isBool = b.isBool := by
  rw [strictEquals, scalar.antisymmetric scalar' above below]
  by_cases kind : a.isBool = b.isBool <;> simp [kind]

theorem ordered (scalar : a.Scalar) (scalar' : b.Scalar) {op : ComparisonOperator} (ordering : orderingOf op = some r)
    (related : a.relate r b = .ok t) :
    (t = true ↔ DecisionRules.ordered r a b = true ∨ Lax op a b) ∧
      (Lax op a b → DecisionRules.ordered r a b = false) := by
  unfold DecisionRules.ordered
  by_cases kind : a.isBool = b.isBool
  · have straight : ¬ Lax op a b := fun lax => lax.apart kind
    simp [kind, related, straight]
  · simp only [bne_iff_ne, ne_eq, kind, not_false_eq_true, if_true, Bool.false_eq_true, false_or, implies_true,
      and_true]
    constructor
    · rintro rfl
      rcases scalar.related scalar' related with ⟨s, u, rfl, rfl, _⟩ | ⟨m, n, left, right, holds⟩
      · exact absurd rfl kind
      · exact ⟨kind, r, m, n, ordering, left, right, holds.symm⟩
    · rintro ⟨_, r', m, n, ordering', left, right, holds⟩
      cases ordering.symm.trans ordering'
      rcases scalar.related scalar' related with ⟨s, u, rfl, _⟩ | ⟨m', n', left', right', same⟩
      · cases left
      · cases left.symm.trans left'
        cases right.symm.trans right'
        rw [same, holds]

end Scalar
end Value

theorem orderedIff {r : Relation} {a b : Value} :
    ordered r a b = true ↔ a.isBool = b.isBool ∧ a.relate r b = .ok true := by
  unfold ordered
  by_cases kind : a.isBool = b.isBool
  · cases a.relate r b <;> simp [kind]
  · simp [kind]

namespace Expression

/-- The signs of expressions by the comparison of nodes that they ask for. -/
inductive Spells : CompareOp → ComparisonOperator → Prop where
  | eq : Spells .eq .eq
  | strictEq : Spells .strictEq .eq
  | ne : Spells .ne .ne
  | strictNe : Spells .strictNe .ne
  | gt : Spells .gt .gt
  | ge : Spells .ge .gte
  | lt : Spells .lt .lt
  | le : Spells .le .lte

variable {c : CompareOp} {op : ComparisonOperator} {a b v : Value}

theorem Spells.either (spells : Spells c op) (a b : Value) :
    (orderingOf op = none ∧ applyCompare c a b = .ok (.bool (op.holds a b))) ∨
    ∃ r, orderingOf op = some r ∧ applyCompare c a b = applyRelation r a b ∧ op.holds a b = ordered r a b := by
  cases spells <;> first | exact .inl ⟨rfl, rfl⟩ | exact .inr ⟨_, rfl, rfl, rfl⟩

theorem Spells.compares (spells : Spells c op) (scalar : a.Scalar) (scalar' : b.Scalar)
    (applied : applyCompare c a b = .ok v) :
    (v.truthy = true ↔ op.holds a b = true ∨ Value.Lax op a b) ∧ (Value.Lax op a b → op.holds a b = false) := by
  rcases spells.either a b with ⟨none, strict⟩ | ⟨r, ordering, relation, holds⟩
  · have straight : ¬ Value.Lax op a b := fun lax => by
      obtain ⟨r, m, n, ordering, _⟩ := lax.counted
      cases none.symm.trans ordering
    cases strict.symm.trans applied
    simp [straight, Value.truthy]
  · rw [relation, applyRelation] at applied
    cases related : a.relate r b with
    | error failure =>
      rw [related] at applied
      cases applied
    | ok t =>
      rw [related] at applied
      cases applied
      rw [holds]
      exact scalar.ordered scalar' ordering related

theorem relationHolds {r : Relation} (applied : applyRelation r a b = .ok v) (truthy : v.truthy = true) :
    a.relate r b = .ok true := by
  unfold applyRelation at applied
  split at applied
  · rename_i t related
    cases applied
    rw [related]
    exact congrArg Except.ok truthy
  · cases applied

end Expression

namespace Evaluator
open Condition (paired)
open Expression (CompareOp Spells applyCompare compared comparing maxLength)
variable {e : Evaluator} {token : Token Float} {depth : Nat} {f g : Frame} {m n : List Char} {a b : Value}

/-- What a comparison of two values takes to be evaluated as an expression, but for an operator that compares them:
literals that can be written, and room for the text. -/
structure Comparable (e : Evaluator) (token : Token Float) (depth : Nat) (f : Frame) (a : Value) (c : CompareOp)
    (b : Value) : Prop extends Ready e token depth f where
  allowed : e.unsafeAllowed = true
  written : ∃ cs ds, Text.Json.chars Text.Json.spaced a = .ok cs ∧ Text.Json.chars Text.Json.spaced b = .ok ds ∧
    (compared cs c ds).length ≤ maxLength

theorem Comparable.another {c d : CompareOp} (able : e.Comparable token depth f a c b)
    (short : d.symbol.toList.length ≤ c.symbol.toList.length) : e.Comparable token depth f a d b := by
  obtain ⟨cs, ds, chars, chars', room⟩ := able.written
  refine ⟨able.toReady, able.allowed, cs, ds, chars, chars', ?_⟩
  simp only [compared, List.length_append, List.length_cons] at room ⊢
  omega

theorem comparingInterprets {text : String} {c : CompareOp} (left : f.scope.Refers m a) (right : f.scope.Refers n b)
    (literal : a.Literal) (literal' : b.Literal)
    (written : f.scope.substituteLiterals (comparing m c n) = .ok text) (room : text.length ≤ maxLength) :
    Expression.holds text = (applyCompare c a b).map Value.truthy := by
  obtain ⟨l, r, parsed, left, right⟩ := Scope.comparingHolds left right literal literal' written room
  simp only [Expression.holds, Expression.parseSource, parsed, Expression.interpret, left.interpret,
    right.interpret, bind, Except.bind]
  cases applyCompare c a b <;> rfl

theorem Comparable.tells {c : CompareOp} {v : Value} (able : e.Comparable token depth f a c b)
    (left : f.scope.Refers m a) (right : f.scope.Refers n b) (literal : a.Literal) (literal' : b.Literal)
    (applied : applyCompare c a b = .ok v) :
    e.Tells token depth f (.text (comparing m c n)) v.truthy := by
  obtain ⟨cs, ds, chars, chars', room⟩ := able.written
  have written := (Scope.comparingWrites left right c).mpr ⟨cs, ds, chars, chars', rfl⟩
  have holds := comparingInterprets left right literal literal' written (by simpa using room)
  rw [applied] at holds
  exact ⟨_, able.expression able.allowed _ _ written holds, rfl⟩

theorem comparingRan {c : CompareOp} {t : Trace} (left : f.scope.Refers m a) (right : f.scope.Refers n b)
    (literal : a.Literal) (literal' : b.Literal)
    (ran : (e.evaluateNode token depth (.ofValue (.text (comparing m c n)))).run f = (.ok t, g)) :
    g = f ∧ e.Comparable token depth f a c b ∧ ∃ v, applyCompare c a b = .ok v ∧ t.value = v.truthy := by
  obtain ⟨allowed, same, text, truth, written, holds, shown⟩ := expressionRan ran
  have short := Expression.holdsShort holds
  obtain ⟨cs, ds, chars, chars', shape⟩ := (Scope.comparingWrites left right c).mp written
  rw [comparingInterprets left right literal literal' written short] at holds
  obtain ⟨v, applied, truthy⟩ := mapAccepts.mp holds
  refine ⟨same, ⟨.entered ran, allowed, cs, ds, chars, chars', by simpa [shape] using short⟩, v, applied, ?_⟩
  rw [shown, truthy]
  rfl

/-- Two references to scalars compare as an expression, whenever that answers, as they do as a node, but for an
ordering between a boolean and an integer: the node does not take it to hold, and the expression compares the
numbers. So what is neither above nor below is equal, in expressions unless just one of the two is a boolean. -/
theorem comparisonsAgree (left : f.scope.Refers m a) (right : f.scope.Refers n b) (scalar : a.Scalar)
    (scalar' : b.Scalar) :
    (∀ c op t g, Spells c op →
      (e.evaluateNode token depth (.ofValue (.text (comparing m c n)))).run f = (.ok t, g) → g = f ∧
      ∃ s, e.Tells token depth f (paired op.name (.text (referring m)) (.text (referring n))) s ∧
        (t.value = true ↔ s = true ∨ Value.Lax op a b) ∧ (Value.Lax op a b → s = false)) ∧
    (e.Tells token depth f (paired ComparisonOperator.gte.name (.text (referring m)) (.text (referring n))) true →
      e.Tells token depth f (paired ComparisonOperator.lte.name (.text (referring m)) (.text (referring n))) true →
      e.Tells token depth f (paired ComparisonOperator.eq.name (.text (referring m)) (.text (referring n))) true) ∧
    (e.Tells token depth f (.text (comparing m .ge n)) true →
      e.Tells token depth f (.text (comparing m .le n)) true →
      ∃ u, e.Tells token depth f (.text (comparing m .eq n)) u ∧ (u = true ↔ a.isBool = b.isBool)) := by
  have sees (ready : e.Ready token depth f) : e.Sees token depth f (.text (referring m)) (.text (referring n)) a b :=
    ⟨ready, left.resolves, right.resolves⟩
  refine ⟨fun c op t g spells ran => ?_, fun above below => ?_, fun above below => ?_⟩
  · obtain ⟨same, able, v, applied, shown⟩ := comparingRan left right scalar.literal scalar'.literal ran
    have node := (sees able.toReady).comparison op
    rw [shown]
    exact ⟨same, op.holds a b, ⟨_, node, rfl⟩, spells.compares scalar scalar' applied⟩
  · have sees := sees above.ready
    obtain ⟨kind, ge⟩ := orderedIff.mp (above.unique ⟨_, sees.comparison .gte, rfl⟩).symm
    obtain ⟨_, le⟩ := orderedIff.mp (below.unique ⟨_, sees.comparison .lte, rfl⟩).symm
    exact ⟨_, sees.comparison .eq, (scalar.strictlyEqual scalar' ge le).mpr kind⟩
  · obtain ⟨t, ran, above⟩ := above
    obtain ⟨u, ran', below⟩ := below
    obtain ⟨_, able, v, applied, shown⟩ := comparingRan left right scalar.literal scalar'.literal ran
    obtain ⟨_, _, w, applied', shown'⟩ := comparingRan left right scalar.literal scalar'.literal ran'
    have ge := Expression.relationHolds applied (shown.symm.trans above)
    have le := Expression.relationHolds applied' (shown'.symm.trans below)
    have equal := able.another (d := .eq) (by decide)
    exact ⟨_, equal.tells left right scalar.literal scalar'.literal rfl, scalar.strictlyEqual scalar' ge le⟩

def mixedFrame : Frame :=
  { trialFrame with
    scope := ⟨⟨[("a", .bool true), ("b", .int 0), ("c", .int 1), ("d", .int (-5))], [], []⟩, [], []⟩ }

theorem comparisonsAgreeSigned : freeTrial.Tells (.root 0 none "rule") 1 mixedFrame
    (paired ComparisonOperator.lt.name (.text (referring ['d'])) (.text (referring ['c']))) true := by
  have low : mixedFrame.scope.Refers ['d'] (.int (-5)) := ⟨⟨by decide, by decide⟩, rfl⟩
  have high : mixedFrame.scope.Refers ['c'] (.int 1) := ⟨⟨by decide, by decide⟩, rfl⟩
  have ready : freeTrial.Ready (.root 0 none "rule") 1 mixedFrame := ⟨by decide, by decide +kernel⟩
  have ran := ready.expression rfl (comparing ['d'] .lt ['c']) "-5 < 1" (b := true) (by decide +kernel)
    (by decide +kernel)
  obtain ⟨_, s, tells, agrees, _⟩ := (comparisonsAgree low high (.int _) (.int _)).1 _ _ _ _ .lt ran
  rcases agrees.mp rfl with rfl | lax
  · exact tells
  · exact absurd rfl lax.apart

/-- As an expression, true is above zero, and both above and below one without being equal to it. -/
theorem truthAboveZero :
    let expression (m : Char) (c : CompareOp) (n : Char) (b : Bool) :=
      freeTrial.Tells (.root 0 none "rule") 1 mixedFrame (.text (comparing [m] c [n])) b
    expression 'a' .gt 'b' true ∧
    freeTrial.Tells (.root 0 none "rule") 1 mixedFrame
      (paired ComparisonOperator.gt.name (.text (referring ['a'])) (.text (referring ['b']))) false ∧
    expression 'a' .ge 'c' true ∧ expression 'a' .le 'c' true ∧ expression 'a' .eq 'c' false := by
  have yes : mixedFrame.scope.Refers ['a'] (.bool true) := ⟨⟨by decide, by decide⟩, rfl⟩
  have zero : mixedFrame.scope.Refers ['b'] (.int 0) := ⟨⟨by decide, by decide⟩, rfl⟩
  have ready : freeTrial.Ready (.root 0 none "rule") 1 mixedFrame := ⟨by decide, by decide +kernel⟩
  have sees : freeTrial.Sees (.root 0 none "rule") 1 mixedFrame (.text (referring ['a'])) (.text (referring ['b']))
      (.bool true) (.int 0) := ⟨ready, yes.resolves, zero.resolves⟩
  refine ⟨?_, ⟨_, sees.comparison .gt, rfl⟩, ?_, ?_, ?_⟩
  · exact ⟨_, ready.expression rfl _ "true > 0" (by decide +kernel) (by decide +kernel), rfl⟩
  · exact ⟨_, ready.expression rfl _ "true >= 1" (by decide +kernel) (by decide +kernel), rfl⟩
  · exact ⟨_, ready.expression rfl _ "true <= 1" (by decide +kernel) (by decide +kernel), rfl⟩
  · exact ⟨_, ready.expression rfl _ "true == 1" (by decide +kernel) (by decide +kernel), rfl⟩

end Evaluator
end DecisionRules
