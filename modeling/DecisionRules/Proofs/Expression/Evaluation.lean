import DecisionRules.Expression.Eval
import DecisionRules.Proofs.Arithmetic

/-! The values of expressions as a relation, one rule for each way to have a value, and what lies inside
expressions and values. -/
namespace DecisionRules

/-- A value itself, or what occurs in an item of a list. -/
inductive Value.Occurs (w : Value) : Value → Prop where
  | self : Occurs w w
  | item {v items} (member : v ∈ items) (inside : Occurs w v) : Occurs w (.list items)

theorem Value.occursList {w : Value} {items : List Value} :
    Occurs w (.list items) ↔ w = .list items ∨ ∃ v ∈ items, Occurs w v := by
  constructor
  · intro occurs
    cases occurs with
    | self => exact .inl rfl
    | item member inside => exact .inr ⟨_, member, inside⟩
  · rintro (rfl | ⟨v, member, inside⟩)
    · exact .self
    · exact .item member inside

theorem Value.occursAtom {w v : Value} (atom : v.list? = none) : Occurs w v ↔ w = v := by
  constructor
  · intro occurs
    cases occurs with
    | self => rfl
    | item => cases atom
  · rintro rfl
    exact .self

namespace Expression

/-- Does the left operand settle the answer? -/
def LogicalOp.settles : LogicalOp → Value → Bool
  | .and, v => !v.truthy
  | .or, v => v.truthy

inductive Evaluates : Expr → Value → Prop where
  | literal (v : Value) : Evaluates (.literal v) v
  | noItems : Evaluates (.list []) (.list [])
  | item {e rest v vs} (head : Evaluates e v) (tail : Evaluates (.list rest) (.list vs)) :
      Evaluates (.list (e :: rest)) (.list (v :: vs))
  | unary {op operand v w} (inner : Evaluates operand v) (applied : applyUnary op v = .ok w) :
      Evaluates (.unary op operand) w
  | binary {op left right l r v} (first : Evaluates left l) (second : Evaluates right r)
      (applied : applyBinary op l r = .ok v) : Evaluates (.binary op left right) v
  | settled {op left right l} (first : Evaluates left l) (settles : op.settles l = true) :
      Evaluates (.logical op left right) l
  | unsettled {op left right l r} (first : Evaluates left l) (settles : op.settles l = false)
      (second : Evaluates right r) : Evaluates (.logical op left right) r
  | compare {op left right l r v} (first : Evaluates left l) (second : Evaluates right r)
      (applied : applyCompare op l r = .ok v) : Evaluates (.compare op left right) v

mutual
theorem interpretEvaluates {e : Expr} {v : Value} (ok : interpret e = .ok v) : Evaluates e v := by
  unfold interpret at ok
  cases e with
  | literal w =>
    cases ok
    exact .literal v
  | list items =>
    obtain ⟨vs, inside, same⟩ := bindAccepts.mp ok
    cases same
    exact interpretAllEvaluates inside
  | unary op operand =>
    obtain ⟨w, inner, applied⟩ := bindAccepts.mp ok
    exact .unary (interpretEvaluates inner) applied
  | binary op left right =>
    obtain ⟨l, first, ok⟩ := bindAccepts.mp ok
    obtain ⟨r, second, applied⟩ := bindAccepts.mp ok
    exact .binary (interpretEvaluates first) (interpretEvaluates second) applied
  | logical op left right =>
    obtain ⟨l, first, ok⟩ := bindAccepts.mp ok
    have first := interpretEvaluates first
    cases op <;> cases truth : l.truthy <;> simp only [truth] at ok
    · cases ok
      exact .settled first (by simp [LogicalOp.settles, truth])
    · exact .unsettled first (by simp [LogicalOp.settles, truth]) (interpretEvaluates ok)
    · exact .unsettled first truth (interpretEvaluates ok)
    · cases ok
      exact .settled first truth
  | compare op left right =>
    obtain ⟨l, first, ok⟩ := bindAccepts.mp ok
    obtain ⟨r, second, applied⟩ := bindAccepts.mp ok
    exact .compare (interpretEvaluates first) (interpretEvaluates second) applied
theorem interpretAllEvaluates {items : List Expr} {vs : List Value} (ok : interpretAll items = .ok vs) :
    Evaluates (.list items) (.list vs) := by
  unfold interpretAll at ok
  cases items with
  | nil =>
    cases ok
    exact .noItems
  | cons e rest =>
    obtain ⟨v, head, ok⟩ := bindAccepts.mp ok
    obtain ⟨vs, tail, same⟩ := bindAccepts.mp ok
    cases same
    exact .item (interpretEvaluates head) (interpretAllEvaluates tail)
end

theorem Evaluates.interpret {e : Expr} {v : Value} (evaluates : Evaluates e v) : interpret e = .ok v := by
  induction evaluates with
  | literal v => simp only [Expression.interpret]; rfl
  | noItems => rfl
  | item _ _ head tail =>
    obtain ⟨vs, tail, same⟩ := bindAccepts.mp tail
    cases same
    simp only [Expression.interpret, interpretAll, head, tail]
    rfl
  | unary _ applied inner =>
    simp only [Expression.interpret, inner]
    exact applied
  | binary _ _ applied first second =>
    simp only [Expression.interpret, first, second]
    exact applied
  | @settled op _ _ _ _ settles first =>
    cases op <;> simp only [LogicalOp.settles, Bool.not_eq_true'] at settles <;>
      simp only [Expression.interpret, first, bind, Except.bind, settles] <;> rfl
  | @unsettled op _ _ _ _ _ settles _ first second =>
    cases op <;> simp only [LogicalOp.settles, Bool.not_eq_false'] at settles <;>
      simp only [Expression.interpret, first, bind, Except.bind, settles, second]
  | compare _ _ applied first second =>
    simp only [Expression.interpret, first, second]
    exact applied

theorem evaluatesIff {e : Expr} {v : Value} : Evaluates e v ↔ interpret e = .ok v :=
  ⟨Evaluates.interpret, interpretEvaluates⟩

/-! What operators answer -/

/-- How an operator comes by its result: texts and lists are joined or repeated, a template is filled, and all
else is numbers. -/
inductive Makes : BinaryOp → Value → Value → Value → Prop where
  | texts (s t : String) : Makes .add (.text s) (.text t) (.text (s ++ t))
  | lists (xs ys : List Value) : Makes .add (.list xs) (.list ys) (.list (xs ++ ys))
  | repeatedText {l r s n t} (repeats : Value.Repeats l r (.text s) n) (length : t.length = n.toNat * s.length) :
      Makes .mul l r (.text t)
  | repeatedList {l r xs n items} (repeats : Value.Repeats l r (.list xs) n)
      (length : items.length = n.toNat * xs.length) (kept : ∀ v ∈ items, v ∈ xs) : Makes .mul l r (.list items)
  | template (template s : String) (r : Value) : Makes .mod (.text template) r (.text s)
  | number {op l r v} (a : Numeral) (same : v = .ofNumeral a) : Makes op l r v

theorem computeMakes {op : BinaryOp} {l r v : Value} (found : compute op l r = .ok v) : Makes op l r v := by
  have numbers {f} (found : Value.onNumbers f l r = .ok v) : Makes op l r v := by
    obtain ⟨_, _, a, _, _, _, same⟩ := Value.onNumbersFacts found
    exact .number a same
  cases op with
  | add =>
    rcases Value.addFacts found with ⟨s, t, rfl, rfl, rfl⟩ | ⟨xs, ys, rfl, rfl, rfl⟩ | found
    · exact .texts s t
    · exact .lists xs ys
    · exact numbers found
  | mul =>
    rcases Value.mulFacts found with ⟨s, n, repeats, made⟩ | ⟨xs, n, repeats, made⟩ | found
    · obtain ⟨t, rfl, length⟩ := Value.repeatTextFacts made
      exact .repeatedText repeats length
    · obtain ⟨items, rfl, length, kept⟩ := Value.repeatListFacts made
      exact .repeatedList repeats length kept
    · exact numbers found
  | mod =>
    rcases Value.modFacts found with ⟨template, s, rfl, rfl⟩ | found
    · exact .template template s r
    · exact numbers found
  | sub | div | pow => exact numbers found

theorem itemsKept {op : BinaryOp} {l r : Value} {items : List Value}
    (found : compute op l r = .ok (.list items)) {v : Value} (member : v ∈ items) :
    ∃ xs, (l = .list xs ∨ r = .list xs) ∧ v ∈ xs := by
  cases computeMakes found with
  | lists xs ys =>
    rcases List.mem_append.mp member with member | member
    · exact ⟨xs, .inl rfl, member⟩
    · exact ⟨ys, .inr rfl, member⟩
  | repeatedList repeats _ kept => exact ⟨_, repeats.imp And.left And.left, kept v member⟩
  | number a same => cases a <;> cases same

theorem checkResultFacts {op : BinaryOp} {v w : Value} (checked : checkResult op v = .ok w) :
    w = v ∧ ∀ n, v = .int n → bitLength n ≤ maxBits := by
  unfold checkResult at checked
  split at checked
  · split at checked
    · contradiction
    · rename_i room
      cases checked
      refine ⟨rfl, fun m same => ?_⟩
      cases same
      exact Nat.le_of_not_lt room
  · rename_i other
    cases checked
    exact ⟨rfl, fun n same => absurd same (other n)⟩

theorem applyBinaryFacts {op : BinaryOp} {l r v : Value} (applied : applyBinary op l r = .ok v) :
    (op = .add ∧ (isText l = true ∨ isText r = true) ∧ ∃ s t, l.stringify = .ok s ∧ r.stringify = .ok t ∧
      v = .text (s ++ t)) ∨
    (¬ (op = .add ∧ (isText l = true ∨ isText r = true)) ∧ checkOperands op l r = .ok () ∧
      compute op l r = .ok v ∧ ∀ n, v = .int n → bitLength n ≤ maxBits) := by
  unfold applyBinary at applied
  split at applied
  · rename_i joins
    obtain ⟨s, left, applied⟩ := bindAccepts.mp applied
    obtain ⟨t, right, applied⟩ := bindAccepts.mp applied
    cases applied
    simp only [Bool.and_eq_true, beq_iff_eq, Bool.or_eq_true] at joins
    exact .inl ⟨joins.1, joins.2, s, t, liftAccepts.mp left, liftAccepts.mp right, rfl⟩
  · rename_i other
    obtain ⟨_, checked, applied⟩ := bindAccepts.mp applied
    split at applied
    · rename_i w computed
      obtain ⟨rfl, bits⟩ := checkResultFacts applied
      exact .inr ⟨by simpa using other, checked, computed, bits⟩
    · contradiction

theorem applyCompareTruth {op : CompareOp} {l r v : Value} (applied : applyCompare op l r = .ok v) :
    ∃ truth, v = .bool truth := by
  have relation (r : Relation) (left right : Value) (v : Value) (applied : applyRelation r left right = .ok v) :
      ∃ truth, v = .bool truth := by
    unfold applyRelation at applied
    split at applied <;> cases applied
    exact ⟨_, rfl⟩
  unfold applyCompare at applied
  split at applied
  · cases applied
    exact ⟨_, rfl⟩
  · cases applied
    exact ⟨_, rfl⟩
  · cases applied
    exact ⟨_, rfl⟩
  · cases applied
    exact ⟨_, rfl⟩
  · exact relation _ _ _ _ applied
  · exact relation _ _ _ _ applied
  · exact relation _ _ _ _ applied
  · exact relation _ _ _ _ applied
  · unfold applyMember at applied
    split at applied
    · obtain ⟨truth, _, same⟩ := bindAccepts.mp applied
      cases same
      exact ⟨truth, rfl⟩
    · obtain ⟨truth, _, same⟩ := bindAccepts.mp applied
      cases same
      exact ⟨truth, rfl⟩
    · obtain ⟨truth, _, same⟩ := bindAccepts.mp applied
      cases same
      exact ⟨truth, rfl⟩
    · contradiction

/-! Inside expressions -/

def Expr.children : Expr → List Expr
  | .literal _ => []
  | .list items => items
  | .unary _ operand => [operand]
  | .binary _ left right => [left, right]
  | .logical _ left right => [left, right]
  | .compare _ left right => [left, right]

inductive Within (sub : Expr) : Expr → Prop where
  | self : Within sub sub
  | deeper {child e} (member : child ∈ e.children) (inside : Within sub child) : Within sub e

theorem withinChildren {sub e : Expr} :
    Within sub e ↔ sub = e ∨ ∃ child ∈ e.children, Within sub child := by
  constructor
  · intro inside
    cases inside with
    | self => exact .inl rfl
    | deeper member inside => exact .inr ⟨_, member, inside⟩
  · rintro (rfl | ⟨child, member, inside⟩)
    · exact .self
    · exact .deeper member inside

theorem Within.trans {a b c : Expr} (first : Within a b) (second : Within b c) : Within a c := by
  induction second with
  | self => exact first
  | deeper member _ ih => exact .deeper member ih

theorem Within.tail {sub e : Expr} {rest : List Expr} (inside : Within sub (.list rest)) (other : sub ≠ .list rest) :
    Within sub (.list (e :: rest)) := by
  rcases withinChildren.mp inside with same | ⟨child, member, inside⟩
  · exact absurd same other
  · exact .deeper (List.mem_cons_of_mem e member) inside

/-- Every literal in the expression has the property. -/
def Expr.Leaves (P : Value → Prop) (e : Expr) : Prop := ∀ w, Within (.literal w) e → P w

namespace Expr.Leaves
variable {P : Value → Prop}

theorem child {child e : Expr} (leaves : e.Leaves P) (member : child ∈ e.children) : child.Leaves P :=
  fun w inside => leaves w (.deeper member inside)

theorem tail {e : Expr} {rest : List Expr} (leaves : (Expr.list (e :: rest)).Leaves P) : (Expr.list rest).Leaves P :=
  fun w inside => leaves w (inside.tail nofun)

end Expr.Leaves

mutual
def Expr.size : Expr → Nat
  | .literal _ => 1
  | .list items => sizeAll items + 1
  | .unary _ operand => operand.size + 1
  | .binary _ left right => left.size + right.size + 1
  | .logical _ left right => left.size + right.size + 1
  | .compare _ left right => left.size + right.size + 1
def Expr.sizeAll : List Expr → Nat
  | [] => 0
  | e :: rest => e.size + sizeAll rest
end

theorem Expr.sizeChildren (e : Expr) : e.size = sizeAll e.children + 1 := by
  cases e <;> simp only [size, children, sizeAll, Nat.add_zero]

theorem Expr.sizeAllMember {e : Expr} {items : List Expr} (member : e ∈ items) : e.size ≤ sizeAll items := by
  induction items with
  | nil => contradiction
  | cons first rest ih =>
    simp only [sizeAll]
    rcases List.mem_cons.mp member with rfl | member
    · omega
    · have := ih member
      omega

theorem Within.size {sub e : Expr} (inside : Within sub e) : sub.size ≤ e.size := by
  induction inside with
  | self => exact Nat.le_refl _
  | @deeper child e member _ ih =>
    have part := Expr.sizeAllMember member
    have whole := e.sizeChildren
    omega

theorem Expr.sizeAllAppend (items others : List Expr) :
    sizeAll (items ++ others) = sizeAll items + sizeAll others := by
  induction items with
  | nil => simp [sizeAll]
  | cons e rest ih =>
    simp only [List.cons_append, sizeAll, ih]
    omega

end Expression
end DecisionRules
