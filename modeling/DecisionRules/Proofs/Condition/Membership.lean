import DecisionRules.Proofs.Condition.Operands
import DecisionRules.Proofs.Expression.Comparison
import DecisionRules.Proofs.Value.Equality

/-! The ways to ask whether a list has a value: a node for inclusion, the built-in function, and an expression.
The node asks for an item that strictly equals the value; the other two for one that equals it, where a boolean
counts as a number. -/
namespace DecisionRules

namespace Value

/-- One of the two is a boolean and the other one the number that it counts as. -/
structure Crossed (v w : Value) : Prop where
  apart : v.isBool ≠ w.isBool
  counted : ∃ q, v.rational? true = some q ∧ w.rational? true = some q

variable {v w : Value}

theorem boolCounts (is : v.isBool = true) : ∃ q, v.rational? true = some q := by
  cases v <;> first | contradiction | exact ⟨_, rfl⟩

theorem equalCrossed (plain : v.Finite) (plain' : w.Finite) :
    v.equal w = true ↔ v.strictEquals w = true ∨ Crossed v w := by
  rw [strictEqualsLike plain plain', equalLike plain plain']
  by_cases kind : v.isBool = w.isBool
  · have straight : ¬ Crossed v w := fun crossed => crossed.apart kind
    simp [kind, straight]
  · have numbers : Like true v w ↔ ∃ q, v.rational? true = some q ∧ w.rational? true = some q := by
      cases here : v.isBool with
      | true =>
        obtain ⟨q, is⟩ := boolCounts here
        exact likeNumber is
      | false =>
        obtain ⟨q, is⟩ := boolCounts (v := w) (by simpa [here] using kind)
        constructor
        · intro like
          obtain ⟨p, right, left⟩ := (likeNumber is).mp like.symm
          exact ⟨p, left, right⟩
        · rintro ⟨p, left, right⟩
          exact .number left right
    constructor
    · exact fun like => .inr ⟨kind, numbers.mp like⟩
    · rintro (⟨same, _⟩ | crossed)
      · exact absurd same kind
      · exact numbers.mpr crossed.counted

theorem hasEqualCrossed {items : List Value} (plain : v.Finite) (each : Finite (.list items)) :
    hasEqual items v = true ↔ hasStrictlyEqual items v = true ∨ ∃ item ∈ items, Crossed item v := by
  have inside (item : Value) (member : item ∈ items) := equalCrossed (each.item member) plain
  unfold hasEqual hasStrictlyEqual
  simp only [List.any_eq_true]
  constructor
  · rintro ⟨item, member, equal⟩
    rcases (inside item member).mp equal with strict | crossed
    · exact .inl ⟨item, member, strict⟩
    · exact .inr ⟨item, member, crossed⟩
  · rintro (⟨item, member, strict⟩ | ⟨item, member, crossed⟩)
    · exact ⟨item, member, (inside item member).mpr (.inl strict)⟩
    · exact ⟨item, member, (inside item member).mpr (.inr crossed)⟩

end Value

namespace Evaluator
open Condition (paired calling)
open Expression (Evaluates comparing interpret parse maxLength)

/-- What the ways to ask for a value in a list answer: the nodes for inclusion one thing, the function and
expressions another. -/
structure AsksMember (e : Evaluator) (token : Token Float) (depth : Nat) (f : Frame) (left right x : Value)
    (items : List Value) (strict loose : Bool) : Prop where
  included : e.Tells token depth f (paired (Operator.inclusion false).name left right) strict
  excluded : e.Tells token depth f (paired (Operator.inclusion true).name left right) !strict
  function : e.operators.builtins = true → e.Tells token depth f (calling "includes" [right, left]) loose
  equality : ∀ item l r, Evaluates l item → Evaluates r x →
    interpret (.compare .eq l r) = .ok (.bool (item.strictEquals x))
  operator : ∀ l r, Evaluates l x → Evaluates r (.list items) →
    interpret (.compare .member l r) = .ok (.bool loose)
  expression : e.unsafeAllowed = true → ∀ source text l r, f.scope.substituteLiterals source = .ok text →
    parse text = .ok (.compare .member l r) → Evaluates l x → Evaluates r (.list items) →
    e.Tells token depth f (.text source) loose
  references : e.unsafeAllowed = true → ∀ m n text, f.scope.Refers m x → f.scope.Refers n (.list items) →
    x.Literal → (Value.list items).Literal → f.scope.substituteLiterals (comparing m .member n) = .ok text →
    text.length ≤ maxLength → e.Tells token depth f (.text (comparing m .member n)) loose

theorem memberInterprets {l r : Expression.Expr} {x : Value} {items : List Value} (left : Evaluates l x)
    (right : Evaluates r (.list items)) :
    interpret (.compare .member l r) = .ok (.bool (Value.hasEqual items x)) := by
  rw [interpret, left.interpret, right.interpret]
  rfl

theorem Sees.asksMember {e : Evaluator} {token : Token Float} {depth : Nat} {f : Frame} {left right x : Value}
    {items : List Value} (sees : e.Sees token depth f left right x (.list items)) :
    e.AsksMember token depth f left right x items (Value.hasStrictlyEqual items x) (Value.hasEqual items x) := by
  have ready := sees.toReady
  have expression (allowed : e.unsafeAllowed = true) (source text : String) (l r : Expression.Expr)
      (written : f.scope.substituteLiterals source = .ok text) (parsed : parse text = .ok (.compare .member l r))
      (left : Evaluates l x) (right : Evaluates r (.list items)) :
      e.Tells token depth f (.text source) (Value.hasEqual items x) := by
    have holds : Expression.holds text = .ok (Value.hasEqual items x) := by
      simp only [Expression.holds, Expression.parseSource, parsed, bind, Except.bind, memberInterprets left right]
      rfl
    exact ⟨_, ready.expression allowed source text written holds, rfl⟩
  constructor
  · exact ⟨_, sees.inclusion false, by simp [Trace.value]⟩
  · exact ⟨_, sees.inclusion true, by simp [Trace.value]⟩
  · intro on
    have args : resolveItems f.scope.lookup [right, left] = .ok [.list items, x] := by
      have second : resolve f.scope.lookup left = .ok x := sees.left
      have first : resolve f.scope.lookup right = .ok (.list items) := sees.right
      simp only [resolveItems, first, second]
      rfl
    exact ⟨_, ready.builtin on args rfl, rfl⟩
  · intro item l r left right
    rw [interpret, left.interpret, right.interpret]
    rfl
  · exact fun l r left right => memberInterprets left right
  · exact expression
  · intro allowed m n text first second literal literals written room
    obtain ⟨l, r, parsed, left, right⟩ := Scope.comparingHolds first second literal literals written room
    exact expression allowed _ text l r written parsed left right

/-- Whether a list has a value: the nodes for inclusion answer by strict equality. The built-in function and the
expressions find whatever these find, and besides an item that is crossed with the value. -/
theorem membershipTests {e : Evaluator} {token : Token Float} {depth : Nat} {f : Frame} {left right x : Value}
    {items : List Value} (sees : e.Sees token depth f left right x (.list items)) (plain : x.Finite)
    (each : Value.Finite (.list items)) :
    ∃ strict loose, e.AsksMember token depth f left right x items strict loose ∧
      (strict = true ↔ ∃ item ∈ items, item.strictEquals x = true) ∧
      (loose = true ↔ strict = true ∨ ∃ item ∈ items, Value.Crossed item x) := by
  refine ⟨_, _, sees.asksMember, ?_, Value.hasEqualCrossed plain each⟩
  rw [Value.hasStrictlyEqual, List.any_eq_true]

theorem membershipTestsKnown :
    freeTrial.AsksMember (.root 0 none "rule") 1 trialFrame (.text (referring ['x']))
      (.text (referring ['k', 'n', 'o', 'w', 'n'])) (.int 1) [.int 1, .int 2] true true := by
  have named : trialFrame.scope.Refers ['x'] (.int 1) := ⟨⟨by decide, by decide⟩, rfl⟩
  have listed : trialFrame.scope.Refers ['k', 'n', 'o', 'w', 'n'] (.list [.int 1, .int 2]) :=
    ⟨⟨by decide, by decide⟩, rfl⟩
  have each : Value.Finite (.list [.int 1, .int 2]) :=
    .list (List.forall_mem_cons.mpr ⟨.int 1, List.forall_mem_singleton.mpr (.int 2)⟩)
  have ready : freeTrial.Ready (.root 0 none "rule") 1 trialFrame := ⟨by decide, by decide +kernel⟩
  obtain ⟨strict, loose, asks, strictly, loosely⟩ :=
    membershipTests ⟨ready, named.resolves, listed.resolves⟩ (.int 1) each
  obtain rfl : strict = true := strictly.mpr ⟨.int 1, List.mem_cons_self, by decide⟩
  obtain rfl : loose = true := loosely.mpr (.inl rfl)
  exact asks

/-- One is found in a list of the boolean alone, but not by the node for inclusion. -/
theorem oneFoundAmongTruths :
    let yes := Value.list [.bool true]
    freeTrial.Tells (.root 0 none "rule") 1 trialFrame (paired (Operator.inclusion false).name (.int 1) yes) false ∧
    freeTrial.Tells (.root 0 none "rule") 1 trialFrame (calling "includes" [yes, .int 1]) true ∧
    freeTrial.Tells (.root 0 none "rule") 1 trialFrame (.text "1 in [true]") true ∧
    freeTrial.Tells (.root 0 none "rule") 1 trialFrame (.text "true == 1") false := by
  intro yes
  have ready : freeTrial.Ready (.root 0 none "rule") 1 trialFrame := ⟨by decide, by decide +kernel⟩
  have sees : freeTrial.Sees (.root 0 none "rule") 1 trialFrame (.int 1) yes (.int 1) yes := ⟨ready, rfl, rfl⟩
  refine ⟨⟨_, sees.inclusion false, rfl⟩, ⟨_, ready.builtin rfl rfl rfl, rfl⟩, ?_, ?_⟩
  · exact ⟨_, ready.expression rfl "1 in [true]" "1 in [true]" (by decide +kernel) (by decide +kernel), rfl⟩
  · exact ⟨_, ready.expression rfl "true == 1" "true == 1" (by decide +kernel) (by decide +kernel), rfl⟩

end Evaluator
end DecisionRules
