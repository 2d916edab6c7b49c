import DecisionRules.Proofs.Condition.Operands
import DecisionRules.Proofs.Value.Equality

/-! How strict conditions are about booleans. An operand is kept apart from the other one, or from an item of it,
when just one of the two is a boolean; what stands inside of them is not looked at for that. -/
namespace DecisionRules.Evaluator
open Condition (paired)
open Value (Same Confused Finite)

/-- The nodes that ask two operands for equality answer by what the operands resolve to: the same, or confused
with each other. -/
structure Equates (e : Evaluator) (token : Token Float) (depth : Nat) (f : Frame) (left right l r : Value) :
    Prop where
  equal : ∃ b, e.Tells token depth f (paired ComparisonOperator.eq.name left right) b ∧
    e.Tells token depth f (paired ComparisonOperator.ne.name left right) (!b) ∧
    (b = true ↔ Same l r ∨ Confused l r)
  included : ∀ items, r = .list items → ∃ b,
    e.Tells token depth f (paired (Operator.inclusion false).name left right) b ∧
    e.Tells token depth f (paired (Operator.inclusion true).name left right) (!b) ∧
    (b = true ↔ ∃ item ∈ items, Same item l ∨ Confused item l)

theorem hasStrictlyEqualIff {items : List Value} {v : Value} (plain : v.Finite) (each : Finite (.list items)) :
    Value.hasStrictlyEqual items v = true ↔ ∃ item ∈ items, Same item v ∨ Confused item v := by
  rw [Value.hasStrictlyEqual, List.any_eq_true]
  refine exists_congr fun item => and_congr_right fun member => ?_
  exact Value.strictEqualsIff (each.item member) plain

theorem Sees.equates {e : Evaluator} {token : Token Float} {depth : Nat} {f : Frame} {left right l r : Value}
    (sees : e.Sees token depth f left right l r) (plain : l.Finite) (plain' : r.Finite) :
    e.Equates token depth f left right l r := by
  constructor
  · exact ⟨l.strictEquals r, ⟨_, sees.comparison .eq, rfl⟩, ⟨_, sees.comparison .ne, rfl⟩,
      Value.strictEqualsIff plain plain'⟩
  · rintro items rfl
    refine ⟨Value.hasStrictlyEqual items l, ⟨_, sees.inclusion false, ?_⟩, ⟨_, sees.inclusion true, ?_⟩,
      hasStrictlyEqualIff plain plain'⟩
    · simp [Trace.value]
    · simp [Trace.value]

/-- Strict equality holds of the same values, and further only of values that have a boolean below the top where the
other one has the number that it counts as; the nodes that ask for equality or for an equal item answer by it. It is
an equivalence, as being the same is. -/
theorem strictEquality {v w : Value} (plain : v.Finite) (plain' : w.Finite) :
    (v.strictEquals w = true ↔ Same v w ∨ Confused v w) ∧ (Same v w → ¬ Confused v w) ∧
    (∀ (e : Evaluator) (token : Token Float) (depth : Nat) (f : Frame) (left right : Value),
      e.Sees token depth f left right v w → e.Equates token depth f left right v w) ∧
    (Equivalence fun v w : {v : Value // v.Finite} => Same v.1 w.1) ∧
    (Equivalence fun v w : {v : Value // v.Finite} => v.1.strictEquals w.1 = true) := by
  refine ⟨Value.strictEqualsIff plain plain', ?_, ?_, Value.sameEquivalence, Value.strictEquivalence⟩
  · intro same confused
    exact same.unmixed confused.mixed
  · intro e token depth f left right sees
    exact sees.equates plain plain'

def invoice : Value := .list [.int 1, .object [("paid", .bool true), ("sum", .float 2)]]

def shuffledInvoice : Value := .list [.float 1, .object [("sum", .int 2), ("paid", .bool true)]]

theorem invoicesSame : Same invoice shuffledInvoice := by
  refine .list rfl fun i v w here there => ?_
  match i with
  | 0 =>
    cases here
    cases there
    exact .number (q := 1) rfl (by decide +kernel)
  | 1 =>
    cases here
    cases there
    refine .object (fun k => by simp [Assoc.keys, or_comm]) fun k v w here there => ?_
    by_cases paid : k = "paid"
    · subst paid
      cases here
      cases there
      exact .bool true
    · by_cases sum : k = "sum"
      · subst sum
        cases here
        cases there
        exact .number (q := 2) (by decide +kernel) rfl
      · simp [Assoc.get?, Ne.symm paid, Ne.symm sum] at here
  | i + 2 => cases here

theorem strictEqualityNested : invoice.strictEquals shuffledInvoice = true ∧
    trial.Equates (.root 0 none "rule") 1 trialFrame invoice shuffledInvoice invoice shuffledInvoice := by
  have plain : invoice.Finite := by
    refine .list (List.forall_mem_cons.mpr ⟨.int 1, List.forall_mem_singleton.mpr (.object (by decide) ?_)⟩)
    exact List.forall_mem_cons.mpr ⟨.bool true, List.forall_mem_singleton.mpr (.float (by decide +kernel))⟩
  have plain' : shuffledInvoice.Finite := by
    refine .list (List.forall_mem_cons.mpr
      ⟨.float (by decide +kernel), List.forall_mem_singleton.mpr (.object (by decide) ?_)⟩)
    exact List.forall_mem_cons.mpr ⟨.int 2, List.forall_mem_singleton.mpr (.bool true)⟩
  obtain ⟨equal, _, nodes, _⟩ := strictEquality plain plain'
  exact ⟨equal.mpr (.inl invoicesSame),
    nodes _ _ _ _ _ _ ⟨⟨by decide, by decide +kernel⟩, rfl, rfl⟩⟩

/-- In a list, one passes for true. -/
theorem listedOneConfused :
    let yes := Value.list [.bool true]
    let one := Value.list [.int 1]
    yes.strictEquals one = true ∧ ¬ Same yes one ∧
      trial.Tells (.root 0 none "rule") 1 trialFrame (paired ComparisonOperator.eq.name yes one) true ∧
      trial.Tells (.root 0 none "rule") 1 trialFrame
        (paired (Operator.inclusion false).name yes (.list [one])) true := by
  intro yes one
  have sees {w : Value} (plain : trialFrame.scope.resolve w = .ok w) :
      trial.Sees (.root 0 none "rule") 1 trialFrame yes w yes w := ⟨⟨by decide, by decide +kernel⟩, rfl, plain⟩
  refine ⟨by decide +kernel, fun same => same.unmixed (.item (i := 0) rfl rfl (.left rfl)), ?_, ?_⟩
  · exact ⟨_, (sees (w := one) rfl).comparison .eq, by decide +kernel⟩
  · exact ⟨_, (sees (w := .list [one]) rfl).inclusion false, by decide +kernel⟩

end DecisionRules.Evaluator
