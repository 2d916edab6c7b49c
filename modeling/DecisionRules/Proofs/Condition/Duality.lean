import DecisionRules.Proofs.Condition.Node
import DecisionRules.Proofs.Condition.Soundness

/-! The laws of De Morgan. Negation moves through a conjunction or a disjunction, failures included: either way
the same nodes are evaluated at the same depths in the same order. -/
namespace DecisionRules.Evaluator
open Condition (joined negated)

theorem throwBind {α β : Type} (failure : Failure) (k : α → Run Frame β) :
    (throw failure >>= k) = throw failure := rfl

section
variable {e : Evaluator} {token : Token Float} {depth : Nat}

/-- Right before a node is evaluated, another look at the clock makes no difference. -/
theorem enterAgain {α : Type} (room : ((depth + 1 : Nat) : Int) ≤ e.maxDepth) (c : Condition)
    (k : Trace → Run Frame α) :
    (e.enter token depth >>= fun _ => e.evaluateNode token (depth + 1) c >>= k) =
      e.evaluateNode token (depth + 1) c >>= k := by
  rw [evaluateNode.eq_def, enterRoomy room, enterRoomy (by omega)]
  simp only [bind_assoc]
  refine Run.runSame fun f => ?_
  simp only [Run.runBind, Run.runGet, Run.runOutcome]
  cases live : token.check f.clock with
  | ok _ => simp only [live]
  | error _ => rfl

theorem negatedOnce (room : ((depth + 1 : Nat) : Int) ≤ e.maxDepth) (c : Condition) :
    e.evaluateNode token depth (.not (some c)) = (do
      let t ← e.evaluateNode token (depth + 1) c
      return .logical Operator.not.name (!t.value) [t]) := by
  rw [evaluateNode]
  exact enterAgain room c _

/-- Nodes and their negations are decided at the same place. -/
theorem negationsDecided (room : ((depth + 1 : Nat) : Int) ≤ e.maxDepth) (stop : Bool) (cs : List Condition) :
    (decided (!stop) <$> e.evaluateUntil token depth (!stop) (cs.map fun c => .not (some c))) =
      decided stop <$> e.evaluateUntil token (depth + 1) stop cs := by
  induction cs with
  | nil => rw [List.map_nil, evaluateUntil, evaluateUntil]; rfl
  | cons c rest ih =>
    rw [List.map_cons, evaluateUntil, evaluateUntil, negatedOnce room]
    simp only [map_eq_pure_bind, bind_assoc, pure_bind] at ih ⊢
    refine bind_congr fun t => ?_
    by_cases stops : t.value = stop
    · subst stops
      simp [decided]
    · have onward : (t.value == stop) = false := by simpa using stops
      have alike : ((!t.value) == !stop) = false := by simpa using stops
      simp only [Trace.logicalValue, onward, alike, Bool.false_eq_true, if_false, bind_assoc, pure_bind, decided,
        List.any_cons, Bool.false_or]
      exact ih

/-- Negations are decided as what they negate, one step of depth further down; above the limit on depth too. -/
theorem negationMoves (stop : Bool) {cs : List Condition} (filled : cs ≠ []) :
    (e.enter token depth >>= fun _ => decided stop <$> e.evaluateUntil token (depth + 1) stop cs) =
      decided (!stop) <$> e.evaluateUntil token depth (!stop) (cs.map fun c => .not (some c)) := by
  obtain ⟨c, rest, rfl⟩ := List.exists_cons_of_ne_nil filled
  by_cases room : ((depth + 1 : Nat) : Int) ≤ e.maxDepth
  · rw [negationsDecided room, evaluateUntil, map_eq_pure_bind, bind_assoc, enterAgain room]
  · rw [List.map_cons, evaluateUntil, evaluateUntil, evaluateNode, evaluateNode.eq_def e token (depth + 1),
      enterDeep (depth + 1) (by omega)]
    simp only [map_eq_pure_bind, bind_assoc, throwBind]

theorem negatedJunction {op dual : LogicalOperator} {stop : Bool} (stops : op.stop? = some stop)
    (stops' : dual.stop? = some (!stop)) {cs : List Condition} (filled : cs ≠ []) :
    e.answer token depth (.not (some (.logical op cs))) =
      e.answer token depth (.logical dual (cs.map fun c => .not (some c))) := by
  have moves := congrArg (fun m : Run Frame Bool => (· == !stop) <$> m)
    (@negationMoves e token (depth + 1) stop cs filled)
  have opposite (b : Bool) : (!(b == stop)) = (b == !stop) := by cases b <;> cases stop <;> rfl
  unfold answer
  rw [evaluateNode, junctionNode stops, junctionNode stops']
  simp only [map_eq_pure_bind, bind_assoc, pure_bind, Trace.logicalValue, opposite] at moves ⊢
  rw [moves]

theorem negatedTrees {nodes : List Value} (present : ∀ node ∈ nodes, node ≠ .null) :
    (nodes.map negated).map Condition.ofValue = (nodes.map Condition.ofValue).map fun c => .not (some c) := by
  simp only [List.map_map]
  exact List.map_congr_left fun node member => Condition.negatedTree (present node member)

/-- Negation moves through a conjunction and through a disjunction of nodes: from every frame, at every depth
and within every limit, both sides have the same answer or the same failure and leave the same frame. -/
theorem deMorgan (e : Evaluator) (token : Token Float) (depth : Nat) {nodes : List Value} (filled : nodes ≠ [])
    (present : ∀ node ∈ nodes, node ≠ .null) :
    e.answer token depth (.ofValue (negated (joined .and nodes))) =
        e.answer token depth (.ofValue (joined .or (nodes.map negated))) ∧
      e.answer token depth (.ofValue (negated (joined .or nodes))) =
        e.answer token depth (.ofValue (joined .and (nodes.map negated))) := by
  have children : nodes.map Condition.ofValue ≠ [] := by simpa using filled
  simp only [Condition.negatedTree (Condition.joinedPresent _ nodes), Condition.joinedTree, negatedTrees present]
  exact ⟨negatedJunction rfl rfl children, negatedJunction rfl rfl children⟩

def failingNodes : List Value :=
  [.bool true, .object [("operator", .text "function"), ("name", .text "fails")], .bool false]

theorem deMorganFailing : failingNodes ≠ [] ∧ (∀ node ∈ failingNodes, node ≠ .null) ∧
    (({ trial with maxDepth := 2 }.answer (.root 0 none "rule") 0
      (.ofValue (joined .or (failingNodes.map negated)))).run trialFrame).1 =
        .error (.raised "ValueError" "host: boom") := by
  have filled : failingNodes ≠ [] := nofun
  have present : ∀ node ∈ failingNodes, node ≠ .null := by simp [failingNodes]
  have laws := deMorgan { trial with maxDepth := 2 } (.root 0 none "rule") 0 filled present
  refine ⟨filled, present, ?_⟩
  rw [← laws.1]
  decide +kernel

end
end DecisionRules.Evaluator
