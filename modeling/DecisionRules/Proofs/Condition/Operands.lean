import DecisionRules.Proofs.Condition.Node
import DecisionRules.Proofs.Condition.Soundness

/-! Nodes without children. Where there is room and time for one, its operands are resolved first, and then
nothing but its operator decides. -/
namespace DecisionRules

namespace Condition

def paired (operator : String) (left right : Value) : Value :=
  .object [("operator", .text operator), ("left", left), ("right", right)]

def calling (name : String) (args : List Value) : Value :=
  .object [("operator", .text Operator.function.name), ("name", .text name), ("args", .list args)]

def existing (name : String) : Value :=
  .object [("operator", .text Operator.existence.name), ("field", .text name)]

theorem comparisonTree (op : ComparisonOperator) (left right : Value) :
    ofValue (paired op.name left right) = comparison op left right := by
  cases op <;> rfl

theorem inclusionTree (negated : Bool) (left right : Value) :
    ofValue (paired (Operator.inclusion negated).name left right) = inclusion negated left right := by
  cases negated <;> rfl

end Condition

namespace Evaluator
open Condition (paired calling)
variable {e : Evaluator} {token : Token Float} {depth : Nat} {f g : Frame}

/-- Is there room and time for a node? -/
structure Ready (e : Evaluator) (token : Token Float) (depth : Nat) (f : Frame) : Prop where
  room : (depth : Int) ≤ e.maxDepth
  live : token.check f.clock = .ok ()

/-- The node answers this, whatever it explains, and leaves everything as it was. -/
def Tells (e : Evaluator) (token : Token Float) (depth : Nat) (f : Frame) (node : Value) (b : Bool) : Prop :=
  ∃ t, (e.evaluateNode token depth (.ofValue node)).run f = (.ok t, f) ∧ t.value = b

theorem Tells.unique {node : Value} {b b' : Bool} (tells : e.Tells token depth f node b)
    (tells' : e.Tells token depth f node b') : b = b' := by
  obtain ⟨t, ran, rfl⟩ := tells
  obtain ⟨t', ran', rfl⟩ := tells'
  cases ran.symm.trans ran'
  rfl

theorem basicRun {α : Type} {r : Except Breach α} {a : α} (ok : r = .ok a) (f : Frame) :
    (basic r : Run Frame α).run f = (.ok a, f) := by
  rw [ok]
  rfl

theorem outcomeRun {α : Type} {r : Outcome α} {a : α} (ok : r = .ok a) (f : Frame) :
    (outcome r : Run Frame α).run f = (.ok a, f) := by
  rw [ok]
  rfl

namespace Ready

theorem entered {c : Condition} {t : Trace} (ran : (e.evaluateNode token depth c).run f = (.ok t, g)) :
    e.Ready token depth f := by
  rw [evaluateNode.eq_def] at ran
  obtain ⟨_, f', entered, _⟩ := Run.runBindOk ran
  by_cases room : (depth : Int) ≤ e.maxDepth
  · rw [enterRoomy room, Run.runBind, Run.runGet] at entered
    dsimp only at entered
    rw [Run.runOutcome] at entered
    exact ⟨room, (Prod.mk.inj entered).1⟩
  · rw [enterDeep depth (by omega), Run.runThrow] at entered
    cases entered

theorem enter (ready : e.Ready token depth f) : (e.enter token depth).run f = (.ok (), f) :=
  enterLive ready.room ready.live

theorem expression (ready : e.Ready token depth f) (allowed : e.unsafeAllowed = true) (source text : String)
    {b : Bool} (written : f.scope.substituteLiterals source = .ok text) (holds : Expression.holds text = .ok b) :
    (e.evaluateNode token depth (.ofValue (.text source))).run f = (.ok (.expression text b), f) := by
  rw [Condition.ofValue, evaluateNode, Run.runThen ready.enter, evaluateExpression, if_neg (by simp [allowed]),
    Run.runThen (Run.runGet f), Run.runThen (basicRun written f), Run.runThen (outcomeRun holds f)]
  rfl

theorem builtin (ready : e.Ready token depth f) (on : e.operators.builtins = true) {name : String}
    {args values : List Value} {v : Value} (resolved : resolveItems f.scope.lookup args = .ok values)
    (answers : Operators.builtin? e.host.now e.host.today name values = some (.ok v)) :
    (e.evaluateNode token depth (.ofValue (calling name args))).run f = (.ok (.function name values v), f) := by
  have tree : Condition.ofValue (calling name args) = .function (.text name) (some (.list args)) := rfl
  have items : (Value.list args).partsOrNone = .ok args := by cases args <;> rfl
  rw [tree, evaluateNode, Run.runThen ready.enter, evaluateFunction, Value.ofOption, Run.runThen (basicRun items f),
    Run.runThen (Run.runGet f), Run.runThen (basicRun resolved f)]
  dsimp only
  rw [if_pos on, answers]
  rfl

end Ready

theorem Tells.ready {node : Value} {b : Bool} (tells : e.Tells token depth f node b) : e.Ready token depth f := by
  obtain ⟨t, ran, _⟩ := tells
  exact .entered ran

/-- An expression that has answered was allowed, its references had literals, and its text holds or not. -/
theorem expressionRan {source : String} {t : Trace}
    (ran : (e.evaluateNode token depth (.ofValue (.text source))).run f = (.ok t, g)) :
    e.unsafeAllowed = true ∧ g = f ∧ ∃ text b, f.scope.substituteLiterals source = .ok text ∧
      Expression.holds text = .ok b ∧ t = .expression text b := by
  rw [Condition.ofValue, evaluateNode] at ran
  obtain ⟨_, h, entered, evaluated⟩ := Run.runBindOk ran
  obtain rfl := enterOk entered
  rw [evaluateExpression] at evaluated
  by_cases allowed : e.unsafeAllowed = true
  · rw [if_neg (by simp [allowed]), Run.runThen (Run.runGet h)] at evaluated
    obtain ⟨text, _, written, evaluated⟩ := Run.runBindOk evaluated
    rw [Run.runBasic] at written
    obtain ⟨ok, rfl⟩ := Prod.mk.inj written
    obtain ⟨b, _, holds, answered⟩ := Run.runBindOk evaluated
    rw [Run.runOutcome] at holds
    obtain ⟨truth, rfl⟩ := Prod.mk.inj holds
    cases answered
    exact ⟨allowed, rfl, text, b, ofBreachAccepts.mp ok, truth, rfl⟩
  · rw [if_pos (by simp [allowed]), Run.runBind, Run.runThrow] at evaluated
    cases evaluated

/-- A node of two operands where there is room and time for it, and what its operands resolve to. -/
structure Sees (e : Evaluator) (token : Token Float) (depth : Nat) (f : Frame) (left right l r : Value) : Prop
    extends Ready e token depth f where
  left : f.scope.resolve left = .ok l
  right : f.scope.resolve right = .ok r

namespace Sees
variable {left right l r : Value}

theorem operand {v w : Value} (ok : f.scope.resolve v = .ok w) : (resolved v).run f = (.ok w, f) := by
  rw [resolvedRun, ok]
  rfl

theorem comparison (sees : e.Sees token depth f left right l r) (op : ComparisonOperator) :
    (e.evaluateNode token depth (.ofValue (paired op.name left right))).run f =
      (.ok (.comparison op l r (op.holds l r)), f) := by
  rw [Condition.comparisonTree, evaluateNode, Run.runThen sees.enter, Run.runThen (operand sees.left),
    Run.runThen (operand sees.right)]
  rfl

theorem inclusion {items : List Value} (sees : e.Sees token depth f left right l (.list items)) (negated : Bool) :
    (e.evaluateNode token depth (.ofValue (paired (Operator.inclusion negated).name left right))).run f =
      (.ok (.inclusion negated l (.list items) (Value.hasStrictlyEqual items l != negated)), f) := by
  rw [Condition.inclusionTree, evaluateNode, Run.runThen sees.enter, evaluateInclusion,
    Run.runThen (operand sees.left), Run.runThen (operand sees.right)]
  rfl

end Sees

def freeTrial : Evaluator := { trial with unsafeAllowed := true }

end Evaluator
end DecisionRules
