import DecisionRules.Proofs.Condition.Depth
import DecisionRules.Proofs.Condition.Node

/-! What a logical operator makes of nodes that are evaluated by themselves. Null alone tells the two apart: by
itself it matches, as a node below an operator it does not. -/
namespace DecisionRules.Evaluator
open Condition (joined)

/-- What a node answers when it is evaluated by itself. -/
def alone (e : Evaluator) (token : Token Float) (node : Value) : Run Frame Bool := do
  return (← e.evaluate (.ofValue node) token).1

def Matches (e : Evaluator) (token : Token Float) (p : Value × Frame) : Prop :=
  ((e.alone token p.1).run p.2).1 = .ok true

/-- Does the node count as one that matches below an operator? Null does not. -/
def Counts (e : Evaluator) (token : Token Float) (p : Value × Frame) : Prop :=
  p.1 ≠ .null ∧ e.Matches token p

/-- The nodes with the frames in which their turns come, if they are evaluated by themselves one after the
other: callables of the host may leave each of them another frame. -/
def turns (e : Evaluator) (token : Token Float) : List Value → Frame → List (Value × Frame)
  | [], _ => []
  | node :: rest, f => (node, f) :: turns e token rest ((e.alone token node).run f).2

section
variable {e : Evaluator} {token : Token Float} {f : Frame}

theorem aloneNull : e.alone token .null = pure true := rfl

theorem alonePresent {node : Value} (there : node ≠ .null) :
    e.alone token node = e.answer token 0 (.ofValue node) := by
  rcases @treeCases token (.ofValue node) with absent | ⟨rooted, _⟩
  · exact absurd (Condition.ofValueAbsent.mp absent) there
  · unfold alone answer
    rw [rooted]
    simp only [bind_assoc, pure_bind]

theorem answerRun (depth : Nat) (c : Condition) {t : Trace} {g : Frame}
    (ran : (e.evaluateNode token depth c).run f = (.ok t, g)) :
    (e.answer token depth c).run f = (.ok t.value, g) := by
  unfold answer
  rw [Run.runThen ran]
  rfl

/-- A node below an operator answers what it answers by itself, but for null. -/
theorem asChild {node : Value} (room : (((Condition.ofValue node).depth + 1 : Nat) : Int) ≤ e.maxDepth)
    (live : token.check f.clock = .ok ()) (answered : ∃ b, ((e.alone token node).run f).1 = .ok b) :
    ∃ t, (e.evaluateNode token 1 (.ofValue node)).run f = (.ok t, ((e.alone token node).run f).2) ∧
      (t.value = true ↔ e.Counts token (node, f)) := by
  by_cases absent : node = .null
  · subst absent
    refine ⟨.unknown .null, ?_, by simp [Trace.value, Counts]⟩
    rw [aloneNull, Condition.ofValueAbsent.mpr rfl, evaluateNode, Run.runThen (enterLive (by omega) live)]
    rfl
  · rw [nodeShifts (.ofValue node) 1 0 (by omega) (by omega)]
    rw [alonePresent absent] at answered ⊢
    unfold Counts Matches
    rw [alonePresent absent]
    cases ran : (e.evaluateNode token 0 (.ofValue node)).run f with
    | mk r g => cases r with
      | ok t =>
        rw [answerRun 0 _ ran]
        refine ⟨t, rfl, ?_⟩
        simp [absent]
      | error failure =>
        obtain ⟨b, ok⟩ := answered
        unfold answer at ok
        rw [Run.runBind, ran] at ok
        contradiction

/-- What nodes take to be evaluated by themselves, one after the other, and below an operator: room, an
answer, and time whenever a turn comes. -/
structure Composable (e : Evaluator) (token : Token Float) (nodes : List Value) (f : Frame) : Prop where
  room : ((Condition.depthBelow (nodes.map .ofValue) : Nat) : Int) ≤ e.maxDepth
  answered : ∀ p ∈ e.turns token nodes f, ∃ b, ((e.alone token p.1).run p.2).1 = .ok b
  timely : ∀ p ∈ e.turns token nodes f, token.check p.2.clock = .ok ()

namespace Composable
variable {node : Value} {rest : List Value}

theorem first (able : e.Composable token (node :: rest) f) :
    ∃ t, (e.evaluateNode token 1 (.ofValue node)).run f = (.ok t, ((e.alone token node).run f).2) ∧
      (t.value = true ↔ e.Counts token (node, f)) := by
  have room := able.room
  simp only [List.map_cons, Condition.depthBelow] at room
  exact asChild (by omega) (able.timely (node, f) List.mem_cons_self)
    (able.answered (node, f) List.mem_cons_self)

theorem later (able : e.Composable token (node :: rest) f) :
    e.Composable token rest ((e.alone token node).run f).2 := by
  have room := able.room
  simp only [List.map_cons, Condition.depthBelow] at room
  exact ⟨by omega, fun p member => able.answered p (List.mem_cons_of_mem _ member),
    fun p member => able.timely p (List.mem_cons_of_mem _ member)⟩

end Composable

theorem untilTurns (stop : Bool) {nodes : List Value} (able : e.Composable token nodes f) :
    ∃ details g, (e.evaluateUntil token 1 stop (nodes.map .ofValue)).run f = (.ok details, g) ∧
      (decided stop details = true ↔
        ∃ p ∈ e.turns token nodes f, (e.Counts token p ↔ stop = true)) := by
  induction nodes generalizing f with
  | nil =>
    refine ⟨[], f, ?_, by simp [decided, turns]⟩
    rw [List.map_nil, evaluateUntil]
    rfl
  | cons node rest ih =>
    obtain ⟨t, ran, counts⟩ := able.first
    rw [List.map_cons, evaluateUntil, Run.runThen ran]
    by_cases stops : t.value = stop
    · refine ⟨[t], _, by rw [if_pos (by simpa using stops)]; rfl, ?_⟩
      simp only [decided, List.any_cons, stops, BEq.rfl, Bool.true_or, true_iff]
      exact ⟨(node, f), List.mem_cons_self, by rw [← counts, stops]⟩
    · obtain ⟨details, g, went, decides⟩ := ih able.later
      have onward : (t.value == stop) = false := by simpa using stops
      refine ⟨t :: details, g, ?_, ?_⟩
      · rw [if_neg (by simp [onward]), Run.runThen went]
        rfl
      · simp only [decided, List.any_cons, onward, Bool.false_or] at decides ⊢
        rw [decides, turns]
        simp only [List.mem_cons, exists_eq_or_imp]
        rw [← counts]
        have apart : ¬ (t.value = true ↔ stop = true) := fun agree => stops (Bool.eq_iff_iff.mpr agree)
        exact (or_iff_right apart).symm

theorem joinedAlone (op : LogicalOperator) (nodes : List Value) :
    e.alone token (joined op nodes) = e.answer token 0 (.logical op (nodes.map .ofValue)) := by
  rw [alonePresent (Condition.joinedPresent op nodes), Condition.joinedTree]

theorem junctionAlone {op : LogicalOperator} {stop : Bool} (stops : op.stop? = some stop) {nodes : List Value}
    (able : e.Composable token nodes f) (live : token.check f.clock = .ok ()) :
    ∃ b, ((e.alone token (joined op nodes)).run f).1 = .ok b ∧
      (b = stop ↔ ∃ p ∈ e.turns token nodes f, (e.Counts token p ↔ stop = true)) := by
  have room := able.room
  obtain ⟨details, g, ran, decides⟩ := untilTurns stop able
  have whole : (e.evaluateNode token 0 (.logical op (nodes.map .ofValue))).run f =
      (.ok (.logical op.name (decided stop details == stop) details), g) := by
    rw [junctionNode stops, Run.runThen (enterLive (by omega) live), Run.runThen ran]
    rfl
  refine ⟨decided stop details == stop, by rw [joinedAlone, answerRun 0 _ whole, Trace.logicalValue], ?_⟩
  rw [← decides]
  cases stop <;> simp

theorem exclusionAlone {left right : Value} (able : e.Composable token [left, right] f)
    (live : token.check f.clock = .ok ()) {p q : Value × Frame}
    (come : e.turns token [left, right] f = [p, q]) :
    ∃ b, ((e.alone token (joined .xor [left, right])).run f).1 = .ok b ∧
      (b = true ↔ (e.Counts token p ↔ ¬ e.Counts token q)) := by
  have room := able.room
  simp only [turns, List.cons.injEq, and_true] at come
  obtain ⟨rfl, rfl⟩ := come
  obtain ⟨l, ranLeft, countsLeft⟩ := able.first
  obtain ⟨r, ranRight, countsRight⟩ := able.later.first
  have whole : (e.evaluateNode token 0 (.logical .xor ([left, right].map .ofValue))).run f =
      (.ok (.logical LogicalOperator.xor.name (l.value != r.value) [l, r]),
        ((e.alone token right).run ((e.alone token left).run f).2).2) := by
    rw [List.map_cons, List.map_cons, List.map_nil, evaluateNode, Run.runThen (enterLive (by omega) live),
      Run.runThen ranLeft, Run.runThen ranRight]
    rfl
  refine ⟨l.value != r.value, by rw [joinedAlone, answerRun 0 _ whole, Trace.logicalValue], ?_⟩
  rw [← countsLeft, ← countsRight]
  cases l.value <;> cases r.value <;> decide

theorem turnsStill {nodes : List Value} (still : ∀ node ∈ nodes, ((e.alone token node).run f).2 = f) :
    e.turns token nodes f = nodes.map fun node => (node, f) := by
  induction nodes with
  | nil => rfl
  | cons node rest ih =>
    obtain ⟨here, later⟩ := List.forall_mem_cons.mp still
    rw [turns, here, ih later, List.map_cons]

/-- What operators make of nodes, by what the nodes answer when they are evaluated by themselves in turn. -/
structure Composes (e : Evaluator) (token : Token Float) (nodes : List Value) (f : Frame) : Prop where
  conjunction : ∃ b, ((e.alone token (joined .and nodes)).run f).1 = .ok b ∧
    (b = true ↔ ∀ p ∈ e.turns token nodes f, e.Counts token p)
  disjunction : ∃ b, ((e.alone token (joined .or nodes)).run f).1 = .ok b ∧
    (b = true ↔ ∃ p ∈ e.turns token nodes f, e.Counts token p)
  exclusion : ∀ p q, e.turns token nodes f = [p, q] → ∃ b,
    ((e.alone token (joined .xor nodes)).run f).1 = .ok b ∧
      (b = true ↔ (e.Counts token p ↔ ¬ e.Counts token q))
  /-- Nodes that leave the frame as it is are all evaluated in the same one. -/
  still : (∀ node ∈ nodes, ((e.alone token node).run f).2 = f) →
    e.turns token nodes f = nodes.map fun node => (node, f)

/-- Logical operators are compositional: they answer as the nodes below them say when they are evaluated by
themselves. Only null counts as a node that does not match, although by itself it does. -/
theorem operatorsCompose {nodes : List Value} (able : e.Composable token nodes f)
    (live : token.check f.clock = .ok ()) : e.Composes token nodes f where
  conjunction := by
    obtain ⟨b, ran, decides⟩ := @junctionAlone e token f .and false rfl nodes able live
    refine ⟨b, ran, ?_⟩
    rw [← Bool.not_eq_false, decides]
    simp only [Bool.false_eq_true, iff_false, not_exists, not_and, not_not]
  disjunction := by
    obtain ⟨b, ran, decides⟩ := @junctionAlone e token f .or true rfl nodes able live
    refine ⟨b, ran, ?_⟩
    rw [decides]
    simp only [iff_true]
  exclusion := by
    intro p q come
    match nodes with
    | [] => cases come
    | [_] => cases come
    | _ :: _ :: _ :: _ => cases come
    | [left, right] => exact exclusionAlone able live come
  still := turnsStill

end

def mixedNodes : List Value :=
  [joined .xor [.bool true, .bool false],
    .object [("operator", .text "in"), ("left", .text "$\x7bx\x7d"), ("right", .text "$\x7bknown\x7d")], .null]

theorem operatorsComposeMixed :
    { trial with maxDepth := 2 }.Composable (.root 0 none "rule") mixedNodes trialFrame ∧
      ∃ b, (({ trial with maxDepth := 2 }.alone (.root 0 none "rule") (joined .or mixedNodes)).run
        trialFrame).1 = .ok b ∧ (b = true ↔ ∃ p ∈ { trial with maxDepth := 2 }.turns (.root 0 none "rule")
          mixedNodes trialFrame, { trial with maxDepth := 2 }.Counts (.root 0 none "rule") p) := by
  have able : { trial with maxDepth := 2 }.Composable (.root 0 none "rule") mixedNodes trialFrame :=
    ⟨by decide +kernel, by decide +kernel, by decide +kernel⟩
  exact ⟨able, (operatorsCompose able (by decide +kernel)).disjunction⟩

/-- Validation accepts null, and by itself it matches, but a conjunction of it does not. -/
theorem nullBelowFails :
    (∀ node ∈ [Value.null], (Condition.ofValue node).validate trial.operators false = .ok () ∧
      ((Condition.ofValue node).depth : Int) < trial.maxDepth ∧
      ((trial.alone (.root 0 none "rule") node).run trialFrame).1.isOk) ∧
    ¬ (trial.Matches (.root 0 none "rule") (joined .and [.null], trialFrame) ↔
      ∀ node ∈ [Value.null], trial.Matches (.root 0 none "rule") (node, trialFrame)) := by
  unfold Matches
  decide +kernel

end DecisionRules.Evaluator
