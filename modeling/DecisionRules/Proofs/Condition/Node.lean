import DecisionRules.Proofs.Run

/-! Nodes built over other nodes, what they decode to, and the step that every node begins with. As long as
there is room below it, a node answers alike wherever it stands. -/
namespace DecisionRules

namespace Condition

def joined (op : LogicalOperator) (nodes : List Value) : Value :=
  .object [("operator", .text op.name), ("conditions", .list nodes)]

def negated (node : Value) : Value :=
  .object [("operator", .text Operator.not.name), ("condition", node)]

theorem joinedPresent (op : LogicalOperator) (nodes : List Value) : joined op nodes ≠ .null := nofun

theorem ofItemsMap (nodes : List Value) : ofItems nodes = nodes.map ofValue := by
  induction nodes with
  | nil => rfl
  | cons node rest ih => rw [ofItems, ih, List.map_cons]

theorem joinedTree (op : LogicalOperator) (nodes : List Value) :
    ofValue (joined op nodes) = logical op (nodes.map ofValue) := by
  have known : Operator.ofName? op.name = some (.logical op) := by cases op <;> rfl
  have named : op.name.isEmpty = false := by cases op <;> rfl
  rw [← ofItemsMap]
  simp [joined, ofValue, ofNode, ofFields, Assoc.get?, named, known, ofOperator, children?]

/-- An object is never taken for the absent tree. -/
theorem ofNodePresent (node : Fields) (views : Assoc View) : ofNode node views ≠ inert .null := by
  unfold ofNode
  split
  · split
    · simp
    · split
      · rename_i op _
        cases op with
        | logical op =>
          simp only [ofOperator]
          split <;> simp
        | not =>
          simp only [ofOperator, negation]
          split
          · simp
          · simp
          · split <;> simp
        | _ => simp [ofOperator]
      · simp
  · simp

theorem ofValueAbsent {node : Value} : ofValue node = inert .null ↔ node = .null := by
  cases node with
  | object fields => simpa [ofValue] using ofNodePresent fields (ofFields fields)
  | _ => simp [ofValue]

theorem presentTree {node : Value} (there : node ≠ .null) :
    present (ofValue node) = some (ofValue node) := by
  unfold present
  split
  · rename_i absent
    exact absurd (ofValueAbsent.mp absent) there
  · rfl

theorem negatedTree {node : Value} (there : node ≠ .null) :
    ofValue (negated node) = not (some (ofValue node)) := by
  cases node with
  | list items => rfl
  | _ =>
    rw [← presentTree there]
    rfl

end Condition

/-- The answer that decides for an operator, if one alone can. -/
def LogicalOperator.stop? : LogicalOperator → Option Bool
  | and => some false
  | or => some true
  | xor => none

@[simp] theorem Trace.logicalValue (op : String) (b : Bool) (details : List Trace) :
    (Trace.logical op b details).value = b := rfl

namespace Evaluator

/-- What a node answers, without the explanation. -/
def answer (e : Evaluator) (token : Token Float) (depth : Nat) (c : Condition) : Run Frame Bool := do
  return (← e.evaluateNode token depth c).value

def decided (stop : Bool) (details : List Trace) : Bool := details.any fun t => t.value == stop

theorem allDecided (details : List Trace) : details.all Trace.value = (decided false details == false) := by
  induction details with
  | nil => rfl
  | cons t rest ih =>
    simp only [decided, List.all_cons, List.any_cons] at ih ⊢
    rw [ih]
    cases t.value <;> rfl

theorem anyDecided (details : List Trace) : details.any Trace.value = (decided true details == true) := by
  simp [decided]

variable {e : Evaluator} {token : Token Float}

/-- Within the limit on depth, a node begins with no more than a look at the clock. -/
theorem enterRoomy {depth : Nat} (room : (depth : Int) ≤ e.maxDepth) :
    e.enter token depth = get >>= fun f : Frame => outcome (token.check f.clock) := by
  unfold enter
  rw [if_neg (by omega)]

theorem enterLive {depth : Nat} (room : (depth : Int) ≤ e.maxDepth) {f : Frame}
    (live : token.check f.clock = .ok ()) : (e.enter token depth).run f = (.ok (), f) := by
  rw [enterRoomy room, Run.runBind, Run.runGet]
  dsimp only
  rw [Run.runOutcome, live]

theorem enterDeep (depth : Nat) (deep : e.maxDepth < depth) :
    e.enter token depth = throw (.depthExceeded depth e.maxDepth) := by
  unfold enter
  rw [if_pos (by omega)]
  rfl

/-- A conjunction and a disjunction differ in the answer that decides. -/
theorem junctionNode {op : LogicalOperator} {stop : Bool} (stops : op.stop? = some stop) (depth : Nat)
    (cs : List Condition) : e.evaluateNode token depth (.logical op cs) = (do
      e.enter token depth
      let details ← e.evaluateUntil token (depth + 1) stop cs
      return .logical op.name (decided stop details == stop) details) := by
  cases op with
  | and =>
    cases stops
    rw [evaluateNode]
    simp only [allDecided]
  | or =>
    cases stops
    rw [evaluateNode]
    simp only [anyDecided]
  | xor => cases stops

mutual
theorem nodeShifts (c : Condition) (depth depth' : Nat) (room : ((depth + c.depth : Nat) : Int) ≤ e.maxDepth)
    (room' : ((depth' + c.depth : Nat) : Int) ≤ e.maxDepth) :
    e.evaluateNode token depth c = e.evaluateNode token depth' c := by
  rw [evaluateNode.eq_def e token depth, evaluateNode.eq_def e token depth', enterRoomy (by omega),
    enterRoomy (by omega)]
  cases c with
  | logical op children =>
    unfold Condition.depth at room room'
    cases op with
    | and => simp only [untilShifts false children depth depth' room room']
    | or => simp only [untilShifts true children depth depth' room room']
    | xor =>
      match children, room, room' with
      | [], _, _ => rfl
      | [_], _, _ => rfl
      | _ :: _ :: _ :: _, _, _ => rfl
      | [left, right], room, room' =>
        simp only [Condition.depthBelow] at room room'
        simp only [nodeShifts left (depth + 1) (depth' + 1) (by omega) (by omega),
          nodeShifts right (depth + 1) (depth' + 1) (by omega) (by omega)]
  | not child => cases child with
    | none => rfl
    | some child =>
      simp only [Condition.depth] at room room'
      simp only [nodeShifts child (depth + 1) (depth' + 1) (by omega) (by omega)]
  | _ => rfl
theorem untilShifts (stop : Bool) (cs : List Condition) (depth depth' : Nat)
    (room : ((depth + Condition.depthBelow cs : Nat) : Int) ≤ e.maxDepth)
    (room' : ((depth' + Condition.depthBelow cs : Nat) : Int) ≤ e.maxDepth) :
    e.evaluateUntil token (depth + 1) stop cs = e.evaluateUntil token (depth' + 1) stop cs := by
  rw [evaluateUntil.eq_def, evaluateUntil.eq_def e token (depth' + 1)]
  cases cs with
  | nil => rfl
  | cons c rest =>
    simp only [Condition.depthBelow] at room room'
    simp only [nodeShifts c (depth + 1) (depth' + 1) (by omega) (by omega),
      untilShifts stop rest depth depth' (by omega) (by omega)]
end

end Evaluator
end DecisionRules
