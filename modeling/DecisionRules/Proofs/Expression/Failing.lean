import DecisionRules.Expression.Eval
import DecisionRules.Proofs.Outcome

/-! How expressions fail: for a fault of their own, or for something that breaks underneath. -/
namespace DecisionRules

namespace Expression

/-- What is bad has nothing to do with expressions. -/
structure Alien (bad : Failure → Bool) : Prop where
  breach (b : Breach) : bad (.breach b) = false
  fault (fault : ExpressionFault) : bad (.expression fault) = false

variable {bad : Failure → Bool}

theorem checkPowerAvoids (alien : Alien bad) (base : Value) (exponent : Int) :
    Avoids bad (checkPower base exponent) := by
  unfold checkPower
  refine .branch (.bind (.lift alien.breach _) fun _ => .error (alien.fault _)) ?_
  split
  · exact .branch (.error (alien.fault _)) (.ok _)
  · exact .ok _

theorem checkOperandsAvoids (alien : Alien bad) (op : BinaryOp) (left right : Value) :
    Avoids bad (checkOperands op left right) := by
  unfold checkOperands
  split
  · exact checkPowerAvoids alien _ _
  · exact .branch (.error (alien.fault _)) (.ok _)
  · exact .ok _

theorem unsupportedAlien (alien : Alien bad) (op : String) (b : Breach) :
    bad (unsupported op b) = false := by
  unfold unsupported
  split
  · exact alien.fault _
  · exact alien.fault _
  · exact alien.fault _
  · exact alien.breach _

theorem checkResultAvoids (alien : Alien bad) (op : BinaryOp) (v : Value) :
    Avoids bad (checkResult op v) := by
  unfold checkResult
  split
  · exact .branch (.error (alien.fault _)) (.ok _)
  · exact .ok _

theorem applyBinaryAvoids (alien : Alien bad) (op : BinaryOp) (left right : Value) :
    Avoids bad (applyBinary op left right) := by
  unfold applyBinary
  refine .branch ?_ (.bind (checkOperandsAvoids alien op left right) fun _ => ?_)
  · exact .bind (.lift alien.breach _) fun _ => .bind (.lift alien.breach _) fun _ => .ok _
  · split
    · exact checkResultAvoids alien op _
    · exact .error (unsupportedAlien alien _ _)

theorem applyUnaryAvoids (alien : Alien bad) (op : UnaryOp) (v : Value) :
    Avoids bad (applyUnary op v) := by
  unfold applyUnary
  split
  case h_6 => exact .error (alien.fault _)
  all_goals exact .ok _

theorem applyRelationAvoids (alien : Alien bad) (r : Relation) (left right : Value) :
    Avoids bad (applyRelation r left right) := by
  unfold applyRelation
  split
  · exact .ok _
  · exact .error (alien.fault _)

theorem applyMemberAvoids (alien : Alien bad) (left right : Value) :
    Avoids bad (applyMember left right) := by
  have among : Avoids bad (do let b ← left.member right; return .bool b : Outcome Value) :=
    .bind (.lift alien.breach _) fun _ => .ok _
  unfold applyMember
  split
  · exact among
  · exact among
  · exact among
  · exact .error (alien.fault _)

theorem applyCompareAvoids (alien : Alien bad) (op : CompareOp) (left right : Value) :
    Avoids bad (applyCompare op left right) := by
  cases op with
  | eq | strictEq | ne | strictNe => exact .ok _
  | lt | le | gt | ge => exact applyRelationAvoids alien _ left right
  | member => exact applyMemberAvoids alien left right

mutual
theorem interpretAvoids (alien : Alien bad) (expr : Expr) : Avoids bad (interpret expr) := by
  unfold interpret
  cases expr with
  | literal v => exact .ok v
  | list items => exact .bind (interpretAllAvoids alien items) fun _ => .ok _
  | unary op operand => exact .bind (interpretAvoids alien operand) (applyUnaryAvoids alien op)
  | binary op left right =>
    exact .bind (interpretAvoids alien left) fun l =>
      .bind (interpretAvoids alien right) (applyBinaryAvoids alien op l)
  | logical op left right =>
    refine .bind (interpretAvoids alien left) fun l => ?_
    split
    · exact interpretAvoids alien right
    · exact .ok _
    · exact .ok _
    · exact interpretAvoids alien right
  | compare op left right =>
    exact .bind (interpretAvoids alien left) fun l =>
      .bind (interpretAvoids alien right) (applyCompareAvoids alien op l)
theorem interpretAllAvoids (alien : Alien bad) (items : List Expr) : Avoids bad (interpretAll items) := by
  unfold interpretAll
  cases items with
  | nil => exact .ok _
  | cons expr rest =>
    exact .bind (interpretAvoids alien expr) fun _ =>
      .bind (interpretAllAvoids alien rest) fun _ => .ok _
end

theorem holdsAvoids (alien : Alien bad) (source : String) : Avoids bad (holds source) := by
  refine .bind ?_ fun expr => .bind (interpretAvoids alien expr) fun _ => .ok _
  unfold parseSource
  split
  · exact .ok _
  · exact .error (alien.fault _)

end Expression
end DecisionRules
