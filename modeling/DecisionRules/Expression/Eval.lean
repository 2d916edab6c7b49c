import DecisionRules.Expression.Parser
import DecisionRules.Text.Json
import DecisionRules.Value.Arithmetic
import DecisionRules.Value.Member

/-!
Meaning of expressions. Logic is by truth and yields an operand, equality is strict, and a sum with a
text joins texts. Arithmetic is refused before it is done when its result could be huge, and
afterwards when an integer has too many bits.
-/
namespace DecisionRules.Expression

def maxExponent : Nat := 1024
def maxBits : Nat := 16384
def maxSequence : Nat := 100000

def bitLength (n : Int) : Nat := if n == 0 then 0 else n.natAbs.log2 + 1

def unsupported (op : String) : Breach → Failure
  | .divisionByZero => .expression .divisionByZero
  | .overflow => .expression (.resultTooLarge op)
  | .wrongType => .expression (.unsupportedOperands op)
  | b => .breach b

def checkPower (base : Value) (exponent : Int) : Outcome Unit :=
  if exponent.natAbs > maxExponent then do
    let shown ← intText exponent
    throw (.expression (.exponentLimit shown maxExponent))
  else match base with
    | .int n =>
      if exponent > 0 && bitLength n * exponent.toNat > maxBits then
        throw (.expression .powerTooLarge)
      else pure ()
    | _ => pure ()

def sequenceLength? : Value → Option Nat
  | .text s => some s.length
  | .list items => some items.length
  | _ => none

def repeatsTooMuch (sequence count : Value) : Bool :=
  match sequenceLength? sequence, count with
  | some n, .int k => (n : Int) * k > maxSequence
  | _, _ => false

def checkOperands (op : BinaryOp) (left right : Value) : Outcome Unit :=
  match op, right with
  | .pow, .int exponent => checkPower left exponent
  | .mul, _ =>
    if repeatsTooMuch left right || repeatsTooMuch right left then
      throw (.expression .repetitionTooLong)
    else pure ()
  | _, _ => pure ()

def compute : BinaryOp → Value → Value → Except Breach Value
  | .add => Value.add
  | .sub => Value.sub
  | .mul => Value.mul
  | .div => Value.div
  | .mod => Value.mod
  | .pow => Value.pow

def checkResult (op : BinaryOp) (v : Value) : Outcome Value :=
  match v with
  | .int n =>
    if bitLength n > maxBits then throw (.expression (.resultTooLarge op.symbol)) else pure v
  | _ => pure v

def isText : Value → Bool
  | .text _ => true
  | _ => false

def applyBinary (op : BinaryOp) (left right : Value) : Outcome Value :=
  if op == .add && (isText left || isText right) then do
    let s ← left.stringify
    let t ← right.stringify
    return .text (s ++ t)
  else do
    checkOperands op left right
    match compute op left right with
    | .ok v => checkResult op v
    | .error b => throw (unsupported op.symbol b)

def applyUnary (op : UnaryOp) (v : Value) : Outcome Value :=
  match op, v with
  | .not, v => pure (.bool !v.truthy)
  | .neg, .int n => pure (.int (-n))
  | .neg, .float x => pure (.float (-x))
  | .pos, .int n => pure (.int n)
  | .pos, .float x => pure (.float x)
  | op, _ => throw (.expression (.unaryOperand op.symbol))

def applyRelation (r : Relation) (left right : Value) : Outcome Value :=
  match left.relate r right with
  | .ok b => pure (.bool b)
  | .error _ => throw (.expression (.incomparable left.typeName right.typeName))

def applyMember (left right : Value) : Outcome Value :=
  match right with
  | .list _ | .text _ | .object _ => do
    let b ← left.member right
    return .bool b
  | _ => throw (.expression .membershipOperand)

def applyCompare (op : CompareOp) (left right : Value) : Outcome Value :=
  match op with
  | .eq | .strictEq => pure (.bool (left.strictEquals right))
  | .ne | .strictNe => pure (.bool !(left.strictEquals right))
  | .lt => applyRelation .lt left right
  | .le => applyRelation .le left right
  | .gt => applyRelation .gt left right
  | .ge => applyRelation .ge left right
  | .member => applyMember left right

mutual
def interpret : Expr → Outcome Value
  | .literal v => pure v
  | .list items => do return .list (← interpretAll items)
  | .unary op operand => do applyUnary op (← interpret operand)
  | .binary op left right => do
    let l ← interpret left
    let r ← interpret right
    applyBinary op l r
  | .logical op left right => do
    let l ← interpret left
    match op, l.truthy with
    | .and, true => interpret right
    | .and, false => pure l
    | .or, true => pure l
    | .or, false => interpret right
  | .compare op left right => do
    let l ← interpret left
    let r ← interpret right
    applyCompare op l r
def interpretAll : List Expr → Outcome (List Value)
  | [] => pure []
  | e :: rest => do
    let v ← interpret e
    let vs ← interpretAll rest
    return v :: vs
end

def parseSource (source : String) : Outcome Expr :=
  match parse source with
  | .ok e => .ok e
  | .error fault => .error (.expression fault)

def holds (source : String) : Outcome Bool := do
  let e ← parseSource source
  let v ← interpret e
  return v.truthy

end DecisionRules.Expression
