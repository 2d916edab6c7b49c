import DecisionRules.Condition.Trace
import DecisionRules.Condition.Validate
import DecisionRules.Deadline.Token
import DecisionRules.Expression.Eval
import DecisionRules.Host
import DecisionRules.Operators.Builtin
import DecisionRules.Pattern.Search
import DecisionRules.Scope.Resolve
import DecisionRules.Value.Entries

/-!
Evaluation of condition trees against a scope. Every node first checks the depth and the token.
Conjunction and disjunction stop at the first child that decides them; the built-in functions run at
once, host functions and operators under a time limit of their own.
-/
namespace DecisionRules

/-- Work on a frame that may fail; what was done before a failure stays done. -/
abbrev Run (σ : Type) := ExceptT Failure (StateM σ)

structure Evaluator where
  host : Host
  operators : Operators
  maxDepth : Int
  functionTimeout : Float
  unsafeAllowed : Bool

def orderingOf : ComparisonOperator → Option Relation
  | .gt => some .gt
  | .gte => some .ge
  | .lt => some .lt
  | .lte => some .le
  | .eq | .ne => none

/-- An ordering that does not hold between what has no order, nor between a boolean and anything
else. -/
def ordered (r : Relation) (left right : Value) : Bool :=
  if left.isBool != right.isBool then false
  else match left.relate r right with
    | .ok b => b
    | .error _ => false

def ComparisonOperator.holds (op : ComparisonOperator) (left right : Value) : Bool :=
  match op with
  | .eq => left.strictEquals right
  | .ne => !left.strictEquals right
  | .gt => ordered .gt left right
  | .gte => ordered .ge left right
  | .lt => ordered .lt left right
  | .lte => ordered .le left right

def TextOperator.holds (op : TextOperator) (left right : String) : Bool :=
  match op with
  | .contains => Text.occurs right.toList left.toList
  | .startsWith => Text.beginsWith left.toList right.toList
  | .endsWith => Text.endsWith left.toList right.toList

def inRange (v low high : Value) : Bool := ordered .ge v low && ordered .le v high

namespace Evaluator

def basic {σ α : Type} (r : Except Breach α) : Run σ α :=
  match r with
  | .ok a => pure a
  | .error b => throw (.breach b)

def outcome {σ α : Type} (r : Outcome α) : Run σ α :=
  match r with
  | .ok a => pure a
  | .error f => throw f

def resolved (v : Value) : Run Frame Value := do
  let f ← get
  basic (f.scope.resolve v)

def resolvedText (v : Value) : Run Frame String := do
  basic (← resolved v).stringify

def callHost (host : Host) (name : String) (args : List Argument) (token : Token Float) :
    Run Frame Value := do
  let f ← get
  outcome (token.check f.clock)
  let (reply, after) := host.call name args f
  set after
  match reply with
  | .answered v => pure v
  | .failed failure => throw failure
  | .stalled => throw (.overran token.reason)

def evaluateExpression (e : Evaluator) (source : String) : Run Frame Trace := do
  if !e.unsafeAllowed then throw (.condition .expressionsDisabled)
  let f ← get
  let text ← basic (f.scope.substituteLiterals source)
  let b ← outcome (Expression.holds text)
  return .expression text b

def evaluateInclusion (negated : Bool) (left right : Value) : Run Frame Trace := do
  let l ← resolved left
  let r ← resolved right
  match r with
  | .list items => return .inclusion negated l r (Value.hasStrictlyEqual items l != negated)
  | _ => throw (.condition (.listExpected (Operator.inclusion negated).name))

def patternOf (operand : Value) : Run Frame (String × Pattern.Node) := do
  let v ← match operand with
    | .text _ => resolved operand
    | v => pure v
  match v with
  | .text source => return (source, ← outcome (compilePattern source false))
  | .pattern source ignoreCase => return (source, ← outcome (compilePattern source ignoreCase))
  | _ => throw (.condition .patternExpected)

def evaluateBetween (value range : Value) : Run Frame Trace := do
  let v ← resolved value
  let bounds ← resolved range
  match bounds with
  | .list [low, high] => return .range v bounds (inRange v low high)
  | _ => throw (.condition .pairExpected)

def evaluateExistence (field : Value) : Run Frame Trace := do
  match field with
  | .text name =>
    let f ← get
    let found ← basic (f.scope.lookup name)
    return .existence (some name) found.isSome
  | .null => return .existence none false
  | _ => throw (.validation ⟨"ConditionTrace", [⟨["field"], .stringType⟩]⟩)

def evaluateFunction (e : Evaluator) (name : Value) (args : Option Value) (token : Token Float) :
    Run Frame Trace := do
  let items ← basic (Value.ofOption args).partsOrNone
  let f ← get
  let values ← basic (resolveItems f.scope.lookup items)
  match name with
  | .text s =>
    let builtin := if e.operators.builtins then
      Operators.builtin? e.host.now e.host.today s values else none
    match builtin with
    | some r => return .function s values (← basic r)
    | none =>
      match e.operators.function? s with
      | some fn =>
        let limit := token.child f.clock (some e.functionTimeout) ("function " ++ s)
        return .function s values (← callHost e.host fn (values.map Argument.value) limit)
      | none => throw (.condition (.unknownFunction s))
  | v => throw (Condition.unknownFunction v)

def evaluateCustom (e : Evaluator) (op : String) (node : Fields) (token : Token Float) :
    Run Frame Trace := do
  match e.operators.operator? op with
  | none => throw (.condition (.unknownOperator op))
  | some fn =>
    let f ← get
    let limit := token.child f.clock (some e.functionTimeout) ("operator " ++ op)
    return .custom op (← callHost e.host fn [.value (.object node), .scope] limit)

def enter (e : Evaluator) (token : Token Float) (depth : Nat) : Run Frame Unit := do
  if (depth : Int) > e.maxDepth then throw (.depthExceeded depth e.maxDepth)
  outcome (token.check (← get).clock)

mutual
def evaluateNode (e : Evaluator) (token : Token Float) (depth : Nat) (c : Condition) :
    Run Frame Trace := do
  e.enter token depth
  match c with
  | .literal b => return .literal b
  | .expression source => e.evaluateExpression source
  | .inert v => return .unknown v
  | .headless => throw (.condition .missingOperator)
  | .childless op => throw (.condition (.childrenExpected op))
  | .logical .and children => do
    let details ← evaluateUntil e token (depth + 1) false children
    return .logical LogicalOperator.and.name (details.all Trace.value) details
  | .logical .or children => do
    let details ← evaluateUntil e token (depth + 1) true children
    return .logical LogicalOperator.or.name (details.any Trace.value) details
  | .logical .xor [left, right] => do
    let l ← evaluateNode e token (depth + 1) left
    let r ← evaluateNode e token (depth + 1) right
    return .logical LogicalOperator.xor.name (l.value != r.value) [l, r]
  | .logical .xor _ => throw (.condition .twoConditionsExpected)
  | .not none => return .logical Operator.not.name true []
  | .not (some child) => do
    let t ← evaluateNode e token (depth + 1) child
    return .logical Operator.not.name (!t.value) [t]
  | .comparison op left right => do
    let l ← resolved left
    let r ← resolved right
    return .comparison op l r (op.holds l r)
  | .inclusion negated left right => evaluateInclusion negated left right
  | .text op left right => do
    let l ← resolvedText left
    let r ← resolvedText right
    return .text op l r (op.holds l r)
  | .matching left pattern => do
    let l ← resolvedText left
    let (source, node) ← patternOf pattern
    return .regex l source (node.occursIn l)
  | .between value range => evaluateBetween value range
  | .existence field => evaluateExistence field
  | .function name args => e.evaluateFunction name args token
  | .custom op node => e.evaluateCustom op node token
def evaluateUntil (e : Evaluator) (token : Token Float) (depth : Nat) (stop : Bool) :
    List Condition → Run Frame (List Trace)
  | [] => return []
  | c :: rest => do
    let t ← evaluateNode e token depth c
    if t.value == stop then return [t]
    else return t :: (← evaluateUntil e token depth stop rest)
end

def evaluate (e : Evaluator) (tree : Condition) (token : Token Float) : Run Frame (Bool × Option Trace) :=
  match tree with
  | .inert .null => return (true, none)
  | tree => do
    let t ← e.evaluateNode token 0 tree
    return (t.value, some t)

end Evaluator
end DecisionRules
