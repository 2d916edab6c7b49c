import DecisionRules.Condition
import DecisionRules.Expression.Parser
import DecisionRules.Pattern.Reader
import DecisionRules.Template
import DecisionRules.Value.Display

/-!
Validation of condition trees before a rule is stored: the shape of every node, but not the depth of
the tree. An operand that is one reference is not looked into.
-/
namespace DecisionRules

def isReference : Value → Bool
  | .text s => (Segment.whole? s.toList).isSome
  | _ => false

/-- An expression text with the word null in place of every reference. -/
def withoutReferences (source : String) : String :=
  String.ofList ((Segment.cut source.toList).flatMap fun
    | .plain c => [c]
    | .reference _ => ['n', 'u', 'l', 'l'])

def isPair : Value → Bool
  | .list [_, _] => true
  | _ => false

def compilePattern (source : String) (ignoreCase : Bool) : Outcome Pattern.Node :=
  match Pattern.read source ignoreCase with
  | .ok node => .ok node
  | .error .malformed => .error (.condition (.invalidPattern source))
  | .error .countTooLarge => .error (.breach .overflow)
  | .error .flagsConflict => .error (.breach .badValue)

namespace Condition

def check (ok : Bool) (fault : ConditionFault) : Outcome Unit :=
  if ok then .ok () else .error (.condition fault)

def validateExpression (unsafeAllowed : Bool) (source : String) : Outcome Unit :=
  if !unsafeAllowed then .error (.condition .expressionsDisabled)
  else match Expression.parse (withoutReferences source) with
    | .ok _ => .ok ()
    | .error fault => .error (.condition (.invalidExpression source fault))

def validatePattern (pattern : Value) : Outcome Unit :=
  match pattern with
  | .text source => if isReference pattern then .ok () else (compilePattern source false).map fun _ => ()
  | .pattern .. => .ok ()
  | _ => .error (.condition .patternExpected)

def validateField : Value → Outcome Unit
  | .text s => check (!s.isEmpty) .fieldExpected
  | _ => .error (.condition .fieldExpected)

def unknownFunction (name : Value) : Failure :=
  match name.display with
  | .ok shown => .condition (.unknownFunction shown)
  | .error b => .breach b

def validateFunction (ops : Operators) (name : Value) (args : Option Value) : Outcome Unit :=
  match name with
  | .text s =>
    if !ops.hasFunction s then .error (.condition (.unknownFunction s))
    else match args with
      | none | some (.list _) => .ok ()
      | some _ => .error (.condition (.argumentsExpected s))
  | v => .error (unknownFunction v)

mutual
def validate (ops : Operators) (unsafeAllowed : Bool) : Condition → Outcome Unit
  | literal _ => .ok ()
  | inert .null => .ok ()
  | inert v => .error (.condition (.unsupportedNode v.typeName))
  | expression source => validateExpression unsafeAllowed source
  | headless => .error (.condition .missingOperator)
  | childless op => .error (.condition (.childrenExpected op))
  | logical op children =>
    if op == .xor && children.length != 2 then .error (.condition .twoConditionsExpected)
    else validateAll ops unsafeAllowed children
  | not none => .ok ()
  | not (some child) => validate ops unsafeAllowed child
  | inclusion negated _ right =>
    check (isReference right || right.list?.isSome) (.listExpected (Operator.inclusion negated).name)
  | between _ range => check (isReference range || isPair range) .pairExpected
  | matching _ pattern => validatePattern pattern
  | existence field => validateField field
  | function name args => validateFunction ops name args
  | comparison .. => .ok ()
  | text .. => .ok ()
  | custom op _ => check (ops.isKnownOperator op) (.unknownOperator op)
def validateAll (ops : Operators) (unsafeAllowed : Bool) : List Condition → Outcome Unit
  | [] => .ok ()
  | c :: rest => do
    validate ops unsafeAllowed c
    validateAll ops unsafeAllowed rest
end

end Condition
end DecisionRules
