import DecisionRules.Breach
import DecisionRules.Schema.Issue
import DecisionRules.Text.Quoted

/-!
Everything that can go wrong, by cause. The wording of a cause is in its `text`, and the kind that
reports and events show is in `Failure.kind`. Values inside a cause are already texts.
-/
namespace DecisionRules
open Text (quoted)

inductive ExpressionFault where
  | tooLong
  | unexpectedCharacter (c : Char) (position : Nat)
  | unexpectedToken (found : String) (position : Nat)
  | expected (wanted : String) (position : Nat) (found : String)
  | unknownIdentifier (name : String) (position : Nat)
  | unaryOperand (op : String)
  | membershipOperand
  | incomparable (left right : String)
  | exponentLimit (exponent : String) (limit : Nat)
  | powerTooLarge
  | repetitionTooLong
  | divisionByZero
  | resultTooLarge (op : String)
  | unsupportedOperands (op : String)
  deriving DecidableEq, Repr

def ExpressionFault.text : ExpressionFault → String
  | tooLong => "Expression too long"
  | unexpectedCharacter c position => s!"Unexpected character {quoted c.toString} at {position}"
  | unexpectedToken found position => s!"Unexpected token {quoted found} at {position}"
  | expected wanted position found =>
    s!"Expected {quoted wanted} at {position}, found {quoted found}"
  | unknownIdentifier name position => s!"Unknown identifier {quoted name} at {position}"
  | unaryOperand op => s!"Unary {quoted op} requires a number"
  | membershipOperand => "Right operand of 'in' must be a list, string or object"
  | incomparable left right => s!"Cannot compare {left} and {right}"
  | exponentLimit exponent limit => s!"Exponent {exponent} exceeds the limit of {limit}"
  | powerTooLarge => "Result of '**' is too large"
  | repetitionTooLong => "Result of '*' is too long"
  | divisionByZero => "Division by zero"
  | resultTooLarge op => s!"Result of {quoted op} is too large"
  | unsupportedOperands op => s!"Unsupported operands for {quoted op}"

inductive ConditionFault where
  | expressionsDisabled
  | missingOperator
  | unknownOperator (op : String)
  | childrenExpected (op : String)
  | pairExpected
  | twoConditionsExpected
  | listExpected (op : String)
  | patternExpected
  | invalidPattern (source : String)
  | unknownFunction (name : String)
  | argumentsExpected (name : String)
  | fieldExpected
  | unsupportedNode (type : String)
  | invalidExpression (source : String) (fault : ExpressionFault)
  deriving DecidableEq, Repr

def ConditionFault.text : ConditionFault → String
  | expressionsDisabled =>
    "String expressions are disabled; set allow_unsafe_expressions to enable them"
  | missingOperator => "Condition node is missing an operator"
  | unknownOperator op => s!"Unknown operator: {op}"
  | childrenExpected op => s!"Operator {quoted op} expects a list of conditions"
  | pairExpected => "Operator 'between' expects a [min, max] pair"
  | twoConditionsExpected => "Operator 'xor' expects exactly two conditions"
  | listExpected op => s!"Operator {quoted op} expects a list on the right-hand side"
  | patternExpected => "Operator 'matches' expects a pattern string"
  | invalidPattern source => s!"Invalid regular expression {quoted source}"
  | unknownFunction name => s!"Unknown function: {name}"
  | argumentsExpected name => s!"Function {quoted name} expects a list of args"
  | fieldExpected => "Operator 'exists' expects a field name"
  | unsupportedNode type => s!"Unsupported condition node: {type}"
  | invalidExpression source fault => s!"Invalid expression {quoted source}: {fault.text}"

inductive OperatorFault where
  | functionNotCallable (name : String)
  | operatorNotCallable (name : String)
  | builtinOperator (name : String)
  deriving DecidableEq, Repr

def OperatorFault.text : OperatorFault → String
  | functionNotCallable name => s!"Custom function {quoted name} must be a named callable"
  | operatorNotCallable name => s!"Custom operator {quoted name} must be a named callable"
  | builtinOperator name => s!"Cannot override built-in operator: {name}"

inductive ActionFault where
  | tooMany (count : Nat) (limit : Int)
  | invalid (position : Nat) (report : Schema.Report)
  | unknownLevel (level : String)
  | nameRequired
  | unknownOperation (operation : String)
  | unknownScope (scope : String)
  | urlRequired
  | workflowRequired
  | functionRequired
  | readOnly (name : String)
  | notNumeric (name : String)
  | noTransport
  deriving DecidableEq, Repr

def ActionFault.text : ActionFault → String
  | tooMany count limit => s!"Too many actions: {count} > {limit}"
  | invalid position report => s!"Invalid action at position {position}: {report.text}"
  | unknownLevel level => s!"Unknown log level: {level}"
  | nameRequired => "Variable action requires a name"
  | unknownOperation operation => s!"Unknown variable operation: {operation}"
  | unknownScope scope => s!"Unknown variable scope: {scope}"
  | urlRequired => "Webhook action requires a url"
  | workflowRequired => "Workflow action requires a workflow_id"
  | functionRequired => "Custom action requires a function or registered function name"
  | readOnly name => s!"Variable is read-only: {name}"
  | notNumeric name => s!"Cannot increment non-numeric variable: {name}"
  | noTransport => "No webhook transport configured"

inductive RegistryFault where
  | ruleExists (id : String)
  | rulesExhausted (limit : Int)
  | groupNameRequired
  | groupExists (name : String)
  /-- The name is shown as a literal. -/
  | invalidGroup (shown : String) (report : Schema.Report)
  | groupFull (name : String)
  | invalidRule (report : Schema.Report)
  | timeoutNotPositive
  | invalidFilter (report : Schema.Report)
  | invalidOptions (report : Schema.Report)
  deriving DecidableEq, Repr

def RegistryFault.text : RegistryFault → String
  | ruleExists id => s!"Rule already exists: {id}"
  | rulesExhausted limit => s!"Maximum number of rules reached: {limit}"
  | groupNameRequired => "Group name is required"
  | groupExists name => s!"Group already exists: {name}"
  | invalidGroup shown report => s!"Invalid group {shown}: {report.text}"
  | groupFull name => s!"Group {name} has reached maximum rules limit"
  | invalidRule report => s!"Invalid rule definition: {report.text}"
  | timeoutNotPositive => "Rule timeout_s must be positive"
  | invalidFilter report => s!"Invalid rule filter: {report.text}"
  | invalidOptions report => s!"Invalid evaluation options: {report.text}"

inductive SettingsFault where
  | mappingExpected
  | invalid (report : Schema.Report)
  deriving DecidableEq, Repr

def SettingsFault.text : SettingsFault → String
  | mappingExpected => "Settings file must contain a mapping"
  | invalid report => s!"Invalid rule engine settings: {report.text}"

inductive NetworkFault where
  | deadlineExceeded (url : String)
  | exhausted (url error : String)
  | failed (url error : String)
  | noAttempt (url : String)
  deriving DecidableEq, Repr

def NetworkFault.text : NetworkFault → String
  | deadlineExceeded url => s!"HTTP request deadline exceeded for {url}"
  | exhausted url error => s!"HTTP request failed after retries for {url}: {error}"
  | failed url error => s!"HTTP request error for {url}: {error}"
  | noAttempt url => s!"HTTP request failed for {url}: None"

inductive Failure where
  | breach (b : Breach)
  | expression (fault : ExpressionFault)
  | condition (fault : ConditionFault)
  | operator (fault : OperatorFault)
  | action (fault : ActionFault)
  | registry (fault : RegistryFault)
  | settings (fault : SettingsFault)
  | depthExceeded (depth : Nat) (limit : Int)
  /-- The deadline had passed before the work began. -/
  | timedOut (reason : String)
  /-- The work did not end within its time limit. -/
  | overran (reason : String)
  | cancelled (reason : String)
  | notFound (what id : String)
  | network (fault : NetworkFault)
  | status (code : Int) (url : String)
  | validation (report : Schema.Report)
  /-- Raised by a host callable or a transport, with a kind and a text of its own. -/
  | raised (kind text : String)
  deriving DecidableEq, Repr

namespace Failure

def configurationKind : String := "ConfigurationError"

def kind : Failure → String
  | breach b => b.kind
  | expression _ => "ExpressionError"
  | condition _ | operator _ | action _ | registry _ | settings _ => configurationKind
  | depthExceeded _ _ => "DepthExceededError"
  | timedOut _ | overran _ => "EvaluationTimeoutError"
  | cancelled _ => "CancelledError"
  | notFound _ _ => "NotFoundError"
  | network _ => "WebhookNetworkError"
  | status _ _ => "WebhookStatusError"
  | validation _ => "ValidationError"
  | raised kind _ => kind

def text? : Failure → Option String
  | breach _ => none
  | expression fault => some fault.text
  | condition fault => some fault.text
  | operator fault => some fault.text
  | action fault => some fault.text
  | registry fault => some fault.text
  | settings fault => some fault.text
  | depthExceeded depth limit => some s!"Maximum condition depth exceeded: {depth} > {limit}"
  | timedOut reason => some s!"{reason} timed out"
  | overran reason => some s!"{reason} exceeded its time limit"
  | cancelled reason => some s!"{reason} cancelled"
  | notFound what id => some s!"{what} not found: {id}"
  | network fault => some fault.text
  | status code url => some s!"HTTP status {code} for {url}"
  | validation report => some report.text
  | raised _ text => some text

end Failure

abbrev Outcome (α : Type) := Except Failure α

def Outcome.ofBreach {α : Type} : Except Breach α → Outcome α
  | .ok a => .ok a
  | .error b => .error (.breach b)

instance : MonadLift (Except Breach) (Except Failure) where
  monadLift := Outcome.ofBreach

end DecisionRules
