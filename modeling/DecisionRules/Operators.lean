import DecisionRules.Failure
import DecisionRules.Sort
import DecisionRules.Value

/-!
Operators and functions that conditions may name: those that are built in, and those that the host
registers. A built-in operator cannot be replaced; a built-in function hides a registered one.
-/
namespace DecisionRules

inductive LogicalOperator where
  | and
  | or
  | xor
  deriving DecidableEq, Repr

inductive ComparisonOperator where
  | eq
  | ne
  | gt
  | gte
  | lt
  | lte
  deriving DecidableEq, Repr

inductive TextOperator where
  | contains
  | startsWith
  | endsWith
  deriving DecidableEq, Repr

def LogicalOperator.name : LogicalOperator → String
  | and => "and"
  | or => "or"
  | xor => "xor"

def ComparisonOperator.name : ComparisonOperator → String
  | eq => "eq"
  | ne => "ne"
  | gt => "gt"
  | gte => "gte"
  | lt => "lt"
  | lte => "lte"

def TextOperator.name : TextOperator → String
  | contains => "contains"
  | startsWith => "startsWith"
  | endsWith => "endsWith"

inductive Operator where
  | logical (op : LogicalOperator)
  | not
  | comparison (op : ComparisonOperator)
  | inclusion (negated : Bool)
  | text (op : TextOperator)
  | matching
  | between
  | existence
  | function
  deriving DecidableEq, Repr

def Operator.name : Operator → String
  | logical op => op.name
  | not => "not"
  | comparison op => op.name
  | inclusion negated => if negated then "nin" else "in"
  | text op => op.name
  | matching => "matches"
  | between => "between"
  | existence => "exists"
  | function => "function"

def Operator.all : List Operator :=
  [.logical .and, .logical .or, .logical .xor, .not, .comparison .eq, .comparison .ne,
    .comparison .gt, .comparison .gte, .comparison .lt, .comparison .lte, .inclusion false,
    .inclusion true, .text .contains, .text .startsWith, .text .endsWith, .matching, .between,
    .existence, .function]

def Operator.ofName? (name : String) : Option Operator :=
  Operator.all.find? fun op => op.name == name

def builtinFunctionNames : List String :=
  ["abs", "ceil", "floor", "round", "max", "min", "length", "upper", "lower", "trim", "size",
    "includes", "now", "today", "isString", "isNumber", "isBoolean", "isArray", "isObject", "isNull",
    "isUndefined"]

structure Operators where
  builtins : Bool
  functions : Assoc String
  operators : Assoc String
  deriving DecidableEq, Repr

namespace Operators

def ofBuiltins (builtins : Bool) : Operators := ⟨builtins, [], []⟩

def callable? : Value → Option String
  | .callable name => some name
  | _ => none

def registerFunction (o : Operators) (name : String) (fn : Value) : Except OperatorFault Operators :=
  match callable? fn with
  | none => .error (.functionNotCallable name)
  | some f =>
    if name.isEmpty then .error (.functionNotCallable name)
    else .ok { o with functions := Assoc.set o.functions name f }

def registerOperator (o : Operators) (name : String) (fn : Value) : Except OperatorFault Operators :=
  match callable? fn with
  | none => .error (.operatorNotCallable name)
  | some f =>
    if name.isEmpty then .error (.operatorNotCallable name)
    else if (Operator.ofName? name).isSome then .error (.builtinOperator name)
    else .ok { o with operators := Assoc.set o.operators name f }

def unregisterFunction (o : Operators) (name : String) : Operators :=
  { o with functions := Assoc.erase o.functions name }

def unregisterOperator (o : Operators) (name : String) : Operators :=
  { o with operators := Assoc.erase o.operators name }

def hasBuiltin (o : Operators) (name : String) : Bool :=
  o.builtins && builtinFunctionNames.contains name

def function? (o : Operators) (name : String) : Option String := Assoc.get? o.functions name

def operator? (o : Operators) (name : String) : Option String := Assoc.get? o.operators name

def hasFunction (o : Operators) (name : String) : Bool := o.hasBuiltin name || (o.function? name).isSome

def isKnownOperator (o : Operators) (name : String) : Bool :=
  (Operator.ofName? name).isSome || (o.operator? name).isSome

def sortedNames (names : List String) : List String :=
  sortBy (fun a b => decide (a ≤ b)) names.eraseDups

def functionNames (o : Operators) : List String :=
  sortedNames ((if o.builtins then builtinFunctionNames else []) ++ Assoc.keys o.functions)

def operatorNames (o : Operators) : List String :=
  sortedNames (Operator.all.map Operator.name ++ Assoc.keys o.operators)

end Operators
end DecisionRules
