/-!
What a schema finds wrong with a value: where, and which rule is broken. A report names the model
and lists its issues in the order of the fields.
-/
namespace DecisionRules.Schema

inductive IssueKind where
  | missing
  | stringType
  | intType
  | intParsing
  | intParsingSize
  | intFromFloat
  | finiteNumber
  | floatType
  | floatParsing
  | boolType
  | boolParsing
  | literalError
  | listType
  | dictType
  | modelType
  | greaterThanEqual
  | valueError
  deriving DecidableEq, Repr

def IssueKind.code : IssueKind → String
  | missing => "missing"
  | stringType => "string_type"
  | intType => "int_type"
  | intParsing => "int_parsing"
  | intParsingSize => "int_parsing_size"
  | intFromFloat => "int_from_float"
  | finiteNumber => "finite_number"
  | floatType => "float_type"
  | floatParsing => "float_parsing"
  | boolType => "bool_type"
  | boolParsing => "bool_parsing"
  | literalError => "literal_error"
  | listType => "list_type"
  | dictType => "dict_type"
  | modelType => "model_type"
  | greaterThanEqual => "greater_than_equal"
  | valueError => "value_error"

structure Issue where
  path : List String
  kind : IssueKind
  deriving DecidableEq, Repr

def Issue.under (step : String) (i : Issue) : Issue := { i with path := step :: i.path }

def Issue.text (i : Issue) : String :=
  (if i.path.isEmpty then "$" else ".".intercalate i.path) ++ "=" ++ i.kind.code

structure Report where
  model : String
  issues : List Issue
  deriving DecidableEq, Repr

def Report.text (r : Report) : String :=
  "[" ++ r.model ++ " " ++ ", ".intercalate (r.issues.map Issue.text) ++ "]"

end DecisionRules.Schema
