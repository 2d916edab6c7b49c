import DecisionRules.Condition

/-!
Explanations of conditions: one node for each condition that was evaluated, with the operands as they
were seen and the answer.
-/
namespace DecisionRules

inductive Trace where
  | literal (value : Bool)
  | expression (source : String) (value : Bool)
  | unknown (v : Value)
  | logical (operator : String) (value : Bool) (details : List Trace)
  | comparison (op : ComparisonOperator) (left right : Value) (value : Bool)
  | inclusion (negated : Bool) (left right : Value) (value : Bool)
  | text (op : TextOperator) (left right : String) (value : Bool)
  | regex (left source : String) (value : Bool)
  | range (v bounds : Value) (value : Bool)
  | existence (field : Option String) (value : Bool)
  | function (name : String) (args : List Value) (result : Value)
  | custom (operator : String) (result : Value)
  deriving Inhabited

namespace Trace

def value : Trace → Bool
  | literal b => b
  | expression _ b => b
  | unknown _ => false
  | logical _ b _ => b
  | comparison _ _ _ b => b
  | inclusion _ _ _ b => b
  | text _ _ _ b => b
  | regex _ _ b => b
  | range _ _ b => b
  | existence _ b => b
  | function _ _ result => result.truthy
  | custom _ result => result.truthy

def type : Trace → String
  | literal _ => "literal"
  | expression .. => "expression"
  | unknown _ => "unknown"
  | logical .. => "logical"
  | comparison .. => "comparison"
  | inclusion .. => "inclusion"
  | text .. => "string"
  | regex .. => "regex"
  | range .. => "range"
  | existence .. => "existence"
  | function .. => "function"
  | custom .. => "custom"

def operator? : Trace → Option String
  | logical op _ _ => some op
  | comparison op .. => some op.name
  | inclusion negated .. => some (Operator.inclusion negated).name
  | text op .. => some op.name
  | regex .. => some Operator.matching.name
  | range .. => some Operator.between.name
  | existence .. => some Operator.existence.name
  | custom op _ => some op
  | _ => none

def operands : Trace → Value × Value
  | comparison _ l r _ => (l, r)
  | inclusion _ l r _ => (l, r)
  | text _ l r _ => (.text l, .text r)
  | regex l r _ => (.text l, .text r)
  | range v bounds _ => (v, bounds)
  | _ => (.null, .null)

def field : Trace → Value
  | existence name _ => .ofText? name
  | _ => .null

def name : Trace → Value
  | function name _ _ => .text name
  | _ => .null

def args : Trace → Value
  | function _ args _ => .list args
  | _ => .null

def source : Trace → Value
  | expression s _ => .text s
  | _ => .null

def result : Trace → Value
  | unknown v => v
  | function _ _ r => r
  | custom _ r => r
  | _ => .null

def fieldsWith (t : Trace) (details : List Value) : Fields :=
  [("type", .text t.type), ("value", .bool t.value), ("operator", .ofText? t.operator?),
    ("left", t.operands.1), ("right", t.operands.2), ("field", t.field), ("name", t.name),
    ("args", t.args), ("expression", t.source), ("result", t.result), ("details", .list details)]

mutual
def toValue : Trace → Value
  | logical op b details => .object (fieldsWith (logical op b details) (toValues details))
  | t => .object (fieldsWith t [])
def toValues : List Trace → List Value
  | [] => []
  | t :: rest => toValue t :: toValues rest
end

end Trace
end DecisionRules
