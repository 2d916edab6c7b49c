import DecisionRules.Operators

/-!
Condition trees. Any value decodes to a tree: a boolean is its own answer, a text is an expression, an
object is a node by its operator, and everything else is inert. A node keeps its operands as values;
what is wrong with it is found when it is validated or evaluated.
-/
namespace DecisionRules

inductive Condition where
  | literal (b : Bool)
  | expression (source : String)
  | inert (v : Value)
  /-- An object without a usable operator. -/
  | headless
  | logical (op : LogicalOperator) (children : List Condition)
  /-- Without a child the negation holds. -/
  | not (child : Option Condition)
  /-- A logical operator over something that is no list. -/
  | childless (op : String)
  | comparison (op : ComparisonOperator) (left right : Value)
  | inclusion (negated : Bool) (left right : Value)
  | text (op : TextOperator) (left right : Value)
  | matching (left pattern : Value)
  | between (value range : Value)
  | existence (field : Value)
  | function (name : Value) (args : Option Value)
  | custom (op : String) (node : Fields)
  deriving Inhabited

namespace Condition

inductive View where
  | list (items : List Condition)
  | single (c : Condition)

def either (node : Fields) (first second : String) : Value :=
  match Assoc.get? node first with
  | some v => v
  | none => Assoc.getD node second .null

/-- Children of a logical node: those under `conditions`, or under `operands` if these are absent or
null; nothing when they are no list. -/
def children? (views : Assoc View) : Option (List Condition) :=
  match Assoc.get? views "conditions" with
  | none | some (.single (.inert .null)) =>
    match Assoc.get? views "operands" with
    | none | some (.single (.inert .null)) => some []
    | some (.list items) => some items
    | some (.single _) => none
  | some (.list items) => some items
  | some (.single _) => none

def present : Condition → Option Condition
  | inert .null => none
  | c => some c

/-- The negated child: under `condition` if that key is there, otherwise the first child. -/
def negation (node : Fields) (views : Assoc View) : Condition :=
  match Assoc.get? views "condition" with
  | some (.single c) => not (present c)
  | some (.list _) => not (some (inert (Assoc.getD node "condition" .null)))
  | none =>
    match children? views with
    | none => childless Operator.not.name
    | some [] => not none
    | some (c :: _) => not (present c)

def ofOperator (op : Operator) (node : Fields) (views : Assoc View) : Condition :=
  let left := Assoc.getD node "left" .null
  let right := Assoc.getD node "right" .null
  match op with
  | .logical op =>
    match children? views with
    | some children => logical op children
    | none => childless op.name
  | .not => negation node views
  | .comparison op => comparison op left right
  | .inclusion negated => inclusion negated left right
  | .text op => text op left right
  | .matching => matching left (either node "right" "pattern")
  | .between => between (either node "value" "left") (either node "range" "right")
  | .existence => existence (either node "field" "left")
  | .function => function (Assoc.getD node "name" .null) (Assoc.get? node "args")

def ofNode (node : Fields) (views : Assoc View) : Condition :=
  match Assoc.get? node "operator" with
  | some (.text name) =>
    if name.isEmpty then headless
    else match Operator.ofName? name with
      | some op => ofOperator op node views
      | none => custom name node
  | _ => headless

mutual
def ofValue : Value → Condition
  | .bool b => literal b
  | .text s => expression s
  | .object node => ofNode node (ofFields node)
  | v => inert v
def ofItems : List Value → List Condition
  | [] => []
  | v :: rest => ofValue v :: ofItems rest
def ofFields : List (String × Value) → List (String × View)
  | [] => []
  | (k, .list items) :: rest => (k, .list (ofItems items)) :: ofFields rest
  | (k, v) :: rest => (k, .single (ofValue v)) :: ofFields rest
end

mutual
def depth : Condition → Nat
  | logical _ children => depthBelow children
  | not (some child) => child.depth + 1
  | _ => 0
def depthBelow : List Condition → Nat
  | [] => 0
  | c :: rest => max (c.depth + 1) (depthBelow rest)
end

end Condition
end DecisionRules
