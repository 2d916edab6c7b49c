import DecisionRules.Value

/-!
Expressions over literals: arithmetic, comparison, membership and logic. The two spellings of
equality are kept apart, though they mean the same.
-/
namespace DecisionRules.Expression

inductive UnaryOp where
  | not
  | neg
  | pos
  deriving DecidableEq, Repr

inductive BinaryOp where
  | add
  | sub
  | mul
  | div
  | mod
  | pow
  deriving DecidableEq, Repr

inductive LogicalOp where
  | and
  | or
  deriving DecidableEq, Repr

inductive CompareOp where
  | eq
  | strictEq
  | ne
  | strictNe
  | lt
  | le
  | gt
  | ge
  | member
  deriving DecidableEq, Repr

inductive Expr where
  | literal (v : Value)
  | list (items : List Expr)
  | unary (op : UnaryOp) (operand : Expr)
  | binary (op : BinaryOp) (left right : Expr)
  | logical (op : LogicalOp) (left right : Expr)
  | compare (op : CompareOp) (left right : Expr)
  deriving Inhabited

def UnaryOp.symbol : UnaryOp → String
  | not => "!"
  | neg => "-"
  | pos => "+"

def BinaryOp.symbol : BinaryOp → String
  | add => "+"
  | sub => "-"
  | mul => "*"
  | div => "/"
  | mod => "%"
  | pow => "**"

def LogicalOp.symbol : LogicalOp → String
  | and => "&&"
  | or => "||"

def CompareOp.symbol : CompareOp → String
  | eq => "=="
  | strictEq => "==="
  | ne => "!="
  | strictNe => "!=="
  | lt => "<"
  | le => "<="
  | gt => ">"
  | ge => ">="
  | member => "in"

end DecisionRules.Expression
