import DecisionRules.Schema.Coerce

/-!
Priorities of rules. The more urgent one has the lower rank.
-/
namespace DecisionRules

inductive Priority where
  | critical
  | high
  | normal
  | low
  deriving DecidableEq, Repr

namespace Priority

def name : Priority → String
  | critical => "critical"
  | high => "high"
  | normal => "normal"
  | low => "low"

def rank : Priority → Nat
  | critical => 0
  | high => 1
  | normal => 2
  | low => 3

def coerce : Schema.Coercion Priority :=
  Schema.oneOf ([critical, high, normal, low].map fun p => (p.name, p))

end Priority
end DecisionRules
