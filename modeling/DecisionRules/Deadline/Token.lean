import DecisionRules.Deadline.Instant
import DecisionRules.Failure

/-!
Tokens bound work by a deadline and by cancellation. A token made from another one never outlives
it.
-/
namespace DecisionRules

structure Token (τ : Type) where
  reason : String
  deadline : Option τ
  cancelled : Bool

namespace Token
variable {τ : Type} [Instant τ]

def tighter : Option τ → Option τ → Option τ
  | none, d => d
  | some d, none => some d
  | some d, some e => some (earlier d e)

def deadlineAfter (now : τ) (timeout : Option τ) : Option τ := timeout.map fun t => now + t

def root (now : τ) (timeout : Option τ) (reason : String) : Token τ :=
  ⟨reason, deadlineAfter now timeout, false⟩

def child (t : Token τ) (now : τ) (timeout : Option τ) (reason : String) : Token τ :=
  ⟨reason, tighter (deadlineAfter now timeout) t.deadline, t.cancelled⟩

def cancel (t : Token τ) : Token τ := { t with cancelled := true }

def expired (t : Token τ) (now : τ) : Bool :=
  match t.deadline with
  | some d => decide (d ≤ now)
  | none => false

def remaining (t : Token τ) (now : τ) : Option τ :=
  t.deadline.map fun d => later Instant.zero (d - now)

def check (t : Token τ) (now : τ) : Outcome Unit :=
  if t.cancelled then .error (.cancelled t.reason)
  else if t.expired now then .error (.timedOut t.reason)
  else .ok ()

end Token
end DecisionRules
