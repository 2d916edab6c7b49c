import DecisionRules.Deadline.Token
import DecisionRules.Host

/-!
Tokens that keep the link to the one they were made from: to cancel a token cancels all that come from
it, also those that are made later.
-/
namespace DecisionRules

structure Sprout (τ : Type) where
  reason : String
  deadline : Option τ
  parent : Option Nat
  cancelled : Bool

abbrev Forest (τ : Type) := List (Sprout τ)

namespace Forest
variable {τ : Type} [Instant τ]

def deadline? (f : Forest τ) (i : Nat) : Option τ := f[i]?.bind Sprout.deadline

def plant (f : Forest τ) (now : τ) (timeout : Option τ) (parent : Option Nat) (reason : String) :
    Forest τ :=
  let deadline := Token.tighter (Token.deadlineAfter now timeout) (parent.bind f.deadline?)
  f ++ [⟨reason, deadline, parent, false⟩]

def cancelledFlags (f : Forest τ) : List Bool :=
  f.foldl (fun flags s =>
    flags ++ [s.cancelled || (s.parent.bind fun p => flags[p]?).getD false]) []

def isCancelled (f : Forest τ) (i : Nat) : Bool := (f.cancelledFlags[i]?).getD false

def token? (f : Forest τ) (i : Nat) : Option (Token τ) :=
  f[i]?.map fun s => ⟨s.reason, s.deadline, f.isCancelled i⟩

def cancel (f : Forest τ) (i : Nat) : Forest τ :=
  f.modify i fun s => { s with cancelled := true }

/-- The outcome of a call under a token. A call that never comes back cancels its token. -/
def settle (f : Forest τ) (i : Nat) (reply : Reply) : Outcome Value × Forest τ :=
  match reply with
  | .answered v => (.ok v, f)
  | .failed failure => (.error failure, f)
  | .stalled => (.error (.overran ((f[i]?.map Sprout.reason).getD "")), f.cancel i)

end Forest

namespace Token
variable {τ : Type} [Instant τ]

def wait (t : Token τ) (now span : τ) : τ × Bool :=
  if t.cancelled then (now, true) else (now + later Instant.zero span, false)

end Token
end DecisionRules
