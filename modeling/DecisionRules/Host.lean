import DecisionRules.Failure
import DecisionRules.Scope

/-!
Callables of the host: functions, operators and actions that the engine's caller supplies. A call
sees its arguments, and may read and change the scope, the clock and a counter; it answers, fails or
never comes back. The host also has the calendar, and a stopwatch of its own.
-/
namespace DecisionRules

structure Frame where
  scope : Scope
  clock : Float
  ticks : Nat

inductive Argument where
  | value (v : Value)
  | scope

inductive Reply where
  | answered (v : Value)
  | failed (f : Failure)
  | stalled

structure Host where
  call : String → List Argument → Frame → Reply × Frame
  /-- Milliseconds since the epoch. -/
  now : Int
  today : String
  /-- Milliseconds that an evaluation spends on a rule. -/
  elapsed : (evaluation rule : String) → Float

end DecisionRules
