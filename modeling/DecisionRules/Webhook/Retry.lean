import DecisionRules.Deadline.Instant
import DecisionRules.Failure

/-!
Sending one request with retries. Statuses that may pass and broken connections are tried again after a
pause that doubles each time, up to a most, and is shaken by a jitter. No attempt and no pause begins
after the deadline, and a pause ends with it. Time is of any type with the arithmetic of spans.
-/
namespace DecisionRules

namespace Retry

inductive Reply where
  | answered (status : Int) (text : String)
  | broken (error : String)
  | failed (f : Failure)
  deriving DecidableEq, Repr

structure Exchange (τ : Type) where
  reply : Reply
  duration : τ

def retryableStatuses : List Int := [429, 500, 502, 503, 504]

def retryableErrors : List String := ["ConnectError", "ReadTimeout", "RemoteProtocolError"]

def isSuccess (status : Int) : Bool := 200 ≤ status && status < 300

structure Timeouts (τ : Type) where
  connect : τ
  read : τ

structure Policy (τ : Type) where
  timeout : Option τ
  deadline : Option τ
  connectTimeout : τ
  leastTimeout : τ
  backoffBase : τ
  backoffMost : τ
  jitter : Nat → τ
  shownUrl : String

structure Attempt (τ : Type) where
  start : τ
  timeouts : Option (Timeouts τ)

/-- The course of a request so far, and what is to come back for further attempts; after that come
empty successes. -/
structure Course (τ : Type) where
  clock : τ
  upcoming : List (Exchange τ)
  attempts : List (Attempt τ)
  pauses : List τ

variable {τ : Type} [Span τ]

namespace Policy

/-- The wanted limit of an attempt that begins now: the shorter of the given one and the time left. -/
def attemptTimeout (p : Policy τ) (now : τ) : Option τ :=
  match p.deadline with
  | none => p.timeout
  | some d =>
    match p.timeout with
    | none => some (d - now)
    | some t => some (earlier t (d - now))

def timeouts (p : Policy τ) (wanted : τ) : Timeouts τ :=
  let read := later p.leastTimeout wanted
  ⟨earlier (later p.leastTimeout p.connectTimeout) read, read⟩

def backoff (p : Policy τ) (attempt : Nat) : Except Breach τ := do
  let grown := p.backoffBase * (← Span.twoPow attempt)
  return earlier p.backoffMost grown * (Span.half + p.jitter attempt)

def pause (p : Policy τ) (attempt : Nat) (now : τ) : Except Breach τ := do
  let wanted ← p.backoff attempt
  return match p.deadline with
    | none => wanted
    | some d => earlier wanted (later Instant.zero (d - now))

def networkFailure {α : Type} (fault : NetworkFault) : Outcome α := .error (.network fault)

end Policy

namespace Course

def exchange (c : Course τ) (timeouts : Option (Timeouts τ)) : Reply × Course τ :=
  let c := { c with attempts := c.attempts.concat ⟨c.clock, timeouts⟩ }
  match c.upcoming with
  | [] => (.answered 200 "", c)
  | e :: rest => (e.reply, { c with upcoming := rest, clock := c.clock + e.duration })

def pauseFor (c : Course τ) (span : τ) : Course τ :=
  { c with clock := c.clock + span, pauses := c.pauses ++ [span] }

end Course

inductive Verdict where
  | finished (status : Int) (text : String)
  | refused (f : Failure)
  | again (otherwise : Failure)

def verdict (shownUrl : String) : Reply → Verdict
  | .answered status text =>
    if isSuccess status then .finished status text
    else if retryableStatuses.contains status then .again (.status status shownUrl)
    else .refused (.status status shownUrl)
  | .broken error =>
    if retryableErrors.contains error then .again (.network (.exhausted shownUrl error))
    else .refused (.network (.failed shownUrl error))
  | .failed f => .refused f

def run (p : Policy τ) (left attempt : Nat) (c : Course τ) : Outcome (Int × String) × Course τ :=
  let wanted := p.attemptTimeout c.clock
  if wanted.any fun t => decide (t ≤ Instant.zero) then
    (Policy.networkFailure (.deadlineExceeded p.shownUrl), c)
  else
    let (reply, c) := c.exchange (wanted.map p.timeouts)
    match verdict p.shownUrl reply with
    | .finished status text => (.ok (status, text), c)
    | .refused f => (.error f, c)
    | .again otherwise =>
      match left with
      | 0 => (.error otherwise, c)
      | left + 1 =>
        match p.pause attempt c.clock with
        | .error b => (.error (.breach b), c)
        | .ok span => run p left (attempt + 1) (c.pauseFor span)

/-- As many attempts as allowed; without any there is nothing to report but that. -/
def send (p : Policy τ) (attempts : Int) (c : Course τ) : Outcome (Int × String) × Course τ :=
  if attempts ≤ 0 then (Policy.networkFailure (.noAttempt p.shownUrl), c)
  else run p (attempts - 1).toNat 0 c

end Retry
end DecisionRules
