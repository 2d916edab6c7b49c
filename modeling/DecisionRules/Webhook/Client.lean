import DecisionRules.Environment
import DecisionRules.Webhook.Message
import DecisionRules.Webhook.Retry

/-!
The client that all requests go through. Its pauses, limits and user agent come from the environment;
what it sends, and when, is kept.
-/
namespace DecisionRules
open Retry (Policy Timeouts Exchange Course)

structure Call (τ : Type) where
  message : Message
  timeouts : Option (Timeouts τ)

structure Network (τ : Type) where
  upcoming : List (Exchange τ)
  calls : List (Call τ)
  pauses : List τ

def Network.quiet {τ : Type} (upcoming : List (Exchange τ)) : Network τ := ⟨upcoming, [], []⟩

structure Client (τ : Type) where
  userAgent : String
  retries : Int
  connectTimeout : τ
  leastTimeout : τ
  backoffBase : τ
  backoffMost : τ
  jitter : Nat → τ

structure Outgoing (τ : Type) where
  method : String
  url : String
  headers : Assoc String
  text : Option String
  content : Value
  timeout : Option τ
  deadline : Option τ
  retries : Option Int
  redactUrl : Bool

def hiddenUrl : String := "[redacted-url]"

def shownUrl (redact : Bool) (url : String) : String := if redact then hiddenUrl else url

namespace Client
variable {τ : Type}

def ofEnvironment (env : Environment) (ofFloat : Float → τ) (jitter : Nat → τ) : Client τ :=
  let pause (name : String) (default : Float) : τ := ofFloat (later 0.01 (env.float name default))
  { userAgent := (env.text? "RULECRAFT_HTTP_USER_AGENT").getD "rulecraft/1.0"
    retries := env.int "RULECRAFT_HTTP_RETRIES" 0
    connectTimeout := ofFloat (env.float "RULECRAFT_HTTP_CONNECT_TIMEOUT_S" 5)
    leastTimeout := ofFloat 0.1
    backoffBase := pause "RULECRAFT_HTTP_BACKOFF_BASE_S" 0.25
    backoffMost := pause "RULECRAFT_HTTP_BACKOFF_MAX_S" 2
    jitter := jitter }

def policy (c : Client τ) (o : Outgoing τ) : Policy τ :=
  { timeout := o.timeout
    deadline := o.deadline
    connectTimeout := c.connectTimeout
    leastTimeout := c.leastTimeout
    backoffBase := c.backoffBase
    backoffMost := c.backoffMost
    jitter := c.jitter
    shownUrl := shownUrl o.redactUrl o.url }

/-- How often a request is tried; a negative number of retries counts as none when the request gives
it. -/
def attempts (c : Client τ) (o : Outgoing τ) : Int :=
  (match o.retries with
    | none => c.retries
    | some n => max 0 n) + 1

/-- Sends a request. One that no message can be made of fails when it would be sent; where the user
agent is what cannot be sent, there is no client and any request fails at once. -/
def send [Span τ] (c : Client τ) (o : Outgoing τ) (clock : τ) (network : Network τ) :
    Outcome (Int × String) × τ × Network τ :=
  match Message.build c.userAgent o.method o.url o.headers o.text o.content with
  | .error b =>
    let failing : Exchange τ := ⟨.failed (.breach b), Instant.zero⟩
    let (r, _) := Retry.send (c.policy o) (c.attempts o) ⟨clock, [failing], [], []⟩
    (if Message.isAscii c.userAgent then r else .error (.breach b), clock, network)
  | .ok message =>
    let (r, after) := Retry.send (c.policy o) (c.attempts o) ⟨clock, network.upcoming, [], []⟩
    let calls := after.attempts.map fun a => ⟨message, a.timeouts⟩
    (r, after.clock, ⟨after.upcoming, network.calls ++ calls, network.pauses ++ after.pauses⟩)

end Client
end DecisionRules
