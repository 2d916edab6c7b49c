import DecisionRules.Deadline.Token
import DecisionRules.Log.Record
import DecisionRules.Webhook.Client

/-!
Transports carry the requests of webhook actions. One sends them through the client and reports the
response; others keep the requests and give an answer of their own.
-/
namespace DecisionRules

structure Wire where
  clock : Float
  network : Network Float
  received : List WebhookRequest
  records : List Log.Record

inductive Delivery where
  | answered (fields : Fields)
  | failed (f : Failure)
  | stalled

structure Transport where
  send : WebhookRequest → Token Float → Wire → Delivery × Wire

namespace Transport

def keeping (answer : WebhookRequest → Delivery) : Transport where
  send r _ w := (answer r, { w with received := w.received ++ [r] })

def outgoing (r : WebhookRequest) (deadline : Option Float) : Outgoing Float :=
  let text := r.body.text?
  { method := r.method
    url := r.url
    headers := r.headers
    text := text
    content := if text.isSome then .null else r.body
    timeout := r.timeout
    deadline := deadline
    retries := some r.retries
    redactUrl := r.redactUrl }

/-- The structure of a response text, or the text itself. A byte order mark in front is dropped before
it is read. -/
def responseOf (text : String) : Value :=
  let body := match text.toList with
    | c :: rest => if c.toNat = 0xfeff then String.ofList rest else text
    | [] => text
  (Text.Json.parse? body).getD (.text text)

def report (r : WebhookRequest) (status : Int) (text : String) : Fields :=
  [("status_code", .int status), ("method", .text r.method),
    ("url", .text (shownUrl r.redactUrl r.url)),
    ("headers", .object (Log.redactFields r.headerFields)), ("response", responseOf text)]

def logger : String := "rulecraft.rules.webhooks"

def delivered (now : Int) (r : WebhookRequest) (status : Int) : Log.Record :=
  .of now "INFO" logger "webhook_delivered" .none
    [("method", .text r.method), ("status_code", .int status)]

def overNetwork (client : Client Float) (now : Int) : Transport where
  send r token w :=
    match token.check w.clock with
    | .error f => (.failed f, w)
    | .ok () =>
      let (reply, clock, network) := client.send (outgoing r token.deadline) w.clock w.network
      let w := { w with clock := clock, network := network }
      match reply with
      | .error f => (.failed f, w)
      | .ok (status, text) =>
        (.answered (report r status text), { w with records := w.records ++ [delivered now r status] })

end Transport
end DecisionRules
