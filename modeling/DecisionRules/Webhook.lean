import DecisionRules.Failure
import DecisionRules.Schema.Coerce

/-!
Webhook requests: what is to be sent where, how long to wait, and how often to try again.
-/
namespace DecisionRules
open Schema (Checked)

def webhookMethods : List String := ["GET", "POST", "PUT", "PATCH", "DELETE", "HEAD"]

structure WebhookRequest where
  method : String
  url : String
  headers : Assoc String
  body : Value
  timeout : Option Float
  retries : Int
  redactUrl : Bool

namespace WebhookRequest

def ofFields (fields : Fields) : Checked WebhookRequest :=
  WebhookRequest.mk
    <$> Schema.withDefault fields "method" "POST" (Schema.oneOf (webhookMethods.map fun m => (m, m)))
    <*> Schema.required fields "url" Schema.text
    <*> Schema.withDefault fields "headers" [] (Schema.objectOf Schema.text)
    <*> Schema.withDefault fields "body" .null Schema.anything
    <*> Schema.withDefault fields "timeout_s" none (Schema.optional Schema.float)
    <*> Schema.withDefault fields "retries" 0 Schema.int
    <*> Schema.withDefault fields "redact_url" false Schema.bool

def ofValue (v : Value) : Outcome WebhookRequest :=
  Schema.conclude "WebhookRequest" Failure.validation (Schema.model ofFields v)

def headerFields (r : WebhookRequest) : Fields := Assoc.mapValues Value.text r.headers

def toValue (r : WebhookRequest) : Value :=
  .object [("method", .text r.method), ("url", .text r.url), ("headers", .object r.headerFields),
    ("body", r.body), ("timeout_s", .ofOption (r.timeout.map Value.float)),
    ("retries", .int r.retries), ("redact_url", .bool r.redactUrl)]

end WebhookRequest
end DecisionRules
