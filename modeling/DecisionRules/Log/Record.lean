import DecisionRules.Calendar
import DecisionRules.Failure
import DecisionRules.Log.Redact
import DecisionRules.Text.Json
import DecisionRules.Text.Percent

/-!
Log records and their lines. A line is one JSON object: instant, level, logger and message, then the
names of the work in hand, then the fields of the record, and last what was raised. Secrets are
masked in the message, in names of fields and in texts.
-/
namespace DecisionRules.Log

structure Context where
  correlationId : Option String
  evaluationId : Option String
  ruleId : Option String
  actionId : Option String
  deriving DecidableEq, Repr

namespace Context

def none : Context := ⟨.none, .none, .none, .none⟩

/-- Inner names over outer ones; an absent inner name leaves the outer one. -/
def within (outer inner : Context) : Context :=
  ⟨inner.correlationId <|> outer.correlationId, inner.evaluationId <|> outer.evaluationId,
    inner.ruleId <|> outer.ruleId, inner.actionId <|> outer.actionId⟩

def names : List String := ["correlation_id", "evaluation_id", "rule_id", "action_id"]

def ofFields (fields : Fields) : Context :=
  let name (key : String) : Option String := (Assoc.get? fields key).bind Value.text?
  ⟨name "correlation_id", name "evaluation_id", name "rule_id", name "action_id"⟩

def toFields (c : Context) : Fields :=
  (names.zip [c.correlationId, c.evaluationId, c.ruleId, c.actionId]).filterMap fun (key, name) =>
    name.map fun s => (key, .text s)

end Context

structure Raised where
  kind : String
  fullKind : String
  text : String
  deriving DecidableEq, Repr

structure Record where
  created : Float
  level : String
  logger : String
  template : String
  args : List Value
  context : Context
  extra : Value
  raised : Option Raised

def Record.of (now : Int) (level logger message : String) (context : Context) (extra : Fields) :
    Record :=
  { created := Float.ofInt now / 1000
    level, logger, context
    template := message
    args := []
    extra := .object extra
    raised := none }

def failureModule : String := "rulecraft.core.errors."

def fullKind (kind : String) : String :=
  if kind == Failure.configurationKind then failureModule ++ kind else kind

/-- The message: without arguments it is the template; one object that has fields is the source of
keys. -/
def Record.message (r : Record) : Except Breach String :=
  match r.args with
  | [] => .ok r.template
  | [.object (field :: rest)] => Text.Percent.format r.template (.object (field :: rest))
  | args => Text.Percent.formatAll r.template args

def shownFields (extra : Value) : Fields :=
  match extra with
  | .object fields => Assoc.mapValues (fun
      | .text s => .text (redact s)
      | v => v) (redactFields fields)
  | _ => []

def Raised.stack (r : Raised) : String :=
  if r.text.isEmpty then r.fullKind ++ "\n" else r.fullKind ++ ": " ++ r.text ++ "\n"

def Raised.toFields (r : Raised) : Fields :=
  [("exc_type", .text r.kind), ("exc_msg", .text (redact r.text)), ("stack", .text r.stack)]

/-- All fields of the line of a record. A field of the record replaces one of the same name. -/
def Record.toFields (r : Record) : Except Breach Fields := do
  let base : Fields := [
    ("ts_iso_utc", .text (← Calendar.isoText (← Calendar.microseconds r.created))),
    ("level", .text r.level), ("logger", .text r.logger), ("msg", .text (redact (← r.message)))]
  let fields := Assoc.merge (Assoc.merge base r.context.toFields) (shownFields r.extra)
  return Assoc.merge fields ((r.raised.map Raised.toFields).getD [])

def Record.line (r : Record) : Except Breach String := do
  Text.Json.render Text.Json.compact (.object (← r.toFields))

end DecisionRules.Log
