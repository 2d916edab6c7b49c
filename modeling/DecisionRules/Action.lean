import DecisionRules.Identifier
import DecisionRules.Schema.Coerce

/-!
Actions: what a matched rule does, by type, with a configuration that is resolved when it runs.
-/
namespace DecisionRules
open Schema (Checked)

inductive ActionType where
  | log
  | assign
  | webhook
  | notification
  | workflow
  | custom
  deriving DecidableEq, Repr

namespace ActionType

def name : ActionType → String
  | log => "log"
  | assign => "variable"
  | webhook => "webhook"
  | notification => "notification"
  | workflow => "workflow"
  | custom => "custom"

def coerce : Schema.Coercion ActionType :=
  Schema.oneOf ([log, assign, webhook, notification, workflow, custom].map fun t => (t.name, t))

end ActionType

structure Action where
  id : String
  type : ActionType
  config : Fields
  enabled : Bool

namespace Action

def ofFields (id : String) (fields : Fields) : Checked Action :=
  Action.mk
    <$> Schema.withDefault fields "id" id Schema.text
    <*> Schema.withDefault fields "type" .log ActionType.coerce
    <*> Schema.withDefault fields "config" [] Schema.object
    <*> Schema.withDefault fields "enabled" true Schema.bool

def coerce (id : String) : Schema.Coercion Action := Schema.model (ofFields id)

def coerceAll (index next : Nat) : List Value → Checked (List Action)
  | [] => .ok []
  | v :: rest =>
    Checked.both
      (((coerce (Identifier.fresh next) v).under (toString index)).map List.cons)
      (coerceAll (index + 1) (next + 1) rest)

def coerceList (next : Nat) : Schema.Coercion (List Action)
  | .list vs => coerceAll 0 next vs
  | _ => .fault .listType

def toValue (a : Action) : Value :=
  .object [("id", .text a.id), ("type", .text a.type.name), ("config", .object a.config),
    ("enabled", .bool a.enabled)]

def setting (config : Fields) (key : String) : Value := Assoc.getD config key .null

end Action
end DecisionRules
