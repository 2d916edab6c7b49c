import DecisionRules.Action
import DecisionRules.Failure

/-!
What became of an action: it was skipped, failed, or succeeded with a result.
-/
namespace DecisionRules

inductive ActionStatus where
  | success (result : Fields)
  | failed (f : Failure)
  | skipped

structure ActionResult where
  action : String
  type : ActionType
  status : ActionStatus

namespace ActionStatus

def name : ActionStatus → String
  | success _ => "success"
  | failed _ => "failed"
  | skipped => "skipped"

def isSuccess : ActionStatus → Bool
  | success _ => true
  | _ => false

def isFailed : ActionStatus → Bool
  | failed _ => true
  | _ => false

def result : ActionStatus → Value
  | success fields => .object fields
  | _ => .null

def errorFields : ActionStatus → Fields
  | failed f => [("error", .ofText? f.text?), ("error_type", .text f.kind)]
  | _ => [("error", .null), ("error_type", .null)]

end ActionStatus

namespace ActionResult

def toValue (r : ActionResult) : Value :=
  .object ([("action_id", .text r.action), ("action_type", .text r.type.name),
    ("status", .text r.status.name), ("result", r.status.result)] ++ r.status.errorFields)

def executed (results : List ActionResult) : Nat := results.countP fun r => r.status.isSuccess

def failed (results : List ActionResult) : Nat := results.countP fun r => r.status.isFailed

end ActionResult
end DecisionRules
