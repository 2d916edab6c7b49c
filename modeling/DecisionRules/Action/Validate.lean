import DecisionRules.Action
import DecisionRules.Failure
import DecisionRules.Text.Case
import DecisionRules.Value.Display
import DecisionRules.Value.Entries

/-!
Checks of actions before they are stored: their number, their shape, and what each type needs in its
configuration.
-/
namespace DecisionRules

def logLevelNames : List String := ["debug", "info", "warn", "warning", "error"]

def variableOperations : List String := ["set", "delete", "increment"]

def variableScopes : List String := ["local", "global"]

namespace Value

def isOneOf (v : Value) (words : List String) : Bool :=
  match v with
  | text s => words.contains s
  | _ => false

def isNonEmptyText : Value → Bool
  | text s => !s.isEmpty
  | _ => false

def isCallable : Value → Bool
  | callable _ => true
  | _ => false

end Value

namespace Action

def reject {α : Type} (fault : ActionFault) : Outcome α := .error (.action fault)

def levelName (config : Fields) : Except Breach String := do
  return Text.lower (← (Assoc.getD config "level" (.text "info")).display)

def validateLog (config : Fields) : Outcome Unit := do
  let level ← levelName config
  if !logLevelNames.contains level then reject (.unknownLevel level)

def validateVariable (config : Fields) : Outcome Unit := do
  if !(setting config "name").isNonEmptyText then reject .nameRequired
  if !(Assoc.getD config "operation" (.text "set")).isOneOf variableOperations then
    reject (.unknownOperation (← (setting config "operation").display))
  if !(Assoc.getD config "scope" (.text "local")).isOneOf variableScopes then
    reject (.unknownScope (← (setting config "scope").display))

def workflowOf (config : Fields) : Value :=
  (setting config "workflow_id").orElse (setting config "workflowId")

def validateConfig (a : Action) : Outcome Unit := do
  match a.type with
  | .log => validateLog a.config
  | .assign => validateVariable a.config
  | .webhook => if !(setting a.config "url").isNonEmptyText then reject .urlRequired
  | .notification => return
  | .workflow => if !(workflowOf a.config).truthy then reject .workflowRequired
  | .custom =>
    let fn := setting a.config "function"
    if !(fn.isCallable || fn.isNonEmptyText) then reject .functionRequired

def validateFrom (position next : Nat) : List Value → Outcome (List Action)
  | [] => .ok []
  | v :: rest => do
    let a ← Schema.conclude "Action" (fun report => .action (.invalid position report))
      (coerce (Identifier.fresh next) v)
    a.validateConfig
    return a :: (← validateFrom (position + 1) (next + 1) rest)

def validateAll (actions : Value) (limit : Int) (next : Nat) : Outcome (List Action) := do
  let items ← actions.partsOrNone
  if (items.length : Int) > limit then reject (.tooMany items.length limit)
  validateFrom 0 next items

end Action
end DecisionRules
