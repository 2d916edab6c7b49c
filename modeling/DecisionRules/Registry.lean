import DecisionRules.Action.Validate
import DecisionRules.Condition.Validate
import DecisionRules.Group
import DecisionRules.Selection
import DecisionRules.Settings

/-!
The registry of rules and groups. Rules stand in the order of their creation; an update replaces a
rule in place and raises its revision. A rule with a group is a member of it; a group that no one made
comes with its first member and goes with its last.
-/
namespace DecisionRules

structure Registry where
  rules : Assoc Rule
  groups : Assoc RuleGroup

structure Drafting where
  settings : Settings
  operators : Operators
  /-- Milliseconds since the epoch. -/
  now : Int
  next : Nat

def shortcutKeys : List String := ["priority", "group", "tags", "timeout_s", "retry_on_failure"]

def updatableKeys : List String :=
  ["name", "description", "enabled", "config", "conditions", "actions", "variables"]

def foldShortcuts (fields : Fields) : Except Breach Fields := do
  let shortcuts := shortcutKeys.filterMap fun key => (Assoc.get? fields key).map fun v => (key, v)
  if shortcuts.isEmpty then return fields
  else
    let others := fields.filter fun (key, _) => !shortcutKeys.contains key
    let config ← (Assoc.getD fields "config" .null).fieldsOrNone
    return Assoc.set others "config" (.object (Assoc.merge config shortcuts))

namespace Drafting

def validateParts (d : Drafting) (fields : Fields) : Outcome Unit := do
  if let some tree := Assoc.get? fields "conditions" then
    (Condition.ofValue tree).validate d.operators d.settings.functions.unsafeExpressions
  if let some actions := Assoc.get? fields "actions" then
    let _ ← Action.validateAll actions d.settings.actions.maxPerRule d.next

def build (base : Rule) (next : Nat) (fields : Fields) : Outcome Rule := do
  let rule ← Schema.conclude "Rule" (fun report => .registry (.invalidRule report))
    (base.revise next fields)
  if rule.config.timeout.any fun t => t ≤ 0 then throw (.registry .timeoutNotPositive)
  return rule

def draft (d : Drafting) (definition : Fields) : Outcome Rule := do
  let fields ← foldShortcuts definition
  let config ← (Assoc.getD fields "config" .null).fieldsOrNone
  let metadata ← (Assoc.getD fields "metadata" .null).fieldsOrNone
  let metadata ← Schema.conclude "RuleMetadata" Failure.validation
    (RuleMetadata.ofFields d.now metadata)
  d.validateParts fields
  build (.blank (Identifier.fresh d.next) d.settings.defaultPriority metadata) (d.next + 1)
    (Assoc.set fields "config" (.object config))

def changes (d : Drafting) (update : Fields) : Outcome Fields := do
  let named := (← foldShortcuts update).filter fun (key, _) => updatableKeys.contains key
  d.validateParts named
  return named

def revised (d : Drafting) (current : Rule) (changes : Fields) : Outcome Rule := do
  let changes ← match Assoc.get? changes "config" with
    | none => pure changes
    | some v => do
      let config ← v.fieldsOrNone
      pure (Assoc.set changes "config" (.object config))
  build { current with
    metadata := { current.metadata with updatedAt := d.now }
    revision := current.revision + 1 } d.next changes

end Drafting

namespace Registry

def empty : Registry := ⟨[], []⟩

def refuse {α : Type} (fault : RegistryFault) : Outcome α := .error (.registry fault)

def rule? (r : Registry) (id : String) : Option Rule := Assoc.get? r.rules id

def get (r : Registry) (id : String) : Outcome Rule :=
  match r.rule? id with
  | some rule => .ok rule
  | none => .error (.notFound "Rule" id)

def groupFor (s : Settings) (r : Registry) (name : String) : RuleGroup :=
  (Assoc.get? r.groups name).getD ⟨name, s.groups.mode, s.groups.maxPerGroup, []⟩

/-- Enters a rule into a group. A group that was made for it stays, even if it has no room. -/
def attach (s : Settings) (r : Registry) (rule group : String) : Outcome Unit × Registry :=
  let g := r.groupFor s group
  if g.maxRules ≤ g.ruleIds.length then
    (refuse (.groupFull group), { r with groups := Assoc.set r.groups group g })
  else
    let g := { g with ruleIds := g.ruleIds ++ [rule] }
    (.ok (), { r with groups := Assoc.set r.groups group g })

/-- Takes a rule out of a group. A group without members is dropped. -/
def detach (r : Registry) (rule group : String) : Registry :=
  match Assoc.get? r.groups group with
  | none => r
  | some g =>
    let g := { g with ruleIds := g.ruleIds.erase rule }
    if g.ruleIds.isEmpty then { r with groups := Assoc.erase r.groups group }
    else { r with groups := Assoc.set r.groups group g }

def attach? (s : Settings) (r : Registry) (rule : String) (group : Option String) :
    Outcome Unit × Registry :=
  match group with
  | none => (.ok (), r)
  | some g => r.attach s rule g

def detach? (r : Registry) (rule : String) (group : Option String) : Registry :=
  match group with
  | none => r
  | some g => r.detach rule g

def store (r : Registry) (rule : Rule) : Registry :=
  { r with rules := Assoc.set r.rules rule.id rule }

def insert (s : Settings) (r : Registry) (rule : Rule) : Outcome Rule × Registry :=
  if Assoc.contains r.rules rule.id then (refuse (.ruleExists rule.id), r)
  else if s.maxRules ≤ r.rules.length then (refuse (.rulesExhausted s.maxRules), r)
  else
    match r.attach? s rule.id rule.group with
    | (.error f, r) => (.error f, r)
    | (.ok (), r) => (.ok rule, r.store rule)

def create (d : Drafting) (r : Registry) (definition : Fields) : Outcome Rule × Registry :=
  match d.draft definition with
  | .error f => (.error f, r)
  | .ok rule => r.insert d.settings rule

/-- Replaces a rule, which keeps its identifier, and moves it to its new group. -/
def replace (s : Settings) (r : Registry) (current updated : Rule) : Outcome Rule × Registry :=
  if updated.group = current.group then (.ok updated, r.store updated)
  else
    match r.attach? s updated.id updated.group with
    | (.error f, r) => (.error f, r)
    | (.ok (), r) => (.ok updated, (r.detach? current.id current.group).store updated)

def sortedKeys (fields : Fields) : List String :=
  sortBy (fun a b => decide (a ≤ b)) (Assoc.keys fields)

def update (d : Drafting) (r : Registry) (id : String) (given : Fields) :
    Outcome (Rule × List String) × Registry :=
  let planned : Outcome (Fields × Rule × Rule) := do
    let changes ← d.changes given
    let current ← r.get id
    return (changes, current, ← d.revised current changes)
  match planned with
  | .error f => (.error f, r)
  | .ok (changes, current, updated) =>
    let (stored, r) := r.replace d.settings current updated
    (stored.map fun rule => (rule, sortedKeys changes), r)

def delete (r : Registry) (id : String) : Outcome Unit × Registry :=
  match r.get id with
  | .error f => (.error f, r)
  | .ok rule =>
    (.ok (), { r with rules := Assoc.erase r.rules id }.detach? id rule.group)

def list (r : Registry) : List Rule := Assoc.values r.rules

def record (r : Registry) (id : String) (now : Int) (duration : Float) (matched : Bool)
    (executed failed : Int) : Registry :=
  match r.rule? id with
  | none => r
  | some rule =>
    r.store { rule with stats := rule.stats.record now duration matched executed failed }

def checkGroupName (r : Registry) (name : Value) : Outcome Unit :=
  if !name.truthy then refuse .groupNameRequired
  else if !name.isKey then .error (.breach .wrongType)
  else match name with
    | .text key => if Assoc.contains r.groups key then refuse (.groupExists key) else .ok ()
    | _ => .ok ()

/-- A group without members; a mode that is false in the sense of `truthy`, or a limit that is null, is
the usual one. -/
def draftGroup (s : Settings) (name mode maxRules : Value) : Outcome RuleGroup := do
  let maxRules := match maxRules with
    | .null => .int s.groups.maxPerGroup
    | v => v
  let shown ← Outcome.ofBreach name.literal
  Schema.conclude "RuleGroup" (fun report => .registry (.invalidGroup shown report))
    (RuleGroup.ofFields [("name", name), ("execution_mode", mode.orElse (.text s.groups.mode.name)),
      ("max_rules", maxRules)])

def createGroup (s : Settings) (r : Registry) (name mode maxRules : Value) :
    Outcome RuleGroup × Registry :=
  match (do r.checkGroupName name; draftGroup s name mode maxRules : Outcome RuleGroup) with
  | .error f => (.error f, r)
  | .ok g => (.ok g, { r with groups := Assoc.set r.groups g.name g })

def group (r : Registry) (name : String) : Outcome RuleGroup :=
  match Assoc.get? r.groups name with
  | some g => .ok g
  | none => .error (.notFound "Group" name)

def firstMatchGroups (r : Registry) : List String :=
  (r.groups.filter fun (_, g) => g.mode == .firstMatch).map Prod.fst

def enabledCount (r : Registry) : Nat := r.list.countP Rule.enabled

end Registry
end DecisionRules
