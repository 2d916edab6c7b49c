import DecisionRules.Action.Execute
import DecisionRules.Cache
import DecisionRules.Cache.Fingerprint
import DecisionRules.Maintenance
import DecisionRules.Registry
import DecisionRules.Report

/-!
The engine: a registry of rules, operators, variables of its own, a cache of condition results, counts
of what it did, and a journal. Here are its parts and all operations except evaluation.
-/
namespace DecisionRules

structure Counters where
  created : Nat
  evaluations : Nat
  evaluated : Nat
  matched : Nat
  executed : Nat
  failed : Nat
  errors : Nat
  deriving DecidableEq, Repr

namespace Counters

def zero : Counters := ⟨0, 0, 0, 0, 0, 0, 0⟩

def add (c : Counters) (r : Report) : Counters :=
  { c with
    evaluations := c.evaluations + 1
    evaluated := c.evaluated + r.evaluated
    matched := c.matched + r.matched
    executed := c.executed + r.executed
    failed := c.failed + r.failed
    errors := c.errors + r.errors.length }

end Counters

abbrev Verdict := Bool × Option Trace

structure Engine where
  settings : Settings
  host : Host
  transport : Transport
  enabled : Bool
  operators : Operators
  globals : Fields
  registry : Registry
  cache : Cache Float Verdict
  counters : Counters
  maintenance : Maintenance
  clock : Float
  ticks : Nat
  next : Nat
  network : Network Float
  received : List WebhookRequest
  journal : Journal

namespace Engine

def create (settings : Settings) (host : Host) (transport : Transport) (env : Environment)
    (clock : Float) (network : Network Float) : Engine :=
  { settings, host, transport, clock, network
    enabled := settings.enabled
    operators := .ofBuiltins settings.functions.builtin
    globals := settings.bindings.globals
    registry := .empty
    cache := .create settings.evaluation.cacheMaxEntries settings.evaluation.cacheTtl
    counters := .zero
    maintenance := .create settings.evaluation.cacheSweepInterval env
    ticks := 0
    next := 0
    received := []
    journal := .empty }

/-! The journal -/

def publish (e : Engine) (event : Event) : Engine := { e with journal := e.journal.publish event }

def note (e : Engine) (level logger message : String) (context : Log.Context) (extra : Fields) :
    Engine :=
  { e with journal := e.journal.note (.of e.host.now level logger message context extra) }

def logger : String := "rulecraft.rules.engine"
def registryLogger : String := "rulecraft.rules.registry"
def cacheLogger : String := "rulecraft.rules.cache"
def maintenanceLogger : String := "rulecraft.scheduler.maintenance"

/-! Rules and groups -/

def drafting (e : Engine) : Drafting := ⟨e.settings, e.operators, e.host.now, e.next⟩

def forget (e : Engine) (id : String) : Engine := { e with cache := (e.cache.invalidate id).2 }

def createRule (e : Engine) (definition : Fields) : Outcome Rule × Engine :=
  match e.registry.create e.drafting definition with
  | (.error f, registry) => (.error f, { e with registry := registry })
  | (.ok rule, registry) =>
    let e := { e with registry := registry, next := e.next + 1 + rule.actions.length }
    let e := e.note "INFO" registryLogger "rule_created" .none
      [("rule_id", .text rule.id), ("group", .ofText? rule.group)]
    let e := { e with counters := { e.counters with created := e.counters.created + 1 } }
    (.ok rule, e.publish (.ruleCreated rule.id rule.name))

def copyRule (e : Engine) (id : String) (fields : Fields) : Outcome Rule × Engine :=
  match e.registry.get id with
  | .error f => (.error f, e)
  | .ok rule =>
    let declared := rule.toFields
    e.createRule (Assoc.merge declared (fields.filter fun (key, _) => Assoc.contains declared key))

def updateRule (e : Engine) (id : String) (fields : Fields) : Outcome Rule × Engine :=
  match e.registry.update e.drafting id fields with
  | (.error f, registry) => (.error f, { e with registry := registry })
  | (.ok (rule, changed), registry) =>
    let e := { e with registry := registry, next := e.next + rule.actions.length }
    let e := (e.forget id).note "INFO" registryLogger "rule_updated" .none
      [("rule_id", .text id), ("fields", .texts changed)]
    (.ok rule, e.publish (.ruleUpdated id changed))

def deleteRule (e : Engine) (id : String) : Outcome Unit × Engine :=
  match e.registry.delete id with
  | (.error f, registry) => (.error f, { e with registry := registry })
  | (.ok (), registry) =>
    let e := ({ e with registry := registry }.forget id).note "INFO" registryLogger "rule_deleted"
      .none [("rule_id", .text id)]
    (.ok (), e.publish (.ruleDeleted id))

def listRules (e : Engine) (criteria : Value) : Outcome (List Rule) := do
  let criteria ← match criteria with
    | .null => pure RuleFilter.all
    | v => do
      let fields ← v.toFields
      Schema.conclude "RuleFilter" (fun report => .registry (.invalidFilter report))
        (RuleFilter.ofFields fields)
  return e.registry.list.filter criteria.accepts

def createGroup (e : Engine) (name mode maxRules : Value) : Outcome RuleGroup × Engine :=
  let (r, registry) := e.registry.createGroup e.settings name mode maxRules
  (r, { e with registry := registry })

/-! Operators and variables -/

def registerFunction (e : Engine) (name : String) (fn : Value) : Outcome Unit × Engine :=
  match e.operators.registerFunction name fn with
  | .ok operators => (.ok (), { e with operators := operators })
  | .error fault => (.error (.operator fault), e)

def registerOperator (e : Engine) (name : String) (fn : Value) : Outcome Unit × Engine :=
  match e.operators.registerOperator name fn with
  | .ok operators => (.ok (), { e with operators := operators })
  | .error fault => (.error (.operator fault), e)

def unregisterFunction (e : Engine) (name : String) : Bool × Engine :=
  ((e.operators.function? name).isSome, { e with operators := e.operators.unregisterFunction name })

def unregisterOperator (e : Engine) (name : String) : Bool × Engine :=
  ((e.operators.operator? name).isSome, { e with operators := e.operators.unregisterOperator name })

def isReadOnly (e : Engine) (name : String) : Bool := e.settings.bindings.readOnly.contains name

def setGlobal (e : Engine) (name : String) (value : Value) : Outcome Unit × Engine :=
  if e.isReadOnly name then (.error (.action (.readOnly name)), e)
  else (.ok (), { e with globals := Assoc.set e.globals name value })

def deleteGlobal (e : Engine) (name : String) : Outcome Bool × Engine :=
  if e.isReadOnly name then (.error (.action (.readOnly name)), e)
  else (.ok (Assoc.contains e.globals name), { e with globals := Assoc.erase e.globals name })

/-! Upkeep -/

def advance (e : Engine) (seconds : Float) : Engine := { e with clock := e.clock + seconds }

def start (e : Engine) : Engine :=
  { e with maintenance := e.maintenance.start }.note "INFO" logger "rule_engine_started" .none []

def clearCache (e : Engine) : Engine :=
  { e with cache := e.cache.clear }.note "INFO" logger "evaluation_cache_cleared" .none
    [("reason", .text "manual")]

def sweep (e : Engine) : Nat × Engine :=
  let (removed, cache) := e.cache.sweep e.clock
  let e := { e with cache := cache }
  let e := if removed = 0 then e else
    e.note "DEBUG" cacheLogger "evaluation_cache_swept" .none [("removed", .ofNat removed)]
  (removed, e.note "INFO" maintenanceLogger "cache_sweep_completed" .none
    [("removed", .ofNat removed), ("size", .ofNat cache.size)])

def matchRate (e : Engine) : Float :=
  if e.counters.evaluated == 0 then 0
  else Float.ofNat e.counters.matched / Float.ofNat e.counters.evaluated

def stats (e : Engine) : Fields :=
  let total := e.registry.rules.length
  let enabled := e.registry.enabledCount
  [("rules_created", .ofNat e.counters.created), ("evaluations", .ofNat e.counters.evaluations),
    ("rules_evaluated", .ofNat e.counters.evaluated), ("rules_matched", .ofNat e.counters.matched),
    ("actions_executed", .ofNat e.counters.executed), ("actions_failed", .ofNat e.counters.failed),
    ("errors", .ofNat e.counters.errors), ("match_rate", .float e.matchRate),
    ("rules", .object [("total", .ofNat total), ("enabled", .ofNat enabled),
      ("disabled", .ofNat (total - enabled)), ("groups", .ofNat e.registry.groups.length)]),
    ("cache", .object [("enabled", .bool e.settings.evaluation.cacheResults),
      ("size", .ofNat e.cache.size), ("hits", .ofNat e.cache.hits),
      ("misses", .ofNat e.cache.misses), ("hit_rate", .float e.cache.hitRate)]),
    ("global_variables", .ofNat e.globals.length), ("enabled", .bool e.enabled)]

end Engine
end DecisionRules
