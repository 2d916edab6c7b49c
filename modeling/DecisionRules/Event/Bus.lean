import DecisionRules.Event
import DecisionRules.Log.Record

/-!
A bus that hands events to subscribers. Subscriptions for a kind come first, kinds in the order in
which they were first subscribed to, then those for everything. Subscribers are told apart by
equality; one that fails is logged.
-/
namespace DecisionRules

structure EventBus (η : Type) where
  byKind : List (EventKind × List η)
  everything : List η
  deriving DecidableEq, Repr

structure Subscription (η : Type) where
  kind : Option EventKind
  subscriber : η
  deriving DecidableEq, Repr

namespace EventBus
variable {η : Type}

def empty : EventBus η := ⟨[], []⟩

def alter (change : List η → List η) (kind : EventKind) :
    List (EventKind × List η) → List (EventKind × List η)
  | [] => [(kind, change [])]
  | (k, subscribers) :: rest =>
    if k = kind then (k, change subscribers) :: rest else (k, subscribers) :: alter change kind rest

def subscribe (b : EventBus η) (s : Subscription η) : EventBus η :=
  match s.kind with
  | some k => { b with byKind := alter (· ++ [s.subscriber]) k b.byKind }
  | none => { b with everything := b.everything ++ [s.subscriber] }

/-- Ends the first subscription that is equal to this one, if there is one. -/
def unsubscribe [BEq η] (b : EventBus η) (s : Subscription η) : EventBus η :=
  match s.kind with
  | some k =>
    { b with byKind := b.byKind.map fun (kind, subscribers) =>
        (kind, if kind = k then subscribers.erase s.subscriber else subscribers) }
  | none => { b with everything := b.everything.erase s.subscriber }

def recipients (b : EventBus η) (kind : EventKind) : List η :=
  (b.byKind.filter fun (k, _) => k.covers kind).flatMap Prod.snd ++ b.everything

def logger : String := "rulecraft.rules.events"

def failureRecord (now : Int) (context : Log.Context) (e : Event) (raised : Log.Raised) :
    Log.Record :=
  { Log.Record.of now "ERROR" logger "event_handler_failed" context
      [("event_type", .text e.kind.name)] with raised := some raised }

/-- Hands an event to its recipients: who they are, and a record for each that fails. A failing one
keeps no other from the event. -/
def publish (b : EventBus η) (now : Int) (context : Log.Context) (fails : η → Option Log.Raised)
    (e : Event) : List η × List Log.Record :=
  let recipients := b.recipients e.kind
  (recipients, recipients.filterMap fun h => (fails h).map (failureRecord now context e))

end EventBus
end DecisionRules
