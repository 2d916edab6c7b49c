import DecisionRules.Event
import DecisionRules.Log.Record

/-!
A journal of what an engine makes known: the events it publishes and the records it logs, each in
order.
-/
namespace DecisionRules

structure Journal where
  events : List Event
  records : List Log.Record

namespace Journal

def empty : Journal := ⟨[], []⟩

def publish (j : Journal) (e : Event) : Journal := { j with events := j.events ++ [e] }

def note (j : Journal) (r : Log.Record) : Journal := { j with records := j.records ++ [r] }

end Journal
end DecisionRules
