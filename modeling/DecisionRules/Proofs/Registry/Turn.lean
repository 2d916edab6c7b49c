import DecisionRules.Proofs.Registry.Change

/-! What a call does to the stored rules. At most one rule is touched: it comes in under a free
identifier, its next revision takes its place, what is counted of it is taken anew, or it goes. All
others stay. -/
namespace DecisionRules

/-- The same rule, but for what is counted of it. -/
def Rule.SameDefinition (a b : Rule) : Prop := b = { a with stats := b.stats }

theorem Rule.SameDefinition.refl (a : Rule) : a.SameDefinition a := rfl

theorem Rule.SameDefinition.trans {a b c : Rule} (first : a.SameDefinition b)
    (next : b.SameDefinition c) : a.SameDefinition c := by
  unfold SameDefinition at first next ⊢
  rw [next, first]

namespace Registry

structure Keyed (r : Registry) : Prop where
  unique : (Assoc.keys r.rules).Nodup
  named : ∀ {id rule}, r.rule? id = some rule → rule.id = id

theorem emptyKeyed : empty.Keyed := ⟨List.nodup_nil, by simp [rule?, empty, Assoc.get?]⟩

namespace Keyed
variable {r : Registry}

theorem known (keyed : r.Keyed) {rule : Rule} (listed : rule ∈ r.list) : r.rule? rule.id = some rule := by
  obtain ⟨id, found⟩ := Assoc.getOfMemValues keyed.unique listed
  rwa [keyed.named found]

theorem listIds (keyed : r.Keyed) : r.list.map Rule.id = Assoc.keys r.rules := by
  have own (entry : String × Rule) (member : entry ∈ r.rules) : entry.2.id = entry.1 :=
    keyed.named (Assoc.getOfMem keyed.unique member)
  simpa [list, Assoc.values, Assoc.keys] using own

end Keyed

/-- How a call changes the stored rules, with the identifier whose definition it puts out of force. -/
inductive Turn (r after : Registry) : Option String → Prop where
  | same (rules : after.rules = r.rules) : Turn r after none
  | created {rule : Rule} (fresh : r.rule? rule.id = none) (first : rule.revision = 0)
      (rules : after.rules = Assoc.set r.rules rule.id rule) : Turn r after none
  | recorded {current rule : Rule} (found : r.rule? rule.id = some current)
      (same : current.SameDefinition rule) (rules : after.rules = Assoc.set r.rules rule.id rule) :
      Turn r after none
  | updated {current rule : Rule} (found : r.rule? rule.id = some current)
      (next : rule.revision = current.revision + 1)
      (rules : after.rules = Assoc.set r.rules rule.id rule) : Turn r after (some rule.id)
  | deleted {id : String} {rule : Rule} (found : r.rule? id = some rule)
      (rules : after.rules = Assoc.erase r.rules id) : Turn r after (some id)

theorem storedRule {r after : Registry} {rule : Rule}
    (rules : after.rules = Assoc.set r.rules rule.id rule) (id : String) :
    after.rule? id = if rule.id = id then some rule else r.rule? id := by
  rw [rule?, rules, Assoc.getSet]
  rfl

theorem erasedRule {r after : Registry} (unique : (Assoc.keys r.rules).Nodup) {gone : String}
    (rules : after.rules = Assoc.erase r.rules gone) (id : String) :
    after.rule? id = if gone = id then none else r.rule? id := by
  rw [rule?, rules, Assoc.getErase unique]
  rfl

namespace Turn
variable {r after : Registry} {replaced : Option String}

theorem keyed (keyed : r.Keyed) (turn : Turn r after replaced) : after.Keyed := by
  have stored {rule : Rule} (rules : after.rules = Assoc.set r.rules rule.id rule) : after.Keyed := by
    refine ⟨rules ▸ Assoc.uniqueSet keyed.unique rule.id rule, fun {id other} found => ?_⟩
    rw [storedRule rules] at found
    split at found
    · rename_i same
      exact Option.some.inj found ▸ same
    · exact keyed.named found
  cases turn with
  | same rules =>
    refine ⟨rules ▸ keyed.unique, fun {id other} found => keyed.named (?_ : r.rule? id = some other)⟩
    rw [← found, rule?, rule?, rules]
  | created _ _ rules => exact stored rules
  | recorded _ _ rules => exact stored rules
  | updated _ _ rules => exact stored rules
  | deleted _ rules =>
    refine ⟨rules ▸ Assoc.uniqueErase keyed.unique _, fun {id other} found => ?_⟩
    rw [erasedRule keyed.unique rules] at found
    split at found
    · contradiction
    · exact keyed.named found

theorem kept (keyed : r.Keyed) (turn : Turn r after replaced) {id : String} {rule : Rule}
    (found : r.rule? id = some rule) (other : replaced ≠ some id) :
    ∃ current, after.rule? id = some current ∧ rule.SameDefinition current := by
  cases turn with
  | same rules => exact ⟨rule, by rw [← found, rule?, rule?, rules], .refl rule⟩
  | @created fresh absent _ rules =>
    have elsewhere : fresh.id ≠ id := by
      rintro rfl
      rw [absent] at found
      contradiction
    exact ⟨rule, by rw [storedRule rules, if_neg elsewhere, found], .refl rule⟩
  | @recorded current counted there same rules =>
    rw [storedRule rules]
    by_cases here : counted.id = id
    · rw [here, found] at there
      cases there
      exact ⟨counted, if_pos here, same⟩
    · exact ⟨rule, (if_neg here).trans found, .refl rule⟩
  | @updated _ next _ _ rules =>
    have elsewhere : next.id ≠ id := fun same => other (congrArg some same)
    exact ⟨rule, by rw [storedRule rules, if_neg elsewhere, found], .refl rule⟩
  | @deleted gone _ _ rules =>
    have elsewhere : gone ≠ id := fun same => other (congrArg some same)
    exact ⟨rule, by rw [erasedRule keyed.unique rules, if_neg elsewhere, found], .refl rule⟩

end Turn

/-! Calls -/

/-- The identifier, if the call for it went well. -/
def taken {α : Type} (id : String) : Outcome α → Option String
  | .ok _ => some id
  | .error _ => none

theorem createTurn (d : Drafting) (r : Registry) (definition : Fields) :
    Turn r (r.create d definition).2 none := by
  cases outcome : (r.create d definition).1 with
  | error f => exact .same (leftRules (createLeft outcome))
  | ok rule =>
    obtain ⟨drafted, fresh, rules⟩ := createAccepts outcome
    exact .created (Assoc.notContains.mp fresh) (Drafting.draftAccepts drafted).1 rules

theorem updateTurn {r : Registry} (keyed : r.Keyed) (d : Drafting) (id : String) (given : Fields) :
    Turn r (r.update d id given).2 (taken id (r.update d id given).1) := by
  cases outcome : (r.update d id given).1 with
  | error f => exact .same (leftRules (updateLeft outcome))
  | ok answer =>
    obtain ⟨current, found, own, _, next, rules⟩ := updateAccepts outcome
    have same : answer.1.id = id := own.trans (keyed.named found)
    rw [← same] at found
    have turn : Turn r (r.update d id given).2 (some answer.1.id) := .updated found next rules
    rw [same] at turn
    exact turn

theorem deleteTurn (s : Settings) (r : Registry) (id : String) :
    Turn r (r.delete id).2 (taken id (r.delete id).1) := by
  cases outcome : (r.delete id).1 with
  | error f => exact .same (leftRules (deleteLeft (s := s) outcome))
  | ok _ =>
    obtain ⟨rule, found, rules⟩ := deleteAccepts outcome
    exact .deleted found rules

theorem storeTurn {r : Registry} {current rule : Rule} (found : r.rule? rule.id = some current)
    (same : current.SameDefinition rule) : Turn r (r.store rule) none :=
  .recorded found same rfl

theorem recordTurn {r : Registry} (keyed : r.Keyed) (id : String) (now : Int) (duration : Float)
    (matched : Bool) (executed failed : Int) :
    Turn r (r.record id now duration matched executed failed) none := by
  unfold record
  cases found : r.rule? id with
  | none => exact .same rfl
  | some rule =>
    have own : r.rule? rule.id = some rule := (congrArg r.rule? (keyed.named found)).trans found
    exact storeTurn own rfl

theorem afterTurn {s : Settings} {r : Registry} (keyed : r.Keyed) (call : Call) :
    ∃ replaced, Turn r (r.after s call) replaced := by
  cases call with
  | create operators now next definition => exact ⟨_, createTurn _ r definition⟩
  | update operators now next id given => exact ⟨_, updateTurn keyed _ id given⟩
  | delete id => exact ⟨_, deleteTurn s r id⟩
  | createGroup name mode maxRules => exact ⟨_, .same (createGroupRules s r name mode maxRules)⟩
  | record id now duration matched executed failed =>
    exact ⟨_, recordTurn keyed id now duration matched executed failed⟩

theorem runKeyed {r : Registry} (keyed : r.Keyed) (s : Settings) (calls : List Call) :
    (r.run s calls).Keyed := by
  induction calls generalizing r with
  | nil => exact keyed
  | cons call rest ih =>
    obtain ⟨_, turn⟩ := afterTurn (s := s) keyed call
    exact ih (turn.keyed keyed)

end Registry
end DecisionRules
