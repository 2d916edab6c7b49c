import DecisionRules.Proofs.Registry.Turn
import DecisionRules.Proofs.Statistics

/-! Statistics in the registry. A recording goes to one rule; a change of rules that takes none away keeps
what was recorded, and a new rule starts with nothing. -/
namespace DecisionRules.Registry

/-- What is recorded under an identifier. -/
def statsOf (r : Registry) (id : String) : RuleStats Float := (r.rule? id).elim .initial Rule.stats

def Knows (r : Registry) (id : String) : Prop := (r.rule? id).isSome = true

def enter (r : Registry) (id : String) : Option (Recording Float) → Registry
  | none => r
  | some entry => r.record id entry.now entry.duration entry.matched entry.executed entry.failed

theorem enterTurn {r : Registry} (keyed : r.Keyed) (id : String) (entry : Option (Recording Float)) :
    Turn r (r.enter id entry) none := by
  cases entry with
  | none => exact .same rfl
  | some entry => exact recordTurn keyed id entry.now entry.duration entry.matched _ _

theorem enterKnows {r : Registry} (keyed : r.Keyed) (id : String) (entry : Option (Recording Float))
    {other : String} (known : r.Knows other) : (r.enter id entry).Knows other := by
  obtain ⟨rule, found⟩ := Option.isSome_iff_exists.mp known
  obtain ⟨current, there, _⟩ := (enterTurn keyed id entry).kept keyed found (by simp)
  exact Option.isSome_iff_exists.mpr ⟨current, there⟩

theorem enterStats {r : Registry} (keyed : r.Keyed) {id : String} (known : r.Knows id)
    (entry : Option (Recording Float)) (other : String) :
    (r.enter id entry).statsOf other =
      if id = other then entry.elim (r.statsOf other) (r.statsOf other).enter else r.statsOf other := by
  cases entry with
  | none => simp [enter]
  | some entry =>
    obtain ⟨rule, found⟩ := Option.isSome_iff_exists.mp known
    let recorded : Rule := { rule with stats := rule.stats.enter entry }
    have own : recorded.id = id := (keyed.named found : rule.id = id)
    have stored : (r.enter id (some entry)).rules = Assoc.set r.rules recorded.id recorded := by
      simp only [enter, record, found]
      rfl
    rw [statsOf, storedRule stored]
    by_cases here : id = other
    · subst here
      simp only [if_pos own, if_true, Option.elim, statsOf, found, recorded]
    · simp [own, here, statsOf]

/-- The same is recorded under every identifier, and no rule has gone. -/
structure SameBooks (r after : Registry) : Prop where
  stats : ∀ id, after.statsOf id = r.statsOf id
  knows : ∀ {id}, r.Knows id → after.Knows id

namespace SameBooks
variable {r after : Registry}

theorem same (rules : after.rules = r.rules) : SameBooks r after := by
  have rule (id : String) : after.rule? id = r.rule? id := by rw [rule?, rule?, rules]
  exact ⟨fun id => by rw [statsOf, statsOf, rule id], fun {id} known => by rwa [Knows, rule id]⟩

theorem stored {rule : Rule} (rules : after.rules = Assoc.set r.rules rule.id rule)
    (kept : rule.stats = r.statsOf rule.id) : SameBooks r after := by
  refine ⟨fun id => ?_, fun {id} known => ?_⟩
  · rw [statsOf, storedRule rules]
    split
    · rename_i here
      exact here ▸ kept
    · rfl
  · rw [Knows, storedRule rules]
    split
    · rfl
    · exact known

end SameBooks

theorem createBooks (d : Drafting) (r : Registry) (definition : Fields) :
    SameBooks r (r.create d definition).2 := by
  cases outcome : (r.create d definition).1 with
  | error f => exact .same (leftRules (createLeft outcome))
  | ok rule =>
    obtain ⟨drafted, fresh, rules⟩ := createAccepts outcome
    have nothing : r.statsOf rule.id = .initial := by
      rw [statsOf, rule?, Assoc.notContains.mp fresh]
      rfl
    exact .stored rules ((Drafting.draftAccepts drafted).2.trans nothing.symm)

theorem updateBooks {r : Registry} (keyed : r.Keyed) (d : Drafting) (id : String) (given : Fields) :
    SameBooks r (r.update d id given).2 := by
  cases outcome : (r.update d id given).1 with
  | error f => exact .same (leftRules (updateLeft outcome))
  | ok answer =>
    obtain ⟨current, found, own, stats, _, rules⟩ := updateAccepts outcome
    have before : r.statsOf answer.1.id = current.stats := by
      rw [own.trans (keyed.named found), statsOf, found]
      rfl
    exact .stored rules (stats.trans before.symm)

end DecisionRules.Registry
