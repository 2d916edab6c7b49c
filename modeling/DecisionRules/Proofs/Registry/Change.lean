import DecisionRules.Proofs.Registry.Atomicity

/-! Changes that succeed, by what they do to the stored rules: a new rule comes in under its own
identifier, an update puts the next revision in the place of a rule, and a deletion takes one out. -/
namespace DecisionRules.Registry

theorem insertAccepts {s : Settings} {r : Registry} {rule stored : Rule}
    (ok : (r.insert s rule).1 = .ok stored) :
    stored = rule ∧ Assoc.contains r.rules rule.id = false ∧
    (r.insert s rule).2.rules = Assoc.set r.rules rule.id rule := by
  unfold insert at ok ⊢
  by_cases known : Assoc.contains r.rules rule.id
  · rw [if_pos known] at ok
    cases ok
  rw [if_neg known] at ok ⊢
  by_cases exhausted : s.maxRules ≤ r.rules.length
  · rw [if_pos exhausted] at ok
    cases ok
  rw [if_neg exhausted] at ok ⊢
  have rules := attach?Rules s r rule.id rule.group
  cases entered : r.attach? s rule.id rule.group with
  | mk outcome after =>
    rw [entered] at ok rules
    cases outcome with
    | error f => cases ok
    | ok _ =>
      cases ok
      exact ⟨rfl, by simpa using known, congrArg (Assoc.set · rule.id rule) rules⟩

theorem createAccepts {d : Drafting} {r : Registry} {definition : Fields} {stored : Rule}
    (ok : (r.create d definition).1 = .ok stored) :
    d.draft definition = .ok stored ∧ Assoc.contains r.rules stored.id = false ∧
    (r.create d definition).2.rules = Assoc.set r.rules stored.id stored := by
  unfold create at ok ⊢
  cases drafted : d.draft definition with
  | error f =>
    rw [drafted] at ok
    cases ok
  | ok rule =>
    rw [drafted] at ok
    obtain ⟨rfl, fresh, rules⟩ := insertAccepts ok
    exact ⟨rfl, fresh, rules⟩

theorem replaceAccepts {s : Settings} {r : Registry} {current updated stored : Rule}
    (ok : (r.replace s current updated).1 = .ok stored) :
    stored = updated ∧
    (r.replace s current updated).2.rules = Assoc.set r.rules updated.id updated := by
  unfold replace at ok ⊢
  by_cases stays : updated.group = current.group
  · rw [if_pos stays] at ok ⊢
    cases ok
    exact ⟨rfl, rfl⟩
  rw [if_neg stays] at ok ⊢
  have rules := attach?Rules s r updated.id updated.group
  cases entered : r.attach? s updated.id updated.group with
  | mk outcome after =>
    rw [entered] at ok rules
    cases outcome with
    | error f => cases ok
    | ok _ =>
      cases ok
      exact ⟨rfl, congrArg (Assoc.set · updated.id updated) ((detach?Rules after _ _).trans rules)⟩

theorem updateAccepts {d : Drafting} {r : Registry} {id : String} {given : Fields} {stored : Rule}
    {changed : List String} (ok : (r.update d id given).1 = .ok (stored, changed)) :
    ∃ current, r.rule? id = some current ∧ stored.id = current.id ∧ stored.stats = current.stats ∧
      stored.revision = current.revision + 1 ∧
      (r.update d id given).2.rules = Assoc.set r.rules stored.id stored := by
  unfold update at ok ⊢
  dsimp only at ok ⊢
  split at ok
  · cases ok
  · rename_i changes current updated planned
    simp only [bindAccepts, pureAccepts, Prod.mk.injEq] at planned
    obtain ⟨_, changed, _, found, _, revised, rfl, rfl, rfl⟩ := planned
    obtain ⟨_, replaced, same⟩ := mapAccepts.mp ok
    cases same
    obtain ⟨rfl, rules⟩ := replaceAccepts replaced
    obtain ⟨id, stats, revision⟩ :=
      Drafting.revisedKeeps (Drafting.changesAllowed changed (by decide)) revised
    exact ⟨_, getAccepts.mp found, id, stats, revision, rules⟩

theorem deleteAccepts {r : Registry} {id : String} (ok : (r.delete id).1 = .ok ()) :
    ∃ rule, r.rule? id = some rule ∧ (r.delete id).2.rules = Assoc.erase r.rules id := by
  unfold delete at ok ⊢
  cases found : r.get id with
  | error f =>
    rw [found] at ok
    cases ok
  | ok rule => exact ⟨rule, getAccepts.mp found, detach?Rules _ id rule.group⟩

theorem createGroupRules (s : Settings) (r : Registry) (name mode maxRules : Value) :
    (r.createGroup s name mode maxRules).2.rules = r.rules := by
  unfold createGroup
  split <;> rfl

theorem leftRules {s : Settings} {r after : Registry} {f : Failure} (left : Left s r f after) :
    after.rules = r.rules := by
  cases left <;> rfl

end DecisionRules.Registry
