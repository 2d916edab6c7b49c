import DecisionRules.Proofs.Outcome
import DecisionRules.Proofs.Schema
import DecisionRules.Registry

/-! Definitions and changes of rules, as far as they are accepted. A new rule takes what its definition
gives; a change of a rule never reaches its identifier or its statistics. -/
namespace DecisionRules

theorem Rule.reviseAccepts {r built : Rule} {next : Nat} {fields : Fields}
    (ok : r.revise next fields = .ok built) :
    Schema.withDefault fields "id" r.id Schema.text = .ok built.id ∧
    Schema.withDefault fields "conditions" r.conditions Schema.anything = .ok built.conditions ∧
    built.stats = r.stats ∧ built.revision = r.revision := by
  simp only [Rule.revise, Schema.seqAccepts, Schema.mapAccepts] at ok
  obtain ⟨_, bindings, ⟨_, actions, ⟨_, conditions, ⟨_, config, ⟨_, enabled, ⟨_, description,
    ⟨_, name, ⟨id, hid, rfl⟩, _, rfl⟩, _, rfl⟩, _, rfl⟩, _, rfl⟩, hconditions, rfl⟩, _, rfl⟩,
    _, rfl⟩ := ok
  exact ⟨hid, hconditions, rfl, rfl⟩

namespace Drafting

theorem buildAccepts {base built : Rule} {next : Nat} {fields : Fields}
    (ok : build base next fields = .ok built) : base.revise next fields = .ok built := by
  simp only [build, bindAccepts, Schema.concludeAccepts] at ok
  obtain ⟨rule, revised, ok⟩ := ok
  split at ok
  · simp [throw, throwThe, MonadExceptOf.throw, bind, Except.bind] at ok
  · exact pureAccepts.mp ok ▸ revised

theorem draftAccepts {d : Drafting} {definition : Fields} {rule : Rule}
    (ok : d.draft definition = .ok rule) : rule.revision = 0 ∧ rule.stats = .initial := by
  simp only [draft, bindAccepts] at ok
  obtain ⟨_, _, _, _, _, _, _, _, _, _, built⟩ := ok
  obtain ⟨_, _, stats, revision⟩ := Rule.reviseAccepts (buildAccepts built)
  exact ⟨revision, stats⟩

theorem changesAllowed {d : Drafting} {given changes : Fields} (ok : d.changes given = .ok changes)
    {key : String} (fixed : key ∉ updatableKeys) : Assoc.get? changes key = none := by
  simp only [Drafting.changes, bindAccepts, liftAccepts, pureAccepts] at ok
  obtain ⟨folded, _, _, _, rfl⟩ := ok
  exact (Assoc.getFilter folded updatableKeys.contains key).trans (by simp [fixed])

theorem revisedKeeps {d : Drafting} {current updated : Rule} {changes : Fields}
    (fixed : Assoc.get? changes "id" = none) (ok : d.revised current changes = .ok updated) :
    updated.id = current.id ∧ updated.stats = current.stats ∧
    updated.revision = current.revision + 1 := by
  obtain ⟨fields, absent, built⟩ : ∃ fields : Fields, Assoc.get? fields "id" = none ∧
      build { current with
        metadata := { current.metadata with updatedAt := d.now }
        revision := current.revision + 1 } d.next fields = .ok updated := by
    unfold revised at ok
    split at ok
    · exact ⟨changes, fixed, ok⟩
    · simp only [bindAccepts, pureAccepts, exists_eq_left'] at ok
      obtain ⟨config, _, built⟩ := ok
      exact ⟨_, by simp [Assoc.getSet, fixed], built⟩
  obtain ⟨id, _, stats, revision⟩ := Rule.reviseAccepts (buildAccepts built)
  rw [Schema.withDefaultAbsent absent] at id
  exact ⟨(Schema.Checked.ok.inj id).symm, stats, revision⟩

end Drafting
end DecisionRules
