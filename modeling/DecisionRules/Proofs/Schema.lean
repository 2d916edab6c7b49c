import DecisionRules.Proofs.Assoc
import DecisionRules.Schema.Coerce

/-! What a coercion that succeeds says about its input. A model is accepted exactly if all of its fields
are, and a field that is not given has its default. -/
namespace DecisionRules.Schema
variable {α β ε : Type}

theorem mapAccepts {f : α → β} {x : Checked α} {b : β} :
    f <$> x = Checked.ok b ↔ ∃ a, x = .ok a ∧ f a = b := by
  change Checked.map f x = _ ↔ _
  cases x with
  | ok a => simp [Checked.map]
  | faulty issues => simp [Checked.map]

theorem seqAccepts {f : Checked (α → β)} {x : Checked α} {b : β} :
    f <*> x = Checked.ok b ↔ ∃ g a, f = .ok g ∧ x = .ok a ∧ g a = b := by
  change Checked.both f x = _ ↔ _
  cases f with
  | ok g => cases x with
    | ok a => simp [Checked.both]
    | faulty issues => simp [Checked.both]
  | faulty issues => cases x with
    | ok a => simp [Checked.both]
    | faulty more => simp [Checked.both]

theorem underAccepts {step : String} {x : Checked α} {a : α} :
    Checked.under step x = .ok a ↔ x = .ok a := by
  cases x <;> simp [Checked.under]

theorem concludeAccepts {name : String} {fault : Report → ε} {x : Checked α} {a : α} :
    conclude name fault x = .ok a ↔ x = .ok a := by
  cases x <;> simp [conclude]

theorem withDefaultAbsent {fields : Fields} {key : String} (absent : Assoc.get? fields key = none)
    (default : α) (c : Coercion α) : withDefault fields key default c = .ok default := by
  simp [withDefault, absent]

theorem withDefaultGiven {fields : Fields} {key : String} {v : Value}
    (given : Assoc.get? fields key = some v) (default : α) (c : Coercion α) :
    withDefault fields key default c = (c v).under key := by
  simp [withDefault, given]

theorem requireAccepts {test : α → Bool} {kind : IssueKind} {x : Checked α} {a : α} :
    Checked.require test kind x = .ok a ↔ x = .ok a ∧ test a = true := by
  cases x with
  | ok b =>
    by_cases h : test b
    · simp only [Checked.require, h, if_true, Checked.ok.injEq]
      exact ⟨fun same => ⟨same, same ▸ h⟩, And.left⟩
    · simp only [Checked.require, h, Checked.fault]
      exact ⟨fun impossible => by simp at impossible, fun ⟨same, good⟩ =>
        absurd (Checked.ok.inj same ▸ good) h⟩
  | faulty issues => simp [Checked.require]

theorem textAccepts {v : Value} {s : String} : text v = .ok s ↔ v = .text s := by
  cases v <;> simp [text, Checked.fault]

theorem modelAccepts {build : Fields → Checked α} {v : Value} {a : α} :
    model build v = .ok a ↔ ∃ fields, v = .object fields ∧ build fields = .ok a := by
  cases v <;> simp [model, Checked.fault]

theorem requiredAccepts {fields : Fields} {key : String} {c : Coercion α} {a : α} :
    required fields key c = .ok a ↔ ∃ v, Assoc.get? fields key = some v ∧ c v = .ok a := by
  unfold required
  cases Assoc.get? fields key with
  | none => simp [Checked.under, Checked.fault]
  | some v => simp [underAccepts]

end DecisionRules.Schema
