import DecisionRules.Condition.Evaluate

/-! Work on a state, run: each way of putting it together by what it answers and leaves. Two pieces of
work are alike under a relation of states if they answer the same and keep their states related. -/
namespace DecisionRules.Run
variable {σ α β : Type}

theorem runBind (m : Run σ α) (k : α → Run σ β) (s : σ) :
    (m >>= k).run s = match m.run s with
      | (.ok a, s) => (k a).run s
      | (.error f, s) => (.error f, s) := by
  change ((ExceptT.bind m k).run s) = _
  simp only [ExceptT.bind, ExceptT.mk, ExceptT.run]
  simp only [bind, StateT.bind]
  cases m s with
  | mk r s =>
    cases r with
    | ok a => rfl
    | error f => rfl

theorem runSame {m m' : Run σ α} (same : ∀ s, m.run s = m'.run s) : m = m' := funext same

theorem runThen {m : Run σ α} {k : α → Run σ β} {s t : σ} {a : α} (first : m.run s = (.ok a, t)) :
    (m >>= k).run s = (k a).run t := by
  rw [runBind, first]

theorem runBindOk {m : Run σ α} {k : α → Run σ β} {s u : σ} {b : β}
    (ran : (m >>= k).run s = (.ok b, u)) : ∃ a t, m.run s = (.ok a, t) ∧ (k a).run t = (.ok b, u) := by
  rw [runBind] at ran
  split at ran
  · rename_i a t first
    exact ⟨a, t, first, ran⟩
  · cases ran

theorem runThrow (f : Failure) (s : σ) : (throw f : Run σ α).run s = (.error f, s) := rfl

theorem runGet (s : σ) : (get : Run σ σ).run s = (.ok s, s) := rfl

theorem runBasic (r : Except Breach α) (s : σ) :
    (Evaluator.basic r : Run σ α).run s = (Outcome.ofBreach r, s) := by
  cases r <;> rfl

theorem runOutcome (r : Outcome α) (s : σ) : (Evaluator.outcome r : Run σ α).run s = (r, s) := by
  cases r <;> rfl

/-- From related states, the same answer and related states. -/
def Alike (R : σ → σ → Prop) (m m' : Run σ α) : Prop :=
  ∀ s s', R s s' → ∃ r t t', m.run s = (r, t) ∧ m'.run s' = (r, t') ∧ R t t'

namespace Alike
variable {R : σ → σ → Prop}

theorem bind {m m' : Run σ α} {k k' : α → Run σ β} (first : Alike R m m')
    (next : ∀ a, Alike R (k a) (k' a)) : Alike R (m >>= k) (m' >>= k') := by
  intro s s' related
  obtain ⟨r, t, t', left, right, related⟩ := first s s' related
  rw [runBind, runBind, left, right]
  cases r with
  | ok a => exact next a t t' related
  | error g => exact ⟨.error g, t, t', rfl, rfl, related⟩

theorem read {k k' : σ → Run σ β} (next : ∀ s s', R s s' → Alike R (k s) (k' s')) :
    Alike R (get >>= k) (get >>= k') := by
  intro s s' related
  rw [runBind, runBind, runGet, runGet]
  exact next s s' related s s' related

theorem put {s s' : σ} (related : R s s') : Alike R (set s) (set s') :=
  fun _ _ _ => ⟨.ok ⟨⟩, s, s', rfl, rfl, related⟩

theorem change {g g' : σ → σ} (kept : ∀ s s', R s s' → R (g s) (g' s')) :
    Alike R (modify g) (modify g') :=
  fun s s' related => ⟨.ok ⟨⟩, g s, g' s', rfl, rfl, kept s s' related⟩

theorem pure (a : α) : Alike R (Pure.pure a) (Pure.pure a) :=
  fun s s' related => ⟨.ok a, s, s', rfl, rfl, related⟩

theorem throw (g : Failure) : Alike R (MonadExcept.throw g : Run σ α) (MonadExcept.throw g) :=
  fun s s' related => ⟨.error g, s, s', rfl, rfl, related⟩

theorem basic (r : Except Breach α) : Alike R (Evaluator.basic r) (Evaluator.basic r) :=
  fun s s' related => ⟨Outcome.ofBreach r, s, s', runBasic r s, runBasic r s', related⟩

theorem outcome (r : Outcome α) : Alike R (Evaluator.outcome r) (Evaluator.outcome r) :=
  fun s s' related => ⟨r, s, s', runOutcome r s, runOutcome r s', related⟩

theorem branch {c : Prop} [Decidable c] {m m' k k' : Run σ α} (yes : Alike R m m')
    (no : Alike R k k') : Alike R (if c then m else k) (if c then m' else k') := by
  split
  · exact yes
  · exact no

end Alike

/-- From this state, the work never fails in a bad way. -/
def Spares (bad : Failure → Bool) (m : Run σ α) (s : σ) : Prop :=
  ∀ f, (m.run s).1 = .error f → bad f = false

namespace Spares
variable {bad : Failure → Bool} {s : σ}

theorem bind {m : Run σ α} {k : α → Run σ β} (first : Spares bad m s)
    (next : ∀ a t, m.run s = (.ok a, t) → Spares bad (k a) t) : Spares bad (m >>= k) s := by
  intro f failed
  rw [runBind] at failed
  cases ran : m.run s with
  | mk r t =>
    rw [ran] at failed
    cases r with
    | ok a => exact next a t ran f failed
    | error g =>
      cases failed
      exact first f (by rw [ran])

theorem pure (a : α) : Spares bad (Pure.pure a : Run σ α) s := fun _ failed => by cases failed

theorem throw {f : Failure} (good : bad f = false) :
    Spares bad (MonadExcept.throw f : Run σ α) s := by
  intro g failed
  cases failed
  exact good

theorem basic (good : ∀ b, bad (.breach b) = false) (r : Except Breach α) :
    Spares bad (Evaluator.basic r : Run σ α) s := by
  cases r with
  | ok a => exact pure a
  | error b => exact throw (good b)

theorem outcome {r : Outcome α} (good : ∀ f, r = .error f → bad f = false) :
    Spares bad (Evaluator.outcome r : Run σ α) s := by
  cases r with
  | ok a => exact pure a
  | error f => exact throw (good f rfl)

theorem read {k : σ → Run σ β} (next : Spares bad (k s) s) : Spares bad (get >>= k) s := by
  intro f failed
  rw [runBind, runGet] at failed
  exact next f failed

end Spares
end DecisionRules.Run
