import DecisionRules.Failure

/-! Outcomes taken apart: what a chain of steps that succeeds or fails says about each step, and which errors it
avoids when each step does. -/
namespace DecisionRules

theorem bindAccepts {ε α β : Type} {x : Except ε α} {f : α → Except ε β} {b : β} :
    (x >>= f) = .ok b ↔ ∃ a, x = .ok a ∧ f a = .ok b := by
  cases x <;> simp [bind, Except.bind]

theorem bindFails {ε α β : Type} {x : Except ε α} {f : α → Except ε β} {e : ε} :
    (x >>= f) = .error e ↔ x = .error e ∨ ∃ a, x = .ok a ∧ f a = .error e := by
  cases x <;> simp [bind, Except.bind]

theorem pureAccepts {ε α : Type} {a b : α} : (pure a : Except ε α) = .ok b ↔ a = b := by
  simp [pure, Except.pure]

theorem mapAccepts {ε α β : Type} {x : Except ε α} {f : α → β} {b : β} :
    x.map f = .ok b ↔ ∃ a, x = .ok a ∧ f a = b := by
  cases x <;> simp [Except.map]

theorem ofBreachAccepts {α : Type} {x : Except Breach α} {a : α} : Outcome.ofBreach x = .ok a ↔ x = .ok a := by
  cases x <;> simp [Outcome.ofBreach]

theorem liftAccepts {α : Type} {x : Except Breach α} {a : α} : (liftM x : Outcome α) = .ok a ↔ x = .ok a :=
  ofBreachAccepts

theorem liftFails {α : Type} {x : Except Breach α} {f : Failure} :
    (liftM x : Outcome α) = .error f ↔ ∃ b, x = .error b ∧ .breach b = f := by
  cases x <;> simp [liftM, monadLift, MonadLift.monadLift, Outcome.ofBreach]

theorem isOkAccepts {ε α : Type} {x : Except ε α} : x.isOk = true ↔ ∃ a, x = .ok a := by
  cases x <;> simp [Except.isOk, Except.toBool]

/-- The answer is no error that is bad. -/
def Avoids {ε α : Type} (bad : ε → Bool) (x : Except ε α) : Prop :=
  ∀ error, x = .error error → bad error = false

namespace Avoids
variable {ε α β : Type} {bad : ε → Bool}

theorem ok (a : α) : Avoids bad (.ok a) := fun _ failed => by cases failed

theorem error {e : ε} (good : bad e = false) : Avoids bad (.error e : Except ε α) := by
  intro _ failed
  cases failed
  exact good

theorem bind {x : Except ε α} {k : α → Except ε β} (first : Avoids bad x) (next : ∀ a, Avoids bad (k a)) :
    Avoids bad (x >>= k) := by
  cases x with
  | ok a => exact next a
  | error e => exact error (first e rfl)

theorem map {x : Except ε α} (f : α → β) (first : Avoids bad x) : Avoids bad (x.map f) := by
  cases x with
  | ok a => exact ok (f a)
  | error e => exact error (first e rfl)

theorem branch {c : Prop} [Decidable c] {x y : Except ε α} (yes : Avoids bad x) (no : Avoids bad y) :
    Avoids bad (if c then x else y) := by
  split
  · exact yes
  · exact no

theorem lift {bad : Failure → Bool} (good : ∀ b, bad (.breach b) = false) (x : Except Breach α) :
    Avoids bad (liftM x : Outcome α) := by
  cases x with
  | ok a => exact ok a
  | error b => exact error (good b)

end Avoids

end DecisionRules
