import Mathlib.Data.List.Induction
import Mathlib.Logic.Relation
import DecisionRules.Deadline.Forest
import DecisionRules.Proofs.Instant
import DecisionRules.Proofs.Webhook.Limits

/-! Tokens and what they come from, as a history of what was made and cancelled. A deadline is the earliest of a token
and those that it comes from, cancelling reaches a token and all that come from it, and what is stopped once stays
stopped, and so is all below it. -/
namespace DecisionRules

/-- Two instants that are numbers can be compared. -/
class Instant.Linear (τ : Type) [Instant τ] : Prop extends Instant.Ordered τ where
  total {a b : τ} : a ≤ a → b ≤ b → a ≤ b ∨ b ≤ a

instance : Instant.Linear Float where
  total {a b} number number' := by
    by_cases less : a < b
    · exact .inl (Place.ltLe less)
    · exact .inr (Place.leOfNotLt number' number less)

namespace Forest
variable {τ : Type}

structure Birth (τ : Type) where
  now : τ
  timeout : Option τ
  parent : Option Nat
  reason : String

inductive Act (τ : Type) where
  | plant (b : Birth τ)
  | cancel (token : Nat)

def births (acts : List (Act τ)) : List (Birth τ) :=
  acts.filterMap fun
    | .plant b => some b
    | .cancel _ => none

/-- Tokens come from tokens that were made before, and only tokens that were made are cancelled. -/
inductive Rooted : List (Act τ) → Prop where
  | bare : Rooted []
  | plant {acts b} (before : Rooted acts) (known : ∀ p ∈ b.parent, p < (births acts).length) :
      Rooted (acts ++ [.plant b])
  | cancel {acts i} (before : Rooted acts) (known : i < (births acts).length) : Rooted (acts ++ [.cancel i])

def parent? (acts : List (Act τ)) (i : Nat) : Option Nat := (births acts)[i]?.bind Birth.parent

/-- Is the second token the first one, or does the first one come from it? -/
def Under (acts : List (Act τ)) : Nat → Nat → Prop :=
  Relation.ReflTransGen fun i p => parent? acts i = some p

/-! Histories that go on -/

section
variable {acts since : List (Act τ)} {i j : Nat}

theorem birthsAppend : births (acts ++ since) = births acts ++ births since := List.filterMap_append

theorem Rooted.before {a : Act τ} (rooted : Rooted (acts ++ [a])) : Rooted acts := by
  generalize whole : acts ++ [a] = all at rooted
  cases rooted with
  | bare => simp at whole
  | plant before => exact (List.append_inj' whole rfl).1 ▸ before
  | cancel before => exact (List.append_inj' whole rfl).1 ▸ before

theorem Rooted.front (rooted : Rooted (acts ++ since)) : Rooted acts := by
  induction since using List.reverseRecOn with
  | nil => simpa using rooted
  | append_singleton since a ih =>
    rw [← List.append_assoc] at rooted
    exact ih rooted.before

theorem birthStays {b : Birth τ} (since : List (Act τ)) (born : (births acts)[i]? = some b) :
    (births (acts ++ since))[i]? = some b := by
  rw [birthsAppend, List.getElem?_append_left (List.getElem?_eq_some_iff.mp born).1, born]

theorem parentStays {p : Nat} (since : List (Act τ)) (from_ : parent? acts i = some p) :
    parent? (acts ++ since) i = some p := by
  obtain ⟨b, born, from_⟩ := Option.bind_eq_some_iff.mp from_
  exact Option.bind_eq_some_iff.mpr ⟨b, birthStays since born, from_⟩

theorem Under.stays (since : List (Act τ)) (under : Under acts i j) : Under (acts ++ since) i j :=
  Relation.ReflTransGen.mono (fun _ _ from_ => parentStays since from_) _ _ under

theorem Under.born (under : Under acts i j) (born : j < (births acts).length) : i < (births acts).length := by
  rcases Relation.ReflTransGen.cases_head under with rfl | ⟨p, from_, _⟩
  · exact born
  · obtain ⟨b, born, _⟩ := Option.bind_eq_some_iff.mp from_
    exact (List.getElem?_eq_some_iff.mp born).1

theorem Rooted.parentBefore (rooted : Rooted acts) {p : Nat} (from_ : parent? acts i = some p) : p < i := by
  induction rooted with
  | bare => simp [parent?, births] at from_
  | @plant acts b _ known ih =>
    obtain ⟨c, born, from_⟩ := Option.bind_eq_some_iff.mp from_
    rw [birthsAppend] at born
    by_cases old : i < (births acts).length
    · rw [List.getElem?_append_left old] at born
      exact ih (Option.bind_eq_some_iff.mpr ⟨c, born, from_⟩)
    · rw [List.getElem?_append_right (Nat.not_lt.mp old)] at born
      obtain ⟨within, same⟩ := List.getElem?_eq_some_iff.mp born
      have last : i = (births acts).length := by
        have single : (births [Act.plant b]).length = 1 := rfl
        omega
      have same : b = c := by simpa [births] using same
      exact last ▸ known p (same ▸ from_)
  | cancel _ _ ih => exact ih (by simpa [parent?, births] using from_)

theorem Rooted.cancelBorn (rooted : Rooted acts) (cancelled : .cancel i ∈ acts) : i < (births acts).length := by
  induction rooted with
  | bare => cases cancelled
  | plant _ _ ih =>
    rw [birthsAppend, List.length_append]
    exact Nat.lt_add_right _ (ih (by simpa using cancelled))
  | cancel _ known ih =>
    rw [birthsAppend, List.length_append]
    rcases List.mem_append.mp cancelled with old | new
    · exact Nat.lt_add_right _ (ih old)
    · cases List.mem_singleton.mp new
      exact Nat.lt_add_right _ known

end

/-! Cancelling -/

theorem deadlineCancel (f : Forest τ) (k i : Nat) : (f.cancel k).deadline? i = f.deadline? i := by
  unfold deadline? cancel
  rw [List.getElem?_modify]
  cases f[i]? with
  | none => rfl
  | some s =>
    by_cases here : k = i <;> simp [here]

section
variable {f : Forest τ} {s : Sprout τ} {i : Nat}

theorem flagsSnoc (f : Forest τ) (s : Sprout τ) : cancelledFlags (f ++ [s]) =
    f.cancelledFlags ++ [s.cancelled || (s.parent.bind fun p => f.cancelledFlags[p]?).getD false] := by
  unfold cancelledFlags
  rw [List.foldl_append]
  rfl

theorem flagsLength (f : Forest τ) : f.cancelledFlags.length = f.length := by
  induction f using List.reverseRecOn with
  | nil => rfl
  | append_singleton f s ih => rw [flagsSnoc, List.length_append, ih, List.length_append]; rfl

theorem cancelledOld (old : i < f.length) (s : Sprout τ) : isCancelled (f ++ [s]) i = f.isCancelled i := by
  unfold isCancelled
  rw [flagsSnoc, List.getElem?_append_left (by rwa [flagsLength])]

theorem cancelledNew (f : Forest τ) (s : Sprout τ) : isCancelled (f ++ [s]) f.length = true ↔
    s.cancelled = true ∨ ∃ p, s.parent = some p ∧ f.isCancelled p = true := by
  have last : isCancelled (f ++ [s]) f.length =
      (s.cancelled || (s.parent.bind fun p => f.cancelledFlags[p]?).getD false) := by
    rw [isCancelled, flagsSnoc, ← flagsLength f]
    simp
  rw [last, Bool.or_eq_true]
  cases s.parent with
  | none => simp
  | some p => simp [isCancelled]

theorem cancelledNone (beyond : f.length ≤ i) : f.isCancelled i = false := by
  rw [isCancelled, List.getElem?_eq_none (by rwa [flagsLength])]
  rfl

/-- A token is cancelled by its own flag or by that of the token it comes from, which is an older one. -/
theorem cancelledIff (older : ∀ i (s : Sprout τ) p, f[i]? = some s → s.parent = some p → p < i) (i : Nat) :
    f.isCancelled i = true ↔ ∃ s, f[i]? = some s ∧
      (s.cancelled = true ∨ ∃ p, s.parent = some p ∧ f.isCancelled p = true) := by
  induction f using List.reverseRecOn with
  | nil => simp [isCancelled, cancelledFlags]
  | append_singleton f s ih =>
    have before (j : Nat) (t : Sprout τ) (p : Nat) (found : f[j]? = some t) (from_ : t.parent = some p) : p < j := by
      have within := (List.getElem?_eq_some_iff.mp found).1
      exact older j t p (by rw [List.getElem?_append_left within, found]) from_
    rcases Nat.lt_trichotomy i f.length with old | rfl | beyond
    · rw [cancelledOld old, ih before, List.getElem?_append_left old]
      refine exists_congr fun t => and_congr_right fun found => or_congr_right ?_
      refine exists_congr fun p => and_congr_right fun from_ => ?_
      rw [cancelledOld (Nat.lt_trans (before i t p found from_) old)]
    · rw [cancelledNew]
      simp only [List.getElem?_concat_length, Option.some.injEq, exists_eq_left']
      refine or_congr_right (exists_congr fun p => and_congr_right fun from_ => ?_)
      rw [cancelledOld (older _ s p (by simp) from_)]
    · have nothing : (f ++ [s])[i]? = none := List.getElem?_eq_none (by simp; omega)
      rw [cancelledNone (by simp; omega), nothing]
      simp

end

/-! What a history leaves -/

section
variable [Instant τ]

def Birth.due (b : Birth τ) : Option τ := Token.deadlineAfter b.now b.timeout

def due? (acts : List (Act τ)) (i : Nat) : Option τ := (births acts)[i]?.bind Birth.due

def act (f : Forest τ) : Act τ → Forest τ
  | .plant b => f.plant b.now b.timeout b.parent b.reason
  | .cancel i => f.cancel i

def grow (acts : List (Act τ)) : Forest τ := acts.foldl act []

theorem growSnoc (acts : List (Act τ)) (a : Act τ) : grow (acts ++ [a]) = (grow acts).act a := by
  unfold grow
  rw [List.foldl_append]
  rfl

/-- A token as the history tells it: the one that was made at this place. -/
structure Told (acts : List (Act τ)) (f : Forest τ) (i : Nat) (b : Birth τ) (s : Sprout τ) : Prop where
  parent : s.parent = b.parent
  deadline : s.deadline = Token.tighter b.due (b.parent.bind f.deadline?)
  cancelled : s.cancelled = true ↔ .cancel i ∈ acts

structure Tells (acts : List (Act τ)) (f : Forest τ) : Prop where
  length : f.length = (births acts).length
  each : ∀ i b, (births acts)[i]? = some b → ∃ s, f[i]? = some s ∧ Told acts f i b s

theorem Tells.plant {acts : List (Act τ)} {f : Forest τ} {b : Birth τ} (tells : Tells acts f) (rooted : Rooted acts)
    (known : ∀ p ∈ b.parent, p < (births acts).length) : Tells (acts ++ [.plant b]) (f.act (.plant b)) := by
  have born : births (acts ++ [.plant b]) = births acts ++ [b] := birthsAppend
  have older {p : Nat} (before : p < f.length) : (f.act (.plant b)).deadline? p = f.deadline? p :=
    congrArg (·.bind Sprout.deadline) (List.getElem?_append_left before)
  have deadlines {c : Birth τ} (within : ∀ p ∈ c.parent, p < f.length) :
      c.parent.bind (f.act (.plant b)).deadline? = c.parent.bind f.deadline? := by
    cases from_ : c.parent with
    | none => rfl
    | some p => exact older (within p from_)
  refine ⟨by simp [born, ← tells.length, act, Forest.plant], fun i c found => ?_⟩
  rw [born] at found
  by_cases old : i < (births acts).length
  · rw [List.getElem?_append_left old] at found
    obtain ⟨s, there, told⟩ := tells.each i c found
    have within (p : Nat) (from_ : p ∈ c.parent) : p < f.length := by
      have before := rooted.parentBefore (Option.bind_eq_some_iff.mpr ⟨c, found, from_⟩)
      have length := tells.length
      omega
    have still : (f.act (.plant b))[i]? = some s :=
      (List.getElem?_append_left (by rw [tells.length]; exact old)).trans there
    exact ⟨s, still, told.parent, (deadlines within).symm ▸ told.deadline, by simpa using told.cancelled⟩
  · obtain ⟨last, rfl⟩ : i = f.length ∧ b = c := by
      rw [List.getElem?_append_right (Nat.not_lt.mp old)] at found
      have single := (List.getElem?_eq_some_iff.mp found).1
      have length := tells.length
      simp at single
      exact ⟨by omega, by simpa [show i - (births acts).length = 0 by omega] using found⟩
    have fresh : .cancel i ∉ acts := fun cancelled => old (rooted.cancelBorn cancelled)
    have within (p : Nat) (from_ : p ∈ b.parent) : p < f.length := tells.length ▸ known p from_
    refine ⟨_, by rw [last]; exact List.getElem?_concat_length, rfl, ?_, by simpa using fresh⟩
    rw [deadlines within]
    rfl

theorem Tells.cancel {acts : List (Act τ)} {f : Forest τ} (tells : Tells acts f) (k : Nat) :
    Tells (acts ++ [.cancel k]) (f.act (.cancel k)) := by
  have born : births (acts ++ [.cancel k]) = births acts := by simp [births]
  refine ⟨by simp [born, tells.length, act, Forest.cancel], fun i b found => ?_⟩
  obtain ⟨s, there, told⟩ := tells.each i b (born ▸ found)
  have deadlines : (f.act (.cancel k)).deadline? = f.deadline? := funext (deadlineCancel f k)
  refine ⟨if k = i then { s with cancelled := true } else s, ?_, ?_⟩
  · change (f.modify k _)[i]? = _
    rw [List.getElem?_modify, there]
    split <;> rfl
  · by_cases here : k = i
    · rw [if_pos here]
      exact ⟨told.parent, deadlines.symm ▸ told.deadline, by simp [here]⟩
    · rw [if_neg here]
      refine ⟨told.parent, deadlines.symm ▸ told.deadline, told.cancelled.trans ?_⟩
      simp [Ne.symm here]

theorem Rooted.tells {acts : List (Act τ)} (rooted : Rooted acts) : Tells acts (grow acts) := by
  induction rooted with
  | bare => exact ⟨rfl, fun i b found => by simp [births] at found⟩
  | plant before known tells =>
    rw [growSnoc]
    exact tells.plant before known
  | cancel before known tells =>
    rw [growSnoc]
    exact tells.cancel _

end

/-! One token, by the token it comes from -/

section
variable [Instant τ] {acts since : List (Act τ)} {i j k : Nat}

theorem Rooted.born (rooted : Rooted acts) {s : Sprout τ} (found : (grow acts)[i]? = some s) :
    ∃ b, (births acts)[i]? = some b ∧ Told acts (grow acts) i b s := by
  have within := (List.getElem?_eq_some_iff.mp found).1
  have born := List.getElem?_eq_getElem (rooted.tells.length ▸ within)
  obtain ⟨t, there, told⟩ := rooted.tells.each i _ born
  cases found.symm.trans there
  exact ⟨_, born, told⟩

theorem Rooted.cancelledStep (rooted : Rooted acts) (i : Nat) : (grow acts).isCancelled i = true ↔
    .cancel i ∈ acts ∨ ∃ p, parent? acts i = some p ∧ (grow acts).isCancelled p = true := by
  have parents {s : Sprout τ} {b : Birth τ} {i : Nat} (born : (births acts)[i]? = some b)
      (told : Told acts (grow acts) i b s) : s.parent = parent? acts i := by
    rw [told.parent, parent?, born]
    rfl
  have older (i : Nat) (s : Sprout τ) (p : Nat) (found : (grow acts)[i]? = some s) (from_ : s.parent = some p) :
      p < i := by
    obtain ⟨b, born, told⟩ := rooted.born found
    exact rooted.parentBefore ((parents born told).symm.trans from_)
  rw [cancelledIff older]
  constructor
  · rintro ⟨s, found, flagged⟩
    obtain ⟨b, born, told⟩ := rooted.born found
    rwa [told.cancelled, parents born told] at flagged
  · intro cancelled
    have known : i < (births acts).length := by
      rcases cancelled with own | ⟨p, from_, _⟩
      · exact rooted.cancelBorn own
      · obtain ⟨b, born, _⟩ := Option.bind_eq_some_iff.mp from_
        exact (List.getElem?_eq_some_iff.mp born).1
    have born := List.getElem?_eq_getElem known
    obtain ⟨s, found, told⟩ := rooted.tells.each i _ born
    exact ⟨s, found, by rwa [told.cancelled, parents born told]⟩

theorem Rooted.deadlineStep (rooted : Rooted acts) (i : Nat) : (grow acts).deadline? i =
    Token.tighter (due? acts i) ((parent? acts i).bind (grow acts).deadline?) := by
  by_cases known : i < (births acts).length
  · have born := List.getElem?_eq_getElem known
    obtain ⟨s, found, told⟩ := rooted.tells.each i _ born
    rw [deadline?, found, due?, parent?, born]
    exact told.deadline
  · have nothing : (births acts)[i]? = none := List.getElem?_eq_none (Nat.not_lt.mp known)
    have nothing' : (grow acts)[i]? = none := List.getElem?_eq_none (rooted.tells.length ▸ Nat.not_lt.mp known)
    rw [deadline?, nothing', due?, parent?, nothing]
    rfl

/-! All tokens on the way to the root -/

/-- A token is cancelled if it or one that it comes from was, before or after it was made. -/
theorem Rooted.cancelledUnder (rooted : Rooted acts) (i : Nat) :
    (grow acts).isCancelled i = true ↔ ∃ j, Under acts i j ∧ .cancel j ∈ acts := by
  induction i using Nat.strongRecOn with
  | _ i ih =>
    rw [rooted.cancelledStep]
    constructor
    · rintro (own | ⟨p, from_, above⟩)
      · exact ⟨i, .refl, own⟩
      · obtain ⟨j, under, cancelled⟩ := (ih p (rooted.parentBefore from_)).mp above
        exact ⟨j, .head from_ under, cancelled⟩
    · rintro ⟨j, under, cancelled⟩
      rcases Relation.ReflTransGen.cases_head under with rfl | ⟨p, from_, under⟩
      · exact .inl cancelled
      · exact .inr ⟨p, from_, (ih p (rooted.parentBefore from_)).mpr ⟨j, under, cancelled⟩⟩

/-- The least of these times, if there are any. -/
def Least (times : τ → Prop) : Option τ → Prop
  | none => ∀ d, ¬ times d
  | some d => times d ∧ ∀ e, times e → d ≤ e

theorem earlierBoth [Instant.Linear τ] {a b : τ} (number : a ≤ a) (number' : b ≤ b) :
    earlier a b ≤ a ∧ earlier a b ≤ b := by
  unfold earlier
  split
  · rename_i less
    exact ⟨(Instant.Linear.total number' number).resolve_right ((Instant.Ordered.before number' number).mp less),
      number'⟩
  · rename_i other
    have before := Instant.Ordered.before number' number
    exact ⟨number, Classical.byContradiction fun more => other (before.mpr more)⟩

theorem tighterLeast [Instant.Linear τ] {times times' : τ → Prop} {a b : Option τ} (least : Least times a)
    (least' : Least times' b) : Least (fun d => times d ∨ times' d) (Token.tighter a b) := by
  cases a with
  | none =>
    have others (d : τ) : (times d ∨ times' d) = times' d := propext (or_iff_right (least d))
    rwa [funext others]
  | some d =>
    cases b with
    | none =>
      have others (d : τ) : (times d ∨ times' d) = times d := propext (or_iff_left (least' d))
      rwa [funext others]
    | some e =>
      obtain ⟨own, below⟩ := least
      obtain ⟨own', below'⟩ := least'
      obtain ⟨first, second⟩ := earlierBoth (below d own) (below' e own')
      refine ⟨?_, fun f time => ?_⟩
      · unfold earlier
        split
        · exact .inr own'
        · exact .inl own
      · rcases time with time | time
        · exact Instant.Ordered.trans first (below f time)
        · exact Instant.Ordered.trans second (below' f time)

/-- Are all these times numbers, so that they can be compared? -/
def Timely (times : τ → Prop) : Prop := ∀ d, times d → d ≤ d

/-- The times when the token and those that it comes from are due. -/
def Due (acts : List (Act τ)) (i : Nat) (d : τ) : Prop := ∃ j, Under acts i j ∧ due? acts j = some d

theorem ownLeast (timely : Timely (due? acts i = some ·)) : Least (due? acts i = some ·) (due? acts i) := by
  cases due : due? acts i with
  | none => simp [Least]
  | some d =>
    refine ⟨rfl, fun e same => ?_⟩
    cases same
    exact timely d due

theorem Rooted.earliest [Instant.Linear τ] (rooted : Rooted acts) (i : Nat) (timely : Timely (Due acts i)) :
    Least (Due acts i) ((grow acts).deadline? i) := by
  induction i using Nat.strongRecOn with
  | _ i ih =>
    have own : Timely (due? acts i = some ·) := fun d due => timely d ⟨i, .refl, due⟩
    have above : Least (fun d => ∃ p, parent? acts i = some p ∧ Due acts p d)
        ((parent? acts i).bind (grow acts).deadline?) := by
      cases from_ : parent? acts i with
      | none => simp [Least]
      | some p =>
        have timely : Timely (Due acts p) := fun d ⟨j, under, due⟩ => timely d ⟨j, .head from_ under, due⟩
        simpa using ih p (rooted.parentBefore from_) timely
    have all (d : τ) : Due acts i d ↔ due? acts i = some d ∨ ∃ p, parent? acts i = some p ∧ Due acts p d := by
      constructor
      · rintro ⟨j, under, due⟩
        rcases Relation.ReflTransGen.cases_head under with rfl | ⟨p, from_, under⟩
        · exact .inl due
        · exact .inr ⟨p, from_, j, under, due⟩
      · rintro (due | ⟨p, from_, j, under, due⟩)
        · exact ⟨i, .refl, due⟩
        · exact ⟨j, .head from_ under, due⟩
    rw [rooted.deadlineStep, funext fun d => propext (all d)]
    exact tighterLeast (ownLeast own) above

/-! What raises -/

/-- The token's check fails: it is cancelled, or its deadline has come. -/
def Raises (f : Forest τ) (i : Nat) (t : τ) : Prop :=
  ∃ token failure, f.token? i = some token ∧ token.check t = .error failure

theorem raisesIff {f : Forest τ} {t : τ} : f.Raises i t ↔
    i < f.length ∧ (f.isCancelled i = true ∨ ∃ d, f.deadline? i = some d ∧ d ≤ t) := by
  unfold Raises token? deadline?
  cases found : f[i]? with
  | none => simp [List.getElem?_eq_none_iff.mp found]
  | some s =>
    have within := (List.getElem?_eq_some_iff.mp found).1
    simp only [Option.map_some, Option.some.injEq, Option.bind_some, within, true_and, exists_and_left,
      exists_eq_left']
    unfold Token.check Token.expired
    cases cancelled : f.isCancelled i with
    | true => simp
    | false =>
      cases due : s.deadline with
      | none => simp
      | some d => by_cases late : d ≤ t <;> simp [late]

theorem dueStays {d : τ} (since : List (Act τ)) (due : due? acts i = some d) : due? (acts ++ since) i = some d := by
  obtain ⟨b, born, due⟩ := Option.bind_eq_some_iff.mp due
  exact Option.bind_eq_some_iff.mpr ⟨b, birthStays since born, due⟩

theorem Due.stays {d : τ} (due : Due acts i d) (below : Under (acts ++ since) k i) : Due (acts ++ since) k d := by
  obtain ⟨j, under, due⟩ := due
  exact ⟨j, below.trans (under.stays since), dueStays since due⟩

/-- An evaluation without a limit, a rule of five seconds and an action of thirty; another action is made when the
rule has already run out, and the evaluation is cancelled in the end. -/
def busyTree : List (Act Float) :=
  [.plant ⟨1000, none, none, "evaluation"⟩, .plant ⟨1001, some 5, some 0, "rule r"⟩,
    .plant ⟨1002, some 30, some 1, "log action"⟩]

def busyTreeLater : List (Act Float) := [.plant ⟨1010, none, some 1, "custom action"⟩, .cancel 0]

end
end Forest
end DecisionRules
