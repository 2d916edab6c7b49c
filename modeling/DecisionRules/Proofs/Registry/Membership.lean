import DecisionRules.Proofs.Registry.Draft
import Mathlib.Data.List.Count
import Mathlib.Tactic.Tauto

/-! Rules and groups agree. Membership stands in two places, the configuration of a rule and the list
of its group; every operation, whether it succeeds or fails, keeps them in step. -/
namespace DecisionRules.Registry

def Seats (groups : Assoc RuleGroup) (id name : String) : Prop :=
  ∃ g, Assoc.get? groups name = some g ∧ id ∈ g.ruleIds

/-- Groups by their own names, none listing an identifier twice or more of them than it may. -/
structure Orderly (groups : Assoc RuleGroup) : Prop where
  unique : (Assoc.keys groups).Nodup
  named : ∀ {name g}, Assoc.get? groups name = some g → g.name = name
  once : ∀ {name g}, Assoc.get? groups name = some g → g.ruleIds.Nodup
  room : ∀ {name g}, Assoc.get? groups name = some g → (g.ruleIds.length : Int) ≤ max 0 g.maxRules

theorem setOrderly {groups : Assoc RuleGroup} (orderly : Orderly groups) {g : RuleGroup}
    {name : String} (named : g.name = name) (once : g.ruleIds.Nodup)
    (room : (g.ruleIds.length : Int) ≤ max 0 g.maxRules) : Orderly (Assoc.set groups name g) where
  unique := Assoc.uniqueSet orderly.unique name g
  named := by
    intro other h found
    rw [Assoc.getSet] at found
    split at found
    · rename_i same
      exact Option.some.inj found ▸ same ▸ named
    · exact orderly.named found
  once := by
    intro other h found
    rw [Assoc.getSet] at found
    split at found
    · exact Option.some.inj found ▸ once
    · exact orderly.once found
  room := by
    intro other h found
    rw [Assoc.getSet] at found
    split at found
    · exact Option.some.inj found ▸ room
    · exact orderly.room found

theorem eraseOrderly {groups : Assoc RuleGroup} (orderly : Orderly groups) (name : String) :
    Orderly (Assoc.erase groups name) := by
  have kept : ∀ {other g}, Assoc.get? (Assoc.erase groups name) other = some g →
      Assoc.get? groups other = some g := by
    intro other g found
    rw [Assoc.getErase orderly.unique] at found
    split at found
    · contradiction
    · exact found
  exact ⟨Assoc.uniqueErase orderly.unique name, fun found => orderly.named (kept found),
    fun found => orderly.once (kept found), fun found => orderly.room (kept found)⟩

theorem setSeats (groups : Assoc RuleGroup) (name : String) (g : RuleGroup) (id other : String) :
    Seats (Assoc.set groups name g) id other ↔
      if name = other then id ∈ g.ruleIds else Seats groups id other := by
  unfold Seats
  rw [Assoc.getSet]
  by_cases h : name = other <;> simp [h]

/-! Entering and leaving a group -/

theorem groupForSeats (s : Settings) (r : Registry) (id name : String) :
    id ∈ (r.groupFor s name).ruleIds ↔ Seats r.groups id name := by
  unfold groupFor Seats
  cases Assoc.get? r.groups name <;> simp

theorem groupForOrderly {r : Registry} (orderly : Orderly r.groups) (s : Settings) (name : String) :
    (r.groupFor s name).name = name ∧ (r.groupFor s name).ruleIds.Nodup ∧
    ((r.groupFor s name).ruleIds.length : Int) ≤ max 0 (r.groupFor s name).maxRules := by
  unfold groupFor
  cases h : Assoc.get? r.groups name with
  | none => exact ⟨rfl, List.nodup_nil, Int.le_max_left 0 _⟩
  | some g => exact ⟨orderly.named h, orderly.once h, orderly.room h⟩

/-- Entering a group either fails, and then no group lists anything new, or adds one member. -/
theorem attachCases (s : Settings) (r : Registry) (id name : String) :
    (r.attach s id name).2.rules = r.rules ∧
    ((r.attach s id name).1 = refuse (.groupFull name) ∧
        (r.attach s id name).2.groups = Assoc.set r.groups name (r.groupFor s name) ∨
      (r.attach s id name).1 = .ok () ∧
        ((r.groupFor s name).ruleIds.length : Int) < (r.groupFor s name).maxRules ∧
        (r.attach s id name).2.groups = Assoc.set r.groups name
          { r.groupFor s name with ruleIds := (r.groupFor s name).ruleIds ++ [id] }) := by
  unfold attach
  dsimp only
  by_cases full : (r.groupFor s name).maxRules ≤ (r.groupFor s name).ruleIds.length
  · rw [if_pos full]
    exact ⟨rfl, .inl ⟨rfl, rfl⟩⟩
  · rw [if_neg full]
    exact ⟨rfl, .inr ⟨rfl, by omega, rfl⟩⟩

theorem attachOrderly {r : Registry} (orderly : Orderly r.groups) {id name : String}
    (fresh : ¬ Seats r.groups id name) (s : Settings) : Orderly (r.attach s id name).2.groups := by
  obtain ⟨named, once, room⟩ := groupForOrderly orderly s name
  obtain ⟨_, ⟨_, same⟩ | ⟨_, vacant, same⟩⟩ := attachCases s r id name
  · rw [same]
    exact setOrderly orderly named once room
  · rw [same]
    refine setOrderly orderly named ?_ ?_
    · rw [← groupForSeats s] at fresh
      exact List.nodup_append.mpr ⟨once, List.nodup_singleton id, by
        intro a ha b hb same
        exact fresh ((List.mem_singleton.mp hb) ▸ same ▸ ha)⟩
    · simp only [List.length_append, List.length_singleton]
      omega

theorem attachSeats (s : Settings) (r : Registry) (id name member other : String) :
    Seats (r.attach s id name).2.groups member other ↔ Seats r.groups member other ∨
      ((r.attach s id name).1 = .ok () ∧ member = id ∧ other = name) := by
  obtain ⟨_, ⟨failed, same⟩ | ⟨entered, _, same⟩⟩ := attachCases s r id name
  · rw [failed, same, setSeats]
    by_cases h : name = other
    · subst h
      simp [groupForSeats, refuse]
    · simp [h, refuse]
  · rw [entered, same, setSeats]
    by_cases h : name = other
    · subst h
      simp [groupForSeats]
    · have different : other ≠ name := fun back => h back.symm
      simp [h, different]

theorem detachRules (r : Registry) (id name : String) : (r.detach id name).rules = r.rules := by
  unfold detach
  cases Assoc.get? r.groups name with
  | none => rfl
  | some g =>
    dsimp only
    split <;> rfl

theorem detachOrderly {r : Registry} (orderly : Orderly r.groups) (id name : String) :
    Orderly (r.detach id name).groups := by
  unfold detach
  cases found : Assoc.get? r.groups name with
  | none => exact orderly
  | some g =>
    dsimp only
    split
    · exact eraseOrderly orderly name
    · have named : g.name = name := orderly.named found
      refine setOrderly orderly named ((orderly.once found).erase id) ?_
      have fewer := (List.erase_sublist (a := id) (l := g.ruleIds)).length_le
      have room := orderly.room found
      dsimp only
      omega

theorem detachSeats {r : Registry} (orderly : Orderly r.groups) (id name member other : String) :
    Seats (r.detach id name).groups member other ↔
      Seats r.groups member other ∧ ¬ (member = id ∧ other = name) := by
  unfold detach
  cases found : Assoc.get? r.groups name with
  | none =>
    have nobody : ¬ Seats r.groups member name := fun ⟨_, there, _⟩ => by simp [found] at there
    exact ⟨fun seat => ⟨seat, fun ⟨_, same⟩ => nobody (same ▸ seat)⟩, And.left⟩
  | some g =>
    have left : member ∈ g.ruleIds.erase id ↔ member ≠ id ∧ member ∈ g.ruleIds :=
      (orderly.once found).mem_erase_iff
    have here : Seats r.groups member name ↔ member ∈ g.ruleIds := by
      simp [Seats, found]
    dsimp only
    split
    · rename_i empty
      have nobody : member ∉ g.ruleIds.erase id := by
        rw [List.isEmpty_iff.mp empty]
        exact List.not_mem_nil
      unfold Seats
      rw [Assoc.getErase orderly.unique]
      by_cases h : name = other
      · subst h
        have gone : ¬ (Seats r.groups member name ∧ ¬ member = id) := fun ⟨seat, different⟩ =>
          nobody (left.mpr ⟨different, here.mp seat⟩)
        simpa [Seats] using gone
      · have different : other ≠ name := fun back => h back.symm
        simp [h, different]
    · rw [setSeats]
      by_cases h : name = other
      · subst h
        simp only [if_true, left, here, and_true]
        tauto
      · have different : other ≠ name := fun back => h back.symm
        simp [h, different]

/-! The same for a group that a rule may not have -/

theorem attach?Rules (s : Settings) (r : Registry) (id : String) (group : Option String) :
    (r.attach? s id group).2.rules = r.rules := by
  cases group with
  | none => rfl
  | some name => exact (attachCases s r id name).1

theorem attach?Orderly {r : Registry} (orderly : Orderly r.groups) {id : String}
    {group : Option String} (fresh : ∀ name, group = some name → ¬ Seats r.groups id name)
    (s : Settings) : Orderly (r.attach? s id group).2.groups := by
  cases group with
  | none => exact orderly
  | some name => exact attachOrderly orderly (fresh name rfl) s

theorem attach?Seats (s : Settings) (r : Registry) (id : String) (group : Option String)
    (member other : String) :
    Seats (r.attach? s id group).2.groups member other ↔ Seats r.groups member other ∨
      ((r.attach? s id group).1 = .ok () ∧ member = id ∧ group = some other) := by
  cases group with
  | none => simp [attach?]
  | some name =>
    simp only [attach?, attachSeats, Option.some.injEq]
    rw [eq_comm (a := other)]

theorem detach?Rules (r : Registry) (id : String) (group : Option String) :
    (r.detach? id group).rules = r.rules := by
  cases group with
  | none => rfl
  | some name => exact detachRules r id name

theorem detach?Orderly {r : Registry} (orderly : Orderly r.groups) (id : String)
    (group : Option String) : Orderly (r.detach? id group).groups := by
  cases group with
  | none => exact orderly
  | some name => exact detachOrderly orderly id name

theorem detach?Seats {r : Registry} (orderly : Orderly r.groups) (id : String)
    (group : Option String) (member other : String) :
    Seats (r.detach? id group).groups member other ↔
      Seats r.groups member other ∧ ¬ (member = id ∧ group = some other) := by
  cases group with
  | none => simp [detach?]
  | some name =>
    simp only [detach?, detachSeats orderly, Option.some.injEq]
    rw [eq_comm (a := other)]

end DecisionRules.Registry
