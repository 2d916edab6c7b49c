import DecisionRules.Assoc
import Mathlib.Data.List.Nodup
import Mathlib.Logic.Function.Basic

/-! Laws of maps that keep the order of their keys. Reading what was written or dropped needs no more
than `get?`; that a dropped key is gone needs keys to be unique, which writing and dropping keep. -/
namespace DecisionRules.Assoc
variable {α : Type}

theorem getSet (m : Assoc α) (k key : String) (v : α) :
    get? (set m k v) key = if k = key then some v else get? m key := by
  induction m with
  | nil => simp [set, get?]
  | cons e rest ih =>
    obtain ⟨j, w⟩ := e
    by_cases hj : j = k
    · subst hj
      by_cases hk : j = key <;> simp [set, get?, hk]
    · by_cases hk : j = key
      · subst hk
        simp [set, get?, hj, Ne.symm hj]
      · simp [set, get?, hj, hk, ih]

theorem getSetOther (m : Assoc α) {k key : String} (other : k ≠ key) (v : α) :
    get? (set m k v) key = get? m key := by rw [getSet, if_neg other]

theorem containsIff {m : Assoc α} {k : String} : contains m k = true ↔ k ∈ keys m := by
  induction m with
  | nil => simp [contains, get?, keys]
  | cons e rest ih =>
    obtain ⟨j, w⟩ := e
    by_cases h : j = k
    · simp [contains, get?, keys, h]
    · have other : k ≠ j := fun same => h same.symm
      simpa [contains, get?, keys, h, other] using ih

theorem notContains {m : Assoc α} {k : String} : contains m k = false ↔ get? m k = none := by
  simp [contains]

theorem keysSet (m : Assoc α) (k : String) (v : α) :
    keys (set m k v) = if k ∈ keys m then keys m else keys m ++ [k] := by
  induction m with
  | nil => simp [set, keys]
  | cons e rest ih =>
    obtain ⟨j, w⟩ := e
    by_cases h : j = k
    · simp [set, keys, h]
    · have other : k ≠ j := fun same => h same.symm
      simp only [keys] at ih
      simp only [set, h, if_false, keys, List.map_cons, ih, List.mem_cons, other, false_or]
      by_cases there : k ∈ rest.map Prod.fst <;> simp [there]

theorem keysErase (m : Assoc α) (k : String) : keys (erase m k) = (keys m).erase k := by
  induction m with
  | nil => rfl
  | cons e rest ih =>
    obtain ⟨j, w⟩ := e
    by_cases h : j = k
    · simp [erase, keys, h]
    · simp only [keys] at ih
      simp [erase, keys, h, ih]

theorem uniqueSet {m : Assoc α} (unique : (keys m).Nodup) (k : String) (v : α) :
    (keys (set m k v)).Nodup := by
  rw [keysSet]
  split
  · exact unique
  · rename_i fresh
    exact List.nodup_append.mpr ⟨unique, List.nodup_singleton k, by
      intro a ha b hb same
      exact fresh ((List.mem_singleton.mp hb) ▸ same ▸ ha)⟩

theorem uniqueErase {m : Assoc α} (unique : (keys m).Nodup) (k : String) :
    (keys (erase m k)).Nodup := by
  rw [keysErase]
  exact unique.erase k

theorem getErase {m : Assoc α} (unique : (keys m).Nodup) (k key : String) :
    get? (erase m k) key = if k = key then none else get? m key := by
  induction m with
  | nil => simp [erase, get?]
  | cons e rest ih =>
    obtain ⟨j, w⟩ := e
    obtain ⟨fresh, tail⟩ := List.nodup_cons.mp unique
    by_cases hj : j = k
    · subst hj
      by_cases hk : j = key
      · subst hk
        have gone : get? rest j = none := notContains.mp
          (Bool.eq_false_iff.mpr fun there => fresh (containsIff.mp there))
        simp [erase, gone]
      · simp [erase, get?, hk]
    · by_cases hk : j = key
      · subst hk
        simp [erase, get?, hj, Ne.symm hj]
      · simp [erase, get?, hj, hk, ih tail]

theorem getEraseOther (m : Assoc α) {k key : String} (other : k ≠ key) :
    get? (erase m k) key = get? m key := by
  induction m with
  | nil => rfl
  | cons e rest ih =>
    obtain ⟨j, w⟩ := e
    by_cases hj : j = k
    · subst hj
      simp [erase, get?, other]
    · simp [erase, get?, hj, ih]

/-! Maps as what they bind -/

theorem setUpdates (m : Assoc α) (k : String) (v : α) :
    get? (set m k v) = Function.update (get? m) k (some v) := by
  funext key
  rw [getSet, Function.update_apply]
  simp only [eq_comm]

theorem eraseUpdates {m : Assoc α} (unique : (keys m).Nodup) (k : String) :
    get? (erase m k) = Function.update (get? m) k none := by
  funext key
  rw [getErase unique, Function.update_apply]
  simp only [eq_comm]

theorem setSame {m : Assoc α} {k : String} {v : α} (found : get? m k = some v) : set m k v = m := by
  induction m with
  | nil => simp [get?] at found
  | cons e rest ih =>
    obtain ⟨j, w⟩ := e
    by_cases h : j = k
    · simp only [get?, h, if_true, Option.some.injEq] at found
      simp [set, h, found]
    · simp only [get?, h, if_false] at found
      simp [set, h, ih found]

theorem setFresh {m : Assoc α} {k : String} (fresh : contains m k = false) (v : α) :
    set m k v = m ++ [(k, v)] := by
  induction m with
  | nil => rfl
  | cons e rest ih =>
    obtain ⟨j, w⟩ := e
    by_cases h : j = k
    · simp [contains, get?, h] at fresh
    · have absent : contains rest k = false := by simpa [contains, get?, h] using fresh
      simp [set, h, ih absent]

theorem setKnown {m : Assoc α} (unique : (keys m).Nodup) {k : String} (known : contains m k = true) (v : α) :
    set m k v = m.map fun e => (e.1, if e.1 = k then v else e.2) := by
  induction m with
  | nil => simp [contains, get?] at known
  | cons e rest ih =>
    obtain ⟨j, w⟩ := e
    obtain ⟨alone, others⟩ := List.nodup_cons.mp unique
    by_cases h : j = k
    · subst h
      have apart : ∀ e ∈ rest, (e.1, if e.1 = j then v else e.2) = e := fun e member => by
        have other : e.1 ≠ j := fun same => alone (same ▸ List.mem_map.mpr ⟨e, member, rfl⟩)
        simp [other]
      simp [set, List.map_congr_left apart]
    · simp [set, h, ih others (by simpa [contains, get?, h] using known)]

theorem memSet {m : Assoc α} {k : String} {v : α} {e : String × α} (there : e ∈ set m k v) :
    e ∈ m ∨ e = (k, v) := by
  induction m with
  | nil => exact .inr (List.mem_singleton.mp there)
  | cons f rest ih =>
    obtain ⟨j, w⟩ := f
    unfold set at there
    split at there
    · rename_i same
      rcases List.mem_cons.mp there with here | there
      · exact .inr (same ▸ here)
      · exact .inl (List.mem_cons_of_mem _ there)
    · rcases List.mem_cons.mp there with here | there
      · exact .inl (here ▸ List.mem_cons_self)
      · exact (ih there).imp_left (List.mem_cons_of_mem _)

theorem memErase {m : Assoc α} {k : String} {e : String × α} (there : e ∈ erase m k) : e ∈ m := by
  induction m with
  | nil => exact there
  | cons f rest ih =>
    obtain ⟨j, w⟩ := f
    unfold erase at there
    split at there
    · exact List.mem_cons_of_mem _ there
    · rcases List.mem_cons.mp there with here | there
      · exact here ▸ List.mem_cons_self
      · exact List.mem_cons_of_mem _ (ih there)

theorem memOfGet {m : Assoc α} {k : String} {v : α} (found : get? m k = some v) : (k, v) ∈ m := by
  induction m with
  | nil => simp [get?] at found
  | cons e rest ih =>
    obtain ⟨j, w⟩ := e
    by_cases h : j = k
    · simp only [get?, h, if_true, Option.some.injEq] at found
      simp [h, found]
    · simp only [get?, h, if_false] at found
      exact List.mem_cons_of_mem _ (ih found)

theorem getOfMem {m : Assoc α} (unique : (keys m).Nodup) {k : String} {v : α} (there : (k, v) ∈ m) :
    get? m k = some v := by
  induction m with
  | nil => simp at there
  | cons e rest ih =>
    obtain ⟨j, w⟩ := e
    obtain ⟨fresh, tail⟩ := List.nodup_cons.mp unique
    rcases List.mem_cons.mp there with same | there
    · cases same
      simp [get?]
    · have other : j ≠ k := fun same =>
        fresh (same ▸ List.mem_map.mpr ⟨_, there, rfl⟩)
      simp [get?, other, ih tail there]

theorem getOfMemValues {m : Assoc α} (unique : (keys m).Nodup) {v : α} (there : v ∈ values m) :
    ∃ k, get? m k = some v := by
  obtain ⟨⟨k, w⟩, mem, rfl⟩ := List.mem_map.mp there
  exact ⟨k, getOfMem unique mem⟩

theorem lengthSetFresh {m : Assoc α} {k : String} (fresh : contains m k = false) (v : α) :
    (set m k v).length = m.length + 1 := by
  simp [setFresh fresh]

theorem lengthSetKnown {m : Assoc α} {k : String} (known : contains m k = true) (v : α) :
    (set m k v).length = m.length := by
  have counted := congrArg List.length (keysSet m k v)
  rw [if_pos (containsIff.mp known)] at counted
  simpa [keys] using counted

theorem lengthErase (m : Assoc α) (k : String) : (erase m k).length ≤ m.length := by
  have counted := congrArg List.length (keysErase m k)
  have fewer := (List.erase_sublist (a := k) (l := keys m)).length_le
  simp only [keys, List.length_map] at counted fewer
  omega

theorem lengthEraseKnown {m : Assoc α} {k : String} (known : contains m k = true) :
    (erase m k).length + 1 = m.length := by
  have member := containsIff.mp known
  have counted := congrArg List.length (keysErase m k)
  have positive := List.length_pos_of_mem member
  rw [List.length_erase_of_mem member] at counted
  simp only [keys, List.length_map] at counted positive
  omega

theorem getFilter (m : Assoc α) (p : String → Bool) (k : String) :
    get? (m.filter fun e => p e.1) k = if p k then get? m k else none := by
  induction m with
  | nil => simp [get?]
  | cons e rest ih =>
    obtain ⟨j, w⟩ := e
    by_cases hp : p j
    · by_cases hk : j = k
      · subst hk
        simp [get?, hp]
      · simp [get?, hp, hk, ih]
    · by_cases hk : j = k
      · subst hk
        simp [hp, ih]
      · simp [get?, hp, hk, ih]

theorem getMapValues {β : Type} (f : α → β) (m : Assoc α) (k : String) :
    get? (mapValues f m) k = (get? m k).map f := by
  induction m with
  | nil => rfl
  | cons e rest ih =>
    by_cases same : e.1 = k
    · simp [mapValues, get?, same]
    · simpa [mapValues, get?, same] using ih

theorem getFilterValues {m : Assoc α} (unique : (keys m).Nodup) (p : α → Bool) (k : String) :
    get? (m.filter fun e => p e.2) k = (get? m k).filter p := by
  induction m with
  | nil => rfl
  | cons e rest ih =>
    obtain ⟨j, v⟩ := e
    obtain ⟨alone, others⟩ := List.nodup_cons.mp unique
    have later := ih others
    by_cases here : j = k
    · subst here
      have gone : get? rest j = none :=
        notContains.mp (Bool.eq_false_iff.mpr fun there => alone (containsIff.mp there))
      rw [gone] at later
      cases kept : p v <;> simp [get?, kept, later, Option.filter]
    · cases kept : p v <;> simp [get?, kept, here, later]

theorem getMergeAlike {m extra : Assoc α} {k : String} {v : α} (alike : ∀ e ∈ extra, e.2 = v)
    (there : get? m k = some v ∨ k ∈ keys extra) : get? (merge m extra) k = some v := by
  induction extra generalizing m with
  | nil => simpa [keys, merge] using there
  | cons e rest ih =>
    simp only [List.mem_cons, forall_eq_or_imp] at alike
    refine ih alike.2 ?_
    rw [getSet]
    by_cases same : e.1 = k
    · simp [same, alike.1]
    · rcases there with found | member
      · simp [same, found]
      · simp only [keys, List.map_cons, List.mem_cons] at member
        exact .inr (member.resolve_left fun other => same other.symm)

theorem getMerge (m : Assoc α) {extra : Assoc α} (unique : (keys extra).Nodup) (k : String) :
    get? (merge m extra) k = (get? extra k).or (get? m k) := by
  induction extra generalizing m with
  | nil => rfl
  | cons e rest ih =>
    obtain ⟨j, v⟩ := e
    obtain ⟨alone, others⟩ := List.nodup_cons.mp unique
    have later := ih (set m j v) others
    rw [getSet] at later
    by_cases here : j = k
    · subst here
      have gone : get? rest j = none :=
        notContains.mp (Bool.eq_false_iff.mpr fun there => alone (containsIff.mp there))
      simpa [merge, get?, gone] using later
    · simpa [merge, get?, here] using later

theorem uniqueMerge {m : Assoc α} (unique : (keys m).Nodup) (extra : Assoc α) :
    (keys (merge m extra)).Nodup := by
  induction extra generalizing m with
  | nil => exact unique
  | cons e rest ih => exact ih (uniqueSet unique e.1 e.2)

/-! What stands around a binding -/

theorem keysAppend (m extra : Assoc α) : keys (m ++ extra) = keys m ++ keys extra := List.map_append

theorem setSplits (m : Assoc α) (k : String) :
    ∃ front back, k ∉ keys front ∧ ∀ v, set m k v = front ++ (k, v) :: back := by
  induction m with
  | nil => exact ⟨[], [], List.not_mem_nil, fun _ => rfl⟩
  | cons e rest ih =>
    obtain ⟨j, w⟩ := e
    by_cases same : j = k
    · exact ⟨[], rest, List.not_mem_nil, fun v => by simp [set, same]⟩
    · obtain ⟨front, back, fresh, splits⟩ := ih
      refine ⟨(j, w) :: front, back, fun there => ?_, fun v => by simp [set, same, splits]⟩
      rcases List.mem_cons.mp there with first | later
      · exact same first.symm
      · exact fresh later

section
variable {k : String} {front extra : Assoc α}

theorem setCovers (fresh : k ∉ keys front) (back : Assoc α) (v w : α) :
    set (front ++ (k, v) :: back) k w = front ++ (k, w) :: back := by
  induction front with
  | nil => simp [set]
  | cons e rest ih =>
    simp only [keys, List.map_cons, List.mem_cons, not_or] at fresh
    simp [set, Ne.symm fresh.1, ih fresh.2]

theorem setBeside {other : String} (apart : k ≠ other) (fresh : k ∉ keys front) (back : Assoc α) (w : α) :
    ∃ front' back', k ∉ keys front' ∧
      ∀ v, set (front ++ (k, v) :: back) other w = front' ++ (k, v) :: back' := by
  induction front with
  | nil => exact ⟨[], set back other w, List.not_mem_nil, fun v => by simp [set, apart]⟩
  | cons e rest ih =>
    obtain ⟨j, u⟩ := e
    simp only [keys, List.map_cons, List.mem_cons, not_or] at fresh
    by_cases same : j = other
    · refine ⟨(j, w) :: rest, back, ?_, fun v => by simp [set, same]⟩
      simp only [keys, List.map_cons, List.mem_cons, not_or]
      exact fresh
    · obtain ⟨front', back', fresh', splits⟩ := ih fresh.2
      refine ⟨(j, u) :: front', back', ?_, fun v => by simp [set, same, splits]⟩
      simp only [keys, List.map_cons, List.mem_cons, not_or]
      exact ⟨fresh.1, fresh'⟩

theorem mergeBeside (free : k ∉ keys extra) (fresh : k ∉ keys front) (back : Assoc α) :
    ∃ front' back', k ∉ keys front' ∧
      ∀ v, merge (front ++ (k, v) :: back) extra = front' ++ (k, v) :: back' := by
  induction extra generalizing front back with
  | nil => exact ⟨front, back, fresh, fun _ => rfl⟩
  | cons e rest ih =>
    simp only [keys, List.map_cons, List.mem_cons, not_or] at free
    obtain ⟨front', back', fresh', splits⟩ := setBeside free.1 fresh back e.2
    obtain ⟨front'', back'', fresh'', splits'⟩ := ih free.2 fresh' back'
    refine ⟨front'', back'', fresh'', fun v => ?_⟩
    rw [merge, List.foldl_cons, splits]
    exact splits' v

theorem mergeCovers (there : k ∈ keys extra) (fresh : k ∉ keys front) (back : Assoc α) :
    ∃ m, ∀ v, merge (front ++ (k, v) :: back) extra = m := by
  induction extra generalizing front back with
  | nil => contradiction
  | cons e rest ih =>
    by_cases same : k = e.1
    · refine ⟨merge (front ++ (k, e.2) :: back) rest, fun v => ?_⟩
      rw [merge, List.foldl_cons, ← same, setCovers fresh]
      rfl
    · obtain ⟨front', back', fresh', splits⟩ := setBeside same fresh back e.2
      obtain ⟨m, covered⟩ := ih ((List.mem_cons.mp there).resolve_left same) fresh' back'
      refine ⟨m, fun v => ?_⟩
      rw [merge, List.foldl_cons, splits]
      exact covered v

theorem mergeSplits (m before : Assoc α) {after : Assoc α} (free : k ∉ keys after) :
    ∃ front back, k ∉ keys front ∧ ∀ v, merge m (before ++ (k, v) :: after) = front ++ (k, v) :: back := by
  obtain ⟨front, back, fresh, splits⟩ := setSplits (merge m before) k
  obtain ⟨front', back', fresh', splits'⟩ := mergeBeside free fresh back
  refine ⟨front', back', fresh', fun v => ?_⟩
  rw [merge, List.foldl_append, List.foldl_cons]
  exact (congrArg (merge · after) (splits v)).trans (splits' v)

end

end DecisionRules.Assoc
