import DecisionRules.Cache
import DecisionRules.Proofs.Assoc
import DecisionRules.Proofs.Outcome

/-! What a cache holds. Only storing adds anything, and dropping the results of a rule drops all of them. -/
namespace DecisionRules.Cache
variable {τ α : Type}

def Holds (c : Cache τ α) (rule key : String) (value : α) : Prop :=
  ∃ entries, (rule, entries) ∈ c.buckets ∧ ∃ t, (key, ⟨t, value⟩) ∈ entries

def Unique (c : Cache τ α) : Prop := (Assoc.keys c.buckets).Nodup

theorem bucketHolds {c : Cache τ α} {rule key : String} {e : CacheEntry τ α}
    (there : (key, e) ∈ c.bucket rule) : c.Holds rule key e.value := by
  unfold bucket Assoc.getD at there
  cases found : Assoc.get? c.buckets rule with
  | none => simp [found] at there
  | some entries =>
    rw [found] at there
    exact ⟨entries, Assoc.memOfGet found, e.expiresAt, there⟩

theorem getHolds [Instant τ] {c : Cache τ α} {rule key : String} {now : τ} {value : α}
    (hit : (c.get rule key now).1 = some value) : c.Holds rule key value := by
  unfold get at hit
  split at hit
  · contradiction
  · rename_i e found
    split at hit
    · contradiction
    · cases hit
      exact bucketHolds (Assoc.memOfGet found)

theorem setBucketHolds {c : Cache τ α} {rule other key : String} {entries : Assoc (CacheEntry τ α)}
    {value : α} (there : (c.setBucket rule entries).Holds other key value) :
    c.Holds other key value ∨ other = rule ∧ ∃ t, (key, ⟨t, value⟩) ∈ entries := by
  obtain ⟨found, member, t, entry⟩ := there
  unfold setBucket at member
  dsimp only at member
  split at member
  · exact .inl ⟨found, Assoc.memErase member, t, entry⟩
  · rcases Assoc.memSet member with member | same
    · exact .inl ⟨found, member, t, entry⟩
    · cases same
      exact .inr ⟨rfl, t, entry⟩

theorem setBucketUnique {c : Cache τ α} (unique : c.Unique) (rule : String)
    (entries : Assoc (CacheEntry τ α)) : (c.setBucket rule entries).Unique := by
  unfold Unique setBucket
  dsimp only
  split
  · exact Assoc.uniqueErase unique rule
  · exact Assoc.uniqueSet unique rule entries

theorem dropHolds {c : Cache τ α} {rule key other k : String} {value : α}
    (there : (c.drop rule key).Holds other k value) : c.Holds other k value := by
  rcases setBucketHolds (c := c) there with there | ⟨rfl, t, entry⟩
  · exact there
  · exact bucketHolds (Assoc.memErase entry)

theorem getAfter [Instant τ] (c : Cache τ α) (rule key : String) (now : τ) :
    (c.Unique → (c.get rule key now).2.Unique) ∧
    ∀ {other k value}, (c.get rule key now).2.Holds other k value → c.Holds other k value := by
  unfold get
  split
  · exact ⟨id, fun there => there⟩
  · split
    · exact ⟨fun unique => setBucketUnique unique rule _, fun there => dropHolds there⟩
    · exact ⟨id, fun there => there⟩

theorem clearHolds {c : Cache τ α} {rule key : String} {value : α} : ¬ c.clear.Holds rule key value :=
  fun ⟨_, there, _⟩ => by simp [clear] at there

theorem putAfter [Instant τ] {c after : Cache τ α} {rule key : String} {value : α} {now : τ} {ttl : Option Int}
    (ok : c.put rule key value now ttl = .ok after) :
    (c.Unique → after.Unique) ∧
    ∀ {other k v}, after.Holds other k v →
      c.Holds other k v ∨ other = rule ∧ k = key ∧ v = value := by
  simp only [put, bindAccepts, pureAccepts] at ok
  obtain ⟨t, _, rfl⟩ := ok
  have inserted (c : Cache τ α) : (c.Unique → (c.insert rule key ⟨t, value⟩).Unique) ∧
      ∀ {other k v}, (c.insert rule key ⟨t, value⟩).Holds other k v →
        c.Holds other k v ∨ other = rule ∧ k = key ∧ v = value := by
    refine ⟨fun unique => setBucketUnique unique rule _, fun {other k v} there => ?_⟩
    rcases setBucketHolds (c := c) there with there | ⟨rfl, t, entry⟩
    · exact .inl there
    · rcases Assoc.memSet entry with entry | same
      · exact .inl (bucketHolds entry)
      · cases same
        exact .inr ⟨rfl, rfl, rfl⟩
  split
  · refine ⟨fun _ => (inserted _).1 (by simp [Unique, clear, Assoc.keys]), fun there => ?_⟩
    exact ((inserted _).2 there).imp_left fun there => (clearHolds there).elim
  · exact inserted c

theorem invalidateUnique {c : Cache τ α} (unique : c.Unique) (rule : String) :
    (c.invalidate rule).2.Unique := Assoc.uniqueErase unique rule

theorem invalidateHolds {c : Cache τ α} (unique : c.Unique) {rule other key : String} {value : α}
    (there : (c.invalidate rule).2.Holds other key value) :
    c.Holds other key value ∧ other ≠ rule := by
  obtain ⟨entries, member, entry⟩ := there
  refine ⟨⟨entries, Assoc.memErase member, entry⟩, ?_⟩
  rintro rfl
  have found := Assoc.getOfMem (Assoc.uniqueErase unique other) member
  rw [Assoc.getErase unique, if_pos rfl] at found
  contradiction

/-- Without the results of a rule, if one is named. -/
def without (c : Cache τ α) : Option String → Cache τ α
  | none => c
  | some rule => (c.invalidate rule).2

theorem withoutUnique {c : Cache τ α} (unique : c.Unique) (rule : Option String) :
    (c.without rule).Unique := by
  cases rule with
  | none => exact unique
  | some id => exact invalidateUnique unique id

theorem withoutHolds {c : Cache τ α} (unique : c.Unique) {rule : Option String} {other key : String}
    {value : α} (there : (c.without rule).Holds other key value) :
    c.Holds other key value ∧ rule ≠ some other := by
  cases rule with
  | none => exact ⟨there, by simp⟩
  | some id =>
    obtain ⟨there, elsewhere⟩ := invalidateHolds unique there
    exact ⟨there, fun same => elsewhere (Option.some.inj same).symm⟩

theorem sweepAfter [Instant τ] (c : Cache τ α) (now : τ) :
    (c.Unique → (c.sweep now).2.Unique) ∧
    ∀ {rule key value}, (c.sweep now).2.Holds rule key value → c.Holds rule key value := by
  have kept : (Assoc.keys ((Assoc.mapValues (alive now) c.buckets).filter fun b => !b.2.isEmpty)).Sublist
      (Assoc.keys c.buckets) := by
    refine (List.filter_sublist.map Prod.fst).trans ?_
    simp [Assoc.mapValues, Assoc.keys, Function.comp_def]
  unfold sweep
  dsimp only
  split
  · exact ⟨fun _ => by simp [Unique, clear, Assoc.keys], fun there => (clearHolds there).elim⟩
  · refine ⟨fun unique => unique.sublist kept, fun {rule key value} there => ?_⟩
    obtain ⟨entries, member, t, entry⟩ := there
    obtain ⟨⟨rule, all⟩, listed, same⟩ := List.mem_map.mp (List.mem_filter.mp member).1
    cases same
    exact ⟨all, listed, t, (List.mem_filter.mp entry).1⟩

end DecisionRules.Cache
