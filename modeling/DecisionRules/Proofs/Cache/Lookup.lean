import DecisionRules.Proofs.Cache.Entries

/-! A cache, looked up. Each operation, by what it leaves under every rule and key; and what all of them keep:
a rule and a key have one place, the size is the number of entries, and there is room for them. -/
namespace DecisionRules.Cache
variable {τ α : Type}

structure Neat (c : Cache τ α) : Prop where
  unique : c.Unique
  distinct : ∀ rule, (Assoc.keys (c.bucket rule)).Nodup
  exact : c.size = count c.buckets
  positive : 1 ≤ c.maxEntries
  room : (c.size : Int) ≤ c.maxEntries

theorem createNeat (maxEntries defaultTtl : Int) : (create maxEntries defaultTtl : Cache τ α).Neat where
  unique := List.nodup_nil
  distinct _ := List.nodup_nil
  exact := rfl
  positive := Int.le_max_left 1 maxEntries
  room := by
    have positive := Int.le_max_left 1 maxEntries
    simp only [create]
    omega

/-! Counting entries -/

theorem countErase (buckets : Assoc (Assoc (CacheEntry τ α))) (rule : String) :
    count (Assoc.erase buckets rule) + (Assoc.getD buckets rule []).length = count buckets := by
  induction buckets with
  | nil => rfl
  | cons b rest ih =>
    by_cases here : b.1 = rule
    · simp [Assoc.erase, Assoc.getD, Assoc.get?, count, here, Nat.add_comm]
    · simp only [Assoc.getD, count] at ih
      simp [Assoc.erase, Assoc.getD, Assoc.get?, count, here, ← ih, Nat.add_assoc]

theorem countSet (buckets : Assoc (Assoc (CacheEntry τ α))) (rule : String)
    (entries : Assoc (CacheEntry τ α)) : count (Assoc.set buckets rule entries) +
      (Assoc.getD buckets rule []).length = count buckets + entries.length := by
  induction buckets with
  | nil => simp [Assoc.set, Assoc.getD, Assoc.get?, count]
  | cons b rest ih =>
    by_cases here : b.1 = rule
    · simp [Assoc.set, Assoc.getD, Assoc.get?, count, here]
      omega
    · simp only [Assoc.getD, count] at ih
      simp [Assoc.set, Assoc.getD, Assoc.get?, count, here]
      omega

theorem countKept [Instant τ] (buckets : Assoc (Assoc (CacheEntry τ α))) (now : τ) :
    count ((Assoc.mapValues (alive now) buckets).filter fun b => !b.2.isEmpty) ≤ count buckets := by
  induction buckets with
  | nil => exact Nat.le_refl 0
  | cons b rest ih =>
    have fewer : (alive now b.2).length ≤ b.2.length := List.length_filter_le ..
    simp only [count, Assoc.mapValues] at ih ⊢
    simp only [List.map_cons, List.filter_cons, List.foldr_cons]
    split
    · exact Nat.add_le_add fewer ih
    · exact Nat.le_add_left_of_le ih

/-! Buckets -/

theorem bucketSetBucket {c : Cache τ α} (unique : c.Unique) (rule other : String)
    (entries : Assoc (CacheEntry τ α)) :
    (c.setBucket rule entries).bucket other = if rule = other then entries else c.bucket other := by
  unfold bucket setBucket Assoc.getD
  dsimp only
  split
  · rename_i empty
    rw [Assoc.getErase unique]
    by_cases here : rule = other
    · simp [here, List.isEmpty_iff.mp empty]
    · simp [here]
  · rw [Assoc.getSet]
    by_cases here : rule = other <;> simp [here]

theorem entrySetBucket {c : Cache τ α} (unique : c.Unique) (rule other key : String)
    (entries : Assoc (CacheEntry τ α)) : entry? (c.setBucket rule entries) other key =
      if rule = other then Assoc.get? entries key else c.entry? other key := by
  unfold entry?
  rw [bucketSetBucket unique]
  by_cases here : rule = other
  · rw [if_pos here, if_pos here]
  · rw [if_neg here, if_neg here]

theorem countSetBucket (c : Cache τ α) (rule : String) (entries : Assoc (CacheEntry τ α)) :
    count (c.setBucket rule entries).buckets + (c.bucket rule).length =
      count c.buckets + entries.length := by
  unfold setBucket bucket
  dsimp only
  split
  · rename_i empty
    rw [countErase, List.isEmpty_iff.mp empty, List.length_nil, Nat.add_zero]
  · exact countSet ..

theorem setBucketNeat {c : Cache τ α} (neat : c.Neat) (rule : String)
    {entries : Assoc (CacheEntry τ α)} (distinct : (Assoc.keys entries).Nodup) {size : Nat}
    (sized : size + (c.bucket rule).length = c.size + entries.length)
    (room : (size : Int) ≤ c.maxEntries) : Neat { c.setBucket rule entries with size := size } where
  unique := setBucketUnique neat.unique rule entries
  distinct other := by
    change (Assoc.keys ((c.setBucket rule entries).bucket other)).Nodup
    rw [bucketSetBucket neat.unique]
    split
    · exact distinct
    · exact neat.distinct other
  exact := by
    have counted := countSetBucket c rule entries
    have exact := neat.exact
    change size = count (c.setBucket rule entries).buckets
    omega
  positive := neat.positive
  room := room

/-! Dropping an entry, storing one, and dropping those of a rule -/

theorem dropNeat {c : Cache τ α} (neat : c.Neat) {rule key : String} {e : CacheEntry τ α}
    (found : c.entry? rule key = some e) : (c.drop rule key).Neat := by
  have known : Assoc.contains (c.bucket rule) key = true := Option.isSome_of_mem found
  have fewer := Assoc.lengthEraseKnown known
  have within : _ + (c.bucket rule).length = _ := countErase c.buckets rule
  have exact := neat.exact
  have room := neat.room
  exact setBucketNeat neat rule (Assoc.uniqueErase (neat.distinct rule) key) (by omega) (by omega)

theorem entryDrop {c : Cache τ α} (neat : c.Neat) (rule key other k : String) :
    entry? (c.drop rule key) other k = if rule = other ∧ key = k then none else c.entry? other k := by
  change entry? (c.setBucket rule (Assoc.erase (c.bucket rule) key)) other k = _
  rw [entrySetBucket neat.unique, Assoc.getErase (neat.distinct rule)]
  by_cases here : rule = other
  · subst here
    by_cases same : key = k <;> simp [same, entry?]
  · simp [here]

theorem clearNeat {c : Cache τ α} (neat : c.Neat) : c.clear.Neat where
  unique := List.nodup_nil
  distinct _ := List.nodup_nil
  exact := rfl
  positive := neat.positive
  room := by
    have positive := neat.positive
    simp only [clear]
    omega

theorem entryInsert {c : Cache τ α} (neat : c.Neat) (rule key other k : String) (e : CacheEntry τ α) :
    entry? (c.insert rule key e) other k =
      if rule = other ∧ key = k then some e else c.entry? other k := by
  change entry? (c.setBucket rule (Assoc.set (c.bucket rule) key e)) other k = _
  rw [entrySetBucket neat.unique, Assoc.getSet]
  by_cases here : rule = other
  · subst here
    by_cases same : key = k <;> simp [same, entry?]
  · simp [here]

/-- Entries that have expired count, unless something dropped them. -/
theorem overflowsHeld {c : Cache τ α} (neat : c.Neat) (rule key : String) : c.overflows rule key = true ↔
    c.entry? rule key = none ∧ c.maxEntries ≤ (count c.buckets : Int) := by
  simp [overflows, neat.exact]

theorem insertNeat {c : Cache τ α} (neat : c.Neat) {rule key : String} (fits : c.overflows rule key = false)
    (e : CacheEntry τ α) : (c.insert rule key e).Neat := by
  have distinct := Assoc.uniqueSet (neat.distinct rule) key e
  have room := neat.room
  unfold insert
  cases found : c.entry? rule key with
  | some old =>
    have known : Assoc.contains (c.bucket rule) key = true := Option.isSome_of_mem found
    exact setBucketNeat neat rule distinct (by simp [Assoc.lengthSetKnown known]) room
  | none =>
    have fresh : Assoc.contains (c.bucket rule) key = false := Assoc.notContains.mpr found
    have vacant : ¬ c.maxEntries ≤ c.size := by simpa [overflows, found] using fits
    refine setBucketNeat neat rule distinct ?_ ?_
    · simp [Assoc.lengthSetFresh fresh]
      omega
    · simp
      omega

theorem entryInvalidate {c : Cache τ α} (neat : c.Neat) (rule other key : String) :
    entry? (c.invalidate rule).2 other key = if rule = other then none else c.entry? other key := by
  unfold entry? bucket Assoc.getD invalidate
  dsimp only
  rw [Assoc.getErase neat.unique]
  by_cases here : rule = other <;> simp [here, Assoc.get?]

theorem invalidateNeat {c : Cache τ α} (neat : c.Neat) (rule : String) : (c.invalidate rule).2.Neat where
  unique := invalidateUnique neat.unique rule
  distinct other := by
    unfold bucket Assoc.getD invalidate
    dsimp only
    rw [Assoc.getErase neat.unique]
    split
    · exact List.nodup_nil
    · exact neat.distinct other
  exact := by
    have counted := countErase c.buckets rule
    have exact := neat.exact
    simp only [invalidate, bucket]
    omega
  positive := neat.positive
  room := by
    have room := neat.room
    simp only [invalidate]
    omega

/-- The seconds a result lives. -/
def lifetime (standard : Int) (ttl : Option Int) : Int := ttl.elim standard (max 1)

section
variable [Instant τ]

/-! A look -/

theorem getNeat {c : Cache τ α} (neat : c.Neat) (rule key : String) (now : τ) :
    (c.get rule key now).2.Neat := by
  unfold get
  split
  · exact ⟨neat.unique, neat.distinct, neat.exact, neat.positive, neat.room⟩
  · rename_i found
    split
    · have dropped := dropNeat neat found
      exact ⟨dropped.unique, dropped.distinct, dropped.exact, dropped.positive, dropped.room⟩
    · exact ⟨neat.unique, neat.distinct, neat.exact, neat.positive, neat.room⟩

theorem getAnswers (c : Cache τ α) (rule key : String) (now : τ) (v : α) :
    (c.get rule key now).1 = some v ↔
      ∃ e, c.entry? rule key = some e ∧ e.value = v ∧ ¬ e.expiresAt ≤ now := by
  unfold get
  cases c.entry? rule key with
  | none => simp
  | some e =>
    by_cases late : e.expiresAt ≤ now <;> simp [late]

/-- A look drops what has expired, and only under its own rule and key. -/
theorem entryGet {c : Cache τ α} (neat : c.Neat) (rule key other k : String) (now : τ) :
    entry? (c.get rule key now).2 other k = c.entry? other k ∨
    entry? (c.get rule key now).2 other k = none ∧
      ∃ e, c.entry? other k = some e ∧ e.expiresAt ≤ now := by
  unfold get
  cases found : c.entry? rule key with
  | none => exact .inl rfl
  | some e =>
    by_cases late : e.expiresAt ≤ now
    · dsimp only
      rw [if_pos late]
      change entry? (c.drop rule key) other k = _ ∨ entry? (c.drop rule key) other k = _ ∧ _
      rw [entryDrop neat]
      by_cases here : rule = other ∧ key = k
      · obtain ⟨rfl, rfl⟩ := here
        exact .inr ⟨by simp, e, found, late⟩
      · exact .inl (if_neg here)
    · dsimp only
      rw [if_neg late]
      exact .inl rfl

/-! Storing -/

theorem expiryAccepts {c : Cache τ α} {now t : τ} {ttl : Option Int} : c.expiry now ttl = .ok t ↔
    ∃ span, Instant.ofSeconds (lifetime c.defaultTtl ttl) = .ok span ∧ now + span = t := by
  cases ttl <;> simp only [expiry, lifetime, bindAccepts, pureAccepts, Option.elim]

theorem putAccepts {c : Cache τ α} {rule key : String} {value : α} {now t : τ} {ttl : Option Int}
    (expiry : c.expiry now ttl = .ok t) : ∃ after, c.put rule key value now ttl = .ok after := by
  simp [put, expiry, bind, Except.bind, pure, Except.pure]

theorem putStores {c after : Cache τ α} (neat : c.Neat) {rule key : String} {value : α} {now : τ}
    {ttl : Option Int} (ok : c.put rule key value now ttl = .ok after) :
    after.Neat ∧ ∃ t, c.expiry now ttl = .ok t ∧ ∀ other k, after.entry? other k =
      if rule = other ∧ key = k then some ⟨t, value⟩
      else if c.overflows rule key then none else c.entry? other k := by
  simp only [put, bindAccepts, pureAccepts] at ok
  obtain ⟨t, expiry, rfl⟩ := ok
  cases full : c.overflows rule key with
  | true =>
    rw [if_pos rfl]
    have empty : c.clear.overflows rule key = false := by
      have positive := neat.positive
      have vacant : ¬ c.maxEntries ≤ 0 := by omega
      simp [overflows, clear, vacant]
    refine ⟨insertNeat (clearNeat neat) empty _, t, expiry, fun other k => ?_⟩
    rw [entryInsert (clearNeat neat)]
    rfl
  | false => exact ⟨insertNeat neat full _, t, expiry, fun other k => entryInsert neat ..⟩

/-! Sweeping -/

theorem bucketSweep {c : Cache τ α} (neat : c.Neat) (now : τ) (rule : String) :
    (c.sweep now).2.bucket rule = alive now (c.bucket rule) := by
  have within : ¬ c.maxEntries < ((c.size - (count c.buckets - count
      ((Assoc.mapValues (alive now) c.buckets).filter fun b => !b.2.isEmpty)) : Nat) : Int) := by
    have room := neat.room
    omega
  unfold sweep
  dsimp only
  rw [if_neg within]
  have unique : (Assoc.keys (Assoc.mapValues (alive now) c.buckets)).Nodup := by
    have same : Assoc.keys (Assoc.mapValues (alive now) c.buckets) = Assoc.keys c.buckets := by
      simp [Assoc.keys, Assoc.mapValues, Function.comp_def]
    exact same ▸ neat.unique
  unfold bucket Assoc.getD
  dsimp only
  rw [Assoc.getFilterValues unique fun entries => !entries.isEmpty, Assoc.getMapValues]
  cases Assoc.get? c.buckets rule with
  | none => rfl
  | some entries => cases left : alive now entries <;> simp [left, Option.filter]

theorem entrySweep {c : Cache τ α} (neat : c.Neat) (now : τ) (rule key : String) :
    entry? (c.sweep now).2 rule key = c.entry? rule key ∨
    entry? (c.sweep now).2 rule key = none ∧
      ∃ e, c.entry? rule key = some e ∧ e.expiresAt ≤ now := by
  unfold entry?
  rw [bucketSweep neat, alive,
    Assoc.getFilterValues (neat.distinct rule) fun e : CacheEntry τ α => !decide (e.expiresAt ≤ now)]
  cases Assoc.get? (c.bucket rule) key with
  | none => exact .inl rfl
  | some e => by_cases late : e.expiresAt ≤ now <;> simp [late, Option.filter]

theorem sweepNeat {c : Cache τ α} (neat : c.Neat) (now : τ) : (c.sweep now).2.Neat where
  unique := (sweepAfter c now).1 neat.unique
  distinct rule := by
    rw [bucketSweep neat]
    exact (neat.distinct rule).sublist (List.filter_sublist.map Prod.fst)
  exact := by
    have fewer := countKept c.buckets now
    have exact := neat.exact
    unfold sweep
    dsimp only
    split
    · rfl
    · dsimp only
      omega
  positive := by
    unfold sweep
    dsimp only
    split <;> exact neat.positive
  room := by
    have room := neat.room
    have positive := neat.positive
    unfold sweep
    dsimp only
    split
    · simp only [clear]
      omega
    · dsimp only
      omega

/-! Counting looks -/

theorem getCounts (c : Cache τ α) (rule key : String) (now : τ) :
    (c.get rule key now).2.defaultTtl = c.defaultTtl ∧
    (c.get rule key now).2.hits = c.hits + (if (c.get rule key now).1.isSome then 1 else 0) ∧
    (c.get rule key now).2.misses = c.misses + (if (c.get rule key now).1.isSome then 0 else 1) := by
  unfold get
  cases c.entry? rule key with
  | none => exact ⟨rfl, rfl, rfl⟩
  | some e =>
    dsimp only
    split <;> exact ⟨rfl, rfl, rfl⟩

structure Uncounted (c after : Cache τ α) : Prop where
  defaultTtl : after.defaultTtl = c.defaultTtl
  hits : after.hits = c.hits
  misses : after.misses = c.misses

theorem putUncounted {c after : Cache τ α} {rule key : String} {value : α} {now : τ} {ttl : Option Int}
    (ok : c.put rule key value now ttl = .ok after) : Uncounted c after := by
  simp only [put, bindAccepts, pureAccepts] at ok
  obtain ⟨t, _, rfl⟩ := ok
  split <;> exact ⟨rfl, rfl, rfl⟩

theorem sweepUncounted (c : Cache τ α) (now : τ) : Uncounted c (c.sweep now).2 := by
  unfold sweep
  dsimp only
  split <;> exact ⟨rfl, rfl, rfl⟩

end

end DecisionRules.Cache
