import DecisionRules.Proofs.Cache.History

/-! The books of a cache. After any calls, at any times, its size is the number of entries it holds, no bucket is
empty, there is room for all entries, and what a sweep or an invalidation counts is what it drops. -/
namespace DecisionRules.Cache
variable {τ α : Type}

structure Held (τ α : Type) where
  rule : String
  key : String
  entry : CacheEntry τ α

def heldUnder (b : String × Assoc (CacheEntry τ α)) : List (Held τ α) := b.2.map fun e => ⟨b.1, e.1, e.2⟩

def heldIn (buckets : Assoc (Assoc (CacheEntry τ α))) : List (Held τ α) := buckets.flatMap heldUnder

def held (c : Cache τ α) : List (Held τ α) := heldIn c.buckets

def Filled (c : Cache τ α) : Prop := ∀ b ∈ c.buckets, b.2 ≠ []

theorem heldCount (buckets : Assoc (Assoc (CacheEntry τ α))) : (heldIn buckets).length = count buckets := by
  induction buckets with
  | nil => rfl
  | cons b rest ih =>
    have both : (heldIn (b :: rest)).length = b.2.length + (heldIn rest).length := by simp [heldIn, heldUnder]
    rw [both, ih]
    rfl

theorem heldRule {b : String × Assoc (CacheEntry τ α)} {h : Held τ α} (member : h ∈ heldUnder b) : h.rule = b.1 := by
  obtain ⟨e, _, rfl⟩ := List.mem_map.mp member
  rfl

theorem heldListed {buckets : Assoc (Assoc (CacheEntry τ α))} {h : Held τ α} (member : h ∈ heldIn buckets) :
    h.rule ∈ Assoc.keys buckets := by
  obtain ⟨b, listed, entry⟩ := List.mem_flatMap.mp member
  exact heldRule entry ▸ List.mem_map_of_mem listed

theorem countSum (buckets : Assoc (Assoc (CacheEntry τ α))) :
    count buckets = (buckets.map fun b => b.2.length).sum := by
  induction buckets with
  | nil => rfl
  | cons b rest ih =>
    rw [List.map_cons, List.sum_cons, ← ih]
    rfl

theorem partsCount (p : Held τ α → Bool) (entries : List (Held τ α)) :
    entries.countP p + (entries.filter fun h => !p h).length = entries.length := by
  simpa [List.countP_eq_length_filter] using (List.length_eq_countP_add_countP p (l := entries)).symm

/-! No bucket is empty. -/

theorem setBucketFilled {c : Cache τ α} (filled : c.Filled) (rule : String)
    (entries : Assoc (CacheEntry τ α)) : (c.setBucket rule entries).Filled := by
  intro b member
  unfold setBucket at member
  dsimp only at member
  split at member
  · exact filled b (Assoc.memErase member)
  · rename_i some
    rcases Assoc.memSet member with member | rfl
    · exact filled b member
    · exact fun none => some (List.isEmpty_iff.mpr none)

theorem clearFilled (c : Cache τ α) : c.clear.Filled := fun _ member => nomatch member

section
variable [Instant τ]

theorem getFilled {c : Cache τ α} (filled : c.Filled) (rule key : String) (now : τ) :
    (c.get rule key now).2.Filled := by
  unfold get
  split
  · exact filled
  · split
    · exact setBucketFilled filled rule _
    · exact filled

omit [Instant τ] in
theorem insertFilled {c : Cache τ α} (filled : c.Filled) (rule key : String) (e : CacheEntry τ α) :
    (c.insert rule key e).Filled :=
  fun b member => setBucketFilled filled rule _ b member

theorem putFilled {c after : Cache τ α} (filled : c.Filled) {rule key : String} {value : α} {now : τ}
    {ttl : Option Int} (ok : c.put rule key value now ttl = .ok after) : after.Filled := by
  simp only [put, bindAccepts, pureAccepts] at ok
  obtain ⟨t, _, rfl⟩ := ok
  split
  · exact insertFilled (clearFilled c) rule key _
  · exact insertFilled filled rule key _

/-- What a sweep leaves before it looks whether there are still too many entries. -/
def dropped (c : Cache τ α) (now : τ) : Cache τ α :=
  let kept := (Assoc.mapValues (alive now) c.buckets).filter fun b => !b.2.isEmpty
  { c with buckets := kept, size := c.size - (count c.buckets - count kept) }

theorem sweepLooks (c : Cache τ α) (now : τ) :
    let removed := count c.buckets - count (c.dropped now).buckets
    c.sweep now = if c.maxEntries < ((c.dropped now).size : Int) then (removed + (c.dropped now).size, c.clear)
      else (removed, c.dropped now) := rfl

theorem droppedFilled (c : Cache τ α) (now : τ) : (c.dropped now).Filled := by
  intro b member
  have some := (List.mem_filter.mp member).2
  rintro none
  simp [none] at some

theorem sweepFilled (c : Cache τ α) (now : τ) : (c.sweep now).2.Filled := by
  rw [sweepLooks]
  split
  · exact clearFilled c
  · exact droppedFilled c now

theorem advanceFilled {c : Cache τ α} (filled : c.Filled) (now : τ) (call : Call α) :
    (c.advance now call).Filled := by
  cases call with
  | get rule basis =>
    rcases advanceGet c now rule basis with ⟨key, _, same⟩ | ⟨_, same⟩
    · rw [same]
      exact getFilled filled rule key now
    · rwa [same]
  | put rule basis value ttl =>
    rcases advancePut c now rule basis value ttl with ⟨key, after, _, stored, same⟩ | ⟨_, same⟩
    · rw [same]
      exact putFilled filled stored
    · rwa [same]
  | invalidate rule => exact fun b member => filled b (Assoc.memErase member)
  | clear => exact clearFilled c
  | sweep => exact sweepFilled c now

/-! The limit stays. -/

theorem advanceLimit (c : Cache τ α) (now : τ) (call : Call α) :
    (c.advance now call).maxEntries = c.maxEntries := by
  cases call with
  | get rule basis =>
    rcases advanceGet c now rule basis with ⟨key, _, same⟩ | ⟨_, same⟩
    · rw [same, get]
      split
      · rfl
      · split <;> rfl
    · rw [same]
  | put rule basis value ttl =>
    rcases advancePut c now rule basis value ttl with ⟨key, after, _, stored, same⟩ | ⟨_, same⟩
    · simp only [put, bindAccepts, pureAccepts] at stored
      obtain ⟨t, _, rfl⟩ := stored
      rw [same]
      split <;> rfl
    · rw [same]
  | invalidate rule => rfl
  | clear => rfl
  | sweep =>
    change (c.sweep now).2.maxEntries = _
    rw [sweepLooks]
    split <;> rfl

theorem replayBooks {c : Cache τ α} (filled : c.Filled) (calls : List (τ × Call α)) :
    (c.replay calls).Filled ∧ (c.replay calls).maxEntries = c.maxEntries := by
  induction calls generalizing c with
  | nil => exact ⟨filled, rfl⟩
  | cons call rest ih =>
    obtain ⟨filled, limit⟩ := ih (advanceFilled filled call.1 call.2)
    exact ⟨filled, limit.trans (advanceLimit c call.1 call.2)⟩

/-! What is dropped -/

theorem keptHeld (buckets : Assoc (Assoc (CacheEntry τ α))) (now : τ) :
    heldIn ((Assoc.mapValues (alive now) buckets).filter fun b => !b.2.isEmpty) =
      (heldIn buckets).filter fun h => !decide (h.entry.expiresAt ≤ now) := by
  induction buckets with
  | nil => rfl
  | cons b rest ih =>
    have own : (heldUnder b).filter (fun h => !decide (h.entry.expiresAt ≤ now)) =
        heldUnder (b.1, alive now b.2) := by
      unfold heldUnder
      rw [List.filter_map]
      rfl
    have others : heldIn (b :: rest) = heldUnder b ++ heldIn rest := rfl
    rw [others, List.filter_append, own, ← ih]
    simp only [Assoc.mapValues, List.map_cons, List.filter_cons]
    split
    · rfl
    · rename_i none
      have none : alive now b.2 = [] := by simpa using none
      rw [none]
      rfl

theorem droppedHeld (c : Cache τ α) (now : τ) :
    (c.dropped now).held = c.held.filter fun h => !decide (h.entry.expiresAt ≤ now) := keptHeld c.buckets now

theorem droppedCount (c : Cache τ α) (now : τ) :
    count c.buckets - count (c.dropped now).buckets = c.held.countP fun h => decide (h.entry.expiresAt ≤ now) := by
  have parts := partsCount (fun h => decide (h.entry.expiresAt ≤ now)) c.held
  have left : (c.dropped now).held.length = count (c.dropped now).buckets := heldCount _
  have total : c.held.length = count c.buckets := heldCount c.buckets
  rw [droppedHeld] at left
  omega

end

theorem eraseHeld {buckets : Assoc (Assoc (CacheEntry τ α))} (unique : (Assoc.keys buckets).Nodup) (rule : String) :
    heldIn (Assoc.erase buckets rule) = (heldIn buckets).filter fun h => h.rule != rule := by
  induction buckets with
  | nil => rfl
  | cons b rest ih =>
    obtain ⟨fresh, unique⟩ := List.nodup_cons.mp unique
    have others : heldIn (b :: rest) = heldUnder b ++ heldIn rest := rfl
    rw [others, List.filter_append, Assoc.erase]
    by_cases here : b.1 = rule
    · have none : (heldUnder b).filter (fun h => h.rule != rule) = [] :=
        List.filter_eq_nil_iff.mpr fun h member => by simp [heldRule member, here]
      have away : (heldIn rest).filter (fun h => h.rule != rule) = heldIn rest := by
        refine List.filter_eq_self.mpr fun h member => ?_
        have apart : h.rule ≠ rule := fun same => fresh (here ▸ same ▸ heldListed member)
        simpa using apart
      rw [if_pos here, none, away, List.nil_append]
    · have own : (heldUnder b).filter (fun h => h.rule != rule) = heldUnder b :=
        List.filter_eq_self.mpr fun h member => by simp [heldRule member, here]
      rw [if_neg here, own, ← ih unique]
      rfl

theorem invalidateHeld {c : Cache τ α} (unique : c.Unique) (rule : String) :
    (c.invalidate rule).2.held = c.held.filter fun h => h.rule != rule := eraseHeld unique rule

theorem invalidateCount {c : Cache τ α} (unique : c.Unique) (rule : String) :
    (c.invalidate rule).1 = c.held.countP fun h => h.rule == rule := by
  have parts := partsCount (fun h => h.rule == rule) c.held
  have left : (c.invalidate rule).2.held.length = count (Assoc.erase c.buckets rule) := heldCount _
  have total : c.held.length = count c.buckets := heldCount c.buckets
  have gone := countErase c.buckets rule
  have answer : (c.invalidate rule).1 = (Assoc.getD c.buckets rule []).length := rfl
  rw [invalidateHeld unique] at left
  simp only [bne] at left
  omega

/-- After any calls, at any times and with any limits, the size is the number of entries in all buckets, no bucket
is empty and there is room for the entries. So a sweep never finds too many left: it drops what has expired, and
counts that; an invalidation drops what is held for the rule, and counts that. -/
theorem bookkeepingExact [Instant τ] (maxEntries defaultTtl : Int) (calls : List (τ × Call α)) :
    let c : Cache τ α := (create maxEntries defaultTtl).replay calls
    c.size = (c.buckets.map fun b => b.2.length).sum ∧ (∀ b ∈ c.buckets, b.2 ≠ []) ∧
    (c.size : Int) ≤ max 1 maxEntries ∧
    (∀ now, ¬ c.maxEntries < ((c.dropped now).size : Int) ∧
      c.sweep now = (c.held.countP fun h => decide (h.entry.expiresAt ≤ now), c.dropped now) ∧
      (c.dropped now).held = c.held.filter fun h => !decide (h.entry.expiresAt ≤ now)) ∧
    ∀ rule, (c.invalidate rule).1 = (c.held.countP fun h => h.rule == rule) ∧
      (c.invalidate rule).2.held = c.held.filter fun h => h.rule != rule := by
  intro c
  have neat : c.Neat := replayNeat (createNeat maxEntries defaultTtl) calls
  obtain ⟨filled, limit⟩ : c.Filled ∧ c.maxEntries = max 1 maxEntries :=
    replayBooks (c := create maxEntries defaultTtl) (fun _ member => nomatch member) calls
  refine ⟨neat.exact.trans (countSum c.buckets), filled, limit ▸ neat.room, fun now => ?_, fun rule => ?_⟩
  · have within : ¬ c.maxEntries < ((c.dropped now).size : Int) := by
      have fewer : (c.dropped now).size ≤ c.size := Nat.sub_le ..
      have room := neat.room
      omega
    refine ⟨within, ?_, droppedHeld c now⟩
    rw [sweepLooks, if_neg within, droppedCount]
  · exact ⟨invalidateCount neat.unique rule, invalidateHeld neat.unique rule⟩

end DecisionRules.Cache
