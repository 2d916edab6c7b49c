import DecisionRules.Cache.Fingerprint
import DecisionRules.Proofs.Cache.Lookup
import DecisionRules.Proofs.Instant

/-! A cache over time. After any calls, a look finds what was last stored under its rule and its fingerprint,
unless that has expired, or was dropped with its rule, by a clearing, or to make room for another result. -/
namespace DecisionRules.Cache

/-- What a result is computed from, its rule apart. -/
structure Basis where
  revision : Int
  data : Fields
  bindings : Fields

def Basis.key (basis : Basis) (rule : String) : Except Breach String :=
  fingerprint rule basis.revision basis.data basis.bindings

inductive Call (α : Type) where
  | get (rule : String) (basis : Basis)
  | put (rule : String) (basis : Basis) (value : α) (ttl : Option Int)
  | invalidate (rule : String)
  | clear
  | sweep

variable {τ α : Type} [Instant τ]

/-- What a call answers, and the cache after it; a basis may have no fingerprint, and a result no expiry. -/
def attempt (c : Cache τ α) (now : τ) : Call α → Except Breach (Option α × Cache τ α)
  | .get rule basis => do return c.get rule (← basis.key rule) now
  | .put rule basis value ttl => do return (none, ← c.put rule (← basis.key rule) value now ttl)
  | .invalidate rule => .ok (none, (c.invalidate rule).2)
  | .clear => .ok (none, c.clear)
  | .sweep => .ok (none, (c.sweep now).2)

def advance (c : Cache τ α) (now : τ) (call : Call α) : Cache τ α :=
  match c.attempt now call with
  | .ok (_, after) => after
  | .error _ => c

def replay : Cache τ α → List (τ × Call α) → Cache τ α
  | c, [] => c
  | c, (t, call) :: rest => (c.advance t call).replay rest

/-- Does the call replace or drop what is under the rule and the key, expired or not? Storing a new entry
does, whichever it is, where as many entries are held as may be, expired ones that nothing dropped included. -/
def Disturbs (c : Cache τ α) (t : τ) (rule key : String) : Call α → Prop
  | .get .. | .sweep => False
  | .put other basis value ttl => ∃ k after, basis.key other = .ok k ∧ c.put other k value t ttl = .ok after ∧
      (other = rule ∧ k = key ∨ c.entry? other k = none ∧ c.maxEntries ≤ (count c.buckets : Int))
  | .invalidate other => other = rule
  | .clear => True

def Undisturbed (rule key : String) : Cache τ α → List (τ × Call α) → Prop
  | _, [] => True
  | c, (t, call) :: rest => ¬ c.Disturbs t rule key call ∧ Undisturbed rule key (c.advance t call) rest

/-- Is there a value under the rule and the key that was stored, has not expired, and was not disturbed since? -/
def Current (start : Cache τ α) (calls : List (τ × Call α)) (rule key : String) (now : τ) (value : α) : Prop :=
  ∃ past t basis ttl span since, calls = past ++ (t, .put rule basis value ttl) :: since ∧
    basis.key rule = .ok key ∧ Instant.ofSeconds (lifetime start.defaultTtl ttl) = .ok span ∧ now < t + span ∧
    Undisturbed rule key (start.replay (past ++ [(t, .put rule basis value ttl)])) since

/-- Looks that are answered, by a value or by a miss. -/
def Call.looks : Call α → Bool
  | .get rule basis => (basis.key rule).isOk
  | _ => false

/-! One call -/

theorem advanceGet (c : Cache τ α) (now : τ) (rule : String) (basis : Basis) :
    (∃ key, basis.key rule = .ok key ∧ c.advance now (.get rule basis) = (c.get rule key now).2) ∨
    (∃ failure, basis.key rule = .error failure) ∧ c.advance now (.get rule basis) = c := by
  cases found : basis.key rule with
  | error failure => exact .inr ⟨⟨failure, rfl⟩, by simp [advance, attempt, found, bind, Except.bind]⟩
  | ok key =>
    exact .inl ⟨key, rfl, by simp [advance, attempt, found, bind, Except.bind, pure, Except.pure]⟩

theorem advancePut (c : Cache τ α) (now : τ) (rule : String) (basis : Basis) (value : α) (ttl : Option Int) :
    (∃ key after, basis.key rule = .ok key ∧ c.put rule key value now ttl = .ok after ∧
      c.advance now (.put rule basis value ttl) = after) ∨
    (∀ key after, basis.key rule = .ok key → c.put rule key value now ttl ≠ .ok after) ∧
      c.advance now (.put rule basis value ttl) = c := by
  cases found : basis.key rule with
  | error => exact .inr ⟨nofun, by simp [advance, attempt, found, bind, Except.bind]⟩
  | ok key =>
    cases stored : c.put rule key value now ttl with
    | error =>
      refine .inr ⟨fun k after same => ?_, by simp [advance, attempt, found, stored, bind, Except.bind]⟩
      cases same
      simp [stored]
    | ok after =>
      exact .inl ⟨key, after, rfl, stored,
        by simp [advance, attempt, found, stored, bind, Except.bind, pure, Except.pure]⟩

theorem advanceNeat {c : Cache τ α} (neat : c.Neat) (now : τ) (call : Call α) : (c.advance now call).Neat := by
  cases call with
  | get rule basis =>
    rcases advanceGet c now rule basis with ⟨key, _, same⟩ | ⟨_, same⟩
    · rw [same]
      exact getNeat neat rule key now
    · rwa [same]
  | put rule basis value ttl =>
    rcases advancePut c now rule basis value ttl with ⟨key, after, _, stored, same⟩ | ⟨_, same⟩
    · rw [same]
      exact (putStores neat stored).1
    · rwa [same]
  | invalidate rule => exact invalidateNeat neat rule
  | clear => exact clearNeat neat
  | sweep => exact sweepNeat neat now

theorem advanceCounts (c : Cache τ α) (now : τ) (call : Call α) :
    (c.advance now call).defaultTtl = c.defaultTtl ∧
    (c.advance now call).hits + (c.advance now call).misses = c.hits + c.misses + call.looks.toNat := by
  have uncounted {after : Cache τ α} (same : Uncounted c after) : after.defaultTtl = c.defaultTtl ∧
      after.hits + after.misses = c.hits + c.misses :=
    ⟨same.defaultTtl, by rw [same.hits, same.misses]⟩
  cases call with
  | get rule basis =>
    rcases advanceGet c now rule basis with ⟨key, found, same⟩ | ⟨⟨_, failed⟩, same⟩
    · obtain ⟨standard, hits, misses⟩ := getCounts c rule key now
      refine ⟨same ▸ standard, ?_⟩
      rw [same, hits, misses, Call.looks, isOkAccepts.mpr ⟨key, found⟩, Bool.toNat_true]
      split <;> omega
    · rw [same, Call.looks, failed]
      exact ⟨rfl, rfl⟩
  | put rule basis value ttl =>
    rcases advancePut c now rule basis value ttl with ⟨_, _, _, stored, same⟩ | ⟨_, same⟩
    · rw [same]
      exact uncounted (putUncounted stored)
    · rw [same]
      exact ⟨rfl, rfl⟩
  | invalidate rule => exact ⟨rfl, rfl⟩
  | clear => exact ⟨rfl, rfl⟩
  | sweep => exact uncounted (sweepUncounted c now)

/-! What is alive -/

def Live (c : Cache τ α) (rule key : String) (now : τ) (e : CacheEntry τ α) : Prop :=
  c.entry? rule key = some e ∧ ¬ e.expiresAt ≤ now

/-- Does the call store the entry under the rule and the key? -/
def Stores (c : Cache τ α) (t : τ) (rule key : String) (e : CacheEntry τ α) : Call α → Prop
  | .put other basis value ttl =>
    other = rule ∧ basis.key rule = .ok key ∧ value = e.value ∧ c.expiry t ttl = .ok e.expiresAt
  | _ => False

variable {c : Cache τ α} {t now : τ} {rule key : String} {e : CacheEntry τ α}

/-- What drops only what has expired makes no difference to what is alive. -/
theorem expiredLive [Instant.Ordered τ] {after : Cache τ α} (early : t ≤ now)
    (fades : after.entry? rule key = c.entry? rule key ∨
      after.entry? rule key = none ∧ ∃ e, c.entry? rule key = some e ∧ e.expiresAt ≤ t) :
    after.Live rule key now e ↔ c.Live rule key now e := by
  unfold Live
  rcases fades with same | ⟨gone, old, found, late⟩
  · rw [same]
  · have late := Instant.Ordered.trans late early
    rw [gone, found]
    constructor
    · rintro ⟨absent, _⟩
      contradiction
    · rintro ⟨same, alive⟩
      cases same
      contradiction

theorem putLive (neat : c.Neat) {other k : String} {value : α} {ttl : Option Int} {after : Cache τ α}
    (ok : c.put other k value t ttl = .ok after) : after.Live rule key now e ↔
      (c.Live rule key now e ∧ ¬ (other = rule ∧ k = key ∨
        c.entry? other k = none ∧ c.maxEntries ≤ (count c.buckets : Int))) ∨
      ((other = rule ∧ k = key) ∧ value = e.value ∧ c.expiry t ttl = .ok e.expiresAt) ∧
        ¬ e.expiresAt ≤ now := by
  obtain ⟨-, until_, expiry, entries⟩ := putStores neat ok
  rw [← overflowsHeld neat]
  unfold Live
  rw [entries]
  by_cases here : other = rule ∧ k = key
  · obtain ⟨expiresAt, stored⟩ := e
    simp only [here, if_true, true_or, not_true, and_false, false_or, true_and, expiry, Option.some.injEq,
      CacheEntry.mk.injEq, Except.ok.injEq, and_comm (a := value = stored)]
  · cases full : c.overflows other k <;> simp [here]

theorem acceptedDisturbs {other k : String} {basis : Basis} {value : α} {ttl : Option Int} {after : Cache τ α}
    (found : basis.key other = .ok k) (stored : c.put other k value t ttl = .ok after) :
    c.Disturbs t rule key (.put other basis value ttl) ↔ other = rule ∧ k = key ∨
      c.entry? other k = none ∧ c.maxEntries ≤ (count c.buckets : Int) := by
  constructor
  · rintro ⟨k', _, found', _, disturbs⟩
    cases found.symm.trans found'
    exact disturbs
  · exact fun disturbs => ⟨k, after, found, stored, disturbs⟩

theorem acceptedStores {other k : String} {basis : Basis} {value : α} {ttl : Option Int}
    (found : basis.key other = .ok k) : c.Stores t rule key e (.put other basis value ttl) ↔
      (other = rule ∧ k = key) ∧ value = e.value ∧ c.expiry t ttl = .ok e.expiresAt := by
  constructor
  · rintro ⟨rfl, found', entry⟩
    cases found.symm.trans found'
    exact ⟨⟨rfl, rfl⟩, entry⟩
  · rintro ⟨⟨rfl, rfl⟩, entry⟩
    exact ⟨rfl, found, entry⟩

theorem advanceLive [Instant.Ordered τ] (neat : c.Neat) (early : t ≤ now) (call : Call α) :
    (c.advance t call).Live rule key now e ↔ (c.Live rule key now e ∧ ¬ c.Disturbs t rule key call) ∨
      c.Stores t rule key e call ∧ ¬ e.expiresAt ≤ now := by
  cases call with
  | get other basis =>
    simp only [Disturbs, Stores, not_false_eq_true, and_true, false_and, or_false]
    rcases advanceGet c t other basis with ⟨k, _, same⟩ | ⟨_, same⟩
    · rw [same]
      exact expiredLive early (entryGet neat other k rule key t)
    · rw [same]
  | put other basis value ttl =>
    rcases advancePut c t other basis value ttl with ⟨k, after, found, stored, same⟩ | ⟨refused, same⟩
    · rw [same, putLive neat stored, acceptedDisturbs found stored, acceptedStores found]
    · have calm : ¬ c.Disturbs t rule key (.put other basis value ttl) :=
        fun ⟨k, after, found, stored, _⟩ => refused k after found stored
      have unstored : ¬ c.Stores t rule key e (.put other basis value ttl) := by
        rintro ⟨rfl, found, _, expiry⟩
        obtain ⟨after, stored⟩ := putAccepts expiry
        exact refused key after found stored
      simp only [same, calm, unstored, not_false_eq_true, and_true, false_and, or_false]
  | invalidate other =>
    simp only [Disturbs, Stores, false_and, or_false]
    change entry? (c.invalidate other).2 rule key = some e ∧ _ ↔ _
    rw [entryInvalidate neat]
    by_cases here : other = rule <;> simp [here, Live]
  | clear =>
    simp only [Disturbs, Stores, not_true, and_false, false_and, or_false, iff_false]
    exact fun ⟨found, _⟩ => nomatch found
  | sweep =>
    simp only [Disturbs, Stores, not_false_eq_true, and_true, false_and, or_false]
    exact expiredLive early (entrySweep neat t rule key)

/-! Many calls -/

/-- After any calls, the size is the number of entries held, and no more than may be. -/
theorem replayNeat (neat : c.Neat) (calls : List (τ × Call α)) : (c.replay calls).Neat := by
  induction calls generalizing c with
  | nil => exact neat
  | cons call rest ih => exact ih (advanceNeat neat call.1 call.2)

theorem replayCounts (c : Cache τ α) (calls : List (τ × Call α)) :
    (c.replay calls).defaultTtl = c.defaultTtl ∧
    (c.replay calls).hits + (c.replay calls).misses =
      c.hits + c.misses + calls.countP fun call => call.2.looks := by
  induction calls generalizing c with
  | nil => exact ⟨rfl, rfl⟩
  | cons call rest ih =>
    obtain ⟨standard, counts⟩ := advanceCounts c call.1 call.2
    obtain ⟨standard', counts'⟩ := ih (c.advance call.1 call.2)
    refine ⟨standard'.trans standard, counts'.trans ?_⟩
    have one : call.2.looks.toNat = if call.2.looks then 1 else 0 := by cases call.2.looks <;> rfl
    rw [counts, List.countP_cons, one]
    omega

/-- What is alive in the end was alive at the start, or stored on the way, and not disturbed from there on. -/
theorem replayLive [Instant.Ordered τ] (neat : c.Neat) {calls : List (τ × Call α)}
    (ordered : ∀ call ∈ calls, call.1 ≤ now) : (c.replay calls).Live rule key now e ↔
      (c.Live rule key now e ∧ Undisturbed rule key c calls) ∨
      ∃ past t call since, calls = past ++ (t, call) :: since ∧
        (c.replay past).Stores t rule key e call ∧ ¬ e.expiresAt ≤ now ∧
        Undisturbed rule key (c.replay (past ++ [(t, call)])) since := by
  -- What the first call leaves is the start of the others, so what it stores is what they may disturb.
  induction calls generalizing c with
  | nil => simp [replay, Undisturbed]
  | cons first rest ih =>
    obtain ⟨t, call⟩ := first
    obtain ⟨early, ordered⟩ := List.forall_mem_cons.mp ordered
    have later := ih (advanceNeat neat t call) ordered
    rw [advanceLive neat early] at later
    constructor
    · intro live
      rcases later.mp live with ⟨⟨live, calm⟩ | ⟨stores, alive⟩, undisturbed⟩ |
        ⟨past, t', call', since, rfl, stores, alive, undisturbed⟩
      · exact .inl ⟨live, calm, undisturbed⟩
      · exact .inr ⟨[], t, call, rest, rfl, stores, alive, undisturbed⟩
      · exact .inr ⟨(t, call) :: past, t', call', since, rfl, stores, alive, undisturbed⟩
    · rintro (⟨live, calm, undisturbed⟩ | ⟨past, t', call', since, split, stores, alive, undisturbed⟩)
      · exact later.mpr (.inl ⟨.inl ⟨live, calm⟩, undisturbed⟩)
      · cases past with
        | nil =>
          cases split
          exact later.mpr (.inl ⟨.inr ⟨stores, alive⟩, undisturbed⟩)
        | cons other past =>
          cases split
          exact later.mpr (.inr ⟨past, t', call', since, rfl, stores, alive, undisturbed⟩)

theorem liveCurrent [Instant.Ordered τ] {maxEntries defaultTtl : Int} {calls : List (τ × Call α)} {value : α}
    (ordered : ∀ call ∈ calls, call.1 ≤ now) :
    (∃ e, ((create maxEntries defaultTtl).replay calls).Live rule key now e ∧ e.value = value) ↔
      Current (create maxEntries defaultTtl) calls rule key now value := by
  have standard (past : List (τ × Call α)) := (replayCounts (create maxEntries defaultTtl) past).1
  have alive {past since : List (τ × Call α)} {t span : τ} {call : Call α} {seconds : Int}
      (split : calls = past ++ (t, call) :: since) (lives : Instant.ofSeconds seconds = .ok span) :
      now < t + span ↔ ¬ t + span ≤ now := by
    obtain ⟨number, number'⟩ := Instant.Ordered.number (ordered (t, call) (by simp [split]))
    exact Instant.Ordered.before number' (Instant.Ordered.later number lives)
  constructor
  · rintro ⟨⟨expiresAt, _⟩, live, rfl⟩
    rcases (replayLive (createNeat ..) ordered).mp live with
      ⟨⟨found, _⟩, _⟩ | ⟨past, t, call, since, split, stores, late, undisturbed⟩
    · exact nomatch found
    · cases call with
      | put other basis value ttl =>
        obtain ⟨rfl, found, rfl, expiry⟩ := stores
        obtain ⟨span, lives, rfl⟩ := expiryAccepts.mp expiry
        rw [standard] at lives
        exact ⟨past, t, basis, ttl, span, since, split, found, lives, (alive split lives).mpr late, undisturbed⟩
      | _ => exact stores.elim
  · rintro ⟨past, t, basis, ttl, span, since, split, found, lives, early, undisturbed⟩
    refine ⟨⟨t + span, value⟩, (replayLive (createNeat ..) ordered).mpr (.inr ?_), rfl⟩
    have expiry : ((create maxEntries defaultTtl).replay past : Cache τ α).expiry t ttl = .ok (t + span) :=
      expiryAccepts.mpr ⟨span, by rw [standard, lives], rfl⟩
    exact ⟨past, t, _, since, split, ⟨rfl, found, rfl, expiry⟩, (alive split lives).mp early, undisturbed⟩

/-- A cache is a map of values that expire: whatever was called before, at times that are not past a look, the
look finds the value that is current, counts as a hit if there is one and as a miss if there is none. -/
theorem refinesTimedMap [Instant.Ordered τ] (maxEntries defaultTtl : Int) {calls : List (τ × Call α)} {now : τ}
    (ordered : ∀ call ∈ calls, call.1 ≤ now) :
    let start : Cache τ α := create maxEntries defaultTtl
    let c := start.replay calls
    (c.hits + c.misses = calls.countP fun call => call.2.looks) ∧
    ∀ {rule key basis}, Basis.key basis rule = .ok key →
      ∃ answer after, c.attempt now (.get rule basis) = .ok (answer, after) ∧
        (∀ value, answer = some value ↔ Current start calls rule key now value) ∧
        after.hits = c.hits + (if answer.isSome then 1 else 0) ∧
        after.misses = c.misses + (if answer.isSome then 0 else 1) := by
  intro start c
  have counts : c.hits + c.misses = 0 + 0 + _ := (replayCounts start calls).2
  refine ⟨by omega, ?_⟩
  intro rule key basis found
  obtain ⟨_, hits, misses⟩ := getCounts c rule key now
  refine ⟨_, _, by simp [attempt, found, bind, Except.bind, pure, Except.pure], fun value => ?_, hits, misses⟩
  rw [getAnswers, ← liveCurrent ordered]
  exact exists_congr fun e => ⟨fun ⟨held, same, alive⟩ => ⟨⟨held, alive⟩, same⟩,
    fun ⟨⟨held, alive⟩, same⟩ => ⟨held, same, alive⟩⟩

def plainBasis : Basis := ⟨0, [("amount", .int 120)], []⟩

def busyHistory : List (Float × Call Bool) :=
  [(0, .put "audit" plainBasis true (some 60)), (10, .put "limits" plainBasis false none),
    (20, .get "audit" plainBasis), (30, .invalidate "limits"), (40, .sweep)]

theorem refinesTimedMapBusy : (∀ call ∈ busyHistory, call.1 ≤ 59) ∧
    ∃ key, plainBasis.key "audit" = .ok key ∧
      Current (create 2 300) busyHistory "audit" key 59 true := by
  have ordered : ∀ call ∈ busyHistory, call.1 ≤ 59 := by decide +kernel
  have found : (plainBasis.key "audit").isOk = true := by decide +kernel
  obtain ⟨key, found⟩ := isOkAccepts.mp found
  obtain ⟨_, look⟩ := refinesTimedMap 2 300 ordered
  obtain ⟨answer, after, attempted, current, _⟩ := look found
  have hit : ((replay (create 2 300) busyHistory).attempt 59 (.get "audit" plainBasis)).toOption.map
      Prod.fst = some (some true) := by decide +kernel
  rw [attempted] at hit
  exact ⟨ordered, key, found, (current true).mp (Option.some.inj hit)⟩
end DecisionRules.Cache
