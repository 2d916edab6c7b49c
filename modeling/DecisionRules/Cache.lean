import DecisionRules.Assoc
import DecisionRules.Deadline.Instant

/-!
A cache of results by rule and fingerprint. An entry lives for a number of seconds; it is dropped when
it is looked up too late, or by a sweep. When the cache is full, the next new entry empties it first.
-/
namespace DecisionRules

structure CacheEntry (τ α : Type) where
  expiresAt : τ
  value : α
  deriving DecidableEq, Repr

structure Cache (τ α : Type) where
  maxEntries : Int
  defaultTtl : Int
  buckets : Assoc (Assoc (CacheEntry τ α))
  size : Nat
  hits : Nat
  misses : Nat
  deriving DecidableEq, Repr

namespace Cache
variable {τ α : Type} [Instant τ]

def create (maxEntries defaultTtl : Int) : Cache τ α :=
  ⟨max 1 maxEntries, max 1 defaultTtl, [], 0, 0, 0⟩

def bucket (c : Cache τ α) (rule : String) : Assoc (CacheEntry τ α) := Assoc.getD c.buckets rule []

def entry? (c : Cache τ α) (rule key : String) : Option (CacheEntry τ α) :=
  Assoc.get? (c.bucket rule) key

def setBucket (c : Cache τ α) (rule : String) (entries : Assoc (CacheEntry τ α)) : Cache τ α :=
  { c with buckets := if entries.isEmpty then Assoc.erase c.buckets rule
                      else Assoc.set c.buckets rule entries }

def drop (c : Cache τ α) (rule key : String) : Cache τ α :=
  { c.setBucket rule (Assoc.erase (c.bucket rule) key) with size := c.size - 1 }

/-- The value of a living entry; every look counts as a hit or as a miss. -/
def get (c : Cache τ α) (rule key : String) (now : τ) : Option α × Cache τ α :=
  match c.entry? rule key with
  | none => (none, { c with misses := c.misses + 1 })
  | some e =>
    if e.expiresAt ≤ now then
      let c := c.drop rule key
      (none, { c with misses := c.misses + 1 })
    else (some e.value, { c with hits := c.hits + 1 })

def clear (c : Cache τ α) : Cache τ α := { c with buckets := [], size := 0 }

/-- Would a new entry empty the cache first? -/
def overflows (c : Cache τ α) (rule key : String) : Bool :=
  (c.entry? rule key).isNone && decide (c.maxEntries ≤ c.size)

def insert (c : Cache τ α) (rule key : String) (e : CacheEntry τ α) : Cache τ α :=
  let size := if (c.entry? rule key).isSome then c.size else c.size + 1
  { c.setBucket rule (Assoc.set (c.bucket rule) key e) with size := size }

def expiry (c : Cache τ α) (now : τ) (ttl : Option Int) : Except Breach τ := do
  let seconds := match ttl with
    | none => c.defaultTtl
    | some n => max 1 n
  return now + (← Instant.ofSeconds seconds)

def put (c : Cache τ α) (rule key : String) (value : α) (now : τ) (ttl : Option Int) :
    Except Breach (Cache τ α) := do
  let e : CacheEntry τ α := ⟨← c.expiry now ttl, value⟩
  let c := if c.overflows rule key then c.clear else c
  return c.insert rule key e

def invalidate (c : Cache τ α) (rule : String) : Nat × Cache τ α :=
  let removed := (c.bucket rule).length
  (removed, { c with buckets := Assoc.erase c.buckets rule, size := c.size - removed })

def alive (now : τ) (entries : Assoc (CacheEntry τ α)) : Assoc (CacheEntry τ α) :=
  entries.filter fun e => !decide (e.2.expiresAt ≤ now)

def count (buckets : Assoc (Assoc (CacheEntry τ α))) : Nat :=
  buckets.foldr (fun b n => b.2.length + n) 0

/-- Drops expired entries, and all entries if there are still too many; counts what it drops. -/
def sweep (c : Cache τ α) (now : τ) : Nat × Cache τ α :=
  let kept := (Assoc.mapValues (alive now) c.buckets).filter fun b => !b.2.isEmpty
  let removed := count c.buckets - count kept
  let size := c.size - removed
  let c := { c with buckets := kept, size := size }
  if c.maxEntries < (size : Int) then (removed + size, c.clear) else (removed, c)

def hitRate (c : Cache τ α) : Float :=
  let total := c.hits + c.misses
  if total == 0 then 0 else Float.ofNat c.hits / Float.ofNat total

end Cache
end DecisionRules
