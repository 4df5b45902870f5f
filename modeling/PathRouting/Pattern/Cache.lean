import PathRouting.Pattern.Request

/-!
# A cache of compiled patterns

Entries are kept in the order of their last use, the oldest first. When a new entry finds the
cache full, the oldest one goes. Every pattern that is compiled gets a serial number, so one
can tell whether two answers are the same pattern or two that were compiled alike.
-/
namespace PathRouting.Pattern

inductive Lifetime where
  | unlimited
  /-- Entries have expired as soon as they are stored. -/
  | over
  /-- Entries expire when they are older than a number of ticks. -/
  | limited (ticks : Nat)
deriving DecidableEq

structure CacheStats where
  hits : Nat
  misses : Nat
  evictions : Nat
  errors : Nat
deriving DecidableEq

namespace CacheStats

def zero : CacheStats := ⟨0, 0, 0, 0⟩

/-- The share of hits among all look-ups, zero if there were none. -/
def hitRate (s : CacheStats) : Binary64 :=
  let total := s.hits + s.misses
  if total = 0 then .finite false 0 (-1074) else Binary64.ofRatio false s.hits total

end CacheStats

structure Shared where
  serial : Nat
  compiled : Compiled

/-- A stored pattern, how often it was used since, and the time at which it was stored. -/
structure CacheEntry where
  key : String
  shared : Shared
  uses : Nat
  storedAt : Nat

structure Cache where
  /-- At most so many entries are kept; none is stored if this is not positive. -/
  maxSize : Int
  lifetime : Lifetime
  counting : Bool
  /-- The entries, by last use and oldest first. -/
  entries : List CacheEntry
  stats : CacheStats
  nextSerial : Nat
  /-- The time, in ticks of a clock. -/
  now : Nat

namespace Cache

def empty (maxSize : Int) (lifetime : Lifetime) (counting : Bool) : Cache :=
  ⟨maxSize, lifetime, counting, [], .zero, 0, 0⟩

def defaultSize : Int := 1000

def size (c : Cache) : Nat := c.entries.length

def keys (c : Cache) : List String := c.entries.map CacheEntry.key

def find? (c : Cache) (key : String) : Option CacheEntry := c.entries.find? (·.key == key)

def hasKey (c : Cache) (key : String) : Bool := c.entries.any (·.key == key)

def remove (c : Cache) (key : String) : Cache :=
  { c with entries := c.entries.filter fun e => !(e.key == key) }

def count (c : Cache) (f : CacheStats → CacheStats) : Cache :=
  if c.counting then { c with stats := f c.stats } else c

def countMiss (c : Cache) : Cache := c.count fun s => { s with misses := s.misses + 1 }

def countHit (c : Cache) : Cache := c.count fun s => { s with hits := s.hits + 1 }

def countEviction (c : Cache) : Cache := c.count fun s => { s with evictions := s.evictions + 1 }

def countError (c : Cache) : Cache := c.count fun s => { s with errors := s.errors + 1 }

def putLast (c : Cache) (e : CacheEntry) : Cache :=
  { c.remove e.key with entries := (c.remove e.key).entries ++ [e] }

def hasExpired (c : Cache) (e : CacheEntry) : Bool :=
  match c.lifetime with
  | .unlimited => false
  | .over => true
  | .limited ticks => decide (ticks < c.now - e.storedAt)

/-- Look up a key. A hit makes the entry the most recently used; an expired entry is dropped. -/
def lookup (c : Cache) (key : String) : Option Shared × Cache :=
  match c.find? key with
  | none => (none, c.countMiss)
  | some e =>
    if c.hasExpired e then (none, (c.remove key).countEviction.countMiss)
    else (some e.shared, (c.putLast { e with uses := e.uses + 1 }).countHit)

/-- Whether storing a key drops the oldest entry. -/
def isFullFor (c : Cache) (key : String) : Bool :=
  decide (c.maxSize ≤ c.size) && !c.hasKey key

def dropOldest (c : Cache) : Cache := { c with entries := c.entries.drop 1 }

def store (c : Cache) (key : String) (shared : Shared) : Cache :=
  if c.isFullFor key then c.dropOldest.countEviction.putLast ⟨key, shared, 0, c.now⟩
  else c.putLast ⟨key, shared, 0, c.now⟩

def number (c : Cache) (compiled : Compiled) : Shared × Cache :=
  (⟨c.nextSerial, compiled⟩, { c with nextSerial := c.nextSerial + 1 })

def get (c : Cache) (r : Request) : Except Misuse (Option Shared) × Cache :=
  match r.fingerprint with
  | .error m => (.error m, c)
  | .ok key =>
    let (found, c) := c.lookup key
    (.ok found, c)

/-- Store a pattern for a request, unless the cache keeps nothing. -/
def put (c : Cache) (r : Request) (shared : Shared) : Except Misuse Cache :=
  if c.maxSize ≤ 0 then .ok c
  else r.fingerprint.map fun key => c.store key shared

/-- The pattern of a request: the stored one, or a new one, which is then stored. -/
def compile [CharacterNames] (c : Cache) (r : Request) : Except Failure Shared × Cache :=
  match c.get r with
  | (.error m, c) => (.error (.misuse m), c)
  | (.ok (some shared), c) => (.ok shared, c)
  | (.ok none, c) =>
    match r.compile with
    | .error e => (.error e, c.countError)
    | .ok compiled =>
      let (shared, c) := c.number compiled
      match c.put r shared with
      | .error m => (.error (.misuse m), c)
      | .ok c => (.ok shared, c)

def invalidate (c : Cache) (r : Request) : Except Misuse Cache :=
  r.fingerprint.map fun key => c.remove key

def clear (c : Cache) : Cache := { c with entries := [] }

def contains (c : Cache) (source : String) : Except Misuse Bool :=
  (Request.fingerprint ⟨source, .null, .null⟩).map c.hasKey

def resetStats (c : Cache) : Cache := { c with stats := .zero }

/-- The cache while nothing new is to be kept. -/
def disable (c : Cache) : Cache := { c with maxSize := 0 }

def restore (c : Cache) (maxSize : Int) : Cache := { c with maxSize := maxSize }

def wait (c : Cache) (ticks : Nat) : Cache := { c with now := c.now + ticks }

end Cache

end PathRouting.Pattern
