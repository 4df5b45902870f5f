import PathRouting.Pattern.Cache

/-!
# Histories of a cache

What can be done to a cache, and the cache after it. In a block nothing new is kept; blocks can
be nested, and behind a block the cache has the size it had before.
-/
namespace PathRouting.Pattern

inductive CacheCall where
  | get (request : Request)
  | put (request : Request) (shared : Shared)
  | compile (request : Request)
  | contains (source : String)
  | invalidate (request : Request)
  | clear
  | resetStats
  | enter
  /-- Leave the innermost block, at its end or because an error goes through it. -/
  | leave
  | wait (ticks : Nat)

def CacheCall.request? : CacheCall → Option Request
  | .get r | .compile r => some r
  | _ => none

def CacheCall.invalidates (key : String) : CacheCall → Bool
  | .invalidate r => r.fingerprint.toOption == some key
  | .clear => true
  | _ => false

namespace Cache

/-- The cache after a change that may fail; a failure changes nothing. -/
def orSame (c : Cache) : Except Misuse Cache → Cache
  | .ok d => d
  | .error _ => c

def hit? (c : Cache) (r : Request) : Option String :=
  match (c.get r).1 with
  | .ok (some _) => r.fingerprint.toOption
  | _ => none

/-- The key under which something is stored, if anything is stored at all. -/
def slot? (c : Cache) (r : Request) : Option String :=
  if c.maxSize ≤ 0 then none else r.fingerprint.toOption

end Cache

structure CacheSession where
  cache : Cache
  /-- The sizes to return to behind the open blocks, the innermost first. -/
  saved : List Int

namespace CacheSession

def start (c : Cache) : CacheSession := ⟨c, []⟩

variable [CharacterNames]

def call (s : CacheSession) : CacheCall → CacheSession
  | .get r => { s with cache := (s.cache.get r).2 }
  | .put r shared => { s with cache := s.cache.orSame (s.cache.put r shared) }
  | .compile r => { s with cache := (s.cache.compile r).2 }
  | .contains _ => s
  | .invalidate r => { s with cache := s.cache.orSame (s.cache.invalidate r) }
  | .clear => { s with cache := s.cache.clear }
  | .resetStats => { s with cache := s.cache.resetStats }
  | .enter => ⟨s.cache.disable, s.cache.maxSize :: s.saved⟩
  | .leave =>
    match s.saved with
    | [] => s
    | size :: saved => ⟨s.cache.restore size, saved⟩
  | .wait ticks => { s with cache := s.cache.wait ticks }

def run (s : CacheSession) (calls : List CacheCall) : CacheSession := calls.foldl call s

/-- The key that a call uses: that of an entry which it finds, or one under which it stores. -/
def used? (s : CacheSession) : CacheCall → Option String
  | .get r => s.cache.hit? r
  | .put r _ => s.cache.slot? r
  | .compile r =>
    match (s.cache.compile r).1 with
    | .error _ => none
    | .ok _ => (s.cache.hit? r).or (s.cache.slot? r)
  | _ => none

def usedBy (s : CacheSession) : List CacheCall → List String
  | [] => []
  | call :: rest => (s.used? call).toList ++ usedBy (s.call call) rest

/-- The keys whose entries a call drops on purpose. -/
def invalidated (s : CacheSession) (call : CacheCall) : List String :=
  s.cache.keys.filter fun key => call.invalidates key

def invalidatedBy (s : CacheSession) : List CacheCall → List String
  | [] => []
  | call :: rest => s.invalidated call ++ invalidatedBy (s.call call) rest

end CacheSession

end PathRouting.Pattern
