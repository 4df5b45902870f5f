import PathRouting.Pattern.History

/-!
# What happens to a cache

What a call finds in a cache, what it stores, and the error it ends with; and the same for calls
one after another. These are read off the answers and the entries, not off the counts.
-/
namespace PathRouting.Pattern

def CacheCall.looksUp (call : CacheCall) : Bool := call.request?.isSome

namespace CacheSession

def found? (s : CacheSession) : CacheCall → Option String
  | .get r | .compile r => s.cache.hit? r
  | _ => none

variable [CharacterNames]

def failure? (s : CacheSession) : CacheCall → Option Failure
  | .compile r =>
    match (s.cache.compile r).1 with
    | .error e => some e
    | .ok _ => none
  | _ => none

/-- The key under which a call stores something. What is found is not stored again. -/
def stored? (s : CacheSession) : CacheCall → Option String
  | .put r _ => s.cache.slot? r
  | .compile r =>
    match (s.cache.compile r).1, s.cache.hit? r with
    | .ok _, none => s.cache.slot? r
    | _, _ => none
  | _ => none

/-- The cache at the moment when a call stores something: compiling looks the request up first,
which may drop an entry. -/
def beforeStore (s : CacheSession) : CacheCall → Cache
  | .compile r => (s.cache.get r).2
  | _ => s.cache

/-- The key under which a call stores something where nothing was at that moment. -/
def added? (s : CacheSession) (call : CacheCall) : Option String :=
  (s.stored? call).filter fun key => !(s.beforeStore call).hasKey key

def collect {α : Type} (happens : CacheSession → CacheCall → Option α) (s : CacheSession) :
    List CacheCall → List α
  | [] => []
  | call :: rest => (happens s call).toList ++ collect happens (s.call call) rest

end CacheSession

end PathRouting.Pattern
