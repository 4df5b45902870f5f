import PathRouting.Journal
import PathRouting.Router

/-!
# What operations tell

The events of an operation follow from the state that it starts in. They are stated apart from
the operations, which do not depend on whether anybody listens.
-/
namespace PathRouting

namespace Pattern.Cache

variable [CharacterNames]

/-- The events of a look-up that found nothing: the pattern is compiled and stored, which may
drop the oldest entry. -/
def missEvents (c : Cache) (key : String) (r : Request) : List Event :=
  let dropped := match r.compile with
    | .error _ => none
    | .ok _ => if c.maxSize ≤ 0 || !c.isFullFor key then none else c.keys.head?
  .cacheMiss r.source :: (dropped.map Event.cacheEvicted).toList

def compileEvents (c : Cache) (r : Request) : List Event :=
  match r.fingerprint with
  | .error _ => []
  | .ok key =>
    match c.find? key with
    | none => c.missEvents key r
    | some e =>
      if c.hasExpired e then .cacheExpired r.source :: (c.remove key).missEvents key r
      else [.cacheHit r.source]

end Pattern.Cache

namespace Route

def compiledEvent (r : Route) : Event :=
  .routeCompiled r.method r.name r.pattern r.compiled.matcher.source

def definitionEvents [CharacterNames] (d : Definition) (cache : Option Pattern.Cache) :
    List Event :=
  match d.check, cache with
  | .ok c, some cache => cache.compileEvents c.request
  | _, _ => []

end Route

namespace Router

def addEvents [CharacterNames] (r : Router) (d : Route.Definition) : List Event :=
  match r.named d.name with
  | .ok none =>
    let outcome := match (r.add d).1 with
      | .error _ => []
      | .ok route =>
        [route.compiledEvent,
          .routeRegistered (r.routes.length + 1) route.method route.name route.pattern]
    Route.definitionEvents d r.cache ++ outcome
  | _ => []

/-- The events of registering listed definitions one after another, up to the first failure. -/
def addAllListedEvents [CharacterNames] (r : Router) (position : Nat) : List Value → List Event
  | [] => []
  | d :: rest =>
    match listedEntries position d with
    | .error _ => []
    | .ok es =>
      let later := match r.addListed position d with
        | .error _ => []
        | .ok r => addAllListedEvents r (position + 1) rest
      r.addEvents (listedDefinition es) ++ later

def findEvent (r : Router) (path method : String) : Event :=
  match r.find (.str path) (.str method) with
  | some (route, _) => .routeMatched method path route.name
  | none => .nothingMatched method path

end Router

end PathRouting
