import PathRouting.Route

/-!
# Routers

A router holds routes in the order in which they were registered, under distinct names. The
first route that matches a path and a method wins.
-/
namespace PathRouting

structure Router where
  routes : List Route
  /-- The routes again, each under its name. -/
  index : Mapping Route
  codec : Codec
  cache : Option Pattern.Cache

namespace Router

def empty (codec : Codec) (cache : Option Pattern.Cache) : Router := ⟨[], [], codec, cache⟩

def names (r : Router) : List String := r.routes.map Route.name

def named (r : Router) (name : Value) : Except Misuse (Option Route) :=
  match name.unhashable? with
  | some typeName => .error (.unhashable typeName)
  | none => .ok (Mapping.get? r.index name)

variable [CharacterNames]

/-- Register a route, with the router as it is afterwards: a failure leaves the routes as they
are, but the cache may have changed. -/
def add (r : Router) (d : Route.Definition) : Except Failure Route × Router :=
  match r.named d.name with
  | .error m => (.error (.misuse m), r)
  | .ok (some _) => (.error (.fault (Fault.duplicateRoute d.name [])), r)
  | .ok none =>
    match Route.ofDefinition d r.codec r.cache with
    | (.error e, cache) => (.error e, { r with cache := cache })
    | (.ok route, cache) =>
      (.ok route, { r with
        routes := r.routes ++ [route]
        index := Mapping.insert r.index d.name route
        cache := cache })

def find (r : Router) (path method : Value) : Option (Route × Mapping String) :=
  r.routes.findSome? fun route => (route.parse path method).map fun params => (route, params)

def build (r : Router) (name params : Value) : Except Failure String := do
  match ← Failure.ofMisuse (r.named name) with
  | none => .error (.fault (Fault.routeNotFound name []))
  | some route => Failure.ofMisuse (route.buildFrom params)

def contains (r : Router) (name : Value) : Except Misuse Bool :=
  (r.named name).map Option.isSome

def bundle (r : Router) : List Route.Descriptor := r.routes.map Route.descriptor

def update (r : Router) (name : String) (f : Route → Route) : Router :=
  let change := fun route : Route => if route.name == name then f route else route
  { r with routes := r.routes.map change, index := Mapping.mapValues change r.index }

def requiredKeys : List String := ["method", "name", "pattern"]

def definitionFault (position : Nat) (reason : String) : Failure :=
  .fault (Fault.configInvalid (.str ("routes[" ++ Value.ofInt position ++ "]")) (.str reason) [])

def entry (es : Mapping Value) (key : String) : Value := (Mapping.named? es key).getD .null

/-- The entries of a listed definition, which must be a mapping with the required keys. -/
def listedEntries (position : Nat) (definition : Value) : Except Failure (Mapping Value) :=
  match definition with
  | .mapping es =>
    let missing := requiredKeys.filter fun key => (Mapping.named? es key).isNone
    if missing.isEmpty then .ok es
    else .error (definitionFault position ("missing required keys: " ++ ", ".intercalate missing))
  | _ => .error (definitionFault position "route definition must be a mapping")

def listedDefinition (es : Mapping Value) : Route.Definition :=
  ⟨entry es "method", entry es "name", entry es "pattern", entry es "conditions",
    entry es "defaults"⟩

def withController (es : Mapping Value) (route : Route) : Route :=
  match entry es "controller" with
  | .null => route
  | controller => route.bind (.mapping [(.str "controller", controller)])

def addListed (r : Router) (position : Nat) (definition : Value) : Except Failure Router := do
  let es ← listedEntries position definition
  match r.add (listedDefinition es) with
  | (.error e, _) => .error e
  | (.ok route, r) => .ok (r.update route.name (withController es))

def addAllListed (r : Router) (position : Nat) : List Value → Except Failure Router
  | [] => .ok r
  | d :: rest => do
    let r ← r.addListed position d
    addAllListed r (position + 1) rest

def ofDefinitions (definitions : Value) (codec : Codec) (cache : Option Pattern.Cache) :
    Except Failure Router :=
  match definitions.elements? with
  | none => .error (.misuse (.notIterable definitions.qualifiedTypeName))
  | some ds => (empty codec cache).addAllListed 0 ds

end Router

end PathRouting
