import PathRouting.Router

/-!
# Histories of a router

What can be asked of a router, what it answers, and the router afterwards. In its answers a
route shows by its descriptor.
-/
namespace PathRouting

inductive RouterCall where
  | add (definition : Route.Definition)
  | find (path method : Value)
  | build (name params : Value)
  | bundle
  | wait (ticks : Nat)

inductive RouterAnswer where
  | added (result : Except Failure Route.Descriptor)
  | found (result : Option (Route.Descriptor × Mapping String))
  | built (result : Except Failure String)
  | bundled (descriptors : List Route.Descriptor)
  | silent

/-- The request for a compiled pattern that a call makes, unless the name is taken. -/
def RouterCall.request? : RouterCall → Option Pattern.Request
  | .add d => d.check.toOption.map Route.Checked.request
  | _ => none

namespace Router

/-- The router after some time, which only its cache can notice. -/
def wait (r : Router) (ticks : Nat) : Router := { r with cache := r.cache.map (·.wait ticks) }

variable [CharacterNames]

def answer (r : Router) : RouterCall → RouterAnswer
  | .add d => .added ((r.add d).1.map Route.descriptor)
  | .find path method =>
    .found ((r.find path method).map fun (route, params) => (route.descriptor, params))
  | .build name params => .built (r.build name params)
  | .bundle => .bundled r.bundle
  | .wait _ => .silent

def call (r : Router) : RouterCall → Router
  | .add d => (r.add d).2
  | .wait ticks => r.wait ticks
  | _ => r

def run (r : Router) (calls : List RouterCall) : Router := calls.foldl call r

def answers (r : Router) : List RouterCall → List RouterAnswer
  | [] => []
  | call :: rest => r.answer call :: answers (r.call call) rest

end Router

end PathRouting
