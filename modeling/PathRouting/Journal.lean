import PathRouting.Text.Quoted
import PathRouting.Value.Text

/-!
# Events

What is worth telling about the work of the library while it goes on.
-/
namespace PathRouting

inductive Event where
  | configLoaded (path : String)
  | variablesLoaded (path : String)
  | cacheHit (source : String)
  | cacheMiss (source : String)
  | cacheExpired (source : String)
  | cacheEvicted (key : String)
  | routeCompiled (method name pattern matcher : String)
  | routeRegistered (position : Nat) (method name pattern : String)
  | routeMatched (method path name : String)
  | nothingMatched (method path : String)
deriving DecidableEq

namespace Event

def origin : Event → String
  | .configLoaded _ | .variablesLoaded _ => "routeforge.config"
  | .cacheHit _ | .cacheMiss _ | .cacheExpired _ | .cacheEvicted _ => "routeforge.patterns.cache"
  | .routeCompiled .. | .routeRegistered .. | .routeMatched .. | .nothingMatched .. =>
    "routeforge.routing"

def message : Event → String
  | .configLoaded path => "Loaded config file " ++ path
  | .variablesLoaded path => "Loaded env file " ++ path
  | .cacheHit source => "Cache hit for pattern " ++ Text.quoted source
  | .cacheMiss source => "Cache miss for pattern " ++ Text.quoted source
  | .cacheExpired source => "Expired cached pattern " ++ Text.quoted source
  | .cacheEvicted key => "Evicted cached pattern " ++ key
  | .routeCompiled method name pattern matcher =>
    "Compiled route " ++ method ++ " " ++ name ++ " " ++ Text.quoted pattern ++ " -> " ++ matcher
  | .routeRegistered position method name pattern =>
    "Registered route #" ++ Value.ofInt position ++ " " ++ method ++ " " ++ name ++ " " ++
      Text.quoted pattern
  | .routeMatched method path name => "Matched " ++ method ++ " " ++ path ++ " -> " ++ name
  | .nothingMatched method path => "No route matches " ++ method ++ " " ++ path

def line (e : Event) : String := "DEBUG " ++ e.origin ++ ": " ++ e.message ++ "\n"

end Event

end PathRouting
