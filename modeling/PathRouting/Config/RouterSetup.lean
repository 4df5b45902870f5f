import PathRouting.Config.Schema
import PathRouting.Router

/-!
# The configuration of a router
-/
namespace PathRouting

structure RouterSetup where
  /-- The route definitions, unchecked. -/
  routes : List Value
  cacheEnabled : Bool
  cacheMaxSize : Int
  logLevel : String

namespace RouterSetup

open Config

def routesField : Field := ⟨"routes", .plain .list, some (.list [])⟩

def cacheEnabledField : Field := ⟨"cache_enabled", .plain .bool, some (.bool true)⟩

def cacheMaxSizeField : Field :=
  ⟨"cache_max_size", .plain .int, some (.int Pattern.Cache.defaultSize)⟩

def logLevelField : Field := ⟨"log_level", .plain .str, some (.str "WARNING")⟩

def logLevels : List String :=
  ["CRITICAL", "FATAL", "ERROR", "WARN", "WARNING", "INFO", "DEBUG", "NOTSET"]

def logLevelName (c : RouterSetup) : String := Text.upper c.logLevel

def checkLogLevel (c : RouterSetup) : Except Failure RouterSetup :=
  if logLevels.contains c.logLevelName then .ok c
  else
    .error (.fault (Fault.configFile (.str "log_level")
      (.str ("unknown logging level " ++ Text.quoted c.logLevel)) []))

def ofSettings (settings : Mapping Value) : Except Failure RouterSetup := do
  let routes ← routesField.value settings
  let enabled ← cacheEnabledField.value settings
  let size ← cacheMaxSizeField.value settings
  let level ← logLevelField.value settings
  checkLogLevel ⟨routes.elements?.getD [], enabled.truthy, size.toInt?.getD 0, level.text⟩

def cache (c : RouterSetup) : Option Pattern.Cache :=
  if c.cacheEnabled then some (.empty c.cacheMaxSize .unlimited true) else none

def router [CharacterNames] (c : RouterSetup) (codec : Codec) : Except Failure Router :=
  Router.ofDefinitions (.list c.routes) codec c.cache

end RouterSetup

end PathRouting
