/-!
Settings of the call site cache, and the counters that a runtime keeps about it.
-/
namespace CachedDispatch

structure Config where
  /-- When false every call does a full lookup and no slot is written. -/
  cacheEnabled : Bool := true
  /-- How many specialized sites a slot may install before it gives up caching. -/
  threshold : Nat := 16
deriving DecidableEq, Repr, Inhabited

namespace Config

def uncached : Config := ⟨false, ({} : Config).threshold⟩

/-- The largest threshold. -/
def maxThreshold : Nat := 4294967295

end Config

inductive ConfigError
  | malformed
  | invalidValue (key value : String)
deriving DecidableEq, Repr, Inhabited

/-- The wording of an invalid value; a malformed document has none. -/
def ConfigError.message? : ConfigError → Option String
  | malformed => none
  | invalidValue key value => some s!"invalid value '{value}' for {key}"

structure Stats where
  /-- Full lookups made in order to specialize a slot. -/
  resolutions : Nat := 0
  installs : Nat := 0
  slowPathCalls : Nat := 0
  megamorphicTransitions : Nat := 0
deriving DecidableEq, Repr, Inhabited

/-- The counters as a JSON object. -/
def Stats.render (s : Stats) : String :=
  "\x7b\"resolutions\":" ++ toString s.resolutions ++ ",\"installs\":" ++ toString s.installs
    ++ ",\"slow_path_calls\":" ++ toString s.slowPathCalls
    ++ ",\"megamorphic_transitions\":" ++ toString s.megamorphicTransitions ++ "\x7d"

end CachedDispatch
