import CachedDispatch.Config
import CachedDispatch.Text.Blank

/-!
Settings from environment variables. A variable that is not set leaves the default in place, and
the switch is read before the threshold.
-/
namespace CachedDispatch.Config

def cacheKey : String := "GROVE_CALLSITE_CACHE"

def thresholdKey : String := "GROVE_CALLSITE_MEGAMORPHIC_THRESHOLD"

/-- A switch, in any mix of upper and lower case ASCII letters and with white space around it. -/
def readSwitch? (s : String) : Option Bool :=
  let word := String.ofList ((Text.trim s).toList.map Char.toLower)
  if ["1", "true", "on", "yes"].contains word then some true
  else if ["0", "false", "off", "no"].contains word then some false
  else none

def digitsValue (cs : List Char) : Nat :=
  cs.foldl (fun n c => 10 * n + (c.toNat - '0'.toNat)) 0

/-- Decimal digits after an optional plus sign, as a number of 32 bits. -/
def readThreshold? (s : String) : Option Nat :=
  let cs := (Text.trim s).toList
  let digits := if cs.head? = some '+' then cs.tail else cs
  if digits ≠ [] ∧ digits.all Char.isDigit ∧ digitsValue digits ≤ maxThreshold then
    some (digitsValue digits)
  else none

/-- Reads one variable with `read?`, taking `default` when it is not set. -/
def readVariable {α : Type} (lookup : String → Option String) (key : String)
    (read? : String → Option α) (default : α) : Except ConfigError α :=
  match lookup key with
  | none => .ok default
  | some s =>
    match read? s with
    | some a => .ok a
    | none => .error (.invalidValue key s)

def ofEnvironment (lookup : String → Option String) : Except ConfigError Config := do
  let cache ← readVariable lookup cacheKey readSwitch? ({} : Config).cacheEnabled
  let threshold ← readVariable lookup thresholdKey readThreshold? ({} : Config).threshold
  pure ⟨cache, threshold⟩

end CachedDispatch.Config
