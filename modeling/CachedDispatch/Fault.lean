/-!
Failures of dispatch, and their wording.
-/
namespace CachedDispatch

inductive Fault
  | missingMethod (receiver name : String) (argTypes : List String)
  | missingProperty (receiver name : String)
  | missingConstructor (receiver : String) (argTypes : List String)
  | nullReceiver (name : String) (property : Bool)
  | unknownType (id : Nat)
  | coercion (expected found : String)
  /-- An exception that the invoked code itself raised. -/
  | thrown (kind text : String)
  | invalidSlot (index : Nat)
  /-- A failure of invoked code on its way through a dispatch. -/
  | invocation (inner : Fault)
deriving DecidableEq, Repr, Inhabited

namespace Fault

def message : Fault → String
  | missingMethod receiver name argTypes =>
    s!"no signature of method {receiver}.{name}() is applicable for argument types: ("
      ++ ", ".intercalate argTypes ++ ")"
  | missingProperty receiver name => s!"no such property: {name} for class: {receiver}"
  | missingConstructor receiver argTypes =>
    s!"could not find matching constructor for: {receiver}(" ++ ", ".intercalate argTypes ++ ")"
  | nullReceiver name property =>
    if property then s!"Cannot get property '{name}' on null object"
    else s!"Cannot invoke method {name}() on null object"
  | unknownType id => s!"unknown type id {id}"
  | coercion expected found => s!"cannot cast object of type {found} to {expected}"
  | thrown kind text => s!"{kind}: {text}"
  | invalidSlot index => s!"invalid call site slot {index}"
  | invocation inner => inner.message

/-- The failure in a layer that marks it as coming from invoked code; one layer is enough. -/
def carried : Fault → Fault
  | invocation inner => invocation inner
  | f => invocation f

/-- The failure without the layers that mark it as coming from invoked code. -/
def bare : Fault → Fault
  | invocation inner => inner.bare
  | f => f

end Fault

end CachedDispatch
