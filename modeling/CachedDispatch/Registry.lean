import CachedDispatch.Assoc
import CachedDispatch.Class
import CachedDispatch.Config

/-!
A runtime: its settings, its counters, and the registry that says which class stands for a type.
-/
namespace CachedDispatch

structure Registry where
  /-- The first of the places that are reserved for the builtin classes. -/
  base : Nat
  entries : List (TypeId × ClassRef) := []
  names : List (String × TypeId) := []
  /-- How many definitions have been begun. -/
  begun : Nat := 0
deriving Repr, Inhabited

namespace Registry

/-- The place reserved for a builtin class. -/
def builtinRef (r : Registry) (b : BuiltinType) : ClassRef := ⟨r.base + b.id.number⟩

/-- The identity that the next defined type gets. -/
def next (r : Registry) : TypeId := .defined r.begun

/-- Hands out the next identity. -/
def handOut (r : Registry) : Registry := { r with begun := r.begun + 1 }

/-- The type that a name stands for: the one registered last under it, else a builtin type. -/
def lookup? (r : Registry) (name : String) : Option TypeId :=
  match Assoc.get? r.names name with
  | some t => some t
  | none => (BuiltinType.ofName? name).map (·.id)

def register (r : Registry) (name : String) (t : TypeId) (c : ClassRef) : Registry :=
  { r with entries := Assoc.set r.entries t c, names := Assoc.set r.names name t }

/-- Enters a builtin class; a name that is already taken stays as it is. -/
def enterBuiltin (r : Registry) (b : BuiltinType) : Registry :=
  { r with
    entries := Assoc.set r.entries b.id (r.builtinRef b)
    names := if Assoc.contains r.names b.name then r.names else Assoc.set r.names b.name b.id }

end Registry

structure Runtime where
  config : Config
  registry : Registry
  stats : Stats := {}
deriving Repr, Inhabited

end CachedDispatch
