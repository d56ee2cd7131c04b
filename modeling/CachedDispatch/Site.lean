import CachedDispatch.Arguments
import CachedDispatch.Class
import CachedDispatch.SiteKind

/-!
Call sites. A slot of a table starts out generic. A specialized site remembers the outcome of a
lookup with everything that the lookup depended on, and a megamorphic site has given up caching.
-/
namespace CachedDispatch

/-- What a specialized site requires of the receiver. -/
inductive Guard
  /-- An object whose class is exactly this one. -/
  | instanceOf (cls : ClassRef)
  /-- A value that is no object, of this type. -/
  | valueOf (type : TypeId)
  /-- The class literal of this type. -/
  | literalOf (type : TypeId)
deriving DecidableEq, Repr, Inhabited

/-- A method that a lookup found, and what the lookup depended on. -/
structure Target where
  cls : ClassRef
  version : Nat
  shape : Shape
  method : Method
  tier : Tier
deriving Inhabited

/-- How a specialized site reads a property. -/
inductive Access
  | field (name : String)
  | accessor (m : Method)
  | entry (key : String)
  | staticField (name : String)
deriving Inhabited

inductive Site
  | generic
  /-- Stands in for one call on null; no slot ever holds it. -/
  | null
  | megamorphic
  /-- `current` tells a call on the current object from a plain one. -/
  | method (guard : Guard) (target : Target) (current : Bool)
  | constructor (type : TypeId) (target : Target)
  /-- Constructs with the leading arguments and sets properties from the map that follows them. -/
  | bean (type : TypeId) (target : Target)
  | property (guard : Guard) (cls : ClassRef) (version : Nat) (access : Access)
deriving Inhabited

inductive SiteTag
  | generic | null | megamorphic
  | dynamicMethod | hostMethod | staticMethod
  | constructor | beanConstructor
  | dynamicProperty | hostProperty | classProperty
deriving DecidableEq, Repr, Inhabited

def SiteTag.isSpecialized : SiteTag → Bool
  | generic | null | megamorphic => false
  | _ => true

namespace Site

def tag : Site → SiteTag
  | generic => .generic
  | null => .null
  | megamorphic => .megamorphic
  | method (.instanceOf _) _ _ => .dynamicMethod
  | method (.valueOf _) _ _ => .hostMethod
  | method (.literalOf _) _ _ => .staticMethod
  | constructor .. => .constructor
  | bean .. => .beanConstructor
  | property (.instanceOf _) _ _ _ => .dynamicProperty
  | property (.valueOf _) _ _ _ => .hostProperty
  | property (.literalOf _) _ _ _ => .classProperty

/-- The preparation that the remembered method needs, for sites that remember one. -/
def tier? : Site → Option Tier
  | method _ t _ | constructor _ t | bean _ t => some t.tier
  | _ => none

end Site

/-- What every site that occupies a slot says of the slot. -/
structure SiteHeader where
  index : Nat
  name : String
deriving DecidableEq, Repr, Inhabited

structure Slot where
  /-- The header of the occupant. -/
  header : SiteHeader
  kind : SiteKind
  site : Site := .generic
  /-- How many specialized sites have been installed here. -/
  installs : Nat := 0
deriving Inhabited

def Slot.name (s : Slot) : String := s.header.name

/-- The call sites of one unit. -/
structure Table where
  /-- The type on whose behalf the sites look methods up. -/
  owner : TypeId
  /-- The runtime that the table belongs to. -/
  runtime : Nat
  slots : Array Slot
deriving Inhabited

/-- The place of a table in the store of tables. -/
structure TableRef where
  idx : Nat
deriving DecidableEq, Hashable, Repr, Inhabited

def Table.ofSites (owner : TypeId) (runtime : Nat) (sites : List (String × SiteKind)) : Table :=
  ⟨owner, runtime, (sites.zipIdx.map fun (s, i) => { header := ⟨i, s.1⟩, kind := s.2 : Slot }).toArray⟩

end CachedDispatch
