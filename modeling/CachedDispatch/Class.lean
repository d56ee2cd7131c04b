import CachedDispatch.Assoc
import CachedDispatch.Method
import CachedDispatch.Value

/-!
Classes as records of members. Each change of the members advances the class's stamp, so a stamp
that has not moved vouches for what was looked up before.
-/
namespace CachedDispatch

/-- The place of a class in the store of classes. Several classes may share a type identity. -/
structure ClassRef where
  idx : Nat
deriving DecidableEq, Hashable, Repr, Inhabited

inductive ClassKind
  /-- Instances are objects of the language. -/
  | dynamic
  /-- Instances are objects of the embedding program. -/
  | host
  | builtin
  | nullObject
deriving DecidableEq, Repr, Inhabited

def ClassKind.label : ClassKind → String
  | dynamic => "Dynamic"
  | host => "Host"
  | builtin => "Builtin"
  | nullObject => "NullObject"

/-- The overloads that are kept under each name. -/
abbrev MethodTable := List (String × List Method)

structure Class where
  id : TypeId
  name : String
  kind : ClassKind
  /-- The ancestors, nearest first. -/
  ancestors : List ClassRef := []
  stamp : Nat := 0
  methods : MethodTable := []
  statics : MethodTable := []
  constructors : List Method := []
  fields : List String := []
  staticFields : List (String × Value) := []
  /-- Code that takes every call on an instance. -/
  hook : Option Script.Body := none
deriving Inhabited

/-- Puts `m` where the first entry that it supersedes stands, or at the end. -/
def insertMethod (supersedes : Method → Bool) (m : Method) : List Method → List Method
  | [] => [m]
  | n :: ms => if supersedes n then m :: ms else n :: insertMethod supersedes m ms

namespace MethodTable

/-- The overloads of a name, in the order in which they were stored. -/
def overloads (t : MethodTable) (name : String) : List Method := (Assoc.get? t name).getD []

/-- Stores a method among the overloads of its name. -/
def insert (t : MethodTable) (m : Method) : MethodTable :=
  Assoc.set t m.name (insertMethod (·.sameSignature m) m (t.overloads m.name))

theorem overloads_insert (t : MethodTable) (m : Method) (name : String) :
    (t.insert m).overloads name
      = if name = m.name then insertMethod (·.sameSignature m) m (t.overloads name)
        else t.overloads name := by
  unfold insert
  rw [overloads, Assoc.get?_set]
  split
  · rename_i h
    rw [h]
    rfl
  · rfl

theorem overloads_erase (t : MethodTable) (name name' : String) :
    overloads (Assoc.erase t name) name' = if name' = name then [] else t.overloads name' := by
  rw [overloads, Assoc.get?_erase]
  split <;> rfl

end MethodTable

namespace Class

def bump (c : Class) : Class := { c with stamp := c.stamp + 1 }

/-- Stores a method with the class as declarer, without a new stamp. -/
def putMethod (c : Class) (m : Method) : Class :=
  let m := { m with declaring := c.id }
  if m.isStatic then { c with statics := c.statics.insert m }
  else { c with methods := c.methods.insert m }

def putConstructor (c : Class) (m : Method) : Class :=
  let m := { m with declaring := c.id }
  { c with constructors := insertMethod (fun n => n.params = m.params) m c.constructors }

def putField (c : Class) (name : String) : Class :=
  if c.fields.contains name then c else { c with fields := c.fields ++ [name] }

def putStatic (c : Class) (name : String) (v : Value) : Class :=
  { c with staticFields := Assoc.set c.staticFields name v }

/-- While a class is being built, a method called `<init>` becomes a constructor. -/
def declareMethod (c : Class) (m : Method) : Class :=
  if m.name = Method.constructorName then c.putConstructor m else c.putMethod m

def addMethod (c : Class) (m : Method) : Class := (c.putMethod m).bump

def addConstructor (c : Class) (m : Method) : Class := (c.putConstructor m).bump

/-- The overloads of a name among the static methods, or among those of instances. -/
def overloads (c : Class) (statics : Bool) (name : String) : List Method :=
  (if statics then c.statics else c.methods).overloads name

theorem overloads_putMethod (c : Class) (m : Method) (statics : Bool) (name : String) :
    (c.putMethod m).overloads statics name
      = if statics = m.isStatic ∧ name = m.name then
          insertMethod (·.sameSignature m) { m with declaring := c.id } (c.overloads statics name)
        else c.overloads statics name := by
  rcases m with ⟨own, declaring, params, isStatic, visibility, kind, code⟩
  cases isStatic <;> cases statics
    <;> simp [putMethod, overloads, MethodTable.overloads_insert, Method.sameSignature]

def declares (c : Class) (name : String) : Bool :=
  Assoc.contains c.methods name || Assoc.contains c.statics name

/-- Removes all overloads of a name; nothing changes when there are none. -/
def removeMethod (c : Class) (name : String) : Class :=
  if c.declares name then
    { c with
      methods := Assoc.erase c.methods name
      statics := Assoc.erase c.statics name }.bump
  else c

theorem overloads_removeMethod (c : Class) (name : String) (statics : Bool) (name' : String) :
    (c.removeMethod name).overloads statics name'
      = if name' = name then [] else c.overloads statics name' := by
  unfold removeMethod
  split
  · cases statics <;> exact MethodTable.overloads_erase ..
  · rename_i h
    -- the class has nothing under the name that could go
    split
    · rename_i hname
      subst hname
      simp only [declares, Bool.or_eq_true, not_or, Bool.not_eq_true, Assoc.contains_eq_isSome,
        Option.isSome_eq_false_iff, Option.isNone_iff_eq_none] at h
      cases statics <;> simp [overloads, MethodTable.overloads, h]
    · rfl

def addField (c : Class) (name : String) : Class :=
  if c.fields.contains name then c else (c.putField name).bump

/-- A new static field changes the members; a new value of an old one does not. -/
def setStatic (c : Class) (name : String) (v : Value) : Class :=
  if Assoc.contains c.staticFields name then c.putStatic name v else (c.putStatic name v).bump

end Class

/-- What a class is defined with. -/
structure ClassMembers where
  name : String := ""
  isHost : Bool := false
  fields : List String := []
  statics : List (String × Value) := []
  methods : List Method := []
  hook : Option Script.Body := none
deriving Inhabited

/-- A new class with these members. -/
def ClassMembers.toClass (m : ClassMembers) (id : TypeId) (ancestors : List ClassRef) : Class :=
  let empty : Class := {
    id
    name := m.name
    kind := if m.isHost then .host else .dynamic
    ancestors
    hook := m.hook }
  let withFields := m.fields.foldl Class.putField empty
  let withStatics := m.statics.foldl (fun c e => c.putStatic e.1 e.2) withFields
  m.methods.foldl Class.declareMethod withStatics

end CachedDispatch
