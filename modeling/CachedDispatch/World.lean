import CachedDispatch.Builtin
import CachedDispatch.Category
import CachedDispatch.Hierarchy
import CachedDispatch.History
import CachedDispatch.Program
import CachedDispatch.Registry
import CachedDispatch.Script.Report
import CachedDispatch.Value.Display

/-!
Everything that a run can change: classes, objects, runtimes, call site tables, definitions that have
been begun, the active categories, and the names that scripts use.
-/
namespace CachedDispatch

structure Object where
  cls : ClassRef
  fields : List (String × Value)
deriving Repr, Inhabited

/-- A definition that was begun: its identity, and the class that it extends by default. -/
structure Draft where
  runtime : Nat
  id : TypeId
  name : String
  isHost : Bool
  root : ClassRef
deriving Repr, Inhabited

/-- The names that scripts use, and what has been reported so far. -/
structure Scope where
  labels : List (String × ClassRef) := []
  stored : List (String × Value) := []
  tables : List (String × TableRef) := []
  units : List (String × LoadedUnit) := []
  categories : List (String × Category) := []
  /-- The runtime that steps work on. -/
  runtime : Nat := 0
  /-- What the running step has traced, newest first. -/
  trace : List Script.Entry := []
  /-- The objects that reports have shown, in the order of their numbers. -/
  shown : List ObjectRef := []
deriving Inhabited

structure World where
  classes : Array Class := #[]
  objects : Array Object := #[]
  runtimes : Array Runtime := #[]
  tables : Array Table := #[]
  /-- The definitions that have been begun and not built, by the names that scripts use. -/
  drafts : List (String × Draft) := []
  /-- The active categories, innermost first. -/
  active : List Category := []
  /-- The next allocation number. -/
  fresh : Nat := 0
  scope : Scope := {}
  /-- What has happened at call sites, newest first. -/
  history : List Event := []
  /-- What no run changes. -/
  embedding : Embedding := {}
deriving Inhabited

namespace World

def cls (w : World) (r : ClassRef) : Class := w.classes.getD r.idx default

def hierarchy (w : World) (r : ClassRef) : Hierarchy := ⟨w.cls r, (w.cls r).ancestors.map w.cls⟩

def object (w : World) (o : ObjectRef) : Object := w.objects.getD o.idx default

def classOfObject (w : World) (o : ObjectRef) : ClassRef := (w.object o).cls

def lineage (w : World) : Lineage := fun o => (w.hierarchy (w.classOfObject o)).lineage

def naming (w : World) : Naming :=
  { w.embedding with className := fun o => (w.cls (w.classOfObject o)).name }

def typeName (w : World) (v : Value) : String := v.typeName w.naming

def version (w : World) (r : ClassRef) : Nat := (w.hierarchy r).version

def updateClass (w : World) (r : ClassRef) (f : Class → Class) : World :=
  { w with classes := w.classes.modify r.idx f }

def addClass (w : World) (c : Class) : ClassRef × World :=
  (⟨w.classes.size⟩, { w with classes := w.classes.push c })

/-- A new object has a null slot for each field that its class declares at this moment. -/
def newObject (w : World) (r : ClassRef) : ObjectRef × World :=
  let fields := (w.hierarchy r).declaredFields.map fun f => (f, Value.null)
  (⟨w.objects.size⟩, { w with objects := w.objects.push ⟨r, fields⟩ })

def field? (w : World) (o : ObjectRef) (name : String) : Option Value :=
  Assoc.get? (w.object o).fields name

/-- Writes a field that the object has. -/
def setField (w : World) (o : ObjectRef) (name : String) (v : Value) : World :=
  { w with
    objects := w.objects.modify o.idx fun obj =>
      { obj with fields := Assoc.set obj.fields name v } }

def record (w : World) (e : Event) : World := { w with history := e :: w.history }

/-- A number for a new allocation. -/
def allocate (w : World) : Nat × World := (w.fresh, { w with fresh := w.fresh + 1 })

def runtime (w : World) (rt : Nat) : Runtime := w.runtimes.getD rt default

def registry (w : World) (rt : Nat) : Registry := (w.runtime rt).registry

def updateRegistry (w : World) (rt : Nat) (f : Registry → Registry) : World :=
  { w with runtimes := w.runtimes.modify rt fun r => { r with registry := f r.registry } }

def updateStats (w : World) (rt : Nat) (f : Stats → Stats) : World :=
  { w with runtimes := w.runtimes.modify rt fun r => { r with stats := f r.stats } }

/-- A new runtime reserves the places of the builtin classes. They enter its registry one by one,
each when it is first asked for. -/
def newRuntime (w : World) (config : Config) : Nat × World :=
  let builtins := BuiltinType.all.map BuiltinType.toClass
  let runtime : Runtime := { config, registry := { base := w.classes.size } }
  (w.runtimes.size,
    { w with classes := w.classes ++ builtins.toArray, runtimes := w.runtimes.push runtime })

/-- Enters a builtin class with these ancestors into the registry. -/
def enterBuiltin (w : World) (rt : Nat) (b : BuiltinType) (ancestors : List ClassRef) :
    ClassRef × World :=
  let r := (w.registry rt).builtinRef b
  (r, (w.updateClass r fun c => { c with ancestors }).updateRegistry rt (·.enterBuiltin b))

/-- The class of a builtin type without a parent. -/
def rootClass (w : World) (rt : Nat) (b : BuiltinType) : ClassRef × World :=
  match Assoc.get? (w.registry rt).entries b.id with
  | some r => (r, w)
  | none => w.enterBuiltin rt b []

/-- The class that stands for a type. Builtin classes are entered on demand, below the class that
stands for `Object`. -/
def findClass (w : World) (rt : Nat) (t : TypeId) : Option ClassRef × World :=
  match Assoc.get? (w.registry rt).entries t with
  | some r => (some r, w)
  | none =>
    if !t.isBuiltin then (none, w)
    else
      match BuiltinType.ofId? t with
      | none => (none, (w.rootClass rt .object).2)
      | some b =>
        if b.isRoot then
          let (r, w) := w.enterBuiltin rt b []
          (some r, w)
        else
          let (root, w) := w.rootClass rt .object
          let (r, w) := w.enterBuiltin rt b (root :: (w.cls root).ancestors)
          (some r, w)

/-- The class of a value: an object knows its own, any other value has its type's. -/
def classOf (w : World) (rt : Nat) : Value → Option ClassRef × World
  | .object o => (some (w.classOfObject o), w)
  | v => w.findClass rt (v.typeId w.lineage)

/-- Begins a definition, which takes the next identity. -/
def beginClass (w : World) (rt : Nat) (name : String) (isHost : Bool) : Draft × World :=
  let (root, w) := w.rootClass rt .object
  ({ runtime := rt, id := (w.registry rt).next, name, isHost, root },
    w.updateRegistry rt Registry.handOut)

/-- Makes a class stand for its type and its name. -/
def register (w : World) (rt : Nat) (r : ClassRef) : World :=
  let c := w.cls r
  w.updateRegistry rt (·.register c.name c.id r)

/-- Makes a class stand for its type; the class that stood for it before gets a new stamp, so that
nothing remembered of it is trusted any more. -/
def replaceClass (w : World) (rt : Nat) (r : ClassRef) : Option ClassRef × World :=
  let previous := Assoc.get? (w.registry rt).entries (w.cls r).id
  let w := w.register rt r
  match previous with
  | some p => (some p, w.updateClass p Class.bump)
  | none => (none, w)

/-- Builds the class of a definition that was begun, below `Object` if it has no parent. -/
def buildClass (w : World) (d : Draft) (parent : Option ClassRef) (members : ClassMembers) :
    ClassRef × World :=
  let parent := parent.getD d.root
  let members := { members with name := d.name, isHost := d.isHost }
  let (r, w) := w.addClass (members.toClass d.id (parent :: (w.cls parent).ancestors))
  (r, w.register d.runtime r)

/-- Begins a definition and builds it. -/
def defineClass (w : World) (rt : Nat) (parent : Option ClassRef) (members : ClassMembers) :
    TypeId × ClassRef × World :=
  let (d, w) := w.beginClass rt members.name members.isHost
  (d.id, w.buildClass d parent members)

/-- Begins a definition, and keeps the draft under a name. -/
def draftClass (w : World) (key : String) (rt : Nat) (name : String) (isHost : Bool) :
    TypeId × World :=
  let (d, w) := w.beginClass rt name isHost
  (d.id, { w with drafts := Assoc.set w.drafts key d })

/-- Builds the class of the draft that is kept under a name, and uses the draft up. -/
def finishClass (w : World) (key : String) (d : Draft) (parent : Option ClassRef)
    (members : ClassMembers) : ClassRef × World :=
  let (r, w) := w.buildClass d parent members
  (r, { w with drafts := Assoc.erase w.drafts key })

/-- The same, where there may be no such draft. -/
def buildDraft (w : World) (key : String) (parent : Option ClassRef) (members : ClassMembers) :
    Option (TypeId × ClassRef) × World :=
  match Assoc.get? w.drafts key with
  | some d =>
    let (r, w) := w.finishClass key d parent members
    (some (d.id, r), w)
  | none => (none, w)

def table (w : World) (t : TableRef) : Table := w.tables.getD t.idx default

def addTable (w : World) (t : Table) : TableRef × World :=
  (⟨w.tables.size⟩, { w with tables := w.tables.push t })

def slot? (w : World) (t : TableRef) (i : Nat) : Option Slot := (w.table t).slots[i]?

def updateSlot (w : World) (t : TableRef) (i : Nat) (f : Slot → Slot) : World :=
  { w with
    tables := w.tables.modify t.idx fun table =>
      { table with slots := table.slots.modify i f } }

/-- Whether categories are in force, so that nothing may be cached or served from a cache. -/
def hasActiveCategory (w : World) : Bool := !w.active.isEmpty

/-- A world with one runtime and nothing else. -/
def initial (config : Config) (embedding : Embedding := {}) : World :=
  (World.newRuntime { embedding } config).2

end World

end CachedDispatch
