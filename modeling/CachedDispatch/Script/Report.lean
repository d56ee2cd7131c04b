import CachedDispatch.Hierarchy
import CachedDispatch.Lang.Compile
import CachedDispatch.Program
import CachedDispatch.Site

/-!
What the steps of a script answer. Values are shown as they are at that moment: the objects in them
are numbered in the order in which reports first show them.
-/
namespace CachedDispatch.Script

inductive Snapshot
  | null
  | bool (b : Bool)
  | int (n : Int64)
  | float (x : Double)
  | text (s : String)
  | list (items : List Snapshot)
  | map (entries : List (String × Snapshot))
  | classLiteral (type : TypeId)
  | wrapper (value : Snapshot) (declared : TypeId)
  | host (type : TypeId) (label : String)
  | object (number : Nat) (className : String) (fields : List (String × Snapshot))
  /-- An object that the same report has already shown. -/
  | seen (number : Nat)
deriving Repr, Inhabited

structure ClassView where
  id : TypeId
  name : String
  kind : ClassKind
  version : Nat
  parent : Option TypeId
  fields : List String
  constructors : Nat
  hasHook : Bool
deriving Repr, Inhabited

inductive PropertyView
  | field (name : String)
  | staticField (name : String)
  | accessor (m : Method)
deriving Inhabited

/-- The occupant of a slot; a slot that does not exist has none. -/
structure SiteView where
  tag : Option SiteTag
  tier : Option Tier
  installs : Nat
deriving Repr, Inhabited

structure SlotView where
  name : Option String
  kind : Option SiteKind
  site : SiteView
deriving Repr, Inhabited

structure Inspection where
  value : Snapshot
  type : TypeId
  typeName : String
  display : String
  isNull : Bool
  /-- Whether the value is an integer, a float, a boolean, a text, a list, an object. -/
  kinds : List Bool
deriving Repr, Inhabited

/-- One run of a unit: what it answered, and the local variables afterwards. -/
structure RunView where
  result : Except MachineError Snapshot
  locals : List Snapshot

mutual

inductive Answer
  | value (v : Snapshot)
  | optional (v : Option Snapshot)
  | fault (f : Fault)
  | machineError (e : MachineError)
  | compileError (e : Lang.CompileError)
  | flag (b : Bool)
  | flags (bs : List Bool)
  | number (n : Nat)
  | classCount (n : Nat)
  | name (s : String)
  | type (t : Option TypeId)
  | inspection (i : Inspection)
  /-- A version, and how many constructors the class has. -/
  | constructors (version count : Nat)
  | removal (removed : Bool) (version : Nat)
  | cls (c : Option ClassView)
  | classes (cs : List ClassView)
  | depth (d : Option Nat) (isSubtype : Bool)
  | method (m : Option Method)
  /-- There was no method to run. -/
  | unpicked
  /-- There was no hook to run. -/
  | noHook
  | property (p : Option PropertyView)
  | distance (d : Option Nat) (direct : Bool) (param : ParamType)
  | replaced (previous : Option ClassView) (same : Bool) (now : ClassView)
  | stats (s : Stats) (c : Config)
  | table (size : Nat) (owner : TypeId)
  | dispatched (result : Except Fault Snapshot) (site : SiteView) (stats : Stats)
  | slots (ss : List SlotView)
  /-- Whether a category was active before, inside and after the block, and what happened in it. -/
  | used (before inside after : Bool) (replies : List Reply)
  | loaded (owner : TypeId) (program : Program) (tableOwner : TypeId)
  | ran (runs : List RunView) (sites : List SiteView) (stats : Stats)
  /-- There is no unit to run. -/
  | noUnit

/-- The answer of a step with what was traced meanwhile. -/
inductive Reply
  | mk (answer : Answer) (trace : List Entry)

inductive Entry
  | value (v : Snapshot)
  | reply (r : Reply)

end

instance : Inhabited Answer := ⟨.noUnit⟩

instance : Inhabited Reply := ⟨.mk default []⟩

instance : Inhabited Entry := ⟨.value default⟩

end CachedDispatch.Script
