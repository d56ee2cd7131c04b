/-!
Type identities, which are numbers of 32 bits. The ten builtin types come first, identities below 64
are reserved for builtins, and each type defined later takes the next one. Identities come round when
all of them have been handed out.
-/
namespace CachedDispatch

/-- Two values have the same concrete type exactly when their type identities are equal. -/
structure TypeId where
  val : UInt32
deriving DecidableEq, Hashable, Repr, Inhabited

/-- The types that exist without being defined. -/
inductive BuiltinType
  | object | nullObject | boolean | integer | double | string | list | map | classLiteral | wrapper
deriving DecidableEq, Repr, Inhabited

namespace BuiltinType

/-- Every builtin type, in the order of the identities. -/
def all : List BuiltinType :=
  [object, nullObject, boolean, integer, double, string, list, map, classLiteral, wrapper]

def name : BuiltinType → String
  | object => "Object"
  | nullObject => "NullObject"
  | boolean => "Boolean"
  | integer => "Integer"
  | double => "Double"
  | string => "String"
  | list => "List"
  | map => "Map"
  | classLiteral => "Class"
  | wrapper => "Wrapper"

def id : BuiltinType → TypeId
  | object => ⟨0⟩
  | nullObject => ⟨1⟩
  | boolean => ⟨2⟩
  | integer => ⟨3⟩
  | double => ⟨4⟩
  | string => ⟨5⟩
  | list => ⟨6⟩
  | map => ⟨7⟩
  | classLiteral => ⟨8⟩
  | wrapper => ⟨9⟩

def ofId? (t : TypeId) : Option BuiltinType := all.find? (·.id = t)

def ofName? (s : String) : Option BuiltinType := all.find? (·.name = s)

theorem ofId?_id (b : BuiltinType) : ofId? b.id = some b := by
  cases b <;> rfl

theorem ofName?_name (b : BuiltinType) : ofName? b.name = some b := by
  cases b <;> decide

end BuiltinType

namespace TypeId

def object : TypeId := BuiltinType.object.id
def null : TypeId := BuiltinType.nullObject.id
def bool : TypeId := BuiltinType.boolean.id
def int : TypeId := BuiltinType.integer.id
def float : TypeId := BuiltinType.double.id
def text : TypeId := BuiltinType.string.id
def list : TypeId := BuiltinType.list.id
def map : TypeId := BuiltinType.map.id
def classLiteral : TypeId := BuiltinType.classLiteral.id
def wrapper : TypeId := BuiltinType.wrapper.id

def number (t : TypeId) : Nat := t.val.toNat

/-- The first number that a defined type can get. -/
def firstDefined : Nat := 64

/-- How many types can be defined before the numbers come round, `2 ^ 32 - 64`. -/
def supply : Nat := UInt32.size - firstDefined

/-- The identity of a type that is defined after `n` others. -/
def defined (n : Nat) : TypeId := ⟨.ofNat (firstDefined + n)⟩

def isBuiltin (t : TypeId) : Bool := t.number < firstDefined

/-- A builtin type goes by its name, any other by its number. -/
def label (t : TypeId) : String :=
  match BuiltinType.ofId? t with
  | some b => b.name
  | none => s!"type#{t.number}"

theorem number_inj {t t' : TypeId} (h : t.number = t'.number) : t = t' := by
  obtain ⟨n⟩ := t
  obtain ⟨n'⟩ := t'
  exact congrArg mk (UInt32.toNat_inj.mp h)

/-- As long as the identities last, types get one number after the other. -/
theorem number_defined {n : Nat} (h : n < supply) : (defined n).number = firstDefined + n := by
  have hlt : firstDefined + n < UInt32.size := Nat.add_lt_of_lt_sub' h
  exact (UInt32.toNat_ofNat ..).trans (Nat.mod_eq_of_lt hlt)

theorem isBuiltin_defined {n : Nat} (h : n < supply) : (defined n).isBuiltin = false := by
  unfold isBuiltin
  rw [number_defined h]
  exact decide_eq_false (Nat.not_lt.mpr (Nat.le_add_right ..))

theorem defined_inj {m n : Nat} (hm : m < supply) (hn : n < supply) (h : defined m = defined n) :
    m = n := by
  have hnumber := congrArg number h
  rw [number_defined hm, number_defined hn] at hnumber
  exact Nat.add_left_cancel hnumber

/-- After the last identity the first one comes again. -/
theorem val_defined_succ (n : Nat) : (defined (n + 1)).val = (defined n).val + 1 :=
  UInt32.ofNat_add (firstDefined + n) 1

end TypeId

end CachedDispatch
