import CachedDispatch.Double.Text
import CachedDispatch.Text.Address
import CachedDispatch.Text.Hash
import CachedDispatch.Value.Typing

/-!
The text of values, the names of their types, and their hashes. All that is needed of the heap is the
class name of each object. The addresses of objects and the text of host objects are for others to
decide, and may be any functions of what is identified.
-/
namespace CachedDispatch

/-- What is decided elsewhere: where objects lie in memory, and the text of a host object, which is
known by its allocation and its label. -/
structure Embedding where
  address : ObjectRef → UInt64 := fun o => 0x7f0000000000 + 64 * .ofNat o.idx
  hostText : Nat → String → String := fun _ label => "Host(" ++ label ++ ")"
deriving Inhabited

/-- All that the text of values depends on. -/
structure Naming extends Embedding where
  className : ObjectRef → String
deriving Inhabited

namespace Value

/-- An object goes by the name of its class, any other value by the label of its type. -/
def typeName (names : Naming) : Value → String
  | object o => names.className o
  | v => (v.typeId fun _ => []).label

def objectText (names : Naming) (o : ObjectRef) : String :=
  names.className o ++ "@" ++ Text.address (names.address o)

mutual

def display (names : Naming) : Value → String
  | null => "null"
  | bool b => if b then "true" else "false"
  | int n => toString n.toInt
  | float x => x.text
  | text s => s
  | list _ items => "[" ++ ", ".intercalate (displayItems names items) ++ "]"
  | map _ [] => "[:]"
  | map _ entries => "[" ++ ", ".intercalate (displayEntries names entries) ++ "]"
  | classLiteral t => "class " ++ t.label
  | object o => objectText names o
  | host n _ label => names.hostText n label
  | wrapper _ v _ => display names v

def displayItems (names : Naming) : List Value → List String
  | [] => []
  | v :: vs => display names v :: displayItems names vs

def displayEntries (names : Naming) : List (String × Value) → List String
  | [] => []
  | (k, v) :: es => (k ++ ":" ++ display names v) :: displayEntries names es

end

/-- Null hashes to zero, an object by its address, and any other value by its text. -/
def hashCode (names : Naming) : Value → Int64
  | null => 0
  | object o => Text.hashWord (names.address o)
  | v => Text.hash (v.display names)

end Value

end CachedDispatch
