import CachedDispatch.Assoc
import CachedDispatch.Double
import CachedDispatch.TypeId

/-!
Values of the language. Lists, maps, wrappers and host objects carry a number that tells one
allocation from another, and objects are references into the heap, so that identity and equality
can be told apart.
-/
namespace CachedDispatch

/-- The place of an object in the heap. -/
structure ObjectRef where
  idx : Nat
deriving DecidableEq, Hashable, Repr, Inhabited

inductive Value
  | null
  | bool (b : Bool)
  | int (n : Int64)
  | float (x : Double)
  | text (s : String)
  | list (alloc : Nat) (items : List Value)
  | map (alloc : Nat) (entries : List (String × Value))
  | classLiteral (type : TypeId)
  | object (ref : ObjectRef)
  /-- An object of the embedding program: only its type and a label are known. -/
  | host (alloc : Nat) (type : TypeId) (label : String)
  /-- A request to treat `value` as `declared` when arguments are matched. -/
  | wrapper (alloc : Nat) (value : Value) (declared : TypeId)
deriving Repr, Inhabited

namespace Value

def isNull : Value → Bool
  | null => true
  | _ => false

def isWrapper : Value → Bool
  | wrapper .. => true
  | _ => false

def asInt? : Value → Option Int64
  | int n => some n
  | _ => none

def asFloat? : Value → Option Double
  | float x => some x
  | _ => none

def asBool? : Value → Option Bool
  | bool b => some b
  | _ => none

def asText? : Value → Option String
  | text s => some s
  | _ => none

def asList? : Value → Option (List Value)
  | list _ items => some items
  | _ => none

def asMap? : Value → Option (List (String × Value))
  | map _ entries => some entries
  | _ => none

def asObject? : Value → Option ObjectRef
  | object o => some o
  | _ => none

/-- The value of the first entry with this key, if the value is a map that has one. -/
def entry? (v : Value) (key : String) : Option Value :=
  v.asMap?.bind fun entries => Assoc.get? entries key

/-- What a wrapper holds, and any other value itself. -/
def unwrap : Value → Value
  | wrapper _ v _ => v
  | v => v

mutual

/-- Equality of the language. Integers and floats compare as numbers, lists and maps element by
element in order, objects and host objects by identity. -/
def equal : Value → Value → Bool
  | null, null => true
  | bool a, bool b => a == b
  | int a, int b => a == b
  | float a, float b => a.numEq b
  | int a, float b => (Double.ofInt a).numEq b
  | float a, int b => (Double.ofInt b).numEq a
  | text a, text b => a == b
  | list _ xs, list _ ys => equalLists xs ys
  | map _ xs, map _ ys => equalEntries xs ys
  | classLiteral a, classLiteral b => a == b
  | object a, object b => a == b
  | host a _ _, host b _ _ => a == b
  | wrapper _ a s, wrapper _ b t => equal a b && s == t
  | _, _ => false

def equalLists : List Value → List Value → Bool
  | [], [] => true
  | x :: xs, y :: ys => equal x y && equalLists xs ys
  | _, _ => false

def equalEntries : List (String × Value) → List (String × Value) → Bool
  | [], [] => true
  | (k, x) :: xs, (j, y) :: ys => k == j && equal x y && equalEntries xs ys
  | _, _ => false

end

/-- Identity for allocated values, equality for all others. -/
def same : Value → Value → Bool
  | object a, object b => a == b
  | host a _ _, host b _ _ => a == b
  | list a _, list b _ => a == b
  | map a _, map b _ => a == b
  | wrapper a _ _, wrapper b _ _ => a == b
  | a, b => equal a b

end Value

end CachedDispatch
