import CachedDispatch.Value

/-!
Concrete types of values. All that typing needs of the heap is the line of types of each object: its
class's type first, then the ancestors', nearest first.
-/
namespace CachedDispatch

abbrev Lineage := ObjectRef → List TypeId

namespace Value

def typeId (lin : Lineage) : Value → TypeId
  | null => .null
  | bool _ => .bool
  | int _ => .int
  | float _ => .float
  | text _ => .text
  | list .. => .list
  | map .. => .map
  | classLiteral _ => .classLiteral
  | object o => (lin o).headD .object
  | host _ t _ => t
  | wrapper .. => .wrapper

/-- The type that an argument is matched on: a wrapper counts as its declared type. -/
def effectiveType (lin : Lineage) : Value → TypeId
  | wrapper _ _ declared => declared
  | v => v.typeId lin

/-- How far the object in a value, wrapped or not, is below the type `t`. -/
def depthTo? (lin : Lineage) (v : Value) (t : TypeId) : Option Nat :=
  match v.unwrap with
  | object o => (lin o).idxOf? t
  | _ => none

end Value

end CachedDispatch
