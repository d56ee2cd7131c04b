import CachedDispatch.Ranking

/-!
Categories: bundles of methods that are added to types while a block runs.
-/
namespace CachedDispatch

structure Category where
  name : String
  /-- Each method with the type that it is added to, in the order of declaration. -/
  entries : List (TypeId × Method)
deriving Inhabited

namespace Category

/-- The types under which methods for the receiver are sought, nearest first; `Object` is last. -/
def targets (lin : Lineage) (receiver : Value) : List TypeId :=
  let own := match receiver with
    | .object o => lin o
    | v => [v.typeId lin]
  if own.contains .object then own else own ++ [.object]

def overloads (c : Category) (target : TypeId) (name : String) : List Method :=
  (c.entries.filter fun e => e.1 = target && e.2.name = name).map Prod.snd

/-- The best overload at the nearest type that has an applicable one. -/
def find? (lin : Lineage) (c : Category) (receiver : Value) (name : String) (args : List Value) :
    Option Method :=
  (targets lin receiver).findSome? fun t => pick lin (c.overloads t name) args

/-- The innermost category with an applicable overload decides. -/
def findActive? (lin : Lineage) (active : List Category) (receiver : Value) (name : String)
    (args : List Value) : Option Method :=
  active.findSome? fun c => c.find? lin receiver name args

end Category

end CachedDispatch
