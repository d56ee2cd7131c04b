import CachedDispatch.Class
import CachedDispatch.Ranking

/-!
A class together with its ancestors, and the questions that are answered by going up the line:
which method fits a call, what a property name stands for, which fields an instance has.
-/
namespace CachedDispatch

structure Hierarchy where
  own : Class
  ancestors : List Class
deriving Inhabited

/-- Which methods a lookup sees. -/
structure Lookup where
  /-- The type on whose behalf the lookup is made. -/
  sender : TypeId
  /-- The type of the current object, when the call is made on it. -/
  current : Option TypeId := none
  statics : Bool := false
deriving DecidableEq, Repr, Inhabited

namespace Lookup

def instanceFor (sender : TypeId) : Lookup := { sender }

def currentFor (sender current : TypeId) : Lookup := { sender, current := some current }

def staticsFor (sender : TypeId) : Lookup := { sender, statics := true }

def asStatics (l : Lookup) : Lookup := { l with statics := true }

def sees (l : Lookup) (m : Method) : Bool :=
  m.visibility = .everyone || m.declaring = l.sender || l.current = some m.declaring

end Lookup

/-- What a property name stands for. -/
inductive Property
  | field (name : String)
  | accessor (m : Method)
  | staticField (name : String)
deriving Inhabited

namespace Hierarchy

/-- The class itself, then its ancestors, nearest first. -/
def classes (h : Hierarchy) : List Class := h.own :: h.ancestors

def id (h : Hierarchy) : TypeId := h.own.id

def name (h : Hierarchy) : String := h.own.name

/-- The stamps of the whole line together: a change anywhere in it moves the version. -/
def version (h : Hierarchy) : Nat := h.classes.foldr (fun c n => c.stamp + n) 0

def lineage (h : Hierarchy) : List TypeId := h.classes.map (·.id)

def depthTo? (h : Hierarchy) (t : TypeId) : Option Nat := h.lineage.idxOf? t

def isSubtypeOf (h : Hierarchy) (t : TypeId) : Bool := (h.depthTo? t).isSome

def hasField (h : Hierarchy) (name : String) : Bool := h.classes.any (·.fields.contains name)

def hasMethod (h : Hierarchy) (name : String) : Bool := h.classes.any (·.declares name)

/-- The fields of an instance: the ancestors' first, each name once. -/
def declaredFields (h : Hierarchy) : List String :=
  h.classes.reverse.foldl
    (fun fields c => fields ++ c.fields.filter fun f => !fields.contains f) []

def staticField? (h : Hierarchy) (name : String) : Option Value :=
  h.classes.findSome? fun c => Assoc.get? c.staticFields name

/-- The methods of a name that the lookup sees, the class's own before its ancestors'. -/
def candidates (h : Hierarchy) (name : String) (l : Lookup) : List Method :=
  h.classes.flatMap fun c => (c.overloads l.statics name).filter l.sees

def pickMethod (h : Hierarchy) (lin : Lineage) (name : String) (args : List Value) (l : Lookup) :
    Option Method :=
  pick lin (h.candidates name l) args

/-- Constructors are not inherited. -/
def pickConstructor (h : Hierarchy) (lin : Lineage) (args : List Value) : Option Method :=
  pick lin h.own.constructors args

def property? (h : Hierarchy) (lin : Lineage) (name : String) : Option Property :=
  if h.hasField name then some (.field name)
  else (h.pickMethod lin (getterName name) [] (.instanceFor h.id)).map .accessor

def setter? (h : Hierarchy) (lin : Lineage) (name : String) (v : Value) : Option Property :=
  if h.hasField name then some (.field name)
  else (h.pickMethod lin (setterName name) [v] (.instanceFor h.id)).map .accessor

def staticProperty? (h : Hierarchy) (lin : Lineage) (name : String) : Option Property :=
  if (h.staticField? name).isSome then some (.staticField name)
  else (h.pickMethod lin (getterName name) [] (.staticsFor h.id)).map .accessor

end Hierarchy

end CachedDispatch
