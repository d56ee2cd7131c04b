import CachedDispatch.Primitive
import CachedDispatch.Script.Term
import CachedDispatch.Text.Casing

/-!
Methods: a name, a signature, who may see it, and the code that it runs.
-/
namespace CachedDispatch

inductive ParamType
  | any
  | exact (type : TypeId)
deriving DecidableEq, Repr, Inhabited

/-- A parameter without a type is written like one of type `Object`. -/
def ParamType.label : ParamType → String
  | any => TypeId.object.label
  | exact t => t.label

inductive Code
  | primitive (p : Primitive)
  | script (body : Script.Body)
deriving Inhabited

inductive Visibility
  | everyone
  /-- Seen from the declaring type only. -/
  | declarer
deriving DecidableEq, Repr, Inhabited

inductive MethodKind
  /-- The code computes the answer. -/
  | native
  /-- The code prepares an object, which is the answer. -/
  | initializer
deriving DecidableEq, Repr, Inhabited

structure Method where
  name : String
  declaring : TypeId := .object
  params : List ParamType
  isStatic : Bool := false
  visibility : Visibility := .everyone
  kind : MethodKind := .native
  code : Code
deriving Inhabited

namespace Method

/-- The name under which classes keep constructors. -/
def constructorName : String := "<init>"

def arity (m : Method) : Nat := m.params.length

/-- A class holds at most one method of each signature. -/
def sameSignature (m n : Method) : Bool :=
  m.name = n.name && m.isStatic = n.isStatic && m.params = n.params

def describe (m : Method) : String :=
  (if m.isStatic then "static " else "") ++ m.declaring.label ++ "." ++ m.name ++ "("
    ++ ", ".intercalate (m.params.map (·.label)) ++ ")"

/-- The constructor without parameters that leaves the new object as it is. -/
def defaultConstructor : Method where
  name := constructorName
  params := []
  kind := .initializer
  code := .script (.seq [])

end Method

/-- The name of the method that reads a property. -/
def getterName (property : String) : String := "get" ++ Text.capitalize property

/-- The name of the method that writes a property. -/
def setterName (property : String) : String := "set" ++ Text.capitalize property

end CachedDispatch
