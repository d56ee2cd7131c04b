import CachedDispatch.Class

/-!
The classes of the builtin types, with the operations that they come with. Among overloads the
order of declaration breaks ties.
-/
namespace CachedDispatch

/-- A public method that runs a builtin operation. -/
def Method.ofPrimitive (name : String) (params : List ParamType) (p : Primitive) : Method where
  name
  params
  code := .primitive p

namespace BuiltinType

/-- The operations of a builtin type in the order of declaration. -/
def operations : BuiltinType → List (String × List ParamType × Primitive)
  | object =>
    [("toString", [], .object .toString), ("equals", [.any], .object .equals),
      ("hashCode", [], .object .hashCode), ("is", [.any], .object .is)]
  | nullObject =>
    [("toString", [], .nullObject .toString), ("equals", [.any], .nullObject .equals),
      ("is", [.any], .nullObject .is), ("hashCode", [], .nullObject .hashCode),
      ("asBoolean", [], .nullObject .asBoolean), ("plus", [.exact .text], .nullObject .plus)]
  | boolean =>
    [("asBoolean", [], .boolean .asBoolean), ("compareTo", [.exact .bool], .boolean .compareTo)]
  | integer =>
    [("plus", [.exact .int], .integer .plus), ("plus", [.exact .float], .integer .plusDouble),
      ("minus", [.exact .int], .integer .minus), ("minus", [.exact .float], .integer .minusDouble),
      ("multiply", [.exact .int], .integer .multiply),
      ("multiply", [.exact .float], .integer .multiplyDouble),
      ("div", [.exact .int], .integer .div), ("div", [.exact .float], .integer .divDouble),
      ("intdiv", [.exact .int], .integer .intdiv), ("mod", [.exact .int], .integer .mod),
      ("compareTo", [.exact .int], .integer .compareTo),
      ("compareTo", [.exact .float], .integer .compareToDouble),
      ("negative", [], .integer .negative), ("asBoolean", [], .integer .asBoolean)]
  | double =>
    [("plus", [.exact .float], .double .plus), ("minus", [.exact .float], .double .minus),
      ("multiply", [.exact .float], .double .multiply), ("div", [.exact .float], .double .div),
      ("compareTo", [.exact .float], .double .compareTo), ("negative", [], .double .negative),
      ("asBoolean", [], .double .asBoolean)]
  | string =>
    [("plus", [.any], .string .plus), ("multiply", [.exact .int], .string .multiply),
      ("size", [], .string .size), ("isEmpty", [], .string .isEmpty),
      ("getAt", [.exact .int], .string .getAt), ("contains", [.exact .text], .string .contains),
      ("compareTo", [.exact .text], .string .compareTo),
      ("toUpperCase", [], .string .toUpperCase), ("toLowerCase", [], .string .toLowerCase),
      ("asBoolean", [], .string .asBoolean)]
  | list =>
    [("size", [], .list .size), ("isEmpty", [], .list .isEmpty),
      ("getAt", [.exact .int], .list .getAt), ("get", [.exact .int], .list .get),
      ("contains", [.any], .list .contains), ("first", [], .list .first),
      ("last", [], .list .last), ("plus", [.exact .list], .list .plusList),
      ("plus", [.any], .list .plus), ("asBoolean", [], .list .asBoolean)]
  | map =>
    [("size", [], .map .size), ("isEmpty", [], .map .isEmpty), ("get", [.exact .text], .map .get),
      ("getAt", [.exact .text], .map .getAt), ("containsKey", [.exact .text], .map .containsKey),
      ("plus", [.exact .map], .map .plus), ("asBoolean", [], .map .asBoolean)]
  | classLiteral => []
  | wrapper => []

def methods (b : BuiltinType) : List Method :=
  b.operations.map fun (name, params, p) => .ofPrimitive name params p

def classKind : BuiltinType → ClassKind
  | nullObject => .nullObject
  | _ => .builtin

/-- Null and the root have no parent; all other builtin types are below the root. -/
def isRoot : BuiltinType → Bool
  | object | nullObject => true
  | _ => false

/-- The class of a builtin type, without its ancestors. -/
def toClass (b : BuiltinType) : Class :=
  b.methods.foldl Class.declareMethod { id := b.id, name := b.name, kind := b.classKind }

end BuiltinType

end CachedDispatch
