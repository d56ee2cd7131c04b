/-!
The operations that builtin types come with, one list per type. An operation that is overloaded on
floats has a second entry ending in `Double`.
-/
namespace CachedDispatch

inductive ObjectOp
  | toString | equals | hashCode | is
deriving DecidableEq, Repr, Inhabited

inductive NullOp
  | toString | equals | is | hashCode | asBoolean | plus
deriving DecidableEq, Repr, Inhabited

inductive BooleanOp
  | asBoolean | compareTo
deriving DecidableEq, Repr, Inhabited

inductive IntegerOp
  | plus | plusDouble | minus | minusDouble | multiply | multiplyDouble | div | divDouble
  | intdiv | mod | compareTo | compareToDouble | negative | asBoolean
deriving DecidableEq, Repr, Inhabited

inductive DoubleOp
  | plus | minus | multiply | div | compareTo | negative | asBoolean
deriving DecidableEq, Repr, Inhabited

inductive StringOp
  | plus | multiply | size | isEmpty | getAt | contains | compareTo | toUpperCase | toLowerCase
  | asBoolean
deriving DecidableEq, Repr, Inhabited

inductive ListOp
  | size | isEmpty | getAt | get | contains | first | last | plusList | plus | asBoolean
deriving DecidableEq, Repr, Inhabited

inductive MapOp
  | size | isEmpty | get | getAt | containsKey | plus | asBoolean
deriving DecidableEq, Repr, Inhabited

inductive Primitive
  | object (op : ObjectOp)
  | nullObject (op : NullOp)
  | boolean (op : BooleanOp)
  | integer (op : IntegerOp)
  | double (op : DoubleOp)
  | string (op : StringOp)
  | list (op : ListOp)
  | map (op : MapOp)
deriving DecidableEq, Repr, Inhabited

end CachedDispatch
