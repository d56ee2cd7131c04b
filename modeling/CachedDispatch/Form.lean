/-!
The ways to dispatch through a call site.
-/
namespace CachedDispatch

inductive Form
  | call
  /-- A call that answers null for a null receiver. -/
  | callSafe
  /-- A call on the current object, which also sees the methods private to its own class. -/
  | callCurrent
  | callStatic
  | callConstructor
  | getProperty
  /-- A property read that answers null for a null receiver. -/
  | getPropertySafe
deriving DecidableEq, Repr, Inhabited

end CachedDispatch
