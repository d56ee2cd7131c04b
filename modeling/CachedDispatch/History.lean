import CachedDispatch.Fault
import CachedDispatch.Site

/-!
What happens at call sites: the requests made of them, the code that runs for a request, and the
answer that it gets.
-/
namespace CachedDispatch

/-- What is asked of a call site. -/
inductive Request
  | call (current : Bool) (receiver : Value) (args : List Value)
  | static (type : TypeId) (args : List Value)
  | construct (type : TypeId) (args : List Value)
  | property (receiver : Value)
deriving Repr, Inhabited

namespace Request

/-- Whether a request goes to null. -/
def onNull : Request → Bool
  | call _ receiver _ | property receiver => receiver.isNull
  | _ => false

def args : Request → List Value
  | call _ _ args | static _ args | construct _ args => args
  | property _ => []

/-- The receiver, where it is a value and not a type. -/
def receiver? : Request → Option Value
  | call _ receiver _ | property receiver => some receiver
  | _ => none

end Request

/-- What the code of a method is run with. -/
structure Frame where
  receiver : Value
  args : List Value
  /-- The name of the called method, in an invocation hook. -/
  calledName : Option String := none
deriving Repr, Inhabited

inductive Event
  | asked (table : TableRef) (slot : Nat) (request : Request)
  | ran (code : Code) (frame : Frame)
  | answered (result : Except Fault Value)
deriving Inhabited

end CachedDispatch
