import CachedDispatch.Exec

/-!
Plans. A dispatch first makes a plan, which only consults the world and the caches, and then carries
it out, which is when the code of methods runs.
-/
namespace CachedDispatch

/-- What a dispatch has decided to do. Arguments are as the code gets them. -/
inductive Plan
  | invoke (m : Method) (receiver : Value) (args : List Value)
  | hook (body : Script.Body) (receiver : Value) (name : String) (args : List Value)
  | construct (cls : ClassRef) (m : Method) (args : List Value)
  /-- Constructs, then sets properties from the entries. -/
  | bean (cls : ClassRef) (m : Method) (args : List Value) (entries : List (String × Value))
  | answer (v : Value)
  /-- Writes a field that the object has. -/
  | setField (o : ObjectRef) (name : String) (v : Value)
  | fail (f : Fault)
deriving Inhabited

/-- Where a plan comes from. -/
inductive Origin
  /-- A full lookup made it. -/
  | lookup
  /-- A site made it from what it remembers. -/
  | memory
deriving DecidableEq, Repr, Inhabited

/-- A full lookup puts the failures of the code that it invokes into a layer, and a site takes them
out of all layers. -/
def Origin.pass : Origin → Fault → Fault
  | .lookup => Fault.carried
  | .memory => Fault.bare

/-- A plan, and where it comes from. -/
structure Decision where
  origin : Origin
  plan : Plan
deriving Inhabited

/-- Which runtime and owner a lookup is made for. -/
structure Site.Context where
  runtime : Nat
  owner : TypeId
  name : String
deriving Repr, Inhabited

/-- The arguments as they are passed when nothing is known about them. -/
def Plan.invokeWith (m : Method) (receiver : Value) (args : List Value) : Plan :=
  .invoke m receiver (prepare m args .baseline)

/-- The leading arguments and the entries of a trailing map, if a constructor call has the shape of
a bean: at most one argument before the map. -/
def beanSplit? (args : List Value) : Option (List Value × List (String × Value)) :=
  match args with
  | [.map _ entries] => some ([], entries)
  | [v, .map _ entries] => some ([v], entries)
  | _ => none

/-- A static method runs with the class literal as receiver. -/
def receiverFor (cls : TypeId) (m : Method) (receiver : Value) : Value :=
  if m.isStatic then .classLiteral cls else receiver

def typeNames (w : World) (args : List Value) : List String := args.map w.typeName

end CachedDispatch
