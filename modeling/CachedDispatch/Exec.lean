import CachedDispatch.Primitive.Apply
import CachedDispatch.World

/-!
Computations over the world. They can fail as the language fails, keeping what they have changed, and
they can stop for good: when the fuel is used up, or when a script names something that is not there.
-/
namespace CachedDispatch

/-- Why a run does not come to an end. -/
inductive Stop
  | exhausted
  | unbound (name : String)
deriving DecidableEq, Repr, Inhabited

/-- Computations that only look at the world and change it. -/
abbrev Update := StateM World

/-- Computations that can stop. -/
abbrev Act := StateT World (Except Stop)

/-- Computations that can stop, and fail with an `ε`. -/
abbrev Exec (ε : Type) := ExceptT ε Act

def Act.ofUpdate {α : Type} (u : Update α) : Act α := fun w => .ok (u.run w)

def Act.stop {α : Type} (s : Stop) : Act α := fun _ => .error s

/-- What a step of an execution answered, as a value. -/
def Exec.result {ε α : Type} (x : Exec ε α) : Act (Except ε α) := x.run

def Exec.ofUpdate {ε α : Type} (u : Update α) : Exec ε α := ExceptT.lift (Act.ofUpdate u)

def Exec.stop {ε α : Type} (s : Stop) : Exec ε α := ExceptT.lift (Act.stop s)

namespace Update

variable {α β : Type}

theorem run_pure (a : α) (w : World) : (pure a : Update α).run w = (a, w) := rfl

theorem run_bind (x : Update α) (f : α → Update β) (w : World) :
    (x >>= f).run w = (f (x.run w).1).run (x.run w).2 := rfl

theorem run_get_bind (f : World → Update β) (w : World) :
    ((get : Update World) >>= f).run w = (f w).run w := rfl

theorem run_modifyGet_bind (f : World → α × World) (g : α → Update β) (w : World) :
    ((modifyGet f : Update α) >>= g).run w = (g (f w).1).run (f w).2 := rfl

theorem run_modify_bind (f : World → World) (g : Unit → Update β) (w : World) :
    ((modify f : Update Unit) >>= g).run w = (g ()).run (f w) := rfl

theorem run_modify (f : World → World) (w : World) : (modify f : Update Unit).run w = ((), f w) := rfl

end Update

/-- A way to run code. -/
abbrev Runner := Code → Frame → Exec Fault Value

def runPrimitive (p : Primitive) (frame : Frame) : Exec Fault Value := do
  let alloc ← Exec.ofUpdate (modifyGet World.allocate)
  match p.apply (← get).naming alloc frame.receiver frame.args with
  | .ok v => pure v
  | .error f => throw f

/-- Runs builtin operations itself and hands scripts to `script`. -/
def Runner.ofScripts (script : Script.Body → Frame → Exec Fault Value) : Runner :=
  fun code frame => do
    modify (·.record (.ran code frame))
    match code with
    | .primitive p => runPrimitive p frame
    | .script body => script body frame

/-- Runs the code of a method with arguments that already fit its signature. -/
def Method.invoke (run : Runner) (m : Method) (receiver : Value) (args : List Value) :
    Exec Fault Value :=
  match m.kind with
  | .native => run m.code { receiver, args }
  | .initializer =>
    match receiver with
    | .object _ => do
      let _ ← run m.code { receiver, args }
      pure receiver
    | v => do throw (.coercion "object" ((← get).typeName v))

/-- Runs a constructor of the class: an initializer gets a new object, and native code the class
literal. -/
def Method.construct (run : Runner) (cls : ClassRef) (m : Method) (args : List Value) :
    Exec Fault Value :=
  match m.kind with
  | .native => do
    let receiver := Value.classLiteral ((← get).cls cls).id
    run m.code { receiver, args }
  | .initializer => do
    let o ← Exec.ofUpdate (modifyGet (·.newObject cls))
    let _ ← run m.code { receiver := .object o, args }
    pure (.object o)

end CachedDispatch
