import CachedDispatch.Dispatch
import CachedDispatch.Script.Names
import CachedDispatch.Script.Show

/-!
Evaluation of method bodies, one layer at a time: how parts and steps are evaluated is a parameter.
-/
namespace CachedDispatch.Script

/-- The request that a form makes; static calls and constructor calls need a class literal. -/
def requestFor (form : Form) (receiver : Value) (args : List Value) : Act Request :=
  match form, receiver with
  | .call, _ | .callSafe, _ => pure (.call false receiver args)
  | .callCurrent, _ => pure (.call true receiver args)
  | .callStatic, .classLiteral t => pure (.static t args)
  | .callConstructor, .classLiteral t => pure (.construct t args)
  | .getProperty, _ | .getPropertySafe, _ => pure (.property receiver)
  | _, _ => Act.stop (.unbound "class literal")

def isSafe : Form → Bool
  | .callSafe | .getPropertySafe => true
  | _ => false

/-- Dispatches in the way that the form says. -/
def invokeForm (run : Runner) (t : TableRef) (i : Nat) (form : Form) (receiver : Value)
    (args : List Value) : Exec Fault Value := do
  let request ← ExceptT.lift (requestFor form receiver args)
  if isSafe form then dispatchSafe run t i request else dispatch run t i request

def findTable (name : String) : Act TableRef := do
  bound name (Assoc.get? (← get).scope.tables name)

/-- One layer of a body, `eval` evaluating its parts and `perform` its steps. -/
def Body.evalWith (eval : Body → Frame → Exec Fault Value) (perform : List Step → Act (List Reply))
    (frame : Frame) : Body → Exec Fault Value
  | .const v => ExceptT.lift v.eval
  | .receiver => pure frame.receiver
  | .arg i => pure (frame.args[i]?.getD .null)
  | .args => do pure (.list (← ExceptT.lift allocate) frame.args)
  | .calledName => pure ((frame.calledName.map Value.text).getD .null)
  | .list items => do
    let vs ← items.mapM (eval · frame)
    pure (.list (← ExceptT.lift allocate) vs)
  | .seq parts => do
    let vs ← parts.mapM (eval · frame)
    pure (vs.getLastD .null)
  | .cond test ifTrue otherwise => do
    match ← eval test frame with
    | .bool true => eval ifTrue frame
    | _ => eval otherwise frame
  | .fail fault => throw fault
  | .getField name => do
    match frame.receiver with
    | .object o => pure (((← get).field? o name).getD .null)
    | _ => pure .null
  | .setField name value => do
    let v ← eval value frame
    match frame.receiver with
    | .object o =>
      if ((← get).field? o name).isSome then
        modify (·.setField o name v)
        pure (.bool true)
      else pure (.bool false)
    | _ => pure (.bool false)
  | .trace value => do
    let v ← eval value frame
    let s ← Exec.ofUpdate (snapshot v)
    ExceptT.lift (addTrace (.value s))
    pure v
  | .invoke form table slot target operands => do
    let v ← eval target frame
    let vs ← operands.mapM (eval · frame)
    let t ← ExceptT.lift (findTable table)
    invokeForm (.ofScripts eval) t slot form v vs
  | .perform steps => do
    let replies ← ExceptT.lift (perform steps)
    ExceptT.lift (replies.forM fun r => addTrace (.reply r))
    pure .null

end CachedDispatch.Script
