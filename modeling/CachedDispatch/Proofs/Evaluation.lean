import CachedDispatch.Lang.Compile
import CachedDispatch.Machine
import Mathlib.Logic.Function.Basic

/-!
Direct evaluation of the source language, without code or a machine. Expressions are computations
that leave the local variables alone, and statements may also end the program. Fuel bounds how often
each loop is repeated, so an evaluation that needs more is stopped as exhausted.
-/
namespace CachedDispatch.Lang

mutual

/-- The invocations of an expression, in the order in which they are carried out. -/
def Expr.sites : Expr → List (String × SiteKind)
  | .null | .bool _ | .int _ | .float _ | .text _ | .var _ | .this | .classLiteral _ => []
  | .list items => allSites items
  | .map entries => entrySites entries
  | .range first last => first.sites ++ last.sites
  | .cast value _ | .not value => value.sites
  | .call receiver name args _ => receiver.sites ++ allSites args ++ [(name, .call)]
  | .callCurrent name args => allSites args ++ [(name, .callCurrent)]
  | .callStatic _ name args => allSites args ++ [(name, .callStatic)]
  | .construct _ args => allSites args ++ [(Method.constructorName, .callConstructor)]
  | .property receiver name _ => receiver.sites ++ [(name, .getProperty)]
  | .binary op left right => left.sites ++ right.sites ++ [(op.methodName, .call)]
  | .neg value => value.sites ++ [("negative", .call)]

def allSites : List Expr → List (String × SiteKind)
  | [] => []
  | e :: es => e.sites ++ allSites es

def entrySites : List (String × Expr) → List (String × SiteKind)
  | [] => []
  | (_, e) :: es => e.sites ++ entrySites es

end

mutual

/-- The invocations of a statement, in the order of the text. -/
def Stmt.sites : Stmt → List (String × SiteKind)
  | .declare _ value | .assign _ value | .expr value | .ret value => value.sites
  | .cond condition thenBranch elseBranch =>
    condition.sites ++ blockSites thenBranch ++ blockSites elseBranch
  | .loop condition body => condition.sites ++ blockSites body

def blockSites : List Stmt → List (String × SiteKind)
  | [] => []
  | s :: ss => s.sites ++ blockSites ss

end

mutual

/-- The names that a statement declares, in the order of the text. -/
def Stmt.declared : Stmt → List String
  | .declare name _ => [name]
  | .assign .. | .expr _ | .ret _ => []
  | .cond _ thenBranch elseBranch => declaredIn thenBranch ++ declaredIn elseBranch
  | .loop _ body => declaredIn body

def declaredIn : List Stmt → List String
  | [] => []
  | s :: ss => s.declared ++ declaredIn ss

end

/-- The values of the local variables by name; null before the first write. -/
abbrev Locals := String → Value

/-- What an evaluation is given. -/
structure Setting where
  runner : Runner
  /-- The table with the call sites of the program. -/
  table : TableRef
  /-- What its call sites are for. -/
  sites : List (String × SiteKind)
  /-- The types that class names stand for. -/
  typeOf : String → Option TypeId
  this : Value

def Setting.type (c : Setting) (name : String) : Exec MachineError TypeId :=
  match c.typeOf name with
  | some t => pure t
  | none => throw (.unknownClass name)

/-- Dispatches through a call site, which has to be one for this name and kind; with `safe`, null
answers null. -/
def Setting.ask (c : Setting) (slot : Nat) (name : String) (kind : SiteKind) (safe : Bool)
    (request : Request) : Exec MachineError Value :=
  if c.sites[slot]? = some (name, kind) then
    ExceptT.adapt .dispatch
      (if safe then dispatchSafe c.runner c.table slot request
        else dispatch c.runner c.table slot request)
  else throw (.dispatch (.invalidSlot slot))

/-- A value with an allocation number of its own. -/
def fresh (make : Nat → Value) : Exec MachineError Value := do
  let alloc ← Exec.ofUpdate (modifyGet World.allocate)
  pure (make alloc)

/-- True, and false or null, are conditions. -/
def condition : Value → Exec MachineError Bool
  | .bool b => pure b
  | .null => pure false
  | _ => throw (.typeMismatch "bool")

/-- The integers from `first` to `last`, both included, in steps of one up or down. -/
def inclusive (first last : Int64) : List Value :=
  (List.range ((last.toInt - first.toInt).natAbs + 1)).map fun k : Nat =>
    .int (Int64.ofInt (if first ≤ last then first.toInt + k else first.toInt - k))

def rangeOf : Value → Value → Exec MachineError Value
  | .int first, .int last => fresh (.list · (inclusive first last))
  | _, _ => throw (.typeMismatch "int")

mutual

/-- The value of an expression whose first call site is number `n`. Operands come from left to right,
and each invocation goes through the call site that follows those of its operands. -/
def Expr.eval (c : Setting) (env : Locals) (n : Nat) : Expr → Exec MachineError Value
  | .null => pure .null
  | .bool b => pure (.bool b)
  | .int i => pure (.int i)
  | .float x => pure (.float x)
  | .text s => pure (.text s)
  | .var name => pure (env name)
  | .this => pure c.this
  | .classLiteral name => do pure (.classLiteral (← c.type name))
  | .list items => do
    let vs ← evalAll c env n items
    fresh (.list · vs)
  | .map entries => do
    let es ← evalEntries c env n entries
    fresh (.map · es)
  | .range first last => do
    let a ← first.eval c env n
    let b ← last.eval c env (n + first.sites.length)
    rangeOf a b
  | .cast value className => do
    let v ← value.eval c env n
    let t ← c.type className
    fresh (.wrapper · v t)
  | .call receiver name args safe => do
    let v ← receiver.eval c env n
    let vs ← evalAll c env (n + receiver.sites.length) args
    c.ask (n + receiver.sites.length + (allSites args).length) name .call safe (.call false v vs)
  | .callCurrent name args => do
    let vs ← evalAll c env n args
    c.ask (n + (allSites args).length) name .callCurrent false (.call true c.this vs)
  | .callStatic className name args => do
    let t ← c.type className
    let vs ← evalAll c env n args
    c.ask (n + (allSites args).length) name .callStatic false (.static t vs)
  | .construct className args => do
    let t ← c.type className
    let vs ← evalAll c env n args
    c.ask (n + (allSites args).length) Method.constructorName .callConstructor false (.construct t vs)
  | .property receiver name safe => do
    let v ← receiver.eval c env n
    c.ask (n + receiver.sites.length) name .getProperty safe (.property v)
  | .binary op left right => do
    let a ← left.eval c env n
    let b ← right.eval c env (n + left.sites.length)
    c.ask (n + left.sites.length + right.sites.length) op.methodName .call false (.call false a [b])
  | .neg value => do
    let v ← value.eval c env n
    c.ask (n + value.sites.length) "negative" .call false (.call false v [])
  | .not value => do
    let v ← value.eval c env n
    let b ← condition v
    pure (.bool !b)

def evalAll (c : Setting) (env : Locals) (n : Nat) : List Expr → Exec MachineError (List Value)
  | [] => pure []
  | e :: es => do
    let v ← e.eval c env n
    let vs ← evalAll c env (n + e.sites.length) es
    pure (v :: vs)

def evalEntries (c : Setting) (env : Locals) (n : Nat) :
    List (String × Expr) → Exec MachineError (List (String × Value))
  | [] => pure []
  | (key, e) :: es => do
    let v ← e.eval c env n
    let vs ← evalEntries c env (n + e.sites.length) es
    pure ((key, v) :: vs)

end

/-- The condition that an expression gives. -/
def Expr.test (c : Setting) (env : Locals) (n : Nat) (e : Expr) : Exec MachineError Bool := do
  let v ← e.eval c env n
  condition v

/-- The result of a program. -/
abbrev Outcome := Except MachineError Value

/-- How statements come to their end: `none` when they run through, or the result of the program when
a return or a failure ends it; with the local variables at that time. -/
abbrev Ending := Option Outcome × Locals

/-- Goes on with the answer, unless there is a failure. -/
def afterAnswer {α : Type} (x : Exec MachineError α) (env : Locals) (k : α → Act Ending) :
    Act Ending := do
  match ← x.result with
  | .ok a => k a
  | .error e => pure (some (.error e), env)

theorem run_afterAnswer {α : Type} (x : Exec MachineError α) (env : Locals) (k : α → Act Ending)
    (w : World) :
    (afterAnswer x env k).run w =
      match x.result.run w with
      | .ok (.ok a, w') => (k a).run w'
      | .ok (.error e, w') => .ok ((some (.error e), env), w')
      | .error s => .error s := by
  rw [afterAnswer, StateT.run_bind]
  rcases x.result.run w with s | ⟨e | a, w'⟩ <;> rfl

/-- Goes on after statements, unless they have ended the program. -/
def andThen (x : Act Ending) (k : Locals → Act Ending) : Act Ending := do
  match ← x with
  | (none, env) => k env
  | (some out, env) => pure (some out, env)

theorem run_andThen (x : Act Ending) (k : Locals → Act Ending) (w : World) :
    (andThen x k).run w =
      match x.run w with
      | .ok ((none, env), w') => (k env).run w'
      | .ok ((some out, env), w') => .ok ((some out, env), w')
      | .error s => .error s := by
  rw [andThen, StateT.run_bind]
  rcases x.run w with s | ⟨⟨_ | out, env⟩, w'⟩ <;> rfl

/-- Repeats the body as long as the test holds. -/
def repeatWhile (test : Locals → Exec MachineError Bool) (body : Locals → Act Ending) :
    Nat → Locals → Act Ending
  | 0, _ => Act.stop .exhausted
  | fuel + 1, env =>
    afterAnswer (test env) env fun b =>
      if b then andThen (body env) (repeatWhile test body fuel) else pure (none, env)

mutual

/-- Executes a statement whose first call site is number `n`. -/
def Stmt.exec (c : Setting) (fuel n : Nat) : Stmt → Locals → Act Ending
  | .declare name value, env | .assign name value, env =>
    afterAnswer (value.eval c env n) env fun v => pure (none, Function.update env name v)
  | .expr value, env => afterAnswer (value.eval c env n) env fun _ => pure (none, env)
  | .cond condition thenBranch elseBranch, env =>
    afterAnswer (condition.test c env n) env fun b =>
      if b then execAll c fuel (n + condition.sites.length) thenBranch env
      else
        execAll c fuel (n + condition.sites.length + (blockSites thenBranch).length) elseBranch env
  | .loop condition body, env =>
    repeatWhile (fun env => condition.test c env n)
      (execAll c fuel (n + condition.sites.length) body) fuel env
  | .ret value, env => afterAnswer (value.eval c env n) env fun v => pure (some (.ok v), env)

def execAll (c : Setting) (fuel n : Nat) : List Stmt → Locals → Act Ending
  | [], env => pure (none, env)
  | s :: ss, env => andThen (s.exec c fuel n env) (execAll c fuel (n + s.sites.length) ss)

end

/-- A program starts with every variable null, and one that runs through answers null. -/
def evaluate (c : Setting) (fuel : Nat) (stmts : List Stmt) : Act (Outcome × Locals) := do
  let (ending, env) ← execAll c fuel 0 stmts fun _ => .null
  pure (ending.getD (.ok .null), env)

theorem run_evaluate (c : Setting) (fuel : Nat) (stmts : List Stmt) (w : World) :
    (evaluate c fuel stmts).run w =
      match (execAll c fuel 0 stmts fun _ => .null).run w with
      | .ok ((ending, env), w') => .ok ((ending.getD (.ok .null), env), w')
      | .error s => .error s := by
  rw [evaluate, StateT.run_bind]
  rcases (execAll c fuel 0 stmts fun _ => .null).run w with s | ⟨⟨ending, env⟩, w'⟩ <;> rfl

end CachedDispatch.Lang
