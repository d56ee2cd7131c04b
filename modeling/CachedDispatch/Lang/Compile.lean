import CachedDispatch.Instr
import CachedDispatch.Lang.ConstantPool
import CachedDispatch.Lang.Expr
import CachedDispatch.NameTable
import CachedDispatch.Program

/-!
Compilation of statements to code. Each invocation gets a call site of its own, numbered in the
order of the code. Equal numbers and texts share a constant, and names share an index.
-/
namespace CachedDispatch.Lang

inductive CompileError
  | tooManyCallSites
  | tooManyConstants
  | tooManyLocals
  | tooManyClasses
  | tooManyArguments (count : Nat)
  | tooManyElements (count : Nat)
  | unknownLocal (name : String)
deriving DecidableEq, Repr, Inhabited

def CompileError.message : CompileError → String
  | tooManyCallSites => "too many call sites in one unit"
  | tooManyConstants => "too many constants in one unit"
  | tooManyLocals => "too many locals in one unit"
  | tooManyClasses => "too many class references in one unit"
  | tooManyArguments count => s!"call has {count} arguments, at most 255 are supported"
  | tooManyElements count => s!"literal has {count} elements, at most 65535 are supported"
  | unknownLocal name => s!"unknown local '{name}'"

/-- What a unit has used so far. -/
structure Tables where
  pool : ConstantPool := .empty
  classes : NameTable := .empty
  locals : NameTable := .empty
  manifest : Manifest := {}
deriving Inhabited

abbrev Tables.constants (t : Tables) : Array Const := t.pool.constants

abbrev Compile := StateT Tables (Except CompileError)

def maxConstants : Nat := 4294967296

def maxClasses : Nat := 65536

def maxLocals : Nat := 255

def maxElements : Nat := 65535

def maxArguments : Nat := 255

def constant (c : Const) : Compile UInt32 := do
  let pool := (← get).pool
  match h : pool.find? c with
  | some i => pure i.toUInt32
  | none =>
    let n := pool.size
    if n < maxConstants then
      modify fun t => { t with pool := pool.push c h }
      pure n.toUInt32
    else throw .tooManyConstants

def classIndex (name : String) : Compile UInt16 := do
  let classes := (← get).classes
  match classes.find? name with
  | some i => pure i.toUInt16
  | none =>
    let n := classes.size
    if n < maxClasses then
      modify fun t => { t with classes := t.classes.intern name }
      pure n.toUInt16
    else throw .tooManyClasses

/-- The local of a declared name; a name that is declared again keeps its local. -/
def declareLocal (name : String) : Compile UInt8 := do
  let locals := (← get).locals
  match locals.find? name with
  | some i => pure i.toUInt8
  | none =>
    let n := locals.size
    if n < maxLocals then
      modify fun t => { t with locals := t.locals.intern name }
      pure n.toUInt8
    else throw .tooManyLocals

def localIndex (name : String) : Compile UInt8 := do
  match (← get).locals.find? name with
  | some i => pure i.toUInt8
  | none => throw (.unknownLocal name)

def callSite (name : String) (kind : SiteKind) : Compile UInt16 := do
  let n := (← get).manifest.size
  if n < Manifest.capacity then
    modify fun t => { t with manifest := t.manifest.push name kind }
    pure n.toUInt16
  else throw .tooManyCallSites

def elementCount (n : Nat) : Compile UInt16 :=
  if n ≤ maxElements then pure n.toUInt16 else throw (.tooManyElements n)

def argumentCount (n : Nat) : Compile UInt8 :=
  if n ≤ maxArguments then pure n.toUInt8 else throw (.tooManyArguments n)

def loadConstant (c : Const) : Compile Instr := Instr.ldc <$> constant c

/-- Ends code that has put a receiver and arguments on the stack. -/
def invokeSite (code : Array Instr) (op : InvokeOp) (name : String) (argc : UInt8) :
    Compile (Array Instr) := do
  let slot ← callSite name op.siteKind
  pure (code.push (.invoke op slot argc))

mutual

/-- Code that leaves the value of the expression on the stack. -/
def compileExpr : Expr → Compile (Array Instr)
  | .null => pure #[.ldnull]
  | .bool b => do pure #[← loadConstant (.bool b)]
  | .int n => do pure #[← loadConstant (.int n)]
  | .float x => do pure #[← loadConstant (.float x)]
  | .text s => do pure #[← loadConstant (.text s)]
  | .var name => do pure #[.ldloc (← localIndex name)]
  | .this => pure #[.ldthis]
  | .classLiteral name => do pure #[.ldclass (← classIndex name)]
  | .list items => do
    let n ← elementCount items.length
    let code ← compileExprs #[] items
    pure (code.push (.newList n))
  | .map entries => do
    let n ← elementCount entries.length
    let code ← compileEntries #[] entries
    pure (code.push (.newMap n))
  | .range first last => do
    let code ← compileExpr first
    let code := code ++ (← compileExpr last)
    pure (code.push .newRange)
  | .cast value className => do
    let code ← compileExpr value
    pure (code.push (.wrap (← classIndex className)))
  | .call receiver name args safe => do
    let code ← compileExpr receiver
    let argc ← argumentCount args.length
    let code ← compileExprs code args
    invokeSite code (if safe then .callSafe else .call) name argc
  | .callCurrent name args => do
    let argc ← argumentCount args.length
    let code ← compileExprs #[.ldthis] args
    invokeSite code .callCurrent name argc
  | .callStatic className name args => do
    let cls ← classIndex className
    let argc ← argumentCount args.length
    let code ← compileExprs #[.ldclass cls] args
    invokeSite code .callStatic name argc
  | .construct className args => do
    let cls ← classIndex className
    let argc ← argumentCount args.length
    let code ← compileExprs #[.ldclass cls] args
    invokeSite code .callNew Method.constructorName argc
  | .property receiver name safe => do
    let code ← compileExpr receiver
    let slot ← callSite name .getProperty
    pure (code.push (.getProp safe slot))
  | .binary op left right => do
    let code ← compileExpr left
    let code := code ++ (← compileExpr right)
    invokeSite code .call op.methodName 1
  | .neg value => do
    let code ← compileExpr value
    invokeSite code .call "negative" 0
  | .not value => do
    let code ← compileExpr value
    pure (code.push .not)

/-- Code for one expression after another, behind the code given. -/
def compileExprs (code : Array Instr) : List Expr → Compile (Array Instr)
  | [] => pure code
  | e :: es => do
    let next ← compileExpr e
    compileExprs (code ++ next) es

/-- Code for keys and values in turn, behind the code given. -/
def compileEntries (code : Array Instr) : List (String × Expr) → Compile (Array Instr)
  | [] => pure code
  | (key, e) :: es => do
    let load ← loadConstant (.text key)
    let next ← compileExpr e
    compileEntries (code.push load ++ next) es

end

/-- The number of bytes of some code. -/
def codeSize (code : Array Instr) : Nat := code.foldl (fun n i => n + i.size) 0

/-- The number of bytes of a branch. -/
def branchSize : Nat := 5

mutual

/-- Code of a statement that starts at `pos`. -/
def compileStmt (pos : Nat) : Stmt → Compile (Array Instr)
  | .declare name value => do
    let code ← compileExpr value
    pure (code.push (.stloc (← declareLocal name)))
  | .assign name value => do
    let code ← compileExpr value
    pure (code.push (.stloc (← localIndex name)))
  | .expr value => do
    let code ← compileExpr value
    pure (code.push .pop)
  | .cond condition thenBranch elseBranch => do
    let test ← compileExpr condition
    let thenPos := pos + codeSize test + branchSize
    let thenCode ← compileStmts thenPos #[] thenBranch
    let elsePos := thenPos + codeSize thenCode + branchSize
    let elseCode ← compileStmts elsePos #[] elseBranch
    let endPos := elsePos + codeSize elseCode
    pure (test.push (.brfalse elsePos.toUInt32) ++ thenCode.push (.br endPos.toUInt32) ++ elseCode)
  | .loop condition body => do
    let test ← compileExpr condition
    let bodyPos := pos + codeSize test + branchSize
    let bodyCode ← compileStmts bodyPos #[] body
    let endPos := bodyPos + codeSize bodyCode + branchSize
    pure (test.push (.brfalse endPos.toUInt32) ++ bodyCode.push (.br pos.toUInt32))
  | .ret value => do
    let code ← compileExpr value
    pure (code.push .ret)

/-- Code of statements that start at `pos`, behind the code given. -/
def compileStmts (pos : Nat) (code : Array Instr) : List Stmt → Compile (Array Instr)
  | [] => pure code
  | s :: ss => do
    let next ← compileStmt pos s
    compileStmts (pos + codeSize next) (code ++ next) ss

end

def assemble (code : Array Instr) : Array UInt8 :=
  code.foldl (fun bytes i => bytes ++ i.bytes.toArray) #[]

/-- A program that runs the statements and answers null if none of them returns. -/
def compile (owner : String) (stmts : List Stmt) : Except CompileError Program := do
  let (code, t) ← (compileStmts 0 #[] stmts).run { manifest := { owner } }
  pure {
    constants := t.constants.map Const.toValue
    code := assemble ((code.push .ldnull).push .ret)
    locals := t.locals.size
    classes := t.classes.names
    manifest := t.manifest }

end CachedDispatch.Lang
