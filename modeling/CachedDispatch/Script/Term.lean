import CachedDispatch.Config
import CachedDispatch.Fault
import CachedDispatch.Form
import CachedDispatch.Lang.Expr
import CachedDispatch.SiteKind
import CachedDispatch.TypeId

/-!
Scripts. The code that methods run is given as small programs, and a session is a list of steps that
define classes, dispatch through call sites and report what happened. Scripts name classes, tables,
units, categories and variables by text, and names are looked up when a script runs.
-/
namespace CachedDispatch.Script

/-- A type by its number, or by a label or registered name. -/
inductive TypeRef
  | id (n : UInt32)
  | named (name : String)
deriving DecidableEq, Repr, Inhabited

inductive ParamRef
  | any
  | exact (type : TypeRef)
deriving DecidableEq, Repr, Inhabited

/-- A value to be built. Each evaluation allocates anew, except for stored values. -/
inductive Literal
  | null
  | bool (b : Bool)
  | int (n : Int64)
  | float (x : Double)
  | text (s : String)
  | list (items : List Literal)
  | map (entries : List (String × Literal))
  | classLiteral (type : TypeRef)
  | wrapper (value : Literal) (declared : TypeRef)
  | host (type : TypeRef) (label : String)
  | stored (name : String)
deriving Repr, Inhabited

/-- A method to be made, with code of type `β`. -/
structure MethodSpec (β : Type) where
  name : String
  params : List ParamRef
  body : β
  isStatic : Bool := false
  isPrivate : Bool := false
  /-- Whether the code prepares a new object instead of answering a value. -/
  isInitializer : Bool := false
deriving Repr, Inhabited

/-- A class to be built, with code of type `β`. -/
structure MembersSpec (β : Type) where
  label : String
  parent : Option TypeRef
  fields : List String
  statics : List (String × Literal)
  methods : List (MethodSpec β)
  hook : Option β
deriving Repr, Inhabited

/-- A class to be defined, with code of type `β`. -/
structure ClassSpec (β : Type) extends MembersSpec β where
  name : String
  isHost : Bool
deriving Repr, Inhabited

/-- What a lookup of a method may see. -/
structure LookupSpec where
  sender : TypeRef
  current : Option TypeRef
  statics : Bool
deriving Repr, Inhabited

inductive Selector
  | method (name : String) (lookup : LookupSpec)
  | constructor
deriving Repr, Inhabited

mutual

/-- The code of a method, evaluated with a receiver and arguments. -/
inductive Body
  | const (v : Literal)
  | receiver
  | arg (i : Nat)
  | args
  /-- The name of the called method, known in an invocation hook only. -/
  | calledName
  | list (items : List Body)
  /-- Evaluates all parts and gives the last value. -/
  | seq (parts : List Body)
  | cond (test ifTrue otherwise : Body)
  | fail (fault : Fault)
  | getField (name : String)
  | setField (name : String) (value : Body)
  /-- Evaluates to the value and reports it. -/
  | trace (value : Body)
  | invoke (form : Form) (table : String) (slot : Nat) (receiver : Body) (args : List Body)
  /-- Performs steps and reports their answers. -/
  | perform (steps : List Step)

inductive Step
  | defineClass (spec : ClassSpec Body)
  /-- Begins a definition that can be built later, or never. -/
  | beginClass (draft : String) (name : String) (isHost : Bool)
  | buildClass (draft : String) (spec : MembersSpec Body)
  | newObject (cls : TypeRef) (into : String)
  | bind (into : String) (value : Literal)
  | inspect (value : Literal)
  | compare (left right : Literal)
  | mapEntry (value : Literal) (key : String)
  | getField (value : Literal) (name : String)
  | setField (target : Literal) (name : String) (value : Literal)
  | addMethod (cls : TypeRef) (method : MethodSpec Body)
  | addConstructor (cls : TypeRef) (method : MethodSpec Body)
  | removeMethod (cls : TypeRef) (name : String)
  | addField (cls : TypeRef) (name : String)
  | setStatic (cls : TypeRef) (name : String) (value : Literal)
  | staticField (cls : TypeRef) (name : String)
  | describe (cls : TypeRef)
  | hasMember (cls : TypeRef) (name : String)
  | depth (cls : TypeRef) (ancestor : TypeRef)
  | pick (cls : TypeRef) (selector : Selector) (args : List Literal)
  /-- Runs what `pick` finds, with the arguments as they are. -/
  | invokePicked (cls : TypeRef) (selector : Selector) (receiver : Literal) (args : List Literal)
  | sameSignature (left right : MethodSpec Body)
  | property (cls : TypeRef) (name : String)
  | staticProperty (cls : TypeRef) (name : String)
  | setter (cls : TypeRef) (name : String) (value : Literal)
  | runHook (cls : TypeRef) (receiver : Literal) (name : String) (args : List Literal)
  | distance (param : ParamRef) (arg : Literal)
  | lookup (name : String)
  | findClass (type : TypeRef)
  | classCount
  | classOf (value : Literal)
  | roots
  | label (cls : TypeRef) (label : String)
  | replaceClass (cls : TypeRef)
  | newRuntime (config : Config)
  | switchRuntime (index : Nat)
  | stats
  | newTable (name : String) (owner : TypeRef) (sites : List (String × SiteKind))
  | call (table : String) (slot : Nat) (form : Form) (receiver : Literal) (args : List Literal)
      (into : Option String)
  | slots (table : String)
  | defineCategory (name : String) (methods : List (TypeRef × MethodSpec Body))
  | useCategory (name : String) (steps : List Step)
  | load (name : String) (owner : String) (stmts : List Lang.Stmt)
  | loadRaw (name : String) (owner : String) (code : Array UInt8) (constants : List Literal)
      (locals : Nat) (classes : List String) (sites : List (String × SiteKind))
  | runUnit (name : String) (this : Literal) (times : Nat) (keep : Bool) (into : Option String)
  | runProgram (owner : String) (stmts : List Lang.Stmt)

end

instance : Inhabited Body := ⟨.receiver⟩

instance : Inhabited Step := ⟨.classCount⟩

end CachedDispatch.Script
