import CachedDispatch.Exec

/-!
What the names and literals of a script stand for. A name without a meaning ends the run.
-/
namespace CachedDispatch.Script

/-- What a name stands for, or the end of the run. -/
def bound {α : Type} (name : String) : Option α → Act α
  | some a => pure a
  | none => Act.stop (.unbound name)

def currentRuntime : Act Nat := do pure (← get).scope.runtime

/-- A label stands for its class, any other name for what is registered under it. -/
def TypeRef.resolve : TypeRef → Act TypeId
  | .id n => pure ⟨n⟩
  | .named name => do
    let w ← get
    match Assoc.get? w.scope.labels name with
    | some r => pure (w.cls r).id
    | none => bound name ((w.registry w.scope.runtime).lookup? name)

/-- A labelled class is meant even if it stands for its type no more. -/
def TypeRef.resolveClass (r : TypeRef) : Act ClassRef := do
  let w ← get
  let labelled := match r with
    | .named name => Assoc.get? w.scope.labels name
    | .id _ => none
  match labelled with
  | some c => pure c
  | none =>
    let t ← r.resolve
    bound t.label (← modifyGet (·.findClass w.scope.runtime t))

def ParamRef.resolve : ParamRef → Act ParamType
  | .any => pure .any
  | .exact r => do pure (.exact (← r.resolve))

def allocate : Act Nat := modifyGet (·.allocate)

mutual

def Literal.eval : Literal → Act Value
  | .null => pure .null
  | .bool b => pure (.bool b)
  | .int n => pure (.int n)
  | .float x => pure (.float x)
  | .text s => pure (.text s)
  | .list items => do
    let items ← evalItems items
    pure (.list (← allocate) items)
  | .map entries => do
    let entries ← evalEntries entries
    pure (.map (← allocate) entries)
  | .classLiteral r => do pure (.classLiteral (← r.resolve))
  | .wrapper v r => do
    let v ← v.eval
    let t ← r.resolve
    pure (.wrapper (← allocate) v t)
  | .host r label => do
    let t ← r.resolve
    pure (.host (← allocate) t label)
  | .stored name => do bound name (Assoc.get? (← get).scope.stored name)

def evalItems : List Literal → Act (List Value)
  | [] => pure []
  | l :: ls => do
    let v ← l.eval
    let vs ← evalItems ls
    pure (v :: vs)

def evalEntries : List (String × Literal) → Act (List (String × Value))
  | [] => pure []
  | (k, l) :: ls => do
    let v ← l.eval
    let vs ← evalEntries ls
    pure ((k, v) :: vs)

end

def MethodSpec.resolve (m : MethodSpec Body) : Act Method := do
  let params ← m.params.mapM ParamRef.resolve
  pure {
    name := m.name
    params
    isStatic := m.isStatic
    visibility := if m.isPrivate then .declarer else .everyone
    kind := if m.isInitializer then .initializer else .native
    code := .script m.body }

def LookupSpec.resolve (l : LookupSpec) : Act Lookup := do
  let sender ← l.sender.resolve
  let current ← l.current.mapM TypeRef.resolve
  pure { sender, current, statics := l.statics }

def updateScope (f : Scope → Scope) : Act Unit := modify fun w => { w with scope := f w.scope }

/-- Stores a value under a name, if there is one. -/
def store (into : Option String) (v : Value) : Act Unit :=
  match into with
  | some name => updateScope fun s => { s with stored := Assoc.set s.stored name v }
  | none => pure ()

def addTrace (e : Entry) : Act Unit := updateScope fun s => { s with trace := e :: s.trace }

end CachedDispatch.Script
