import CachedDispatch.Dispatch.Plan

/-!
Plans made without a cache: active categories first, then an invocation hook, then the methods of
the class and its ancestors, then the handlers for what is missing.
-/
namespace CachedDispatch

/-- Finds the class of a value, or fails with an unknown type. -/
def classOrFault (rt : Nat) (v : Value) : Update (Except Fault ClassRef) := do
  match ← modifyGet (·.classOf rt v) with
  | some r => pure (.ok r)
  | none => pure (.error (.unknownType (v.typeId (← get).lineage).number))

/-- Finds the class that stands for a type, or fails with an unknown type. -/
def typeOrFault (rt : Nat) (t : TypeId) : Update (Except Fault ClassRef) := do
  match ← modifyGet (·.findClass rt t) with
  | some r => pure (.ok r)
  | none => pure (.error (.unknownType t.number))

def recordSlowPath (rt : Nat) : Update Unit :=
  modify (·.updateStats rt fun s => { s with slowPathCalls := s.slowPathCalls + 1 })

/-- The method for a call on an instance of the class. A call on the current object falls back on
static methods. -/
def Hierarchy.pickForCall (h : Hierarchy) (lin : Lineage) (owner : TypeId) (current : Bool)
    (name : String) (args : List Value) : Option Method :=
  if current then
    let l := Lookup.currentFor owner h.id
    (h.pickMethod lin name args l).or (h.pickMethod lin name args l.asStatics)
  else h.pickMethod lin name args (.instanceFor owner)

/-- A call on null goes by the methods of the null class alone. -/
def planNullCall (c : Site.Context) (args : List Value) : Update Plan := do
  let null ← modifyGet (·.rootClass c.runtime .nullObject)
  let w ← get
  let args := unwrapArgs args
  match (w.hierarchy null).pickMethod w.lineage c.name args (.instanceFor .null) with
  | some m => pure (.invoke m .null (coerceArgs m.params args))
  | none => pure (.fail (.nullReceiver c.name false))

/-- So does a property read on null. -/
def planNullProperty (c : Site.Context) : Update Plan := do
  let null ← modifyGet (·.rootClass c.runtime .nullObject)
  let w ← get
  match (w.hierarchy null).property? w.lineage c.name with
  | some (.accessor m) => pure (.invoke m .null [])
  | _ => pure (.fail (.nullReceiver c.name true))

/-- No method fits: the class may handle it, getting the name and the arguments as a list. -/
def planMissingMethod (c : Site.Context) (cls : ClassRef) (receiver : Value) (args : List Value) :
    Update Plan := do
  let alloc ← modifyGet (·.allocate)
  let w ← get
  let h := w.hierarchy cls
  let handlerArgs := [.text c.name, .list alloc args]
  match h.pickMethod w.lineage "methodMissing" handlerArgs (.instanceFor c.owner) with
  | some m => pure (.invokeWith m receiver handlerArgs)
  | none => pure (.fail (.missingMethod h.name c.name (typeNames w args)))

def planStatic (c : Site.Context) (t : TypeId) (args : List Value) : Update Plan := do
  recordSlowPath c.runtime
  match ← typeOrFault c.runtime t with
  | .error f => pure (.fail f)
  | .ok r =>
    let w ← get
    let h := w.hierarchy r
    match h.pickMethod w.lineage c.name args (.staticsFor c.owner) with
    | some m => pure (.invokeWith m (.classLiteral t) args)
    | none => pure (.fail (.missingMethod h.name c.name (typeNames w (unwrapArgs args))))

/-- A call on a receiver that is neither null nor a class literal. -/
def planInstanceCall (c : Site.Context) (current : Bool) (receiver : Value) (args : List Value) :
    Update Plan := do
  recordSlowPath c.runtime
  let w ← get
  match Category.findActive? w.lineage w.active receiver c.name args with
  | some m => pure (.invokeWith m receiver args)
  | none =>
    match ← classOrFault c.runtime receiver with
    | .error f => pure (.fail f)
    | .ok r =>
      let w ← get
      let h := w.hierarchy r
      match h.own.hook with
      | some body => pure (.hook body receiver c.name (unwrapArgs args))
      | none =>
        match h.pickForCall w.lineage c.owner current c.name args with
        | some m => pure (.invokeWith m (receiverFor h.id m receiver) args)
        | none => planMissingMethod c r receiver (unwrapArgs args)

def planConstruct (c : Site.Context) (t : TypeId) (args : List Value) : Update Plan := do
  recordSlowPath c.runtime
  match ← typeOrFault c.runtime t with
  | .error f => pure (.fail f)
  | .ok r =>
    let w ← get
    let h := w.hierarchy r
    match h.pickConstructor w.lineage args with
    | some m => pure (.construct r m (prepare m args .baseline))
    | none =>
      let missing := Plan.fail (.missingConstructor h.name (typeNames w (unwrapArgs args)))
      match beanSplit? args with
      | none => pure missing
      | some (positional, entries) =>
        match h.pickConstructor w.lineage positional with
        | some m => pure (.bean r m (prepare m positional .baseline) entries)
        | none => pure missing

/-- No property of that name: the class may handle it, getting the name. -/
def planMissingProperty (c : Site.Context) (cls : ClassRef) (receiver : Value) : Update Plan := do
  let w ← get
  let h := w.hierarchy cls
  let handlerArgs := [.text c.name]
  match h.pickMethod w.lineage "propertyMissing" handlerArgs (.instanceFor c.owner) with
  | some m => pure (.invokeWith m receiver handlerArgs)
  | none => pure (.fail (.missingProperty h.name c.name))

def planClassProperty (c : Site.Context) (t : TypeId) : Update Plan := do
  match ← typeOrFault c.runtime t with
  | .error f => pure (.fail f)
  | .ok r =>
    let w ← get
    let h := w.hierarchy r
    match h.staticProperty? w.lineage c.name with
    | some (.staticField name) => pure (.answer ((h.staticField? name).getD .null))
    | some (.accessor m) => pure (.invokeWith m (.classLiteral t) [])
    | _ => pure (.fail (.missingProperty h.name c.name))

/-- A property of a value that is neither null, nor a map, nor a class literal. -/
def planInstanceProperty (c : Site.Context) (receiver : Value) : Update Plan := do
  match ← classOrFault c.runtime receiver with
  | .error f => pure (.fail f)
  | .ok r =>
    let w ← get
    let h := w.hierarchy r
    match h.property? w.lineage c.name with
    | some (.field name) =>
      match receiver with
      | .object o => pure (.answer ((w.field? o name).getD .null))
      | _ => pure (.fail (.missingProperty h.name c.name))
    | some (.accessor m) => pure (.invokeWith m receiver [])
    | _ => planMissingProperty c r receiver

/-- A property read; even one on null counts as a full lookup. -/
def planProperty (c : Site.Context) (receiver : Value) : Update Plan := do
  recordSlowPath c.runtime
  match receiver with
  | .null => planNullProperty c
  | .map .. => pure (.answer ((receiver.entry? c.name).getD .null))
  | .classLiteral t => planClassProperty c t
  | v => planInstanceProperty c v

/-- The plan that a full lookup makes. -/
def planFully (c : Site.Context) : Request → Update Plan
  | .call current receiver args =>
    match receiver with
    | .classLiteral t => planStatic c t args
    | .null => planNullCall c args
    | v => planInstanceCall c current v args
  | .static t args => planStatic c t args
  | .construct t args => planConstruct c t args
  | .property receiver => planProperty c receiver

/-- How a property of `target` is set: directly, by a setter, or not at all. -/
def planSetProperty (rt : Nat) (target : Value) (name : String) (v : Value) : Update Plan := do
  match ← classOrFault rt target with
  | .error f => pure (.fail f)
  | .ok r =>
    let w ← get
    let h := w.hierarchy r
    let missing := Plan.fail (.missingProperty h.name name)
    match h.setter? w.lineage name v with
    | some (.field field) =>
      match target with
      | .object o => pure (if (w.field? o field).isSome then .setField o field v else missing)
      | _ => pure missing
    | some (.accessor m) => pure (.invokeWith m target [v])
    | _ => pure missing

end CachedDispatch
