import CachedDispatch.Dispatch.FullLookup

/-!
Making specialized sites. Resolution does the lookup that a request asks for and packs the outcome
together with what it depended on; requests that only a full lookup can serve have no site.
-/
namespace CachedDispatch

/-- The receivers that resolution tells apart. -/
inductive ReceiverClass
  | literal (type : TypeId)
  | object (o : ObjectRef)
  | other (v : Value)
deriving Repr, Inhabited

/-- Null belongs to no class of receivers: calls on it are never specialized. -/
def ReceiverClass.of? : Value → Option ReceiverClass
  | .null => none
  | .classLiteral t => some (.literal t)
  | .object o => some (.object o)
  | v => some (.other v)

def Target.make (w : World) (cls : ClassRef) (m : Method) (args : List Value) : Target where
  cls
  version := w.version cls
  shape := Shape.of w.lineage args
  method := m
  tier := selectTier w.lineage m args

/-- The class and guard of a receiver; a class literal stands for its class. -/
def guardFor (rt : Nat) : ReceiverClass → Update (Option (ClassRef × Guard))
  | .literal t => do
    pure ((← modifyGet (·.findClass rt t)).map (·, Guard.literalOf t))
  | .object o => do
    let cls := (← get).classOfObject o
    pure (some (cls, .instanceOf cls))
  | .other v => do
    let t := v.typeId (← get).lineage
    pure ((← modifyGet (·.classOf rt v)).map (·, Guard.valueOf t))

/-- A site for a static method of a class. -/
def resolveStatic (c : Site.Context) (t : TypeId) (args : List Value) (current : Bool) :
    Update (Option Site) := do
  match ← modifyGet (·.findClass c.runtime t) with
  | none => pure none
  | some r =>
    let w ← get
    match (w.hierarchy r).pickMethod w.lineage c.name args (.staticsFor c.owner) with
    | none => pure none
    | some m => pure (some (.method (.literalOf t) (.make w r m args) current))

/-- A site for a call; a class with an invocation hook has none. -/
def resolveCall (c : Site.Context) (current : Bool) (receiver : Value) (args : List Value) :
    Update (Option Site) := do
  match ReceiverClass.of? receiver with
  | none => pure none
  | some (.literal t) => resolveStatic c t args current
  | some rc =>
    match ← guardFor c.runtime rc with
    | none => pure none
    | some (r, guard) =>
      let w ← get
      let h := w.hierarchy r
      if h.own.hook.isSome then pure none
      else
        match h.pickForCall w.lineage c.owner current c.name args with
        | none => pure none
        | some m => pure (some (.method guard (.make w r m args) current))

def resolveConstruct (c : Site.Context) (t : TypeId) (args : List Value) :
    Update (Option Site) := do
  match ← modifyGet (·.findClass c.runtime t) with
  | none => pure none
  | some r =>
    let w ← get
    let h := w.hierarchy r
    match h.pickConstructor w.lineage args with
    | some m => pure (some (.constructor t (.make w r m args)))
    | none =>
      match beanSplit? args with
      | none => pure none
      | some (positional, _) =>
        match h.pickConstructor w.lineage positional with
        | some m => pure (some (.bean t (.make w r m positional)))
        | none => pure none

/-- How a property can be remembered, depending on the guard. -/
def accessFor (w : World) (cls : ClassRef) (name : String) (receiver : Value) :
    Guard → Option Access
  | .literalOf _ =>
    match (w.hierarchy cls).staticProperty? w.lineage name with
    | some (.staticField field) => some (.staticField field)
    | some (.accessor m) => some (.accessor m)
    | _ => none
  | .instanceOf _ =>
    match (w.hierarchy cls).property? w.lineage name with
    | some (.field field) => some (.field field)
    | some (.accessor m) => some (.accessor m)
    | _ => none
  | .valueOf _ =>
    match receiver with
    | .map .. => some (.entry name)
    | _ =>
      match (w.hierarchy cls).property? w.lineage name with
      | some (.accessor m) => some (.accessor m)
      | _ => none

def resolveProperty (c : Site.Context) (receiver : Value) : Update (Option Site) := do
  match ReceiverClass.of? receiver with
  | none => pure none
  | some rc =>
    match ← guardFor c.runtime rc with
    | none => pure none
    | some (r, guard) =>
      let w ← get
      match accessFor w r c.name receiver guard with
      | none => pure none
      | some access => pure (some (.property guard r (w.version r) access))

/-- A site for the request. Every attempt counts as a resolution. -/
def resolve (c : Site.Context) (request : Request) : Update (Option Site) := do
  modify (·.updateStats c.runtime fun s => { s with resolutions := s.resolutions + 1 })
  if (← get).hasActiveCategory then pure none
  else
    match request with
    | .call current receiver args => resolveCall c current receiver args
    | .static t args => resolveStatic c t args false
    | .construct t args => resolveConstruct c t args
    | .property receiver => resolveProperty c receiver

end CachedDispatch
