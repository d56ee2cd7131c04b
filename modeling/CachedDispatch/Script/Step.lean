import CachedDispatch.Lang.Compile
import CachedDispatch.Machine
import CachedDispatch.Script.Evaluation

/-!
What each step of a script does, and what it answers.
-/
namespace CachedDispatch.Script

/-- The answer to a computation that gives a value or fails. -/
def answerValue (x : Exec Fault Value) : Act Answer := do
  match ← x.result with
  | .ok v => do pure (.value (← Act.ofUpdate (snapshot v)))
  | .error f => pure (.fault f)

def answerOptional (v : Option Value) : Act Answer := do
  match v with
  | some v => pure (.optional (some (← Act.ofUpdate (snapshot v))))
  | none => pure (.optional none)

def viewClass (r : ClassRef) : Act ClassView := do pure (classView (← get) r)

def versionOf (r : ClassRef) : Act Nat := do pure ((← get).version r)

/-- The parent and the members of a class; nothing in the description can refer to the class itself by
its label. -/
def MembersSpec.resolve (spec : MembersSpec Body) : Act (Option ClassRef × ClassMembers) := do
  let parent ← spec.parent.mapM TypeRef.resolveClass
  let statics ← spec.statics.mapM fun (name, l) => do pure (name, ← l.eval)
  let methods ← spec.methods.mapM MethodSpec.resolve
  pure (parent, { fields := spec.fields, statics, methods, hook := spec.hook })

def setLabel (name : String) (r : ClassRef) : Act Unit :=
  updateScope fun s => { s with labels := Assoc.set s.labels name r }

def makeClass (spec : ClassSpec Body) : Act Answer := do
  let rt ← currentRuntime
  let (parent, members) ← spec.resolve
  let (id, r) ← modifyGet fun w =>
    let (id, r, w) := w.defineClass rt parent { members with name := spec.name, isHost := spec.isHost }
    ((id, r), w)
  setLabel spec.label r
  pure (.number id.number)

def draftClass (draft name : String) (isHost : Bool) : Act Answer := do
  let rt ← currentRuntime
  let id ← modifyGet (·.draftClass draft rt name isHost)
  pure (.number id.number)

def finishClass (draft : String) (spec : MembersSpec Body) : Act Answer := do
  let (parent, members) ← spec.resolve
  let (id, r) ← bound draft (← modifyGet (·.buildDraft draft parent members))
  setLabel spec.label r
  pure (.number id.number)

def inspectValue (v : Value) : Act Answer := do
  let w ← get
  let value ← Act.ofUpdate (snapshot v)
  pure (.inspection {
    value
    type := v.typeId w.lineage
    typeName := w.typeName v
    display := Text.maskAddresses (v.display w.naming)
    isNull := v.isNull
    kinds := [v.asInt?.isSome, v.asFloat?.isSome, v.asBool?.isSome, v.asText?.isSome,
      v.asList?.isSome, v.asObject?.isSome] })

/-- Changes a class and answers with its version. -/
def changeClass (cls : TypeRef) (f : Class → Class) : Act (ClassRef × Nat) := do
  let r ← cls.resolveClass
  modify (·.updateClass r f)
  pure (r, ← versionOf r)

/-- The method that a selector finds in a class. -/
def select (r : ClassRef) (selector : Selector) (args : List Value) : Act (Option Method) := do
  match selector with
  | .constructor => do
    let w ← get
    pure ((w.hierarchy r).pickConstructor w.lineage args)
  | .method name lookup => do
    let l ← lookup.resolve
    let w ← get
    pure ((w.hierarchy r).pickMethod w.lineage name args l)

def dispatchStep (run : Runner) (table : String) (slot : Nat) (form : Form)
    (receiver : Literal) (args : List Literal) (into : Option String) : Act Answer := do
  let t ← findTable table
  let receiver ← receiver.eval
  let args ← evalItems args
  let result ← (invokeForm run t slot form receiver args).result
  let shown ← match result with
    | .ok v => do
      store into v
      pure (.ok (← Act.ofUpdate (snapshot v)))
    | .error f => pure (.error f)
  let w ← get
  pure (.dispatched shown (siteView (w.slot? t slot)) (w.runtime (w.table t).runtime).stats)

/-- Performs steps while a category is in force: it is put before the others, and the innermost one is
taken away in the end. -/
def withCategory (perform : List Step → Act (List Reply)) (name : String) (steps : List Step) :
    Act Answer := do
  let category ← bound name (Assoc.get? (← get).scope.categories name)
  let before := (← get).hasActiveCategory
  modify fun w => { w with active := category :: w.active }
  let inside := (← get).hasActiveCategory
  let replies ← perform steps
  modify fun w => { w with active := w.active.tail }
  pure (.used before inside (← get).hasActiveCategory replies)

/-- Loads a program under a name; a program that cannot be loaded leaves no unit there. -/
def loadAs (name : String) (p : Program) : Act Answer := do
  let rt ← currentRuntime
  match ← Act.ofUpdate (load rt p) with
  | .ok u =>
    updateScope fun s => { s with units := Assoc.set s.units name u }
    pure (.loaded u.owner p ((← get).table u.table).owner)
  | .error e =>
    updateScope fun s => { s with units := Assoc.erase s.units name }
    pure (.machineError e)

/-- Runs a unit several times, on a new machine each time or on the same one. -/
def runTimes (run : Runner) (fuel : Nat) (u : LoadedUnit) (this : Value) (keep : Bool)
    (into : Option String) : Nat → Machine → Act (List RunView)
  | 0, _ => pure []
  | times + 1, m => do
    let (result, m) ← m.restart.run run u fuel
    let shown ← match result with
      | .ok v => do
        store into v
        pure (.ok (← Act.ofUpdate (snapshot v)))
      | .error e => pure (.error e)
    let locals ← Act.ofUpdate (snapshots m.locals.toList)
    let next := if keep then m else .start u this
    let rest ← runTimes run fuel u this keep into times next
    pure (⟨shown, locals⟩ :: rest)

def runUnitTimes (run : Runner) (fuel : Nat) (name : String) (this : Literal) (times : Nat)
    (keep : Bool) (into : Option String) : Act Answer := do
  match Assoc.get? (← get).scope.units name with
  | none => pure .noUnit
  | some u =>
    let this ← this.eval
    let runs ← runTimes run fuel u this keep into times (.start u this)
    let w ← get
    let table := w.table u.table
    pure (.ran runs (table.slots.toList.map fun s => siteView (some s))
      (w.runtime table.runtime).stats)

def compileAndRun (run : Runner) (fuel : Nat) (owner : String) (stmts : List Lang.Stmt) :
    Act Answer := do
  match Lang.compile owner stmts with
  | .error e => pure (.compileError e)
  | .ok p =>
    match ← Act.ofUpdate (load (← currentRuntime) p) with
    | .error e => pure (.machineError e)
    | .ok u =>
      match (← (Machine.start u .null).run run u fuel).1 with
      | .ok v => do pure (.value (← Act.ofUpdate (snapshot v)))
      | .error e => pure (.machineError e)

/-- Performs one step, `run` running code and `perform` the steps inside it. -/
def Step.exec (run : Runner) (perform : List Step → Act (List Reply)) (fuel : Nat) :
    Step → Act Answer
  | .defineClass spec => makeClass spec
  | .beginClass draft name isHost => draftClass draft name isHost
  | .buildClass draft spec => finishClass draft spec
  | .newObject cls into => do
    let r ← cls.resolveClass
    let o ← modifyGet (·.newObject r)
    store (some into) (.object o)
    pure (.value (← Act.ofUpdate (snapshot (.object o))))
  | .bind into value => do
    let v ← value.eval
    store (some into) v
    pure (.value (← Act.ofUpdate (snapshot v)))
  | .inspect value => do inspectValue (← value.eval)
  | .compare left right => do
    let a ← left.eval
    let b ← right.eval
    pure (.flags [a.equal b, b.equal a, a.same b, b.same a])
  | .mapEntry value key => do
    let v ← value.eval
    answerOptional (v.entry? key)
  | .getField value name => do
    let v ← value.eval
    let w ← get
    answerOptional (v.asObject?.bind (w.field? · name))
  | .setField target name value => do
    let target ← target.eval
    let v ← value.eval
    match target with
    | .object o =>
      if ((← get).field? o name).isSome then
        modify (·.setField o name v)
        pure (.flag true)
      else pure (.flag false)
    | _ => pure (.flag false)
  | .addMethod cls method => do
    let m ← method.resolve
    let (_, version) ← changeClass cls (·.addMethod m)
    pure (.number version)
  | .addConstructor cls method => do
    let m ← method.resolve
    let (r, version) ← changeClass cls (·.addConstructor m)
    pure (.constructors version ((← get).cls r).constructors.length)
  | .removeMethod cls name => do
    let r ← cls.resolveClass
    let removed := ((← get).cls r).declares name
    modify (·.updateClass r (·.removeMethod name))
    pure (.removal removed (← versionOf r))
  | .addField cls name => do
    let (_, version) ← changeClass cls (·.addField name)
    pure (.number version)
  | .setStatic cls name value => do
    let v ← value.eval
    let (_, version) ← changeClass cls (·.setStatic name v)
    pure (.number version)
  | .staticField cls name => do
    let r ← cls.resolveClass
    answerOptional (((← get).hierarchy r).staticField? name)
  | .describe cls => do pure (.cls (some (← viewClass (← cls.resolveClass))))
  | .hasMember cls name => do
    let r ← cls.resolveClass
    let h := (← get).hierarchy r
    pure (.flags [h.hasMethod name, h.hasField name])
  | .depth cls ancestor => do
    let r ← cls.resolveClass
    let t ← ancestor.resolve
    let h := (← get).hierarchy r
    pure (.depth (h.depthTo? t) (h.isSubtypeOf t))
  | .pick cls selector args => do
    let r ← cls.resolveClass
    let args ← evalItems args
    pure (.method (← select r selector args))
  | .invokePicked cls selector receiver args => do
    let r ← cls.resolveClass
    let receiver ← receiver.eval
    let args ← evalItems args
    match ← select r selector args with
    | some m => answerValue (m.invoke run receiver args)
    | none => pure .unpicked
  | .sameSignature left right => do
    let a ← left.resolve
    let b ← right.resolve
    pure (.flag (a.sameSignature b))
  | .property cls name => do
    let r ← cls.resolveClass
    let w ← get
    pure (.property (((w.hierarchy r).property? w.lineage name).map propertyView))
  | .staticProperty cls name => do
    let r ← cls.resolveClass
    let w ← get
    pure (.property (((w.hierarchy r).staticProperty? w.lineage name).map propertyView))
  | .setter cls name value => do
    let r ← cls.resolveClass
    let v ← value.eval
    let w ← get
    pure (.property (((w.hierarchy r).setter? w.lineage name v).map propertyView))
  | .runHook cls receiver name args => do
    let r ← cls.resolveClass
    let receiver ← receiver.eval
    let args ← evalItems args
    match ((← get).cls r).hook with
    | some body =>
      answerValue (run (.script body) { receiver, args, calledName := some name })
    | none => pure .noHook
  | .distance param arg => do
    let p ← param.resolve
    let v ← arg.eval
    let lin := (← get).lineage
    pure (.distance (paramDistance lin p v) (directlyAssignable lin p v) p)
  | .lookup name => do
    let rt ← currentRuntime
    pure (.type (((← get).registry rt).lookup? name))
  | .findClass type => do
    let rt ← currentRuntime
    let t ← type.resolve
    match ← modifyGet (·.findClass rt t) with
    | some r => pure (.cls (some (← viewClass r)))
    | none => pure (.cls none)
  | .classCount => do
    pure (.classCount ((← get).registry (← currentRuntime)).entries.length)
  | .classOf value => do
    let v ← value.eval
    let rt ← currentRuntime
    match ← Act.ofUpdate (classOrFault rt v) with
    | .ok r => pure (.cls (some (← viewClass r)))
    | .error f => pure (.fault f)
  | .roots => do
    let rt ← currentRuntime
    let object ← modifyGet (·.rootClass rt .object)
    let null ← modifyGet (·.rootClass rt .nullObject)
    pure (.classes [← viewClass object, ← viewClass null])
  | .label cls name => do
    let r ← cls.resolveClass
    setLabel name r
    pure (.cls (some (← viewClass r)))
  | .replaceClass cls => do
    let rt ← currentRuntime
    let r ← cls.resolveClass
    let previous ← modifyGet (·.replaceClass rt r)
    pure (.replaced (← previous.mapM viewClass) (previous = some r) (← viewClass r))
  | .newRuntime config => do
    let rt ← modifyGet (·.newRuntime config)
    updateScope fun s => { s with runtime := rt }
    pure (.number rt)
  | .switchRuntime index => do
    if index < (← get).runtimes.size then
      updateScope fun s => { s with runtime := index }
      pure (.number index)
    else Act.stop (.unbound s!"runtime {index}")
  | .stats => do
    let runtime := (← get).runtime (← currentRuntime)
    pure (.stats runtime.stats runtime.config)
  | .newTable name owner sites => do
    let owner ← owner.resolve
    let rt ← currentRuntime
    let t ← modifyGet (·.addTable (.ofSites owner rt sites))
    updateScope fun s => { s with tables := Assoc.set s.tables name t }
    pure (.table sites.length owner)
  | .call table slot form receiver args into =>
    dispatchStep run table slot form receiver args into
  | .slots table => do
    let t ← findTable table
    let w ← get
    let count := (w.table t).slots.size
    pure (.slots ((List.range (count + 1)).map fun i => slotView (w.slot? t i)))
  | .defineCategory name methods => do
    let entries ← methods.mapM fun (target, m) => do
      let t ← target.resolve
      pure (t, ← m.resolve)
    updateScope fun s => { s with categories := Assoc.set s.categories name ⟨name, entries⟩ }
    pure (.name name)
  | .useCategory name steps => withCategory perform name steps
  | .load name owner stmts => do
    match Lang.compile owner stmts with
    | .error e =>
      updateScope fun s => { s with units := Assoc.erase s.units name }
      pure (.compileError e)
    | .ok p => loadAs name p
  | .loadRaw name owner code constants locals classes sites => do
    let constants ← evalItems constants
    loadAs name {
      constants := constants.toArray
      code
      locals
      classes := classes.toArray
      manifest := .ofSites owner sites }
  | .runUnit name this times keep into => runUnitTimes run fuel name this times keep into
  | .runProgram owner stmts => compileAndRun run fuel owner stmts

end CachedDispatch.Script
