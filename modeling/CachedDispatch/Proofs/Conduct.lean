import CachedDispatch.Proofs.Changes
import CachedDispatch.Script.Session

/-!
What sessions do to the world. A relation that lets pass each elementary change, and a block of
changes under a category, bounds what names and literals, method bodies and the steps of a session do,
however deep they nest.
-/
namespace CachedDispatch

open World

variable {R : World → World → Prop}

namespace World

/-- The class goes by a label, or has just been found or built. -/
inductive Named : World → ClassRef → Prop
  | label {w : World} {name : String} {r : ClassRef} (h : Assoc.get? w.scope.labels name = some r) :
      Named w r
  | found {w w' : World} {t : TypeId} {r : ClassRef}
      (h : w.findClass w.scope.runtime t = (some r, w')) : Named w' r
  | built {w w' : World} {d : Draft} {parent : Option ClassRef} {members : ClassMembers} {r : ClassRef}
      (h : w.buildClass d parent members = (r, w')) (drafts : List (String × Draft)) :
      Named { w' with drafts } r

/-- The relation lets pass whatever the steps of a session do to the world. -/
structure AllowsSteps (R : World → World → Prop) : Prop extends AllowsWork R where
  plan : AllowsPlans R
  mutate : ∀ (w : World) (r : ClassRef) (mu : Mutation), R w (w.updateClass r mu.apply)
  defineClass : ∀ (w : World) (rt : Nat) (parent : Option ClassRef) (members : ClassMembers),
    R w (w.defineClass rt parent members).2.2
  draftClass : ∀ (w : World) (key : String) (rt : Nat) (name : String) (isHost : Bool),
    R w (w.draftClass key rt name isHost).2
  finishClass : ∀ {w : World} {key : String} {d : Draft}, Assoc.get? w.drafts key = some d →
    ∀ (parent : Option ClassRef) (members : ClassMembers), R w (w.finishClass key d parent members).2
  replaceClass : ∀ {w : World} {r : ClassRef}, w.Named r → ∀ rt, R w (w.replaceClass rt r).2
  label : ∀ {w : World} {r : ClassRef}, w.Named r → ∀ name,
    R w { w with scope := { w.scope with labels := Assoc.set w.scope.labels name r } }
  rescope : ∀ (w : World) (scope : Scope), scope.runtime = w.scope.runtime →
    scope.labels = w.scope.labels → R w { w with scope }
  newRuntime : ∀ (w : World) (config : Config), R w (w.newRuntime config).2
  switch : ∀ {w : World} {rt : Nat}, rt < w.runtimes.size →
    R w { w with scope := { w.scope with runtime := rt } }
  addTable : ∀ (w : World) (owner : TypeId) (sites : List (String × SiteKind)),
    R w (w.addTable (.ofSites owner w.scope.runtime sites)).2
  /-- A block under a category is over, and the category is in force no more. -/
  block : ∀ {w w' : World} (c : Category), R { w with active := c :: w.active } w' →
    R w { w' with active := w'.active.tail }

end World

namespace Script

section Reading

variable {α : Type} (hR : AllowsWork R)
include hR

private theorem makes_bound (name : String) (found : Option α) : Act.Makes R (bound name found) := by
  cases found with
  | some a => exact .pure hR a
  | none => exact .stop _

private theorem makes_allocate : Act.Makes R allocate := .act hR.allocate

private theorem makes_currentRuntime : Act.Makes R currentRuntime := .look fun _ => .pure hR _

private theorem makes_resolveType (r : TypeRef) : Act.Makes R r.resolve := by
  cases r with
  | id n => exact .pure hR _
  | named name =>
    refine .look fun w => ?_
    split
    · exact .pure hR _
    · exact makes_bound hR name _

private theorem makes_findClass (rt : Nat) (t : TypeId) :
    Act.Makes R (modifyGet (·.findClass rt t) : Act (Option ClassRef)) :=
  .act fun w => (hR.search rt).findClass w t

private theorem makes_resolveClass (r : TypeRef) : Act.Makes R r.resolveClass := by
  refine .look fun w => ?_
  dsimp only
  split
  · exact .pure hR _
  · exact (makes_resolveType hR r).bind hR fun t =>
      (makes_findClass hR _ t).bind hR fun _ => makes_bound hR _ _

private theorem makes_resolveParam (p : ParamRef) : Act.Makes R p.resolve := by
  cases p with
  | any => exact .pure hR _
  | exact r => exact (makes_resolveType hR r).bind hR fun _ => .pure hR _

mutual

private theorem makes_eval : (l : Literal) → Act.Makes R l.eval
  | .null | .bool _ | .int _ | .float _ | .text _ => .pure hR _
  | .list items => (makes_evalItems items).bind hR fun _ =>
      (makes_allocate hR).bind hR fun _ => .pure hR _
  | .map entries => (makes_evalEntries entries).bind hR fun _ =>
      (makes_allocate hR).bind hR fun _ => .pure hR _
  | .classLiteral r => (makes_resolveType hR r).bind hR fun _ => .pure hR _
  | .wrapper l r => (makes_eval l).bind hR fun _ => (makes_resolveType hR r).bind hR fun _ =>
      (makes_allocate hR).bind hR fun _ => .pure hR _
  | .host r _ => (makes_resolveType hR r).bind hR fun _ =>
      (makes_allocate hR).bind hR fun _ => .pure hR _
  | .stored name => .look fun _ => makes_bound hR name _

private theorem makes_evalItems : (ls : List Literal) → Act.Makes R (evalItems ls)
  | [] => .pure hR _
  | l :: ls => (makes_eval l).bind hR fun _ => (makes_evalItems ls).bind hR fun _ => .pure hR _

private theorem makes_evalEntries : (es : List (String × Literal)) → Act.Makes R (evalEntries es)
  | [] => .pure hR _
  | (_, l) :: es =>
    (makes_eval l).bind hR fun _ => (makes_evalEntries es).bind hR fun _ => .pure hR _

end

private theorem makes_resolveMethod (m : MethodSpec Body) : Act.Makes R m.resolve :=
  (Act.Makes.mapM hR (makes_resolveParam hR) m.params).bind hR fun _ => .pure hR _

private theorem makes_resolveLookup (l : LookupSpec) : Act.Makes R l.resolve := by
  refine (makes_resolveType hR l.sender).bind hR fun _ => ?_
  have hcurrent : Act.Makes R (l.current.mapM TypeRef.resolve) := by
    cases l.current with
    | none => exact .pure hR _
    | some r => exact (makes_resolveType hR r).bind hR fun _ => .pure hR _
  exact hcurrent.bind hR fun _ => .pure hR _

private theorem makes_resolveMembers (spec : MembersSpec Body) : Act.Makes R spec.resolve := by
  have hparent : Act.Makes R (spec.parent.mapM TypeRef.resolveClass) := by
    cases spec.parent with
    | none => exact .pure hR _
    | some r => exact (makes_resolveClass hR r).bind hR fun _ => .pure hR _
  refine hparent.bind hR fun parent => ?_
  refine Act.Makes.bind (.mapM hR (fun e => ?_) spec.statics) hR fun statics => ?_
  · exact (makes_eval hR e.2).bind hR fun _ => .pure hR _
  exact (Act.Makes.mapM hR (makes_resolveMethod hR) spec.methods).bind hR fun _ => .pure hR _

private theorem makes_findTable (name : String) : Act.Makes R (findTable name) :=
  .look fun _ => makes_bound hR name _

private theorem makes_viewClass (r : ClassRef) : Act.Makes R (viewClass r) := .look fun _ => .pure hR _

private theorem makes_select (r : ClassRef) (selector : Selector) (args : List Value) :
    Act.Makes R (select r selector args) := by
  cases selector with
  | constructor => exact .look fun _ => .pure hR _
  | method name lookup =>
    exact (makes_resolveLookup hR lookup).bind hR fun _ => .look fun _ => .pure hR _

end Reading

private theorem bound_eq_ok {α : Type} {name : String} {found : Option α} {w w' : World} {a : α}
    (h : (bound name found).run w = .ok (a, w')) : found = some a ∧ w' = w := by
  cases found with
  | none => cases h
  | some b =>
    cases h
    exact ⟨rfl, rfl⟩

private theorem resolve_eq_ok {r : TypeRef} {w w' : World} {t : TypeId}
    (h : r.resolve.run w = .ok (t, w')) : w' = w := by
  cases r with
  | id n =>
    cases h
    rfl
  | named name =>
    unfold TypeRef.resolve at h
    obtain ⟨_, _, ⟨⟩, h⟩ := Act.bind_eq_ok h
    split at h
    · cases h
      rfl
    · exact (bound_eq_ok h).2

private theorem named_of_find {ref : TypeRef} {w w' : World} {r : ClassRef}
    (h : (do let t ← ref.resolve; bound t.label (← modifyGet (·.findClass w.scope.runtime t))
      : Act ClassRef).run w = .ok (r, w')) : w'.Named r := by
  obtain ⟨t, w₁, ht, h⟩ := Act.bind_eq_ok h
  obtain rfl := resolve_eq_ok ht
  obtain ⟨found, w₂, hfound, h⟩ := Act.bind_eq_ok h
  obtain ⟨rfl, rfl⟩ := bound_eq_ok h
  exact .found (Except.ok.inj hfound)

/-- A class that a script refers to is one that it can name. -/
private theorem named_of_resolveClass {ref : TypeRef} {w w' : World} {r : ClassRef}
    (h : ref.resolveClass.run w = .ok (r, w')) : w'.Named r := by
  unfold TypeRef.resolveClass at h
  obtain ⟨_, _, ⟨⟩, h⟩ := Act.bind_eq_ok h
  cases ref with
  | id n => exact named_of_find h
  | named name =>
    dsimp only at h
    split at h
    · rename_i c hc
      cases h
      exact .label hc
    · exact named_of_find h

/-- A block under a category: the category is put before the others, and the innermost one is taken away
in the end. -/
theorem withCategory_eq_ok {perform : List Step → Act (List Reply)} {name : String}
    {steps : List Step} {w w' : World} {answer : Answer}
    (h : (withCategory perform name steps).run w = .ok (answer, w')) :
    ∃ c replies w₁, Assoc.get? w.scope.categories name = some c
      ∧ (perform steps).run { w with active := c :: w.active } = .ok (replies, w₁)
      ∧ w' = { w₁ with active := w₁.active.tail } := by
  unfold withCategory at h
  replace ⟨_, _, hget, h⟩ := Act.bind_eq_ok h
  cases hget
  replace ⟨c, w₀, hc, h⟩ := Act.bind_eq_ok h
  obtain ⟨hc, rfl⟩ := bound_eq_ok hc
  replace ⟨_, _, hget, h⟩ := Act.bind_eq_ok h
  cases hget
  replace ⟨_, _, hpush, h⟩ := Act.bind_eq_ok h
  cases hpush
  replace ⟨_, _, hget, h⟩ := Act.bind_eq_ok h
  cases hget
  replace ⟨replies, w₁, hrun, h⟩ := Act.bind_eq_ok h
  cases h
  exact ⟨c, replies, w₁, hc, hrun, rfl⟩

section Stepping

variable {run : Runner} {perform : List Step → Act (List Reply)} (hR : AllowsSteps R)
include hR

/-- The scope may change as long as labels and the runtime at work stay the same. -/
private theorem makes_updateScope {f : Scope → Scope} (hruntime : ∀ s, (f s).runtime = s.runtime)
    (hlabels : ∀ s, (f s).labels = s.labels) : Act.Makes R (updateScope f) :=
  .change fun w => hR.rescope w _ (hruntime _) (hlabels _)

private theorem makes_store (into : Option String) (v : Value) : Act.Makes R (store into v) := by
  unfold store
  split
  · exact makes_updateScope hR (fun _ => rfl) fun _ => rfl
  · exact .pure hR.toAllowsWork _

private theorem makes_addTrace (e : Entry) : Act.Makes R (addTrace e) :=
  makes_updateScope hR (fun _ => rfl) fun _ => rfl

private theorem makes_snapshot (v : Value) : Act.Makes R (Act.ofUpdate (snapshot v)) :=
  .ofUpdate fun w => hR.rescope w _ rfl rfl

private theorem makes_snapshots (vs : List Value) : Act.Makes R (Act.ofUpdate (snapshots vs)) := by
  have hW := hR.toAllowsWork
  induction vs with
  | nil => exact .pure hW _
  | cons v vs ih =>
    rw [snapshots, List.mapM_cons]
    exact (makes_snapshot hR v).ofUpdate_bind hW fun _ => ih.ofUpdate_bind hW fun _ => .pure hW _

private theorem makes_answerValue {x : Exec Fault Value} (hx : Exec.Makes R x) :
    Act.Makes R (answerValue x) := by
  have hW := hR.toAllowsWork
  refine Act.Makes.bind hx hW fun result => ?_
  cases result with
  | ok v => exact (makes_snapshot hR v).bind hW fun _ => .pure hW _
  | error f => exact .pure hW _

private theorem makes_answerOptional (v : Option Value) : Act.Makes R (answerOptional v) := by
  have hW := hR.toAllowsWork
  cases v with
  | some v => exact (makes_snapshot hR v).bind hW fun _ => .pure hW _
  | none => exact .pure hW _

private theorem makes_inspectValue (v : Value) : Act.Makes R (inspectValue v) := by
  have hW := hR.toAllowsWork
  exact .look fun _ => (makes_snapshot hR v).bind hW fun _ => .pure hW _

private theorem makes_changeClass (cls : TypeRef) (mu : Mutation) :
    Act.Makes R (changeClass cls mu.apply) := by
  have hW := hR.toAllowsWork
  refine (makes_resolveClass hW cls).bind hW fun r => ?_
  refine Act.Makes.bind (.change fun w => hR.mutate w r mu) hW fun _ => ?_
  exact Act.Makes.bind (.look fun _ => .pure hW _) hW fun _ => .pure hW _

private theorem makes_makeClass (spec : ClassSpec Body) : Act.Makes R (makeClass spec) := by
  have hW := hR.toAllowsWork
  refine (makes_currentRuntime hW).bind hW fun rt => ?_
  refine (makes_resolveMembers hW _).bind hW fun found => ?_
  -- the label goes to the class that has just been built
  rintro w a w' ⟨⟩
  exact hR.trans (hR.defineClass w rt found.1 { found.2 with name := spec.name, isHost := spec.isHost })
    (hR.label (.built rfl _) spec.label)

private theorem makes_draftClass (draft name : String) (isHost : Bool) :
    Act.Makes R (draftClass draft name isHost) := by
  have hW := hR.toAllowsWork
  refine (makes_currentRuntime hW).bind hW fun rt => ?_
  exact Act.Makes.bind (.act fun w => hR.draftClass w draft rt name isHost) hW fun _ => .pure hW _

private theorem makes_finishClass (draft : String) (spec : MembersSpec Body) :
    Act.Makes R (finishClass draft spec) := by
  have hW := hR.toAllowsWork
  refine (makes_resolveMembers hW spec).bind hW fun found => ?_
  intro w a w' h
  replace ⟨made, w₁, hmade, h⟩ := Act.bind_eq_ok h
  replace ⟨built, w₂, hbound, h⟩ := Act.bind_eq_ok h
  obtain ⟨rfl, rfl⟩ := bound_eq_ok hbound
  cases h
  have hmade : w.buildDraft draft found.1 found.2 = (some built, w₂) := Except.ok.inj hmade
  unfold World.buildDraft at hmade
  split at hmade
  · rename_i d hd
    cases hmade
    exact hR.trans (hR.finishClass hd found.1 found.2) (hR.label (.built rfl _) spec.label)
  · cases hmade

/-- A step whose own trace is put aside for the time being. -/
private theorem makes_withTrace {step : Act Answer} (h : Act.Makes R step) :
    Act.Makes R (withTrace step) := by
  have hW := hR.toAllowsWork
  have hscope (f : List Entry → List Entry) :
      Act.Makes R (updateScope fun s => { s with trace := f s.trace }) :=
    makes_updateScope hR (fun _ => rfl) fun _ => rfl
  refine .look fun w => (hscope fun _ => []).bind hW fun _ => ?_
  refine h.bind hW fun answer => .look fun w' => ?_
  exact (hscope fun _ => w.scope.trace).bind hW fun _ => .pure hW _

private theorem makes_withCategory (hperform : ∀ steps, Act.Makes R (perform steps)) (name : String)
    (steps : List Step) : Act.Makes R (withCategory perform name steps) := by
  intro w a w' h
  obtain ⟨c, replies, w₁, -, hrun, rfl⟩ := withCategory_eq_ok h
  exact hR.block c (hperform steps hrun)

private theorem makes_invokeForm (hrun : run.Makes R) (t : TableRef) (i : Nat) (form : Form)
    (receiver : Value) (args : List Value) :
    Exec.Makes R (invokeForm run t i form receiver args) := by
  have hW := hR.toAllowsWork
  have hrequest : Act.Makes R (requestFor form receiver args) := by
    unfold requestFor
    split <;> first | exact .pure hW _ | exact .stop _
  refine (Exec.Makes.lift hW hrequest).bind hW fun request => ?_
  split
  · exact makes_dispatchSafe hW hR.plan hrun t i request
  · exact makes_dispatch hW hR.plan hrun t i request

private theorem makes_dispatchStep (hrun : run.Makes R) (table : String) (slot : Nat) (form : Form)
    (receiver : Literal) (args : List Literal) (into : Option String) :
    Act.Makes R (dispatchStep run table slot form receiver args into) := by
  have hW := hR.toAllowsWork
  refine (makes_findTable hW table).bind hW fun t => (makes_eval hW receiver).bind hW fun receiver => ?_
  refine (makes_evalItems hW args).bind hW fun args => ?_
  refine Act.Makes.bind (makes_invokeForm hR hrun t slot form receiver args) hW fun result => ?_
  have hend (shown : Except Fault Snapshot) : Act.Makes R (do
      let w ← get
      pure (Answer.dispatched shown (siteView (w.slot? t slot)) (w.runtime (w.table t).runtime).stats)) :=
    .look fun _ => .pure hW _
  cases result with
  | ok v =>
    refine (makes_store hR into v).bind hW fun _ => (makes_snapshot hR v).bind hW fun s => ?_
    exact (Act.Makes.pure hW (.ok s)).bind hW hend
  | error f => exact (Act.Makes.pure hW (.error f)).bind hW hend

/-- Loading makes a table on the runtime at work, if it makes one. -/
private theorem makes_load (p : Program) :
    Act.Makes R (currentRuntime >>= fun rt => Act.ofUpdate (load rt p)) := by
  intro w a w' h
  obtain rfl : ((load w.scope.runtime p).run w).2 = w' := congrArg Prod.snd (Except.ok.inj h)
  generalize hrt : w.scope.runtime = rt
  let R' (w w' : World) : Prop := w.scope.runtime = rt → R w w' ∧ w'.scope.runtime = rt
  have hR' : AllowsSearch rt R' := by
    refine ⟨fun w h => ⟨hR.refl w, h⟩, fun h₁ h₂ h => ?_, fun w t h => ⟨?_, ?_⟩⟩
    · obtain ⟨hfirst, h⟩ := h₁ h
      obtain ⟨hsecond, h⟩ := h₂ h
      exact ⟨hR.trans hfirst hsecond, h⟩
    · exact (hR.search rt).findClass w t
    · rw [(w.sameRest_findClass rt t).scope]
      exact h
  have hload : Update.Makes R' (load rt p) := by
    unfold load
    refine Update.Makes.bind (fun w h => ?_) hR' fun owner => .look fun w => ?_
    · rw [StateT.run_modifyGet]
      dsimp only
      split
      · exact ⟨hR.refl w, h⟩
      · have hscope := (w.sameRest_defineClass rt none { name := p.manifest.owner }).scope
        exact ⟨hR.defineClass w rt none _, (congrArg Scope.runtime hscope).trans h⟩
    · dsimp only
      split
      · exact .pure hR' _
      · refine Update.Makes.bind (fun w h => ⟨?_, h⟩) hR' fun table => .pure hR' _
        exact h ▸ hR.addTable w owner _
  exact (hload w hrt).1

private theorem makes_loading {α : Type} (p : Program) {k : Except MachineError LoadedUnit → Act α}
    (hk : ∀ r, Act.Makes R (k r)) :
    Act.Makes R (currentRuntime >>= fun rt => Act.ofUpdate (load rt p) >>= k) := by
  rw [← bind_assoc]
  exact (makes_load hR p).bind hR.toAllowsWork hk

private theorem makes_loadAs (name : String) (p : Program) : Act.Makes R (loadAs name p) := by
  have hW := hR.toAllowsWork
  refine makes_loading hR p fun r => ?_
  cases r with
  | ok u =>
    exact Act.Makes.bind (makes_updateScope hR (fun _ => rfl) fun _ => rfl) hW fun _ =>
      .look fun _ => .pure hW _
  | error e =>
    exact Act.Makes.bind (makes_updateScope hR (fun _ => rfl) fun _ => rfl) hW fun _ => .pure hW _

private theorem makes_runTimes (hrun : run.Makes R) (fuel : Nat) (u : LoadedUnit) (this : Value)
    (keep : Bool) (into : Option String) (times : Nat) (m : Machine) :
    Act.Makes R (runTimes run fuel u this keep into times m) := by
  have hW := hR.toAllowsWork
  induction times generalizing m with
  | zero => exact .pure hW _
  | succ times ih =>
    unfold runTimes
    refine (Machine.makes_run hW hR.plan hrun u fuel _).bind hW fun out => ?_
    have hend (shown : Except MachineError Snapshot) : Act.Makes R (do
        let locals ← Act.ofUpdate (snapshots out.2.locals.toList)
        let next := if keep then out.2 else .start u this
        let rest ← runTimes run fuel u this keep into times next
        pure (⟨shown, locals⟩ :: rest : List RunView)) := by
      refine (makes_snapshots hR _).bind hW fun locals => ?_
      exact (ih _).bind hW fun _ => .pure hW _
    obtain ⟨result, m⟩ := out
    cases result with
    | ok v =>
      refine (makes_store hR into v).bind hW fun _ => (makes_snapshot hR v).bind hW fun s => ?_
      exact (Act.Makes.pure hW (.ok s)).bind hW hend
    | error e => exact (Act.Makes.pure hW (.error e)).bind hW hend

private theorem makes_runUnitTimes (hrun : run.Makes R) (fuel : Nat) (name : String) (this : Literal)
    (times : Nat) (keep : Bool) (into : Option String) :
    Act.Makes R (runUnitTimes run fuel name this times keep into) := by
  have hW := hR.toAllowsWork
  refine .look fun w => ?_
  split
  · exact .pure hW _
  · refine (makes_eval hW this).bind hW fun this => ?_
    exact (makes_runTimes hR hrun fuel _ this keep into times _).bind hW fun _ =>
      .look fun _ => .pure hW _

private theorem makes_compileAndRun (hrun : run.Makes R) (fuel : Nat) (owner : String)
    (stmts : List Lang.Stmt) : Act.Makes R (compileAndRun run fuel owner stmts) := by
  have hW := hR.toAllowsWork
  unfold compileAndRun
  split
  · exact .pure hW _
  refine makes_loading hR _ fun r => ?_
  cases r with
  | error e => exact .pure hW _
  | ok u =>
    refine (Machine.makes_run hW hR.plan hrun _ fuel _).bind hW fun out => ?_
    obtain ⟨result, m⟩ := out
    cases result with
    | ok v => exact (makes_snapshot hR v).bind hW fun _ => .pure hW _
    | error e => exact .pure hW _

/-- The relation bounds what a step does, if it bounds the code that it runs and the steps inside it. -/
private theorem makes_exec (hrun : run.Makes R) (hperform : ∀ steps, Act.Makes R (perform steps))
    (fuel : Nat) (step : Step) : Act.Makes R (step.exec run perform fuel) := by
  have hW := hR.toAllowsWork
  have hcls := makes_resolveClass hW
  have hval := makes_eval hW
  have hview := makes_viewClass hW
  cases step with
  | defineClass spec => exact makes_makeClass hR spec
  | beginClass draft name isHost => exact makes_draftClass hR draft name isHost
  | buildClass draft spec => exact makes_finishClass hR draft spec
  | newObject cls into =>
    refine (hcls cls).bind hW fun r => Act.Makes.bind (.act fun w => hR.newObject w r) hW fun o => ?_
    exact (makes_store hR _ _).bind hW fun _ => (makes_snapshot hR _).bind hW fun _ => .pure hW _
  | bind into value =>
    refine (hval value).bind hW fun v => (makes_store hR _ v).bind hW fun _ => ?_
    exact (makes_snapshot hR v).bind hW fun _ => .pure hW _
  | inspect value => exact (hval value).bind hW fun v => makes_inspectValue hR v
  | compare left right => exact (hval left).bind hW fun _ => (hval right).bind hW fun _ => .pure hW _
  | mapEntry value key => exact (hval value).bind hW fun _ => makes_answerOptional hR _
  | getField value name => exact (hval value).bind hW fun _ => .look fun _ => makes_answerOptional hR _
  | setField target name value =>
    refine (hval target).bind hW fun target => (hval value).bind hW fun v => ?_
    split
    · refine .look fun w => ?_
      split
      · exact Act.Makes.bind (.change fun w => hR.setField w _ _ _) hW fun _ => .pure hW _
      · exact .pure hW _
    · exact .pure hW _
  | addMethod cls method =>
    exact (makes_resolveMethod hW method).bind hW fun m =>
      (makes_changeClass hR cls (.addMethod m)).bind hW fun _ => .pure hW _
  | addConstructor cls method =>
    exact (makes_resolveMethod hW method).bind hW fun m =>
      (makes_changeClass hR cls (.addConstructor m)).bind hW fun _ => .look fun _ => .pure hW _
  | removeMethod cls name =>
    refine (hcls cls).bind hW fun r => .look fun w => ?_
    refine Act.Makes.bind (.change fun w => hR.mutate w r (.removeMethod name)) hW fun _ => ?_
    exact Act.Makes.bind (.look fun _ => .pure hW _) hW fun _ => .pure hW _
  | addField cls name =>
    exact (makes_changeClass hR cls (.addField name)).bind hW fun _ => .pure hW _
  | setStatic cls name value =>
    exact (hval value).bind hW fun v => (makes_changeClass hR cls (.setStatic name v)).bind hW
      fun _ => .pure hW _
  | staticField cls name => exact (hcls cls).bind hW fun _ => .look fun _ => makes_answerOptional hR _
  | describe cls => exact (hcls cls).bind hW fun r => (hview r).bind hW fun _ => .pure hW _
  | hasMember cls name => exact (hcls cls).bind hW fun _ => .look fun _ => .pure hW _
  | depth cls ancestor =>
    exact (hcls cls).bind hW fun _ => (makes_resolveType hW ancestor).bind hW fun _ =>
      .look fun _ => .pure hW _
  | pick cls selector args =>
    exact (hcls cls).bind hW fun _ => (makes_evalItems hW args).bind hW fun _ =>
      (makes_select hW _ _ _).bind hW fun _ => .pure hW _
  | invokePicked cls selector receiver args =>
    refine (hcls cls).bind hW fun _ => (hval receiver).bind hW fun _ => ?_
    refine (makes_evalItems hW args).bind hW fun _ => (makes_select hW _ _ _).bind hW fun found => ?_
    cases found with
    | some m => exact makes_answerValue hR (m.makes_invoke hW hrun _ _)
    | none => exact .pure hW _
  | sameSignature left right =>
    exact (makes_resolveMethod hW left).bind hW fun _ => (makes_resolveMethod hW right).bind hW fun _ =>
      .pure hW _
  | property cls name | staticProperty cls name =>
    exact (hcls cls).bind hW fun _ => .look fun _ => .pure hW _
  | setter cls name value =>
    exact (hcls cls).bind hW fun _ => (hval value).bind hW fun _ => .look fun _ => .pure hW _
  | runHook cls receiver name args =>
    refine (hcls cls).bind hW fun _ => (hval receiver).bind hW fun _ => ?_
    refine (makes_evalItems hW args).bind hW fun _ => .look fun w => ?_
    split
    · exact makes_answerValue hR (hrun _ _)
    · exact .pure hW _
  | distance param arg =>
    exact (makes_resolveParam hW param).bind hW fun _ => (hval arg).bind hW fun _ =>
      .look fun _ => .pure hW _
  | lookup name => exact (makes_currentRuntime hW).bind hW fun _ => .look fun _ => .pure hW _
  | findClass type =>
    refine (makes_currentRuntime hW).bind hW fun _ => (makes_resolveType hW type).bind hW fun _ => ?_
    refine (makes_findClass hW _ _).bind hW fun found => ?_
    cases found with
    | some r => exact (hview r).bind hW fun _ => .pure hW _
    | none => exact .pure hW _
  | classCount => exact .look fun _ => (makes_currentRuntime hW).bind hW fun _ => .pure hW _
  | classOf value =>
    refine (hval value).bind hW fun v => (makes_currentRuntime hW).bind hW fun rt => ?_
    refine Act.Makes.bind (.ofUpdate (makes_classOrFault (hW.search rt) v)) hW fun found => ?_
    cases found with
    | ok r => exact (hview r).bind hW fun _ => .pure hW _
    | error f => exact .pure hW _
  | roots =>
    refine (makes_currentRuntime hW).bind hW fun rt => ?_
    refine Act.Makes.bind (.act (makes_rootClass (hW.search rt) rfl)) hW fun object => ?_
    refine Act.Makes.bind (.act (makes_rootClass (hW.search rt) rfl)) hW fun null => ?_
    exact (hview object).bind hW fun _ => (hview null).bind hW fun _ => .pure hW _
  | label cls name =>
    intro w a w' h
    obtain ⟨r, w₁, hr, h⟩ := Act.bind_eq_ok h
    have hlabel := hR.label (named_of_resolveClass hr) name
    cases h
    exact hR.trans (hcls cls hr) hlabel
  | replaceClass cls =>
    intro w a w' h
    obtain ⟨rt, w₀, hrt, h⟩ := Act.bind_eq_ok h
    obtain ⟨r, w₁, hr, h⟩ := Act.bind_eq_ok h
    obtain ⟨previous, w₂, hreplace, h⟩ := Act.bind_eq_ok h
    obtain rfl : (w₁.replaceClass rt r).2 = w₂ := congrArg Prod.snd (Except.ok.inj hreplace)
    have hprevious : Act.Makes R (previous.mapM viewClass) := by
      cases previous with
      | none => exact .pure hW _
      | some p => exact (hview p).bind hW fun _ => .pure hW _
    have hend := hprevious.bind hW fun views => (hview r).bind hW fun view =>
      .pure hW (Answer.replaced views (previous = some r) view)
    have hfirst := hR.trans (makes_currentRuntime hW hrt) (hcls cls hr)
    exact hR.trans (hR.trans hfirst (hR.replaceClass (named_of_resolveClass hr) rt)) (hend h)
  | newRuntime config =>
    rintro w a w' ⟨⟩
    have hlt : w.runtimes.size < (w.newRuntime config).2.runtimes.size := by simp [World.newRuntime]
    exact hR.trans (hR.newRuntime w config) (hR.switch hlt)
  | switchRuntime index =>
    intro w a w' h
    obtain ⟨_, _, ⟨⟩, h⟩ := Act.bind_eq_ok h
    split at h
    · rename_i hlt
      cases h
      exact hR.switch hlt
    · cases h
  | stats => exact .look fun _ => (makes_currentRuntime hW).bind hW fun _ => .pure hW _
  | newTable name owner sites =>
    refine (makes_resolveType hW owner).bind hW fun owner => ?_
    rintro w a w' ⟨⟩
    exact hR.trans (hR.addTable w owner sites) (hR.rescope _ _ rfl rfl)
  | call table slot form receiver args into =>
    exact makes_dispatchStep hR hrun table slot form receiver args into
  | slots table => exact (makes_findTable hW table).bind hW fun _ => .look fun _ => .pure hW _
  | defineCategory name methods =>
    refine Act.Makes.bind (.mapM hW (fun e => ?_) methods) hW fun entries => ?_
    · exact (makes_resolveType hW e.1).bind hW fun _ => (makes_resolveMethod hW e.2).bind hW fun _ =>
        .pure hW _
    · exact Act.Makes.bind (makes_updateScope hR (fun _ => rfl) fun _ => rfl) hW fun _ => .pure hW _
  | useCategory name steps => exact makes_withCategory hR hperform name steps
  | load name owner stmts =>
    simp only [Step.exec]
    split
    · exact Act.Makes.bind (makes_updateScope hR (fun _ => rfl) fun _ => rfl) hW fun _ => .pure hW _
    · exact makes_loadAs hR name _
  | loadRaw name owner code constants locals classes sites =>
    exact (makes_evalItems hW constants).bind hW fun _ => makes_loadAs hR name _
  | runUnit name this times keep into => exact makes_runUnitTimes hR hrun fuel name this times keep into
  | runProgram owner stmts => exact makes_compileAndRun hR hrun fuel owner stmts

private theorem makes_evalWith {eval : Body → Frame → Exec Fault Value}
    (heval : ∀ body frame, Exec.Makes R (eval body frame))
    (hperform : ∀ steps, Act.Makes R (perform steps)) (frame : Frame) (body : Body) :
    Exec.Makes R (body.evalWith eval perform frame) := by
  have hW := hR.toAllowsWork
  have halloc := Exec.Makes.lift (ε := Fault) hW (makes_allocate hW)
  have hall (parts : List Body) := Exec.Makes.mapM hW (fun b => heval b frame) parts
  cases body with
  | const v => exact .lift hW (makes_eval hW v)
  | receiver | arg | calledName => exact .pure hW _
  | args => exact halloc.bind hW fun _ => .pure hW _
  | list items => exact (hall items).bind hW fun _ => halloc.bind hW fun _ => .pure hW _
  | seq parts => exact (hall parts).bind hW fun _ => .pure hW _
  | cond test ifTrue otherwise =>
    refine (heval test frame).bind hW fun v => ?_
    split
    · exact heval ifTrue frame
    · exact heval otherwise frame
  | fail fault => exact .throw hW _
  | getField name =>
    simp only [Body.evalWith]
    split
    · exact .look fun _ => .pure hW _
    · exact .pure hW _
  | setField name value =>
    refine (heval value frame).bind hW fun v => ?_
    split
    · refine .look fun w => ?_
      split
      · exact (Exec.Makes.setField hW _ _ _).bind hW fun _ => .pure hW _
      · exact .pure hW _
    · exact .pure hW _
  | trace value =>
    refine (heval value frame).bind hW fun v => ?_
    refine (Exec.Makes.lift hW (makes_snapshot hR v)).bind hW fun s => ?_
    exact (Exec.Makes.lift hW (makes_addTrace hR _)).bind hW fun _ => .pure hW _
  | invoke form table slot target operands =>
    refine (heval target frame).bind hW fun v => (hall operands).bind hW fun vs => ?_
    refine (Exec.Makes.lift hW (makes_findTable hW table)).bind hW fun t => ?_
    exact makes_invokeForm hR (Runner.makes_ofScripts hW heval) t slot form v vs
  | perform steps =>
    refine (Exec.Makes.lift hW (hperform steps)).bind hW fun replies => ?_
    refine (Exec.Makes.lift hW (.forM hW (fun r => ?_) replies)).bind hW fun _ => .pure hW _
    exact makes_addTrace hR _

end Stepping

/-- The relation bounds whatever bodies and steps do, however deep they nest. -/
theorem makes_session (hR : AllowsSteps R) (fuel : Nat) :
    (∀ body frame, Exec.Makes R (evalBody fuel body frame))
      ∧ ∀ steps, Act.Makes R (performSteps fuel steps) := by
  have hW := hR.toAllowsWork
  induction fuel with
  | zero => exact ⟨fun _ _ => .lift hW (.stop _), fun _ => .stop _⟩
  | succ fuel ih =>
    obtain ⟨heval, hperform⟩ := ih
    refine ⟨fun body frame => ?_, fun steps => ?_⟩
    · rw [evalBody]
      exact makes_evalWith hR heval hperform frame body
    · rw [performSteps]
      refine Act.Makes.mapM hW (fun step => makes_withTrace hR ?_) steps
      exact makes_exec hR (Runner.makes_ofScripts hW heval) hperform fuel step

end Script

end CachedDispatch
