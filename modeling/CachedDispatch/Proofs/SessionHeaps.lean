import CachedDispatch.Proofs.Conduct
import CachedDispatch.Proofs.MachineHeaps

/-!
The values of sessions. The bodies of methods and the steps of scripts come to values of a heap that grows at
most. So all values that a session holds in the end are in one heap, also those in its history.
-/
namespace CachedDispatch

open World Value

variable {α β ε : Type} {heap : Heap} {P : Heap → α → Prop} {Q : Heap → β → Prop}

private theorem entriesInHeap_toClass {members : ClassMembers} (h : EntriesInHeap heap members.statics)
    (id : TypeId) (ancestors : List ClassRef) :
    EntriesInHeap heap (members.toClass id ancestors).staticFields := by
  have hfields (names : List String) (c : Class) :
      (names.foldl Class.putField c).staticFields = c.staticFields := by
    induction names generalizing c with
    | nil => rfl
    | cons name names ih =>
      rw [List.foldl_cons, ih, Class.putField]
      split <;> rfl
  have hstatics (es : List (String × Value)) (hes : EntriesInHeap heap es) (c : Class)
      (hc : EntriesInHeap heap c.staticFields) :
      EntriesInHeap heap (es.foldl (fun c e => c.putStatic e.1 e.2) c).staticFields := by
    induction es generalizing c with
    | nil => exact hc
    | cons e es ih => exact ih hes.2 _ (hc.set e.1 hes.1)
  have hmethods (ms : List Method) (c : Class) :
      (ms.foldl Class.declareMethod c).staticFields = c.staticFields := by
    induction ms generalizing c with
    | nil => rfl
    | cons m ms ih =>
      rw [List.foldl_cons, ih, Class.declareMethod]
      split
      · rfl
      · rw [Class.putMethod]
        dsimp only
        split <;> rfl
  unfold ClassMembers.toClass
  rw [hmethods]
  refine hstatics _ h _ ?_
  rw [hfields]
  trivial

private def Mutation.InHeap (heap : Heap) : Mutation → Prop
  | .setStatic _ v => v.InHeap heap
  | _ => True

private theorem Mutation.InHeap.mono {mu : Mutation} {heap' : Heap} (hg : heap.Grows heap')
    (h : mu.InHeap heap) : mu.InHeap heap' := by
  cases mu with
  | setStatic name v => exact Value.InHeap.mono hg h
  | _ => trivial

private theorem entriesInHeap_mutation {c : Class} (mu : Mutation) (hmu : mu.InHeap heap)
    (hc : EntriesInHeap heap c.staticFields) : EntriesInHeap heap (mu.apply c).staticFields := by
  cases mu with
  | addMethod m =>
    simp only [Mutation.apply, Class.addMethod, Class.putMethod]
    split <;> exact hc
  | addConstructor m => exact hc
  | removeMethod name =>
    simp only [Mutation.apply, Class.removeMethod]
    split <;> exact hc
  | addField name =>
    simp only [Mutation.apply, Class.addField, Class.putField]
    split <;> exact hc
  | setStatic name v =>
    simp only [Mutation.apply, Class.setStatic]
    split <;> exact hc.set name hmu

namespace World.Stocked

variable {w : World}

private theorem updateRegistry (h : w.Stocked heap) (rt : Nat) (f : Registry → Registry) :
    (w.updateRegistry rt f).Stocked heap :=
  h.of_eq (Nat.le_refl _) rfl (fun _ => rfl) rfl rfl rfl

private theorem register (h : w.Stocked heap) (rt : Nat) (r : ClassRef) :
    (w.register rt r).Stocked heap :=
  h.updateRegistry rt (·.register (w.cls r).name (w.cls r).id r)

private theorem beginClass (h : w.Stocked heap) (rt : Nat) (name : String) (isHost : Bool) :
    (w.beginClass rt name isHost).2.Stocked heap := by
  have hroot : (w.rootClass rt .object).2.Stocked heap :=
    (makes_rootClass (allowsSearch_keepsStock rt) (b := .object) rfl) w heap h
  exact hroot.updateRegistry rt Registry.handOut

private theorem buildClass (h : w.Stocked heap) (d : Draft) (parent : Option ClassRef)
    {members : ClassMembers} (hm : EntriesInHeap heap members.statics) :
    (w.buildClass d parent members).2.Stocked heap := by
  let named : ClassMembers := { members with name := d.name, isHost := d.isHost }
  have hnamed : EntriesInHeap heap named.statics := hm
  have hadded := h.addClass (entriesInHeap_toClass hnamed d.id
    (parent.getD d.root :: (w.cls (parent.getD d.root)).ancestors))
  exact hadded.register d.runtime ⟨w.classes.size⟩

private theorem defineClass (h : w.Stocked heap) (rt : Nat) (parent : Option ClassRef)
    {members : ClassMembers} (hm : EntriesInHeap heap members.statics) :
    (w.defineClass rt parent members).2.2.Stocked heap :=
  (h.beginClass rt members.name members.isHost).buildClass _ parent hm

private theorem withDrafts (h : w.Stocked heap) (drafts : List (String × Draft)) :
    World.Stocked heap { w with drafts } :=
  h.of_eq (Nat.le_refl _) rfl (fun _ => rfl) rfl rfl rfl

private theorem buildDraft (h : w.Stocked heap) (key : String) (parent : Option ClassRef)
    {members : ClassMembers} (hm : EntriesInHeap heap members.statics) :
    (w.buildDraft key parent members).2.Stocked heap := by
  unfold World.buildDraft
  split
  · exact (h.buildClass _ parent hm).withDrafts _
  · exact h

private theorem replaceClass (h : w.Stocked heap) (rt : Nat) (r : ClassRef) :
    (w.replaceClass rt r).2.Stocked heap := by
  have hregistered := h.register rt r
  simp only [World.replaceClass]
  split
  · exact hregistered.updateClass _ fun hs => hs
  · exact hregistered

private theorem newRuntime (h : w.Stocked heap) (config : Config) :
    (w.newRuntime config).2.Stocked heap := by
  refine ⟨h.bounded, h.fields, fun r => ?_, h.stored, h.constants, h.events⟩
  rw [cls_newRuntime]
  split
  · exact h.statics r
  · rcases BuiltinType.all[r.idx - w.classes.size]? with _ | b
    · trivial
    · cases b <;> trivial

private theorem rescope (h : w.Stocked heap) {scope : Scope} (hstored : EntriesInHeap heap scope.stored)
    (hunits : ∀ e ∈ scope.units, ItemsInHeap heap e.2.program.constants.toList) :
    { w with scope }.Stocked heap :=
  ⟨h.bounded, h.fields, h.statics, hstored, hunits, h.events⟩

end World.Stocked

/-- One computation after the other, for all elements of a list. -/
private theorem Act.Stocks.mapM
    (hmono : ∀ {heap heap' : Heap} b, heap.Grows heap' → Q heap b → Q heap' b) {f : α → Act β}
    (hf : ∀ heap a, Act.Stocks heap (f a) Q) (as : List α) :
    Act.Stocks heap (as.mapM f) fun heap' bs => ∀ b ∈ bs, Q heap' b := by
  induction as generalizing heap with
  | nil => exact .pure fun _ h => absurd h List.not_mem_nil
  | cons a as ih =>
    rw [List.mapM_cons]
    refine (hf heap a).bind fun heap₁ b _ hb => ih.bind fun heap₂ bs hg hbs => .pure fun x hx => ?_
    rcases List.mem_cons.mp hx with rfl | hx
    · exact hmono _ hg hb
    · exact hbs x hx

/-- What comes out is put into a report. -/
private theorem Act.Stocks.then_pure {x : Act α} (hx : Act.Stocks heap x P) {f : α → β} :
    Act.Stocks heap (x >>= fun a => Pure.pure (f a)) Anything :=
  hx.bind fun _ _ _ _ => .pure trivial

namespace Script

private theorem stocks_bound (name : String) {found : Option α} (h : ∀ a, found = some a → P heap a) :
    Act.Stocks heap (bound name found) P := by
  cases found with
  | some a => exact .pure (h a rfl)
  | none => exact .stop _

private theorem stocks_currentRuntime :
    Act.Stocks heap currentRuntime Anything := .look fun _ _ => .pure trivial

private theorem stocks_resolveType (r : TypeRef) : Act.Stocks heap r.resolve Anything := by
  cases r with
  | id n => exact .pure trivial
  | named name =>
    refine .look fun w _ => ?_
    split
    · exact .pure trivial
    · exact stocks_bound name fun _ _ => trivial

private theorem stocks_findClass (rt : Nat) (t : TypeId) :
    Act.Stocks heap (modifyGet (·.findClass rt t) : Act (Option ClassRef)) Anything :=
  .act fun _ hw => ⟨heap, .refl _, hw.findClass rt t, trivial⟩

private theorem stocks_resolveClass (r : TypeRef) : Act.Stocks heap r.resolveClass Anything := by
  refine .look fun w _ => ?_
  dsimp only
  split
  · exact .pure trivial
  · exact (stocks_resolveType r).bind fun _ t _ _ => (stocks_findClass _ t).bind fun _ _ _ _ =>
      stocks_bound _ fun _ _ => trivial

private theorem stocks_resolveParam (p : ParamRef) : Act.Stocks heap p.resolve Anything := by
  cases p with
  | any => exact .pure trivial
  | exact r => exact (stocks_resolveType r).then_pure

mutual

/-- A literal stands for a value of the heap, where what it allocates is new. -/
private theorem stocks_eval {heap : Heap} : (l : Literal) → Act.Stocks heap l.eval Value.InHeap
  | .null | .bool _ | .int _ | .float _ | .text _ => .pure trivial
  | .list items => (stocks_evalItems items).bind fun _ _ _ hitems =>
      (Act.Stocks.allocated fun _ hn => inHeap_put_list hn hitems).bind fun _ _ _ hn => .pure hn
  | .map entries => (stocks_evalEntries entries).bind fun _ _ _ hentries =>
      (Act.Stocks.allocated fun _ hn => inHeap_put_map hn hentries).bind fun _ _ _ hn => .pure hn
  | .classLiteral r => (stocks_resolveType r).bind fun _ _ _ _ => .pure trivial
  | .wrapper l r => (stocks_eval l).bind fun _ _ _ hv => (stocks_resolveType r).bind fun _ t hg _ =>
      (Act.Stocks.allocated fun _ hn => inHeap_put_wrapper hn (hv.mono hg) t).bind fun _ _ _ hn => .pure hn
  | .host r label => (stocks_resolveType r).bind fun _ t _ _ =>
      (Act.Stocks.allocated fun _ _ => inHeap_put_host t label).bind fun _ _ _ hn => .pure hn
  | .stored name => .look fun _ hw => stocks_bound name fun _ hv => hw.stored.get? hv

private theorem stocks_evalItems {heap : Heap} :
    (ls : List Literal) → Act.Stocks heap (evalItems ls) ItemsInHeap
  | [] => .pure trivial
  | l :: ls => (stocks_eval l).bind fun _ _ _ hv => (stocks_evalItems ls).bind fun _ _ hg hvs =>
      .pure ⟨hv.mono hg, hvs⟩

private theorem stocks_evalEntries {heap : Heap} : (es : List (String × Literal)) →
    Act.Stocks heap (evalEntries es) EntriesInHeap
  | [] => .pure trivial
  | (_, l) :: es => (stocks_eval l).bind fun _ _ _ hv => (stocks_evalEntries es).bind fun _ _ hg hes =>
      .pure ⟨hv.mono hg, hes⟩

end

private theorem stocks_resolveMethod (m : MethodSpec Body) : Act.Stocks heap m.resolve Anything :=
  (Act.Stocks.mapM (fun _ _ h => h) (fun _ => stocks_resolveParam) m.params).then_pure

private theorem stocks_resolveLookup (l : LookupSpec) : Act.Stocks heap l.resolve Anything := by
  refine (stocks_resolveType l.sender).bind fun heap' _ _ _ => ?_
  have hcurrent : Act.Stocks heap' (l.current.mapM TypeRef.resolve) Anything := by
    cases l.current with
    | none => exact .pure trivial
    | some r => exact (stocks_resolveType r).then_pure
  exact hcurrent.then_pure

private theorem stocks_findTable (name : String) : Act.Stocks heap (findTable name) Anything :=
  .look fun _ _ => stocks_bound name fun _ _ => trivial

private theorem stocks_viewClass (r : ClassRef) : Act.Stocks heap (viewClass r) Anything :=
  .look fun _ _ => .pure trivial

private theorem stocks_select (r : ClassRef) (selector : Selector) (args : List Value) :
    Act.Stocks heap (select r selector args) Anything := by
  cases selector with
  | constructor => exact .look fun _ _ => .pure trivial
  | method name lookup =>
    exact (stocks_resolveLookup lookup).bind fun _ _ _ _ => .look fun _ _ => .pure trivial

/-- What is stored and what is loaded stays the same. -/
private theorem stocks_updateScope {f : Scope → Scope} (hstored : ∀ s, (f s).stored = s.stored)
    (hunits : ∀ s, (f s).units = s.units) : Act.Stocks heap (updateScope f) Anything :=
  .change fun w hw => hw.rescope ((hstored w.scope).symm ▸ hw.stored) ((hunits w.scope).symm ▸ hw.constants)

private theorem stocks_store (into : Option String) {v : Value} (hv : v.InHeap heap) :
    Act.Stocks heap (store into v) Anything := by
  cases into with
  | some name => exact .change fun _ hw => hw.rescope (hw.stored.set name hv) hw.constants
  | none => exact .pure trivial

private theorem stocks_addTrace (e : Entry) : Act.Stocks heap (addTrace e) Anything :=
  stocks_updateScope (fun _ => rfl) fun _ => rfl

private theorem stocks_snapshot (v : Value) : Act.Stocks heap (Act.ofUpdate (snapshot v)) Anything :=
  .ofUpdate fun _ _ hw => hw.rescope hw.stored hw.constants

private theorem stocks_snapshots (vs : List Value) :
    Act.Stocks heap (Act.ofUpdate (snapshots vs)) Anything := by
  induction vs generalizing heap with
  | nil => exact .pure trivial
  | cons v vs ih =>
    rw [snapshots, List.mapM_cons]
    exact .ofUpdate_bind (stocks_snapshot v) fun _ _ _ _ => .ofUpdate_bind ih fun _ _ _ _ => .pure trivial

private theorem stocks_answerValue {x : Exec Fault Value} (hx : Exec.Stocks heap x Value.InHeap) :
    Act.Stocks heap (answerValue x) Anything := by
  refine Act.Stocks.bind hx fun _ result _ _ => ?_
  cases result with
  | ok v => exact (stocks_snapshot v).then_pure
  | error f => exact .pure trivial

private theorem stocks_answerOptional (v : Option Value) :
    Act.Stocks heap (answerOptional v) Anything := by
  cases v with
  | some v => exact (stocks_snapshot v).then_pure
  | none => exact .pure trivial

private theorem stocks_inspectValue (v : Value) : Act.Stocks heap (inspectValue v) Anything :=
  .look fun _ _ => (stocks_snapshot v).then_pure

private theorem stocks_changeClass (cls : TypeRef) (mu : Mutation) (hmu : mu.InHeap heap) :
    Act.Stocks heap (changeClass cls mu.apply) Anything := by
  intro w hw a w' h
  obtain ⟨r, w₁, hr, h⟩ := Act.bind_eq_ok h
  obtain ⟨heap₁, hg, hw₁, -⟩ := stocks_resolveClass cls w hw r w₁ hr
  cases h
  exact ⟨heap₁, hg, hw₁.updateClass r (entriesInHeap_mutation mu (hmu.mono hg)), trivial⟩

private theorem stocks_resolveMembers (spec : MembersSpec Body) :
    Act.Stocks heap spec.resolve fun heap found => EntriesInHeap heap found.2.statics := by
  have hparent : Act.Stocks heap (spec.parent.mapM TypeRef.resolveClass) Anything := by
    cases spec.parent with
    | none => exact .pure trivial
    | some r => exact (stocks_resolveClass r).then_pure
  refine hparent.bind fun heap₁ parent _ _ => ?_
  refine Act.Stocks.bind (Act.Stocks.mapM (Q := fun heap e => e.2.InHeap heap) (fun _ hg hv => hv.mono hg)
    (fun heap e => ?_) spec.statics) fun heap₂ statics _ hstatics => ?_
  · exact (stocks_eval e.2).bind fun _ _ _ hv => .pure hv
  refine (Act.Stocks.mapM (Q := Anything) (fun _ _ h => h) (fun _ => stocks_resolveMethod) spec.methods).bind
    fun heap₃ methods hg _ => ?_
  exact .pure (entriesInHeap_iff.mpr fun e he => (hstatics e he).mono hg)

private theorem stocks_setLabel (name : String) (r : ClassRef) :
    Act.Stocks heap (setLabel name r) Anything :=
  stocks_updateScope (fun _ => rfl) fun _ => rfl

private theorem stocks_makeClass (spec : ClassSpec Body) :
    Act.Stocks heap (makeClass spec) Anything := by
  refine stocks_currentRuntime.bind fun heap₀ rt _ _ => ?_
  refine (stocks_resolveMembers spec.toMembersSpec).bind fun heap₁ ⟨parent, members⟩ _ hm => ?_
  refine Act.Stocks.bind (P := Anything) (.act fun w hw => ⟨heap₁, .refl _, ?_, trivial⟩)
    fun _ ⟨id, r⟩ _ _ => (stocks_setLabel _ r).then_pure
  exact hw.defineClass rt parent hm

private theorem stocks_draftClass (draft name : String) (isHost : Bool) :
    Act.Stocks heap (draftClass draft name isHost) Anything := by
  refine stocks_currentRuntime.bind fun heap₀ rt _ _ => ?_
  refine Act.Stocks.then_pure (P := Anything) (.act fun w hw => ⟨heap₀, .refl _, ?_, trivial⟩)
  exact (hw.beginClass rt name isHost).withDrafts _

private theorem stocks_finishClass (draft : String) (spec : MembersSpec Body) :
    Act.Stocks heap (finishClass draft spec) Anything := by
  refine (stocks_resolveMembers spec).bind fun heap₁ ⟨parent, members⟩ _ hm => ?_
  refine Act.Stocks.bind (P := Anything) (.act fun w hw => ⟨heap₁, .refl _, ?_, trivial⟩)
    fun heap₂ made _ _ => ?_
  · exact hw.buildDraft draft parent hm
  · exact Act.Stocks.bind (stocks_bound (P := Anything) draft fun _ _ => trivial)
      fun _ ⟨id, r⟩ _ _ => (stocks_setLabel _ r).then_pure

private theorem stocks_withTrace {step : Act Answer} (h : ∀ heap, Act.Stocks heap step Anything) :
    Act.Stocks heap (withTrace step) Anything := by
  have hscope (heap : Heap) (f : List Entry → List Entry) :
      Act.Stocks heap (updateScope fun s => { s with trace := f s.trace }) Anything :=
    stocks_updateScope (fun _ => rfl) fun _ => rfl
  refine .look fun w _ => (hscope heap fun _ => []).bind fun heap₁ _ _ _ => ?_
  refine (h heap₁).bind fun heap₂ answer _ _ => .look fun w' _ => ?_
  exact (hscope heap₂ fun _ => w.scope.trace).then_pure

private theorem stocks_withCategory {perform : List Step → Act (List Reply)}
    (hperform : ∀ heap steps, Act.Stocks heap (perform steps) Anything) (name : String) (steps : List Step) :
    Act.Stocks heap (withCategory perform name steps) Anything := by
  intro w hw a w' h
  obtain ⟨c, replies, w₁, -, hrun, rfl⟩ := withCategory_eq_ok h
  have hpushed : World.Stocked heap { w with active := c :: w.active } :=
    hw.of_eq (Nat.le_refl _) rfl (fun _ => rfl) rfl rfl rfl
  obtain ⟨heap₁, hg, hw₁, -⟩ := hperform heap steps _ hpushed replies w₁ hrun
  exact ⟨heap₁, hg, hw₁.of_eq (Nat.le_refl _) rfl (fun _ => rfl) rfl rfl rfl, trivial⟩

/-- A unit that is loaded has the program that it was loaded from. -/
private theorem stocks_load (rt : Nat) (p : Program) :
    Act.Stocks heap (Act.ofUpdate (load rt p)) fun _ => Gives fun u => u.program = p := by
  unfold load
  refine Act.Stocks.ofUpdate_bind (P := Anything) (.act fun w hw => ⟨heap, .refl _, ?_, trivial⟩)
    fun heap₁ owner _ _ => .ofUpdate_look fun w hw => ?_
  · rw [StateT.run_modifyGet]
    dsimp only
    split
    · exact hw
    · exact hw.defineClass rt none trivial
  · dsimp only
    split
    · exact .pure (.throw _)
    · refine Act.Stocks.ofUpdate_bind (P := Anything) (.act fun w hw => ⟨heap₁, .refl _, ?_, trivial⟩)
        fun _ _ _ _ => .pure (.pure rfl)
      exact hw.of_eq (Nat.le_refl _) rfl (fun _ => rfl) rfl rfl rfl

/-- A name loses its program. -/
private theorem stocks_unload (name : String) :
    Act.Stocks heap (updateScope fun s => { s with units := Assoc.erase s.units name }) Anything :=
  .change fun _ hw => hw.rescope hw.stored fun e he => hw.constants e (List.mem_filter.mp he).1

private theorem stocks_loadAs (name : String) {p : Program} (hp : ItemsInHeap heap p.constants.toList) :
    Act.Stocks heap (loadAs name p) Anything := by
  refine stocks_currentRuntime.bind fun heap₁ rt hg₁ _ => ?_
  refine (stocks_load rt p).bind fun heap₂ result hg₂ h => ?_
  replace hp := hp.mono (hg₁.trans hg₂)
  cases result with
  | ok u =>
    have hloaded : Act.Stocks heap₂ (updateScope fun s => { s with units := Assoc.set s.units name u })
        Anything := by
      refine .change fun w hw => hw.rescope hw.stored fun e he => ?_
      rcases Assoc.mem_of_mem_set he with he | rfl
      · exact hw.constants e he
      · exact (h u rfl).symm ▸ hp
    exact hloaded.bind fun _ _ _ _ => .look fun _ _ => .pure trivial
  | error e => exact (stocks_unload name).then_pure

private theorem itemsInHeap_compile {owner : String} {stmts : List Lang.Stmt} {p : Program}
    (h : Lang.compile owner stmts = .ok p) : ItemsInHeap heap p.constants.toList := by
  unfold Lang.compile at h
  rcases hrun : (Lang.compileStmts 0 #[] stmts).run { manifest := { owner } } with e | ⟨code, t⟩ <;>
    rw [hrun] at h <;> cases h
  refine itemsInHeap_iff.mpr fun v hv => ?_
  rw [Array.toList_map] at hv
  obtain ⟨c, -, rfl⟩ := List.mem_map.mp hv
  cases c <;> trivial

private theorem inHeap_start (u : LoadedUnit) (this : Value) (hthis : this.InHeap heap) :
    (Machine.start u this).InHeap heap := by
  refine ⟨trivial, itemsInHeap_iff.mpr fun v hv => ?_, hthis⟩
  rw [Machine.start, Array.toList_replicate] at hv
  rw [List.eq_of_mem_replicate hv]
  trivial

section Stepping

variable {run : Runner} (hrun : run.Stocks)
include hrun

private theorem stocks_invokeForm (t : TableRef) (i : Nat) (form : Form) {receiver : Value}
    {args : List Value} (hr : receiver.InHeap heap) (ha : ItemsInHeap heap args) :
    Exec.Stocks heap (invokeForm run t i form receiver args) Value.InHeap := by
  have hrequest : Act.Stocks heap (requestFor form receiver args) fun heap' request =>
      request.InHeap heap' := by
    unfold requestFor
    split
    · exact .pure ⟨hr, ha⟩
    · exact .pure ⟨hr, ha⟩
    · exact .pure ⟨hr, ha⟩
    · exact .pure ha
    · exact .pure ha
    · exact .pure hr
    · exact .pure hr
    · exact .stop _
  refine Exec.Stocks.bind (.lift hrequest) fun heap' request _ h => ?_
  split
  · exact stocks_dispatchSafe hrun t i h
  · exact stocks_dispatch hrun t i h

private theorem stocks_dispatchStep (table : String) (slot : Nat) (form : Form) (receiver : Literal)
    (args : List Literal) (into : Option String) :
    Act.Stocks heap (dispatchStep run table slot form receiver args into) Anything := by
  refine (stocks_findTable table).bind fun _ t _ _ => (stocks_eval receiver).bind fun _ receiver _ hr => ?_
  refine (stocks_evalItems args).bind fun heap₁ args hg ha => ?_
  refine Act.Stocks.bind (stocks_invokeForm hrun t slot form (hr.mono hg) ha) fun heap₂ result _ h => ?_
  have hend (heap : Heap) (shown : Except Fault Snapshot) : Act.Stocks heap (do
      let w ← get
      pure (Answer.dispatched shown (siteView (w.slot? t slot)) (w.runtime (w.table t).runtime).stats))
      Anything := .look fun _ _ => .pure trivial
  cases result with
  | ok v =>
    refine (stocks_store into (h v rfl)).bind fun _ _ _ _ => (stocks_snapshot v).bind fun heap₃ s _ _ => ?_
    exact (Act.Stocks.pure (P := Anything) trivial).bind fun heap shown _ _ => hend heap shown
  | error f => exact (Act.Stocks.pure (P := Anything) trivial).bind fun heap shown _ _ => hend heap shown

private theorem stocks_runTimes (fuel : Nat) {u : LoadedUnit}
    (hu : ItemsInHeap heap u.program.constants.toList) {this : Value} (hthis : this.InHeap heap)
    (keep : Bool) (into : Option String) (times : Nat) {m : Machine} (hm : m.InHeap heap) :
    Act.Stocks heap (runTimes run fuel u this keep into times m) Anything := by
  induction times generalizing heap m with
  | zero => exact .pure trivial
  | succ times ih =>
    unfold runTimes
    have hrestart : m.restart.InHeap heap := ⟨trivial, hm.2⟩
    refine (Machine.stocks_run hrun hu hrestart fuel).bind fun heap₁ out hg₁ h => ?_
    obtain ⟨result, m'⟩ := out
    -- the report, and the runs that follow
    have hend (heap₂ : Heap) (hg₂ : heap₁.Grows heap₂) (shown : Except MachineError Snapshot) :
        Act.Stocks heap₂ (do
          let locals ← Act.ofUpdate (snapshots m'.locals.toList)
          let next := if keep then m' else .start u this
          let rest ← runTimes run fuel u this keep into times next
          pure (⟨shown, locals⟩ :: rest : List RunView)) Anything := by
      refine (stocks_snapshots _).bind fun heap₃ locals hg₃ _ => ?_
      have hg := (hg₁.trans hg₂).trans hg₃
      have hnext : Machine.InHeap heap₃ (if keep then m' else .start u this) := by
        split
        · exact h.2.mono (hg₂.trans hg₃)
        · exact inHeap_start u this (hthis.mono hg)
      exact (ih (hu.mono hg) (hthis.mono hg) hnext).then_pure
    cases result with
    | ok v =>
      refine (stocks_store into (h.1 v rfl)).bind fun _ _ hg₂ _ => ?_
      refine (stocks_snapshot v).bind fun heap₃ s hg₃ _ => ?_
      exact (Act.Stocks.pure (P := Anything) trivial).bind fun heap₄ shown hg₄ _ =>
        hend heap₄ ((hg₂.trans hg₃).trans hg₄) shown
    | error e =>
      exact (Act.Stocks.pure (P := Anything) trivial).bind fun heap₂ shown hg₂ _ => hend heap₂ hg₂ shown

private theorem stocks_runUnitTimes (fuel : Nat) (name : String) (this : Literal) (times : Nat)
    (keep : Bool) (into : Option String) :
    Act.Stocks heap (runUnitTimes run fuel name this times keep into) Anything := by
  refine .look fun w hw => ?_
  split
  · exact .pure trivial
  · rename_i u hu
    obtain ⟨e, he, rfl⟩ := Option.map_eq_some_iff.mp hu
    have hconstants := hw.constants e (List.mem_of_find?_eq_some he)
    refine (stocks_eval this).bind fun _ this hg hthis => ?_
    refine Act.Stocks.bind (stocks_runTimes hrun fuel (hconstants.mono hg) hthis keep into times
      (inHeap_start e.2 this hthis)) fun _ _ _ _ => .look fun _ _ => .pure trivial

private theorem stocks_compileAndRun (fuel : Nat) (owner : String) (stmts : List Lang.Stmt) :
    Act.Stocks heap (compileAndRun run fuel owner stmts) Anything := by
  unfold compileAndRun
  split
  · exact .pure trivial
  rename_i p hp
  refine stocks_currentRuntime.bind fun _ rt _ _ => (stocks_load rt p).bind fun heap₁ result _ h => ?_
  cases result with
  | error e => exact .pure trivial
  | ok u =>
    have hu : ItemsInHeap heap₁ u.program.constants.toList := (h u rfl).symm ▸ itemsInHeap_compile hp
    refine Act.Stocks.bind (Machine.stocks_run hrun hu (inHeap_start u .null trivial) fuel)
      fun _ out _ _ => ?_
    obtain ⟨result, m⟩ := out
    cases result with
    | ok v => exact (stocks_snapshot v).then_pure
    | error e => exact .pure trivial

/-- The heap grows at most in a step, if it does in the code that it runs and in the steps inside it. -/
private theorem stocks_exec {perform : List Step → Act (List Reply)}
    (hperform : ∀ heap steps, Act.Stocks heap (perform steps) Anything) (fuel : Nat) (step : Step) :
    Act.Stocks heap (step.exec run perform fuel) Anything := by
  have hcls {heap : Heap} (cls : TypeRef) : Act.Stocks heap cls.resolveClass Anything :=
    stocks_resolveClass cls
  have hview {heap : Heap} (r : ClassRef) : Act.Stocks heap (viewClass r) Anything := stocks_viewClass r
  cases step with
  | defineClass spec => exact stocks_makeClass spec
  | beginClass draft name isHost => exact stocks_draftClass draft name isHost
  | buildClass draft spec => exact stocks_finishClass draft spec
  | newObject cls into =>
    refine (hcls cls).bind fun heap₁ r _ _ => Act.Stocks.bind (P := Anything)
      (.act fun w hw => ⟨heap₁, .refl _, hw.newObject r, trivial⟩) fun _ o _ _ => ?_
    exact (stocks_store _ (v := .object o) trivial).bind fun _ _ _ _ => (stocks_snapshot _).then_pure
  | bind into value =>
    refine (stocks_eval value).bind fun _ v _ hv => (stocks_store _ hv).bind fun _ _ _ _ => ?_
    exact (stocks_snapshot v).then_pure
  | inspect value => exact (stocks_eval value).bind fun _ v _ _ => stocks_inspectValue v
  | compare left right =>
    exact (stocks_eval left).bind fun _ _ _ _ => (stocks_eval right).then_pure
  | mapEntry value key => exact (stocks_eval value).bind fun _ _ _ _ => stocks_answerOptional _
  | getField value name =>
    exact (stocks_eval value).bind fun _ _ _ _ => .look fun _ _ => stocks_answerOptional _
  | setField target name value =>
    refine (stocks_eval target).bind fun _ target _ _ => (stocks_eval value).bind fun _ v _ hv => ?_
    split
    · refine .look fun w _ => ?_
      split
      · exact Act.Stocks.bind (.change fun w hw => hw.setField _ name hv) fun _ _ _ _ => .pure trivial
      · exact .pure trivial
    · exact .pure trivial
  | addMethod cls method =>
    exact (stocks_resolveMethod method).bind fun _ m _ _ =>
      (stocks_changeClass cls (.addMethod m) trivial).then_pure
  | addConstructor cls method =>
    exact (stocks_resolveMethod method).bind fun _ m _ _ =>
      (stocks_changeClass cls (.addConstructor m) trivial).bind fun _ _ _ _ => .look fun _ _ => .pure trivial
  | removeMethod cls name =>
    refine (hcls cls).bind fun heap₁ r _ _ => .look fun w _ => ?_
    have hremove (w : World) (hw : w.Stocked heap₁) :
        (w.updateClass r (·.removeMethod name)).Stocked heap₁ :=
      hw.updateClass r (entriesInHeap_mutation (.removeMethod name) trivial)
    exact Act.Stocks.bind (.change hremove) fun _ _ _ _ =>
      Act.Stocks.bind (P := Anything) (.look fun _ _ => .pure trivial) fun _ _ _ _ => .pure trivial
  | addField cls name =>
    exact (stocks_changeClass cls (.addField name) trivial).then_pure
  | setStatic cls name value =>
    exact (stocks_eval value).bind fun _ v _ hv =>
      (stocks_changeClass cls (.setStatic name v) hv).then_pure
  | staticField cls name =>
    exact (hcls cls).bind fun _ _ _ _ => .look fun _ _ => stocks_answerOptional _
  | describe cls => exact (hcls cls).bind fun _ r _ _ => (hview r).then_pure
  | hasMember cls name => exact (hcls cls).bind fun _ _ _ _ => .look fun _ _ => .pure trivial
  | depth cls ancestor =>
    exact (hcls cls).bind fun _ _ _ _ => (stocks_resolveType ancestor).bind fun _ _ _ _ =>
      .look fun _ _ => .pure trivial
  | pick cls selector args =>
    exact (hcls cls).bind fun _ _ _ _ => (stocks_evalItems args).bind fun _ _ _ _ =>
      (stocks_select _ _ _).then_pure
  | invokePicked cls selector receiver args =>
    refine (hcls cls).bind fun _ _ _ _ => (stocks_eval receiver).bind fun _ _ _ hr => ?_
    refine (stocks_evalItems args).bind fun _ _ hg₁ ha => (stocks_select _ _ _).bind fun _ found hg₂ _ => ?_
    cases found with
    | some m => exact stocks_answerValue (m.stocks_invoke hrun (hr.mono (hg₁.trans hg₂)) (ha.mono hg₂))
    | none => exact .pure trivial
  | sameSignature left right =>
    exact (stocks_resolveMethod left).bind fun _ _ _ _ => (stocks_resolveMethod right).then_pure
  | property cls name | staticProperty cls name =>
    exact (hcls cls).bind fun _ _ _ _ => .look fun _ _ => .pure trivial
  | setter cls name value =>
    exact (hcls cls).bind fun _ _ _ _ => (stocks_eval value).bind fun _ _ _ _ =>
      .look fun _ _ => .pure trivial
  | runHook cls receiver name args =>
    refine (hcls cls).bind fun _ _ _ _ => (stocks_eval receiver).bind fun _ _ _ hr => ?_
    refine (stocks_evalItems args).bind fun _ _ hg ha => .look fun w _ => ?_
    split
    · exact stocks_answerValue (hrun _ _ _ ⟨hr.mono hg, ha⟩)
    · exact .pure trivial
  | distance param arg =>
    exact (stocks_resolveParam param).bind fun _ _ _ _ => (stocks_eval arg).bind fun _ _ _ _ =>
      .look fun _ _ => .pure trivial
  | lookup name => exact stocks_currentRuntime.bind fun _ _ _ _ => .look fun _ _ => .pure trivial
  | findClass type =>
    refine stocks_currentRuntime.bind fun _ _ _ _ => (stocks_resolveType type).bind fun _ _ _ _ => ?_
    refine (stocks_findClass _ _).bind fun _ found _ _ => ?_
    cases found with
    | some r => exact (hview r).then_pure
    | none => exact .pure trivial
  | classCount => exact .look fun _ _ => stocks_currentRuntime.then_pure
  | classOf value =>
    refine (stocks_eval value).bind fun _ v _ _ => stocks_currentRuntime.bind fun _ rt _ _ => ?_
    refine (stocks_classOrFault rt v).bind fun _ found _ _ => ?_
    cases found with
    | ok r => exact (hview r).then_pure
    | error f => exact .pure trivial
  | roots =>
    refine stocks_currentRuntime.bind fun _ rt _ _ => ?_
    refine Act.Stocks.bind (stocks_rootClass rt rfl) fun _ object _ _ => ?_
    refine Act.Stocks.bind (stocks_rootClass rt rfl) fun _ null _ _ => ?_
    exact (hview object).bind fun _ _ _ _ => (hview null).then_pure
  | label cls name =>
    refine (hcls cls).bind fun _ r _ _ => ?_
    exact Act.Stocks.bind (stocks_updateScope (fun _ => rfl) fun _ => rfl) fun _ _ _ _ =>
      (hview r).then_pure
  | replaceClass cls =>
    refine stocks_currentRuntime.bind fun _ rt _ _ => (hcls cls).bind fun heap₁ r _ _ => ?_
    refine Act.Stocks.bind (P := Anything)
      (.act fun w hw => ⟨heap₁, .refl _, hw.replaceClass rt r, trivial⟩) fun heap₂ previous _ _ => ?_
    have hprevious : Act.Stocks heap₂ (previous.mapM viewClass) Anything := by
      cases previous with
      | none => exact .pure trivial
      | some p => exact (hview p).then_pure
    exact hprevious.bind fun _ _ _ _ => (hview r).then_pure
  | newRuntime config =>
    refine Act.Stocks.bind (P := Anything)
      (.act fun w hw => ⟨heap, .refl _, hw.newRuntime config, trivial⟩) fun _ rt _ _ => ?_
    exact Act.Stocks.bind (stocks_updateScope (fun _ => rfl) fun _ => rfl) fun _ _ _ _ => .pure trivial
  | switchRuntime index =>
    refine .look fun w _ => ?_
    split
    · exact Act.Stocks.bind (stocks_updateScope (fun _ => rfl) fun _ => rfl) fun _ _ _ _ => .pure trivial
    · exact .stop _
  | stats => exact .look fun _ _ => stocks_currentRuntime.then_pure
  | newTable name owner sites =>
    refine (stocks_resolveType owner).bind fun _ owner _ _ => ?_
    refine stocks_currentRuntime.bind fun heap₁ rt _ _ => ?_
    refine Act.Stocks.bind (P := Anything) (.act fun w hw => ⟨heap₁, .refl _, ?_, trivial⟩) fun _ t _ _ => ?_
    · exact hw.of_eq (Nat.le_refl _) rfl (fun _ => rfl) rfl rfl rfl
    · exact Act.Stocks.bind (stocks_updateScope (fun _ => rfl) fun _ => rfl) fun _ _ _ _ => .pure trivial
  | call table slot form receiver args into =>
    exact stocks_dispatchStep hrun table slot form receiver args into
  | slots table => exact (stocks_findTable table).bind fun _ _ _ _ => .look fun _ _ => .pure trivial
  | defineCategory name methods =>
    refine Act.Stocks.bind (Act.Stocks.mapM (Q := Anything) (fun _ _ h => h) (fun _ e => ?_) methods)
      fun _ entries _ _ => ?_
    · exact (stocks_resolveType e.1).bind fun _ _ _ _ => (stocks_resolveMethod e.2).then_pure
    · exact Act.Stocks.bind (stocks_updateScope (fun _ => rfl) fun _ => rfl) fun _ _ _ _ => .pure trivial
  | useCategory name steps => exact stocks_withCategory hperform name steps
  | load name owner stmts =>
    simp only [Step.exec]
    split
    · exact (stocks_unload name).then_pure
    · rename_i p hp
      exact stocks_loadAs name (itemsInHeap_compile hp)
  | loadRaw name owner code constants locals classes sites =>
    exact (stocks_evalItems constants).bind fun _ _ _ hvs => stocks_loadAs name hvs
  | runUnit name this times keep into => exact stocks_runUnitTimes hrun fuel name this times keep into
  | runProgram owner stmts => exact stocks_compileAndRun hrun fuel owner stmts

end Stepping

/-- A body that is run on values of the heap comes to one, if the bodies and steps inside it do. -/
private theorem stocks_evalWith {eval : Body → Frame → Exec Fault Value}
    {perform : List Step → Act (List Reply)}
    (heval : ∀ heap body frame, frame.InHeap heap → Exec.Stocks heap (eval body frame) Value.InHeap)
    (hperform : ∀ heap steps, Act.Stocks heap (perform steps) Anything) {frame : Frame}
    (hframe : frame.InHeap heap) (body : Body) :
    Exec.Stocks heap (body.evalWith eval perform frame) Value.InHeap := by
  have hall (heap : Heap) (hframe : frame.InHeap heap) (parts : List Body) :
      Exec.Stocks heap (parts.mapM (eval · frame)) ItemsInHeap := by
    induction parts generalizing heap with
    | nil => exact .pure trivial
    | cons part parts ih =>
      rw [List.mapM_cons]
      refine (heval heap part frame hframe).bind fun _ v hg hv => ?_
      exact (ih _ (hframe.mono hg)).bind fun _ vs hg hvs => .pure ⟨hv.mono hg, hvs⟩
  have halloc {heap : Heap} {vs : List Value} (hvs : ItemsInHeap heap vs) :
      Exec.Stocks (ε := Fault) heap (ExceptT.lift allocate) fun heap' n => (Value.list n vs).InHeap heap' :=
    .lift (.allocated fun n hn => inHeap_put_list hn hvs)
  cases body with
  | const v => exact .lift (stocks_eval v)
  | receiver => exact .pure hframe.1
  | arg i => exact .pure (inHeap_getD fun v hv => hframe.2.getElem? hv)
  | calledName =>
    refine .pure (inHeap_getD fun v hv => ?_)
    obtain ⟨name, -, rfl⟩ := Option.map_eq_some_iff.mp hv
    trivial
  | args => exact (halloc hframe.2).bind fun _ _ _ hn => .pure hn
  | list items =>
    exact (hall heap hframe items).bind fun _ _ _ hvs => (halloc hvs).bind fun _ _ _ hn => .pure hn
  | seq parts =>
    refine (hall heap hframe parts).bind fun _ vs _ hvs => .pure ?_
    rw [List.getLastD_eq_getLast?]
    exact inHeap_getD fun v hv => itemsInHeap_iff.mp hvs v (List.mem_of_getLast? hv)
  | cond test ifTrue otherwise =>
    refine (heval heap test frame hframe).bind fun _ v hg _ => ?_
    split
    · exact heval _ ifTrue frame (hframe.mono hg)
    · exact heval _ otherwise frame (hframe.mono hg)
  | fail fault => exact .throw _
  | getField name =>
    simp only [Body.evalWith]
    split
    · exact .look fun w hw => .pure (inHeap_getD fun v hv => hw.field? hv)
    · exact .pure trivial
  | setField name value =>
    refine (heval heap value frame hframe).bind fun _ v _ hv => ?_
    split
    · refine .look fun w _ => ?_
      split
      · exact Exec.Stocks.bind (.change fun w hw => hw.setField _ name hv) fun _ _ _ _ => .pure trivial
      · exact .pure trivial
    · exact .pure trivial
  | trace value =>
    refine (heval heap value frame hframe).bind fun _ v _ hv => ?_
    refine Exec.Stocks.bind (.lift (stocks_snapshot v)) fun _ s hg₁ _ => ?_
    exact Exec.Stocks.bind (.lift (stocks_addTrace _)) fun _ _ hg₂ _ => .pure (hv.mono (hg₁.trans hg₂))
  | invoke form table slot target operands =>
    refine (heval heap target frame hframe).bind fun heap₁ v hg₁ hv => ?_
    refine (hall heap₁ (hframe.mono hg₁) operands).bind fun _ vs hg₂ hvs => ?_
    refine Exec.Stocks.bind (.lift (stocks_findTable table)) fun _ t hg₃ _ => ?_
    exact stocks_invokeForm (Runner.stocks_ofScripts heval) t slot form (hv.mono (hg₂.trans hg₃))
      (hvs.mono hg₃)
  | perform steps =>
    have htrace (replies : List Reply) (heap : Heap) :
        Act.Stocks heap (replies.forM fun r => addTrace (.reply r)) Anything := by
      induction replies generalizing heap with
      | nil => exact .pure trivial
      | cons r replies ih => exact (stocks_addTrace _).bind fun heap' _ _ _ => ih heap'
    refine Exec.Stocks.bind (.lift (hperform heap steps)) fun heap' replies _ _ => ?_
    exact Exec.Stocks.bind (.lift (htrace replies heap')) fun _ _ _ _ => .pure trivial

/-- Bodies and steps come to values of a heap that has grown, however deep they nest. -/
private theorem stocks_session (fuel : Nat) :
    (∀ heap body frame, frame.InHeap heap → Exec.Stocks heap (evalBody fuel body frame) Value.InHeap)
      ∧ ∀ heap steps, Act.Stocks heap (performSteps fuel steps) Anything := by
  induction fuel with
  | zero => exact ⟨fun _ _ _ _ => .lift (.stop _), fun _ _ => .stop _⟩
  | succ fuel ih =>
    obtain ⟨heval, hperform⟩ := ih
    refine ⟨fun heap body frame hframe => ?_, fun heap steps => ?_⟩
    · rw [evalBody]
      exact stocks_evalWith heval hperform hframe body
    · rw [performSteps]
      have hstep (heap : Heap) (step : Step) : Act.Stocks heap
          (withTrace (step.exec (Runner.ofScripts (evalBody fuel)) (performSteps fuel) fuel)) Anything :=
        stocks_withTrace fun _ => stocks_exec (Runner.stocks_ofScripts heval) hperform fuel step
      intro w hw a w' h
      obtain ⟨heap', hg, hw', -⟩ :=
        Act.Stocks.mapM (Q := Anything) (fun _ _ h => h) hstep steps w hw a w' h
      exact ⟨heap', hg, hw', trivial⟩

end Script

private theorem stocked_initial (config : Config) (embedding : Embedding) :
    (World.initial config embedding).Stocked fun _ => none := by
  have hempty : World.Stocked (fun _ => none) { embedding } := by
    refine ⟨fun _ _ h => ?_, fun o => ?_, fun r => ?_, trivial, fun e he => ?_, fun e he => ?_⟩
    · cases h
    · trivial
    · trivial
    · cases he
    · cases he
  exact hempty.newRuntime config

/-- The values that a session holds are in one heap. -/
theorem stocked_of_session {config : Config} {embedding : Embedding} {fuel : Nat}
    {steps : List Script.Step} {replies : List Script.Reply} {w : World}
    (h : (Script.performSteps fuel steps).run (World.initial config embedding) = .ok (replies, w)) :
    ∃ heap, w.Stocked heap := by
  obtain ⟨heap, -, hw, -⟩ :=
    (Script.stocks_session fuel).2 _ steps _ (stocked_initial config embedding) replies w h
  exact ⟨heap, hw⟩

/-- The values that an event is about. -/
def Event.values : Event → List Value
  | .asked _ _ request => request.receiver?.toList ++ request.args
  | .ran _ frame => frame.receiver :: frame.args
  | .answered result => result.toOption.toList

private theorem Event.InHeap.values {e : Event} (h : e.InHeap heap) : ItemsInHeap heap e.values := by
  cases e with
  | asked t i request =>
    cases request with
    | call => exact h
    | static | construct => exact h
    | property => exact ⟨h, trivial⟩
  | ran code frame => exact h
  | answered result =>
    cases result with
    | ok v => exact ⟨h v rfl, trivial⟩
    | error f => trivial

/-- The values that can be got at: those with a name, in fields of objects and of classes and in loaded
programs, those of the calls so far, and the parts of such values. -/
inductive World.Holds (w : World) : Value → Prop
  | stored {e : String × Value} (he : e ∈ w.scope.stored) : w.Holds e.2
  | field (o : ObjectRef) {e : String × Value} (he : e ∈ (w.object o).fields) : w.Holds e.2
  | static (r : ClassRef) {e : String × Value} (he : e ∈ (w.cls r).staticFields) : w.Holds e.2
  | constant {e : String × LoadedUnit} (he : e ∈ w.scope.units) {v : Value}
      (hv : v ∈ e.2.program.constants.toList) : w.Holds v
  | event {e : Event} (he : e ∈ w.history) {v : Value} (hv : v ∈ e.values) : w.Holds v
  | item {n : Nat} {items : List Value} (h : w.Holds (.list n items)) {v : Value} (hv : v ∈ items) : w.Holds v
  | entry {n : Nat} {entries : List (String × Value)} (h : w.Holds (.map n entries)) {e : String × Value}
      (he : e ∈ entries) : w.Holds e.2
  | wrapped {n : Nat} {v : Value} {t : TypeId} (h : w.Holds (.wrapper n v t)) : w.Holds v

theorem World.Stocked.inHeap {w : World} (hw : w.Stocked heap) {v : Value} (h : w.Holds v) :
    v.InHeap heap := by
  induction h with
  | stored he => exact entriesInHeap_iff.mp hw.stored _ he
  | field o he => exact entriesInHeap_iff.mp (hw.fields o) _ he
  | static r he => exact entriesInHeap_iff.mp (hw.statics r) _ he
  | constant he hv => exact itemsInHeap_iff.mp (hw.constants _ he) _ hv
  | event he hv => exact itemsInHeap_iff.mp (hw.events _ he).values _ hv
  | item _ hv ih => exact itemsInHeap_iff.mp ih.2 _ hv
  | entry _ he ih => exact entriesInHeap_iff.mp ih.2 _ he
  | wrapped _ ih => exact ih.2

end CachedDispatch
