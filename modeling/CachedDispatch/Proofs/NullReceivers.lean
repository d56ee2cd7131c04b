import CachedDispatch.Proofs.Encapsulation
import CachedDispatch.Proofs.Lines
import CachedDispatch.Proofs.Occupants
import CachedDispatch.Proofs.Overlay

/-!
Requests that go to null. No slot ever holds a site that null passes, so whatever occupies it, the plan
comes from the methods of the null class alone, and making it leaves every slot as it is.
-/
namespace CachedDispatch

open World

theorem Guard.eq_valueOf_of_admits_null {w : World} {guard : Guard} (h : guard.admits w .null = true) :
    guard = .valueOf .null := by
  cases guard with
  | valueOf t => rw [← show TypeId.null = t from of_decide_eq_true h]
  | _ => cases h

/-- Only null has the type of null, apart from host objects that are said to. -/
private theorem Guard.null_or_host_of_admits {w : World} {v : Value}
    (h : (Guard.valueOf .null).admits w v = true) :
    v = .null ∨ ∃ alloc label, v = .host alloc .null label := by
  cases v with
  | null => exact Or.inl rfl
  | host alloc t label =>
    obtain rfl : t = .null := of_decide_eq_true h
    exact Or.inr ⟨alloc, label, rfl⟩
  | _ => exact absurd h Bool.false_ne_true

/-- The receivers that pass the guard of the site are not null. -/
private def Site.ShunsNull : Site → Prop
  | .method guard _ _ | .property guard _ _ _ => guard ≠ .valueOf .null
  | _ => True

section Shunning

variable {w w₀ : World} {c : Site.Context} {request : Request} {site : Site}

private theorem Site.ShunsNull.cached? (h : site.ShunsNull) (hn : request.onNull = true) (w : World) :
    site.cached? w request = none := by
  have hadmits {guard : Guard} {v : Value} (hg : guard ≠ .valueOf .null) (hv : v.isNull = true)
      (ha : guard.admits w v = true) : False := by
    cases v with
    | null => exact hg (Guard.eq_valueOf_of_admits_null ha)
    | _ => cases hv
  rcases hc : site.cached? w request with _ | plan
  · rfl
  · cases cached?_eq_some_iff.mp hc with
    | call ha | property ha => exact (hadmits h hn ha).elim
    | static | construct | bean => cases hn

private theorem onNull_of_resolve (h : (resolve c request).run w₀ = (some site, w)) :
    request.onNull = false := by
  obtain ⟨w₁, -, -, hres⟩ := resolved_of_resolve h
  cases hres with
  | @method receiver _ _ _ _ _ _ hrc | @property receiver _ _ _ _ hrc =>
    cases receiver with
    | null => cases hrc
    | _ => rfl
  | _ => rfl

/-- A site that was just resolved serves a request that does not go to null, so it is not for null. -/
private theorem shunsNull_of_resolve (hh : request.HostDefined)
    (h : (resolve c request).run w₀ = (some site, w)) : site.ShunsNull := by
  have hserves := isSome_cached?_of_resolve h
  have hnull := onNull_of_resolve h
  have hnot {v : Value} (hv : request.receiver? = some v) (hnot : v.isNull = false) :
      (Guard.valueOf .null).admits w v ≠ true := by
    intro ha
    rcases Guard.null_or_host_of_admits ha with rfl | ⟨alloc, label, rfl⟩
    · cases hnot
    · cases hh alloc .null label hv
  obtain ⟨plan, hplan⟩ := Option.isSome_iff_exists.mp hserves
  cases Site.cached?_eq_some_iff.mp hplan with
  | call ha | property ha =>
    rintro rfl
    exact hnot rfl hnull ha
  | static ha =>
    rintro rfl
    cases ha
  | construct | bean => trivial

/-- No slot holds a site for null. -/
private theorem World.Attained.shunsNull (hw : w.Attained) (hh : w.HostsDefined) {t : TableRef}
    {i : Nat} {slot : Slot} (hs : w.slot? t i = some slot) : slot.site.ShunsNull := by
  have hbefore {w w' : World} (hd : Deed w w') (hh : w'.HostsDefined) : w.HostsDefined :=
    fun t i request ha => hh t i request (hd.history_suffix.subset ha)
  have hfact : OccupantFact Deed fun w _ site => w.HostsDefined → site.ShunsNull := {
    deed := fun hd => hd
    generic := fun _ _ _ => trivial
    megamorphic := fun _ _ _ => trivial
    later := fun _ hd h hh => h (hbefore hd hh)
    installed := fun _ hd _ ha hr hh => shunsNull_of_resolve (hbefore hd hh _ _ _ ha) hr }
  obtain ⟨config, embedding, hd⟩ := hw
  exact hfact.occupant hd hs hh

end Shunning

/-- The methods of a name that may be called on null. -/
def Class.forNull (c : Class) (name : String) : List Method :=
  (c.methods.overloads name).filter (Lookup.instanceFor .null).sees

/-- The plan that the null class alone has for a request. -/
def Class.nullPlan (c : Class) (lin : Lineage) (name : String) : Request → Plan
  | .property _ =>
    match if c.fields.contains name then none else pick lin (c.forNull (getterName name)) [] with
    | some m => .invoke m .null []
    | none => .fail (.nullReceiver name true)
  | request =>
    match pick lin (c.forNull name) (unwrapArgs request.args) with
    | some m => .invoke m .null (prepare m request.args .baseline)
    | none => .fail (.nullReceiver name false)

theorem Class.nullPlan_call {c : Class} {lin : Lineage} {name : String} {args : List Value} {m : Method}
    (h : pick lin (c.forNull name) (unwrapArgs args) = some m) (current : Bool) :
    c.nullPlan lin name (.call current .null args) = .invoke m .null (prepare m args .baseline) := by
  simp only [Class.nullPlan, Request.args, h]

section NullClass

variable {w : World} {c : Site.Context} {request : Request}

/-- The class that stands for null in a runtime, or will stand for it. -/
def World.nullClass (w : World) (rt : Nat) : ClassRef :=
  (w.classFor? rt .null).getD ((w.registry rt).builtinRef .nullObject)

private theorem World.fst_rootClass_null (w : World) (rt : Nat) :
    (w.rootClass rt .nullObject).1 = w.nullClass rt := by
  unfold rootClass nullClass classFor?
  split
  · rename_i r hr
    rw [show TypeId.null = BuiltinType.nullObject.id from rfl, hr]
    rfl
  · rename_i hr
    rw [show TypeId.null = BuiltinType.nullObject.id from rfl, hr]
    rfl

theorem World.Attained.id_nullClass (hw : w.Attained) (rt : Nat) :
    (w.cls (w.nullClass rt)).id = .null := by
  unfold nullClass
  rcases hr : w.classFor? rt .null with _ | r
  · exact hw.anchored.id rt .nullObject
  · exact (hw.inOrder.entries rt _ r hr).2

/-- Entering the null class changes no class, because nothing is above null. -/
private theorem World.Attained.cls_rootClass_null (hw : w.Attained) (hg : w.Genuine .nullObject)
    (rt : Nat) : (w.rootClass rt .nullObject).2.cls = w.cls := by
  unfold rootClass
  split
  · rfl
  · refine funext fun r => ?_
    change (w.updateClass _ _).cls r = w.cls r
    rw [cls_updateClass]
    split
    · rename_i hr
      obtain ⟨rfl, -⟩ := hr
      rw [← hw.ancestors_null hg (hw.anchored.id rt .nullObject)]
    · rfl

/-- The line of null is the null class alone. -/
private theorem World.Attained.classes_null (hw : w.Attained) (hg : w.Genuine .nullObject) (rt : Nat) :
    (w.hierarchy (w.nullClass rt)).classes = [w.cls (w.nullClass rt)] := by
  rw [Hierarchy.classes, hierarchy,
    hw.ancestors_null hg (hw.id_nullClass rt)]
  rfl

theorem World.Attained.candidates_null (hw : w.Attained) (hg : w.Genuine .nullObject) (rt : Nat)
    (name : String) :
    (w.hierarchy (w.nullClass rt)).candidates name (.instanceFor .null)
      = (w.cls (w.nullClass rt)).forNull name := by
  rw [Hierarchy.candidates, hw.classes_null hg, List.flatMap_singleton]
  rfl

/-- The null class and all lines are as they were when the null class is entered. -/
private theorem entered_null (hw : w.Attained) (hg : w.Genuine .nullObject) (rt : Nat) :
    (w.rootClass rt .nullObject).2.hierarchy = w.hierarchy
      ∧ (w.rootClass rt .nullObject).2.lineage = w.lineage := by
  have hhier : (w.rootClass rt .nullObject).2.hierarchy = w.hierarchy :=
    hierarchy_congr (hw.cls_rootClass_null hg rt)
  refine ⟨hhier, funext fun o => ?_⟩
  rw [lineage, hhier, (w.sameRest_rootClass rt .nullObject).classOfObject]
  rfl

private theorem World.Attained.planNullCall (hw : w.Attained) (hg : w.Genuine .nullObject)
    (current : Bool) (receiver : Value) (args : List Value) :
    ((planNullCall c args).run w).1
      = (w.cls (w.nullClass c.runtime)).nullPlan w.lineage c.name (.call current receiver args) := by
  obtain ⟨hhier, hlin⟩ := entered_null hw hg c.runtime
  unfold CachedDispatch.planNullCall Class.nullPlan
  rw [Update.run_modifyGet_bind, Update.run_get_bind, hhier, hlin, fst_rootClass_null]
  dsimp only [Hierarchy.pickMethod, Request.args]
  rw [hw.candidates_null hg]
  cases pick w.lineage ((w.cls (w.nullClass c.runtime)).forNull c.name) (unwrapArgs args) with
  | none => rw [Update.run_pure]
  | some m =>
    rw [Update.run_pure]
    rfl

private theorem World.Attained.planNullProperty (hw : w.Attained) (hg : w.Genuine .nullObject)
    (receiver : Value) : ((planNullProperty c).run w).1
      = (w.cls (w.nullClass c.runtime)).nullPlan w.lineage c.name (.property receiver) := by
  obtain ⟨hhier, hlin⟩ := entered_null hw hg c.runtime
  have hfield : (w.hierarchy (w.nullClass c.runtime)).hasField c.name
      = (w.cls (w.nullClass c.runtime)).fields.contains c.name := by
    rw [Hierarchy.hasField, hw.classes_null hg]
    simp
  have hself : (w.hierarchy (w.nullClass c.runtime)).id = .null := hw.id_nullClass c.runtime
  unfold CachedDispatch.planNullProperty Class.nullPlan
  rw [Update.run_modifyGet_bind, Update.run_get_bind, hhier, hlin, fst_rootClass_null]
  dsimp only [Hierarchy.property?, Hierarchy.pickMethod]
  rw [hfield, hself, hw.candidates_null hg]
  cases (w.cls (w.nullClass c.runtime)).fields.contains c.name with
  | true => rfl
  | false =>
    cases pick w.lineage ((w.cls (w.nullClass c.runtime)).forNull (getterName c.name)) [] with
    | none => rfl
    | some m => rfl

/-- A request that goes to null gets the plan of the null class. -/
theorem World.Attained.planOnNull (hw : w.Attained) (hg : w.Genuine .nullObject)
    (hn : request.onNull = true) :
    ((planOnNull c request).run w).1
      = (w.cls (w.nullClass c.runtime)).nullPlan w.lineage c.name request := by
  cases request with
  | static | construct => cases hn
  | call current receiver args => exact hw.planNullCall hg current receiver args
  | property receiver => exact hw.planNullProperty hg receiver

end NullClass

/-- A slot that is asked for null looks the plan up, whatever occupies it. -/
private theorem Course.of_onNull {w : World} {t : TableRef} {i : Nat} {slot : Slot} {request : Request}
    {r : Decision × World} (h : Course w t i slot request r) (hn : request.onNull = true)
    (hsite : slot.site.ShunsNull) :
    r = (lookedUp (planFully (w.siteContext t slot) request)).run w
      ∨ request.onNull = true ∧ r = (lookedUp (planOnNull (w.siteContext t slot) request)).run w := by
  have hnot (hcache : Cacheable w t slot request) : False := by
    cases hn.symm.trans hcache.notNull
  cases h with
  | hit h =>
    rw [hsite.cached? hn] at h
    cases h
  | onNull => exact Or.inr ⟨hn, rfl⟩
  | uncached => exact Or.inl rfl
  | givenUp hcache | unresolved hcache | installed hcache => exact (hnot hcache).elim

/-- The rest of a dispatch once its plan has been looked up: the plan is carried out, and the answer is
recorded. -/
def Plan.answered (run : Runner) (rt : Nat) (plan : Plan) : Exec Fault Value := do
  let answer ← ExceptT.lift (stripped (plan.run run rt .lookup)).result
  modify (·.record (.answered answer))
  ExceptT.mk (pure answer)

private theorem result_dispatch_of_serve {run : Runner} {t : TableRef} {i : Nat} {request : Request}
    {w w₁ : World} {rt : Nat} {plan : Plan}
    (h : (serve run t i request).result.run (w.record (.asked t i request))
      = (plan.run run rt .lookup).result.run w₁) :
    (dispatch run t i request).result.run w = (plan.answered run rt).result.run w₁ := by
  have hstripped : (stripped (serve run t i request)).result.run (w.record (.asked t i request))
      = (stripped (plan.run run rt .lookup)).result.run w₁ := by
    rw [stripped, Exec.result_adapt, h, stripped, Exec.result_adapt]
  rw [dispatch, Exec.result_modify_bind, Exec.result_lift_bind, StateT.run_bind, hstripped,
    Plan.answered, Exec.result_lift_bind, StateT.run_bind]

/-- Whatever occupies a slot, whoever owns it and whatever is in force, a request that goes to null gets
the plan of the null class, and up to the code that the plan runs no slot and no counter but that of full
lookups has changed. The safe forms answer null and do nothing. -/
theorem null_served_by_null_class {w : World} (hw : w.Attained) (ha : w.Ample) (hh : w.HostsDefined)
    {request : Request} (hn : request.onNull = true) :
    (∀ t i slot, w.slot? t i = some slot → ∀ run : Runner, ∃ w₁, Deeds w w₁ ∧ w.SparesSlots w₁
      ∧ (dispatch run t i request).result.run w
        = (((w.cls (w.nullClass (w.table t).runtime)).nullPlan w.lineage slot.name request).answered run
            (w.table t).runtime).result.run w₁)
    ∧ ∀ run t i, dispatchSafe run t i request = pure .null := by
  refine ⟨fun t i slot hs run => ?_, fun run t i => if_pos hn⟩
  have hi : slot.header.index = i := hw.visited.balanced.index t i slot hs
  have hg := (hw.setApart ha).genuine .nullObject
  have hsite := hw.shunsNull hh hs
  have hasked : Deed w (w.record (.asked t i request)) := .record w _
  have hspared : w.SparesSlots (w.record (.asked t i request)) := .of_eq rfl rfl
  have hs' : (w.record (.asked t i request)).slot? t i = some slot := hs
  have hplanned : Deed (w.record (.asked t i request)) _ := .plan hs' List.mem_cons_self
  have hcourse := (course_planAt hs' hi request).of_onNull hn hsite
  obtain ⟨f, htables, -⟩ := (course_planAt hs' hi request).writes
  rcases hr : (planAt t slot request).run (w.record (.asked t i request)) with ⟨d, w₁⟩
  rw [hr] at hcourse hplanned htables
  have hd : d = ⟨.lookup,
      (w.cls (w.nullClass (w.table t).runtime)).nullPlan w.lineage slot.name request⟩ := by
    have hplan := (hw.deed hasked).planOnNull hg (c := w.siteContext t slot) hn
    rcases hcourse with hlookup | ⟨-, hlookup⟩ <;> obtain ⟨rfl, -⟩ := Prod.mk.inj hlookup
    · exact congrArg (Decision.mk .lookup) ((plan_planOnNull hn _).symm.trans hplan)
    · exact congrArg (Decision.mk .lookup) hplan
  have hruntime : (w₁.table t).runtime = (w.table t).runtime := by
    rw [table_of_tables_eq htables, runtime_updateSlot]
    rfl
  refine ⟨w₁, .tail (.single hasked) hplanned, hspared.trans (.of_lookedUp hcourse), ?_⟩
  refine result_dispatch_of_serve ?_
  rw [result_serve hs' hr, hruntime, hd]

/-- A session that fills a slot for `is` with an object's own method. -/
def Script.selfsame : List Script.Step := [
  .defineClass ⟨⟨"A", none, [], [], [
    { name := "is", params := [.any], body := .const (.int 1) }], none⟩, "A", false⟩,
  .newObject (.named "A") "a",
  .newTable "t" (.named "A") [("is", .call)],
  .call "t" 0 .call (.stored "a") [.null] none]

/-- Whether the slot is filled, and the null class has a method for it. -/
private def selfsameFills : Option Bool :=
  match (Script.performSteps 8 Script.selfsame).run (initial {}) with
  | .ok (_, w) => (w.slot? ⟨0⟩ 0).map fun slot =>
      decide (slot.site.tag = .dynamicMethod ∧ w.Ample) && w.history.all Event.isHostless
        && (pick w.lineage ((w.cls (w.nullClass (w.table ⟨0⟩).runtime)).forNull slot.name)
          [.null]).isSome
  | .error _ => none

/-- The slot is filled, and yet null answers by its own method and leaves the slot as it is. -/
theorem null_served_by_null_class_selfsame : ∃ replies w slot m w₁,
    (Script.performSteps 8 Script.selfsame).run (initial {}) = .ok (replies, w)
      ∧ w.slot? ⟨0⟩ 0 = some slot ∧ slot.site.tag = .dynamicMethod
      ∧ w.Ample ∧ m ∈ (w.cls (w.nullClass (w.table ⟨0⟩).runtime)).methods.overloads slot.name
      ∧ w₁.slot? ⟨0⟩ 0 = some slot
      ∧ (dispatch (.ofScripts (Script.evalBody 8)) ⟨0⟩ 0 (.call false .null [.null])).result.run w
        = ((Plan.invoke m .null (prepare m [.null] .baseline)).answered
            (.ofScripts (Script.evalBody 8)) (w.table ⟨0⟩).runtime).result.run w₁ := by
  have hcheck : selfsameFills = some true := by decide +kernel
  unfold selfsameFills at hcheck
  rcases hrun : (Script.performSteps 8 Script.selfsame).run (initial {}) with
    stop | ⟨replies, w⟩ <;> rw [hrun] at hcheck
  · cases hcheck
  · obtain ⟨slot, hs, hslot⟩ := Option.map_eq_some_iff.mp hcheck
    simp only [Bool.and_eq_true, decide_eq_true_eq] at hslot
    obtain ⟨⟨⟨htag, hample⟩, hhosts⟩, hsome⟩ := hslot
    obtain ⟨m, hm⟩ := Option.isSome_iff_exists.mp hsome
    have hn : (Request.call false .null [.null]).onNull = true := rfl
    obtain ⟨w₁, -, hspares, hanswer⟩ := (null_served_by_null_class (attained_of_session hrun)
      hample (hostsDefined_of_hostless hhosts) hn).1 ⟨0⟩ 0 slot hs (.ofScripts (Script.evalBody 8))
    have hplan : (w.cls (w.nullClass (w.table ⟨0⟩).runtime)).nullPlan w.lineage slot.name
        (.call false .null [.null]) = .invoke m .null (prepare m [.null] .baseline) := by
      have hargs : pick w.lineage ((w.cls (w.nullClass (w.table ⟨0⟩).runtime)).forNull slot.name)
        (unwrapArgs (Request.call false .null [.null]).args) = some m := hm
      rw [Class.nullPlan, hargs]
      · rfl
      · nofun
    rw [hplan] at hanswer
    exact ⟨replies, w, slot, m, w₁, rfl, hs, htag, hample, (List.mem_filter.mp (mem_of_pickBy hm)).1,
      hspares.slot _ _ _ hs, hanswer⟩

end CachedDispatch
