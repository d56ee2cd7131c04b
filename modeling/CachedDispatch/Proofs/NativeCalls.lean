import CachedDispatch.Proofs.Directories
import CachedDispatch.Proofs.Occupants

/-!
Calls on numbers, texts, lists and other values of builtin types that have not been touched, while no
category is in force. On every course the plan is to invoke a method that the type offers. It was picked
for these arguments or, where the occupant remembers it, for arguments of the same shape in a world that
has become this one. Carrying the plan out applies the operation.
-/
namespace CachedDispatch

open World

/-- The builtin type of a value that shows it by its form. -/
def Value.native? : Value → Option BuiltinType
  | .bool _ => some .boolean
  | .int _ => some .integer
  | .float _ => some .double
  | .text _ => some .string
  | .list .. => some .list
  | .map .. => some .map
  | _ => none

section Receivers

variable {v : Value} {b : BuiltinType}

private theorem Value.typeId_native (h : v.native? = some b) (lin : Lineage) : v.typeId lin = b.id := by
  cases v <;> cases h <;> rfl

private theorem World.classOf_native (h : v.native? = some b) (w : World) (rt : Nat) :
    w.classOf rt v = w.findClass rt b.id := by
  cases v <;> cases h <;> rfl

private theorem planFully_native (h : v.native? = some b) (c : Site.Context) (current : Bool)
    (args : List Value) :
    planFully c (.call current v args) = planInstanceCall c current v args := by
  cases v <;> cases h <;> rfl

private theorem onNull_native (h : v.native? = some b) (current : Bool) (args : List Value) :
    (Request.call current v args).onNull = false := by
  cases v <;> cases h <;> rfl

/-- Only a guard for values of the type admits such a receiver. -/
theorem Guard.eq_valueOf_native (h : v.native? = some b) {guard : Guard} {w : World}
    (ha : guard.admits w v = true) : guard = .valueOf b.id := by
  cases guard with
  | instanceOf | literalOf => cases v <;> cases h <;> cases ha
  | valueOf t =>
    have ht : v.typeId w.lineage = t := by
      cases v <;> cases h <;> exact of_decide_eq_true ha
    rw [← ht, Value.typeId_native h]

end Receivers

namespace World

variable {w w' : World} {b : BuiltinType}

/-- Of no class has anything changed but the ancestors, and there are no new ones. -/
structure SameBodies (w w' : World) : Prop where
  size : w'.classes.size = w.classes.size
  cls : ∀ r, ∃ ancestors, w'.cls r = { w.cls r with ancestors }

namespace SameBodies

private theorem of_eq (h : w'.classes = w.classes) : w.SameBodies w' :=
  ⟨congrArg Array.size h, fun r => ⟨(w.cls r).ancestors, by rw [cls_congr h]⟩⟩

private theorem trans {w'' : World} (h : w.SameBodies w') (h' : w'.SameBodies w'') :
    w.SameBodies w'' := by
  refine ⟨h'.size.trans h.size, fun r => ?_⟩
  obtain ⟨rs, hrs⟩ := h.cls r
  obtain ⟨rs', hrs'⟩ := h'.cls r
  exact ⟨rs', by rw [hrs', hrs]⟩

private theorem enterBuiltin (w : World) (rt : Nat) (b : BuiltinType) (rs : List ClassRef) :
    w.SameBodies (w.enterBuiltin rt b rs).2 := by
  refine ⟨Array.size_modify, fun q => ?_⟩
  have hcls : (w.enterBuiltin rt b rs).2.cls q
      = (w.updateClass ((w.registry rt).builtinRef b) fun c => { c with ancestors := rs }).cls q := rfl
  rw [hcls, cls_updateClass]
  split
  · exact ⟨rs, rfl⟩
  · exact ⟨_, rfl⟩

private theorem rootClass (w : World) (rt : Nat) (b : BuiltinType) :
    w.SameBodies (w.rootClass rt b).2 := by
  unfold World.rootClass
  split
  · exact .of_eq rfl
  · exact enterBuiltin w rt b []

theorem findClass (w : World) (rt : Nat) (t : TypeId) : w.SameBodies (w.findClass rt t).2 := by
  generalize hfound : w.findClass rt t = found
  cases found_of_findClass hfound with
  | entered | undefined => exact .of_eq rfl
  | spare => exact rootClass w rt .object
  | root => exact enterBuiltin w rt _ []
  | below => exact (rootClass w rt .object).trans (enterBuiltin (w.rootClass rt .object).2 rt _ _)

theorem planAt (t : TableRef) (slot : Slot) (request : Request) (w : World) :
    w.SameBodies ((planAt t slot request).run w).2 := by
  have hR : AllowsSlots SameBodies := {
    lookups := fun rt => {
      refl := fun _ => .of_eq rfl
      trans := trans
      findClass := fun w t => findClass w rt t
      allocate := fun _ => .of_eq rfl }
    count := fun _ _ _ => .of_eq rfl
    write := fun _ _ _ _ => .of_eq rfl }
  exact makes_planAt hR t request slot w

theorem id (h : w.SameBodies w') (r : ClassRef) : (w'.cls r).id = (w.cls r).id := by
  obtain ⟨rs, hrs⟩ := h.cls r
  rw [hrs]

theorem untouched (h : w.SameBodies w') (hb : w.Untouched b) : w'.Untouched b := by
  intro r hr hid
  obtain ⟨rs, hrs⟩ := h.cls r
  rw [hrs] at hid ⊢
  exact hb r (h.size ▸ hr) hid

/-- Values keep their types and the names of these. -/
theorem typeId (h : w.SameBodies w') (hobj : w'.objects = w.objects) (v : Value) :
    v.typeId w'.lineage = v.typeId w.lineage := by
  cases v with
  | object o =>
    change (w'.cls (w'.object o).cls).id = (w.cls (w.object o).cls).id
    rw [h.id, object, object, hobj]
  | _ => rfl

theorem typeName (h : w.SameBodies w') (hobj : w'.objects = w.objects) (v : Value) :
    w'.typeName v = w.typeName v := by
  cases v with
  | object o =>
    obtain ⟨rs, hrs⟩ := h.cls (w'.classOfObject o)
    have ho : w'.classOfObject o = w.classOfObject o := by
      rw [classOfObject, classOfObject, object, object, hobj]
    change (w'.cls (w'.classOfObject o)).name = (w.cls (w.classOfObject o)).name
    rw [hrs, ho]
  | _ => rfl

end SameBodies

section Lookups

variable {c : Site.Context} {current : Bool} {receiver : Value} {args : List Value}

private theorem run_planMissingMethod (c : Site.Context) (r : ClassRef) (receiver : Value)
    (args : List Value) (w : World) :
    ((planMissingMethod c r receiver args).run w).2 = w.allocate.2 := by
  rw [planMissingMethod, Update.run_modifyGet_bind, Update.run_get_bind]
  dsimp only
  split <;> rfl

/-- Something that the class of the type offers fits the arguments. -/
def Fits (w : World) (rt : Nat) (b : BuiltinType) (name : String) (args : List Value) : Prop :=
  ∀ r, w.classFor? rt b.id = some r →
    (pick w.lineage (b.offers (w.cls r).ancestors.length name) args).isSome

/-- A full lookup invokes what it picks, where it picks anything. -/
private theorem Attained.planFully_native (hw' : w'.Attained) (hb : w'.Untouched b)
    (ho : w'.Untouched .object) (hquiet : w.active = []) (hrt : c.runtime < w.runtimes.size)
    (hrec : receiver.native? = some b) (hfits : w'.Fits c.runtime b c.name args) {plan : Plan}
    (hp : (planFully c (.call current receiver args)).run w = (plan, w')) :
    ∃ k m, pick w'.lineage (b.offers k c.name) args = some m ∧ plan = .invokeWith m receiver args := by
  obtain ⟨r, w₁, hf⟩ := (w.counted c.runtime).exists_findClass_id c.runtime b
  have hnone : Category.findActive? (w.counted c.runtime).lineage (w.counted c.runtime).active receiver
      c.name args = none := by
    change Category.findActive? _ w.active receiver c.name args = none
    rw [hquiet]
    rfl
  have hentry : w₁.classFor? c.runtime b.id = some r :=
    classFor?_of_findClass (Nat.lt_of_lt_of_eq hrt Array.size_modify.symm) hf
  -- what holds of the class in the end
  have hfound (hentry' : w'.classFor? c.runtime b.id = some r) : (w'.cls r).hook = none
      ∧ (w'.hierarchy r).pickForCall w'.lineage c.owner current c.name args
        = pick w'.lineage (b.offers (w'.cls r).ancestors.length c.name) args := by
    obtain ⟨hlt, hid⟩ := hw'.inOrder.entries _ _ _ hentry'
    exact ⟨(hw'.sameMembers_toClass hb hlt hid).2, hw'.pickForCall_untouched hb ho hlt hid ..⟩
  rw [CachedDispatch.planFully_native hrec, planInstanceCall, run_recordSlowPath_bind,
    Update.run_get_bind, hnone] at hp
  dsimp only at hp
  rw [run_classOrFault_bind ((classOf_native hrec _ _).trans hf), Update.run_get_bind] at hp
  rcases hhook : (w₁.hierarchy r).own.hook with _ | body <;> rw [hhook] at hp <;> dsimp only at hp
  · rcases hm : (w₁.hierarchy r).pickForCall w₁.lineage c.owner current c.name args with _ | m <;>
      rw [hm] at hp <;> dsimp only at hp
    · -- nothing would have been picked
      obtain rfl : w₁.allocate.2 = w' := by
        rw [← run_planMissingMethod c r receiver (unwrapArgs args) w₁, hp]
      have hsome := hfits r hentry
      rw [← (hfound hentry).2] at hsome
      cases (congrArg Option.isSome hm).symm.trans hsome
    · obtain ⟨rfl, rfl⟩ := Prod.mk.inj hp
      have hpick := (hfound hentry).2.symm.trans hm
      refine ⟨_, m, hpick, ?_⟩
      rw [receiverFor, (BuiltinType.of_mem_offers (mem_of_pickBy hpick)).1, if_neg Bool.false_ne_true]
  · obtain ⟨-, rfl⟩ := Prod.mk.inj hp
    cases hhook.symm.trans (hfound hentry).1

end Lookups

section Sites

variable {c : Site.Context} {request : Request} {current : Bool} {receiver : Value} {args : List Value}
  {target : Target}

/-- A guard for the values of a type stands for the class that the registry has for it. -/
theorem classFor?_of_guardFor {w₀ : World} {rt : Nat} (hrt : rt < w₀.runtimes.size) {rc : ReceiverClass}
    (hrc : ReceiverClass.of? receiver = some rc) {r : ClassRef} {type : TypeId}
    (hg : (guardFor rt rc).run w₀ = (some (r, .valueOf type), w)) :
    w.classFor? rt type = some r := by
  cases rc with
  | literal t =>
    rw [guardFor, Update.run_modifyGet_bind] at hg
    rcases hf : w₀.findClass rt t with ⟨_ | q, w₁⟩ <;> rw [hf] at hg <;> cases hg
  | object o => cases hg
  | other v =>
    have hclass : w₀.classOf rt v = w₀.findClass rt (v.typeId w₀.lineage) := by
      cases receiver <;> cases hrc <;> rfl
    rw [guardFor, Update.run_get_bind, Update.run_modifyGet_bind, hclass] at hg
    rcases hf : w₀.findClass rt (v.typeId w₀.lineage) with ⟨_ | q, w₁⟩ <;> rw [hf] at hg <;> cases hg
    exact classFor?_of_findClass hrt hf

/-- A site for the values of an untouched type remembers a pick for the arguments that it was resolved
for. -/
private theorem Attained.pick_of_resolve {w₀ w₁ : World} {t : TableRef} {i : Nat} {site : Site}
    (hw : (w₁.installed t i c.runtime site).Attained)
    (hb : (w₁.installed t i c.runtime site).Untouched b)
    (ho : (w₁.installed t i c.runtime site).Untouched .object) (hrt : c.runtime < w₀.runtimes.size)
    (hr : (resolve c request).run w₀ = (some site, w₁))
    (hsite : site = .method (.valueOf b.id) target current) :
    ∃ receiver args k, request = .call current receiver args
      ∧ target.shape = Shape.of w₁.lineage args
      ∧ pick w₁.lineage (b.offers k c.name) args = some target.method := by
  obtain ⟨w', -, hsize, hres⟩ := resolved_of_resolve hr
  cases hres with
  | @method receiver args _ rc r guard m hrc _ hg _ hm =>
    obtain ⟨rfl, rfl, rfl⟩ := Site.method.inj hsite
    have hentry := classFor?_of_guardFor (hsize ▸ hrt) hrc hg
    obtain ⟨hlt, hid⟩ := hw.inOrder.entries c.runtime b.id r (by
      rwa [classFor?, World.installed, registry_updateStats])
    exact ⟨receiver, args, _, rfl, rfl, (hw.pickForCall_untouched hb ho hlt hid ..).symm.trans hm⟩
  | _ => cases hsite

/-- What serves a call on a receiver that only values of a type are like is a site for these, and it has the
shape of the arguments. -/
private theorem method_of_cached?
    (hguard : ∀ guard : Guard, guard.admits w receiver = true → guard = .valueOf b.id) {site : Site}
    {plan : Plan} (h : site.cached? w (.call current receiver args) = some plan) :
    ∃ target, site = .method (.valueOf b.id) target current
      ∧ target.shape = Shape.of w.lineage args ∧ plan = target.invoke w receiver args := by
  cases Site.cached?_eq_some_iff.mp h with
  | call ha hv => exact ⟨_, by rw [hguard _ ha], hv.shape, rfl⟩

end Sites

/-- Sessions come to the world, neither the type nor the root type has been touched, and no category is in
force. -/
structure Plain (w : World) (b : BuiltinType) : Prop where
  attained : w.Attained
  own : w.Untouched b
  root : w.Untouched .object
  quiet : w.active = []

/-- The method was picked among what the type offers, in a world that has become this one and for arguments
of the same shape. -/
def Picked (w : World) (b : BuiltinType) (name : String) (args : List Value) (m : Method) : Prop :=
  ∃ w₀ k us, w₀.Attained ∧ Deeds w₀ w ∧ Shape.of w₀.lineage us = Shape.of w.lineage args
    ∧ pick w₀.lineage (b.offers k name) us = some m

section Planning

variable {t : TableRef} {i : Nat} {slot : Slot} {current : Bool} {receiver : Value} {args : List Value}

/-- A plan from memory invokes what was picked when the site was made. -/
theorem Stems.picked {c : Site.Context} {site : Site} (h : Stems w c site) (hb : w.Untouched b)
    (ho : w.Untouched .object)
    (hguard : ∀ guard : Guard, guard.admits w receiver = true → guard = .valueOf b.id) {plan : Plan}
    (hit : site.cached? w (.call current receiver args) = some plan) :
    ∃ m tier, plan = .invoke m receiver (prepare m args tier) ∧ w.Picked b c.name args m := by
  obtain ⟨target, hsite, hshape, rfl⟩ := method_of_cached? hguard hit
  obtain ⟨hw₀, hd, hrt, -, hr, hds⟩ := h
  have hw₁ := hw₀.deed hd
  obtain ⟨-, us, k, -, hus, hpick⟩ :=
    hw₁.pick_of_resolve (hb.of_deeds hw₁ hds) (ho.of_deeds hw₁ hds) hrt hr hsite
  refine ⟨target.method, target.tier, ?_, _, k, us, hw₁, hds, hus.symm.trans hshape, hpick⟩
  rw [Target.invoke, receiverFor, (BuiltinType.of_mem_offers (mem_of_pickBy hpick)).1,
    if_neg Bool.false_ne_true]

/-- Whatever its course, a call comes to the plan to invoke a method that was picked so. Where the occupant
does not serve the call it was picked for these arguments. -/
private theorem Plain.planAt_native (h : w.Plain b) (hs : w.slot? t i = some slot)
    (ha : .asked t i (.call current receiver args) ∈ w.history) (hrec : receiver.native? = some b)
    (hfits : ((planAt t slot (.call current receiver args)).run w).2.Fits (w.table t).runtime b slot.name
      args) :
    ∃ origin m tier w', (planAt t slot (.call current receiver args)).run w
        = (⟨origin, .invoke m receiver (prepare m args tier)⟩, w')
      ∧ w'.Picked b slot.name args m
      ∧ (slot.site.cached? w (.call current receiver args) = none →
        ∃ k, pick w'.lineage (b.offers k slot.name) args = some m) := by
  obtain ⟨hw, hb, ho, hquiet⟩ := h
  have hrt : (w.siteContext t slot).runtime < w.runtimes.size := (hw.visited.slot_mem hs).1
  have hplan : Deed w _ := .plan hs ha
  have hbodies := SameBodies.planAt t slot (.call current receiver args) w
  rcases hp : (planAt t slot (.call current receiver args)).run w with ⟨⟨origin, plan⟩, w'⟩
  rw [hp] at hplan hbodies hfits
  have hw' := hw.deed hplan
  have hb' := hbodies.untouched hb
  have ho' := hbodies.untouched ho
  rcases hw.source hs ha (onNull_native hrec current args) hp with
    ⟨site, hstems, hit, hmiss⟩ | ⟨w₁, hact, hsize, hrun⟩
  · have hguard (guard : Guard) (h : guard.admits w' receiver = true) : guard = .valueOf b.id :=
      Guard.eq_valueOf_native hrec h
    obtain ⟨m, tier, rfl, hpicked⟩ := hstems.picked hb' ho' hguard hit
    refine ⟨origin, m, tier, w', rfl, hpicked, fun hnone => ?_⟩
    obtain ⟨w₁, hr, rfl⟩ := hmiss hnone
    obtain ⟨target, hsite, -, hinvoke⟩ := method_of_cached? hguard hit
    obtain ⟨receiver', args', k, hrequest, -, hpick⟩ := hw'.pick_of_resolve hb' ho' hrt hr hsite
    obtain ⟨-, rfl, rfl⟩ := Request.call.inj hrequest
    obtain rfl : m = target.method := (Plan.invoke.inj hinvoke).1
    exact ⟨k, hpick⟩
  · have hquiet₁ : w₁.active = [] := hact.elim (fun h => h ▸ hquiet) fun h => h
    have hrt₁ : (w.siteContext t slot).runtime < w₁.runtimes.size := hsize ▸ hrt
    obtain ⟨k, m, hpick, rfl⟩ := hw'.planFully_native hb' ho' hquiet₁ hrt₁ hrec hfits hrun
    exact ⟨origin, m, .baseline, w', rfl, ⟨w', k, args, hw', .refl, rfl, hpick⟩, fun _ => ⟨k, hpick⟩⟩

end Planning

end World

/-- Arguments that are no wrappers stay as they are where no parameter is a float. -/
theorem prepare_of_plain {m : Method} {args : List Value} (hm : .exact .float ∉ m.params)
    (hargs : ∀ v ∈ args, v.isWrapper = false) (tier : Tier) : prepare m args tier = args := by
  let lin : Lineage := fun _ => []
  have hunwrapped : ∀ k ∈ Shape.of lin args, k.wrapped = false :=
    (noWrappers_iff lin args).mp (by simpa [noWrappers] using hargs)
  have hcoerced : coerceArgs m.params args = args :=
    @coerceArgs_of_ne lin m.params args fun e he hfloat =>
      absurd (hfloat ▸ (List.of_mem_zip he).1) hm
  cases tier with
  | noUnwrapNoCoerce => rfl
  | noUnwrap => exact hcoerced
  | baseline => rw [prepare, unwrapArgs_of_unwrapped hunwrapped, hcoerced]

/-- A dispatch comes to this answer. -/
def World.Answers (w : World) (run : Runner) (t : TableRef) (i : Nat) (request : Request)
    (answer : Except Fault Value) : Prop :=
  ∃ w', (dispatch run t i request).result.run w = .ok (answer, w')

/-- An operation is applied to what the method gets. -/
private theorem Method.result_invoke_primitive {m : Method} {p : Primitive} (hk : m.kind = .native)
    (hc : m.code = .primitive p) (script : Script.Body → Frame → Exec Fault Value) (receiver : Value)
    (args : List Value) (w : World) :
    (m.invoke (.ofScripts script) receiver args).result.run w
      = .ok (p.apply w.naming w.fresh receiver args,
        (w.record (.ran (.primitive p) { receiver, args })).allocate.2) := by
  let w₁ := w.record (.ran (.primitive p) { receiver, args })
  unfold Method.invoke
  rw [hk, hc]
  dsimp only [Runner.ofScripts]
  rw [Exec.result_modify_bind, runPrimitive, Exec.result_ofUpdate_modifyGet_bind, Exec.result_get_bind]
  rcases h : p.apply w₁.allocate.2.naming w₁.allocate.1 receiver args with f | v
  · rw [show p.apply w.naming w.fresh receiver args = .error f from h]
    rfl
  · rw [show p.apply w.naming w.fresh receiver args = .ok v from h]
    rfl

/-- The world has come on, with objects and classes as they were but for the ancestors of classes. -/
structure World.Consulted (w w' : World) : Prop where
  deeds : Deeds w w'
  bodies : w.SameBodies w'
  objects : w'.objects = w.objects

/-- Where a slot is. -/
structure SlotRef where
  table : TableRef
  index : Nat

/-- There is a slot there, and it is for calls of that name. -/
def World.SlotNamed (w : World) (s : SlotRef) (name : String) : Prop :=
  (w.slot? s.table s.index).map Slot.name = some name

instance (w : World) (s : SlotRef) (name : String) : Decidable (w.SlotNamed s name) :=
  inferInstanceAs (Decidable ((w.slot? s.table s.index).map Slot.name = some name))

/-- A dispatch comes to this answer, and the world has come on to this one with the same categories in
force. -/
structure World.Replies (w : World) (run : Runner) (t : TableRef) (i : Nat) (request : Request)
    (answer : Except Fault Value) (w' : World) : Prop extends Consulted w w' where
  result : (dispatch run t i request).result.run w = .ok (answer, w')
  active : w'.active = w.active

namespace World.Replies

variable {w w' : World} {run : Runner} {t : TableRef} {i : Nat} {request : Request}
  {answer : Except Fault Value}

theorem answers (h : w.Replies run t i request answer w') : w.Answers run t i request answer :=
  ⟨w', h.result⟩

/-- What was plain is plain afterwards. -/
private theorem plain (h : w.Replies run t i request answer w') {b : BuiltinType} (hw : w.Plain b) :
    w'.Plain b :=
  ⟨hw.attained.deeds h.deeds, h.bodies.untouched hw.own, h.bodies.untouched hw.root,
    h.active.trans hw.quiet⟩

/-- Slots keep their names. -/
private theorem slotNamed (h : w.Replies run t i request answer w') (hw : w.Attained) {s : SlotRef}
    {name : String} (hs : w.SlotNamed s name) : w'.SlotNamed s name := by
  obtain ⟨slot, hslot, rfl⟩ := Option.map_eq_some_iff.mp hs
  obtain ⟨slot', hslot', hheader, -⟩ :=
    (h.deeds.turns.balanced hw.visited.balanced).2.slot s.table s.index slot hslot
  have hslot' : w'.slot? s.table s.index = some slot' := hslot'
  rw [SlotNamed, hslot', Option.map_some, Slot.name, hheader]
  rfl

end World.Replies

/-- A call at a slot. -/
def callAt (run : Runner) (current : Bool) (s : SlotRef) (receiver : Value) (args : List Value) :
    Exec Fault Value :=
  dispatch run s.table s.index (.call current receiver args)

/-- For calls of that name on the value, with these arguments, every slot comes to this answer, whatever
occupies it. -/
def World.Computes (w : World) (receiver : Value) (name : String) (args : List Value)
    (answer : Except Fault Value) : Prop :=
  ∀ s, w.SlotNamed s name → ∀ (script : Script.Body → Frame → Exec Fault Value) (current : Bool),
    ∃ w', w.Replies (.ofScripts script) s.table s.index (.call current receiver args) answer w'

/-- After a call the same slots are there, in a world that is plain again. -/
theorem World.Computes.exists_result {w : World} {receiver : Value} {name : String} {args : List Value}
    {answer : Except Fault Value} (h : w.Computes receiver name args answer) {b : BuiltinType}
    (hw : w.Plain b) {s : SlotRef} (hs : w.SlotNamed s name)
    (script : Script.Body → Frame → Exec Fault Value) (current : Bool) :
    ∃ w', (callAt (.ofScripts script) current s receiver args).result.run w = .ok (answer, w')
      ∧ w'.Plain b ∧ ∀ u name, w.SlotNamed u name → w'.SlotNamed u name := by
  obtain ⟨w', hreplies⟩ := h s hs script current
  exact ⟨w', hreplies.result, hreplies.plain hw, fun _ _ => hreplies.slotNamed hw.attained⟩

/-- Where the plan is to invoke an operation the answer is what it makes of the receiver and the arguments. -/
theorem World.replies_of_invoke {w w' : World} {t : TableRef} {i : Nat} {slot : Slot}
    {request : Request}
    {origin : Origin} {m : Method} {p : Primitive} {receiver : Value} {us : List Value}
    (hs : w.slot? t i = some slot)
    (hp : (planAt t slot request).run (w.record (.asked t i request))
      = (⟨origin, .invoke m receiver us⟩, w'))
    (hkind : m.kind = .native) (hcode : m.code = .primitive p)
    (script : Script.Body → Frame → Exec Fault Value) :
    w.Consulted w' ∧ ∃ w'', w.Replies (.ofScripts script) t i request
      ((p.apply w'.naming w'.fresh receiver us).mapError Fault.bare) w'' := by
  have hs' : (w.record (.asked t i request)).slot? t i = some slot := hs
  have hplan : Deed (w.record (.asked t i request)) _ := .plan hs' List.mem_cons_self
  have hasked : w.SameBodies (w.record (.asked t i request)) := .of_eq rfl
  have hbodies := hasked.trans (.planAt t slot request _)
  have hstage := sameStage_planAt t slot request (w.record (.asked t i request))
  rw [hp] at hplan hbodies hstage
  have hdeeds : Deeds w w' := .tail (.single (.record w (.asked t i request))) hplan
  let answer := (p.apply w'.naming w'.fresh receiver us).mapError Fault.bare
  let w₁ := (w'.record (.ran (.primitive p) { receiver, args := us })).allocate.2
  refine ⟨⟨hdeeds, hbodies, hstage.objects⟩, w₁.record (.answered answer),
    ⟨⟨?_, hbodies.trans (.of_eq rfl), hstage.objects⟩, ?_, hstage.active⟩⟩
  · exact ((hdeeds.tail (.record w' _)).tail (.allocate _)).tail (.record w₁ (.answered answer))
  · rw [result_dispatch, result_serve hs' hp, Plan.run, Exec.result_adapt,
      Method.result_invoke_primitive hkind hcode]
    dsimp only [answer]
    rcases p.apply w'.naming w'.fresh receiver us with f | v
    · dsimp only
      rw [Origin.bare_pass]
      rfl
    · rfl

namespace World.Plain

variable {w : World} {b : BuiltinType} {t : TableRef} {i : Nat} {slot : Slot} {receiver : Value}
  {args : List Value}

theorem record (h : w.Plain b) (e : Event) : (w.record e).Plain b :=
  ⟨h.attained.deed (.record w e), h.own, h.root, h.quiet⟩

/-- A call on a value of the type answers what the operation of the method that was picked makes of the
receiver and the prepared arguments. -/
private theorem replies_native (h : w.Plain b) (hs : w.slot? t i = some slot)
    (hrec : receiver.native? = some b) (current : Bool)
    (hfits : ((planAt t slot (.call current receiver args)).run
      (w.record (.asked t i (.call current receiver args)))).2.Fits (w.table t).runtime b slot.name args)
    (script : Script.Body → Frame → Exec Fault Value) :
    ∃ m p tier w' w'', m.code = .primitive p
      ∧ w.Replies (.ofScripts script) t i (.call current receiver args)
        ((p.apply w'.naming w'.fresh receiver (prepare m args tier)).mapError Fault.bare) w''
      ∧ w.Consulted w' ∧ w'.Picked b slot.name args m
      ∧ (slot.site.cached? w (.call current receiver args) = none →
        ∃ k, pick w'.lineage (b.offers k slot.name) args = some m) := by
  obtain ⟨origin, m, tier, w', hp, ⟨w₀, k, us, hw₀, hds, hshape, hpick⟩, hfresh⟩ :=
    (h.record (.asked t i (.call current receiver args))).planAt_native hs List.mem_cons_self hrec hfits
  obtain ⟨-, hkind, p, hcode⟩ := BuiltinType.of_mem_offers (mem_of_pickBy hpick)
  obtain ⟨hcons, w'', hreplies⟩ := replies_of_invoke hs hp hkind hcode script
  exact ⟨m, p, tier, w', w'', hcode, hreplies, hcons, ⟨w₀, k, us, hw₀, hds, hshape, hpick⟩, hfresh⟩

theorem answers_native (h : w.Plain b) (hs : w.slot? t i = some slot) (hrec : receiver.native? = some b)
    (hfits : ∀ lin k, (pick lin (b.offers k slot.name) args).isSome) (current : Bool)
    (script : Script.Body → Frame → Exec Fault Value) :
    ∃ m p tier w', m.code = .primitive p
      ∧ w.Answers (.ofScripts script) t i (.call current receiver args)
        ((p.apply w'.naming w'.fresh receiver (prepare m args tier)).mapError Fault.bare)
      ∧ w.Consulted w' ∧ w'.Picked b slot.name args m
      ∧ (slot.site.cached? w (.call current receiver args) = none →
        ∃ k, pick w'.lineage (b.offers k slot.name) args = some m) := by
  obtain ⟨m, p, tier, w', w'', hcode, hreplies, hrest⟩ :=
    h.replies_native hs hrec current (fun _ _ => hfits ..) script
  exact ⟨m, p, tier, w', hcode, hreplies.answers, hrest⟩

/-- Where all picks for arguments of this shape are the same there is nothing to choose. -/
theorem replies_of_pick (h : w.Plain b) (hs : w.slot? t i = some slot)
    (hrec : receiver.native? = some b)
    (current : Bool)
    (hfits : ((planAt t slot (.call current receiver args)).run
      (w.record (.asked t i (.call current receiver args)))).2.Fits (w.table t).runtime b slot.name args)
    {m : Method} {p : Primitive}
    (hpick : ∀ lin k us m', Shape.of lin us = Shape.of w.lineage args →
      pick lin (b.offers k slot.name) us = some m' → m' = m)
    (hcode : m.code = .primitive p) (hparams : .exact .float ∉ m.params)
    (hargs : ∀ v ∈ args, v.isWrapper = false) (script : Script.Body → Frame → Exec Fault Value) :
    ∃ names alloc w', w.Replies (.ofScripts script) t i (.call current receiver args)
      ((p.apply names alloc receiver args).mapError Fault.bare) w' := by
  obtain ⟨m', p', tier, w', w'', hcode', hreplies, hcons, ⟨w₀, k, us, -, -, hshape, hm⟩, -⟩ :=
    h.replies_native hs hrec current hfits script
  have hshape' : Shape.of w'.lineage args = Shape.of w.lineage args :=
    List.map_congr_left fun v hv => by
      rw [ShapeKey.of_unwrapped (hargs v hv), ShapeKey.of_unwrapped (hargs v hv),
        hcons.bodies.typeId hcons.objects]
  obtain rfl := hpick _ k us m' (hshape.trans hshape') hm
  obtain rfl : p = p' := Code.primitive.inj (hcode.symm.trans hcode')
  rw [prepare_of_plain hparams hargs] at hreplies
  exact ⟨_, _, w'', hreplies⟩

/-- So it is where only one method is offered. -/
private theorem replies_sole (h : w.Plain b) (hs : w.slot? t i = some slot)
    (hrec : receiver.native? = some b) {m : Method} {p : Primitive}
    (hsole : ∀ k, b.offers k slot.name = [m]) (hrank : ∀ lin, (m.rank? lin args).isSome)
    (hcode : m.code = .primitive p) (hparams : .exact .float ∉ m.params)
    (hargs : ∀ v ∈ args, v.isWrapper = false) (current : Bool)
    (script : Script.Body → Frame → Exec Fault Value) :
    ∃ names alloc w', w.Replies (.ofScripts script) t i (.call current receiver args)
      ((p.apply names alloc receiver args).mapError Fault.bare) w' := by
  have hfits (lin : Lineage) (k : Nat) : (pick lin (b.offers k slot.name) args).isSome = true := by
    obtain ⟨d, hd⟩ := Option.isSome_iff_exists.mp (hrank lin)
    rw [hsole, pick, pickBy, List.foldl_cons, List.foldl_nil]
    simp only [better, hd, Option.map_some, Option.isSome_some]
  refine h.replies_of_pick hs hrec current (fun _ _ => hfits ..) (fun lin k us m' _ hm => ?_) hcode
    hparams hargs script
  have hmem := mem_of_pickBy hm
  rwa [hsole, List.mem_singleton] at hmem

theorem answers_sole (h : w.Plain b) (hs : w.slot? t i = some slot) (hrec : receiver.native? = some b)
    {m : Method} {p : Primitive} (hsole : ∀ k, b.offers k slot.name = [m])
    (hrank : ∀ lin, (m.rank? lin args).isSome) (hcode : m.code = .primitive p)
    (hparams : .exact .float ∉ m.params) (hargs : ∀ v ∈ args, v.isWrapper = false) (current : Bool)
    (script : Script.Body → Frame → Exec Fault Value) :
    ∃ names alloc, w.Answers (.ofScripts script) t i (.call current receiver args)
      ((p.apply names alloc receiver args).mapError Fault.bare) := by
  obtain ⟨names, alloc, w', hreplies⟩ :=
    h.replies_sole hs hrec hsole hrank hcode hparams hargs current script
  exact ⟨names, alloc, hreplies.answers⟩

section Computing

variable {name : String} {m : Method} {ms : List Method} {p : Primitive} {answer : Except Fault Value}

theorem computes_sole (h : w.Plain b) (hrec : receiver.native? = some b)
    (hsole : ∀ k, b.offers k name = [m]) (hrank : ∀ lin, (m.rank? lin args).isSome)
    (hcode : m.code = .primitive p) (hparams : .exact .float ∉ m.params)
    (hargs : ∀ v ∈ args, v.isWrapper = false)
    (happly : ∀ names alloc, (p.apply names alloc receiver args).mapError Fault.bare = answer) :
    w.Computes receiver name args answer := by
  intro s hname script current
  obtain ⟨slot, hs, rfl⟩ := Option.map_eq_some_iff.mp hname
  obtain ⟨names, alloc, w', hreplies⟩ :=
    h.replies_sole hs hrec hsole hrank hcode hparams hargs current script
  exact ⟨w', happly names alloc ▸ hreplies⟩

/-- A first method that asks for exactly the types of the arguments is chosen too, whatever follows it. -/
theorem computes_exact (h : w.Plain b) (hrec : receiver.native? = some b)
    (hoffers : ∀ k, b.offers k name = m :: ms) (hcode : m.code = .primitive p) (types : List TypeId)
    (hparams : m.params = types.map .exact) (htypes : .object ∉ types ∧ .float ∉ types)
    (hshape : ∀ lin, Shape.of lin args = types.map (⟨·, false⟩))
    (happly : ∀ names alloc, (p.apply names alloc receiver args).mapError Fault.bare = answer) :
    w.Computes receiver name args answer := by
  have hpick {lin : Lineage} (k : Nat) {us : List Value} (hus : Shape.of lin us = types.map (⟨·, false⟩)) :
      pick lin (b.offers k name) us = some m := by
    rw [hoffers]
    refine pickBy_cons (rank?_of_types ?_ fun key hkey => ?_) fun _ _ _ _ => Nat.zero_le _
    · rw [hparams, hus, List.map_map]
      rfl
    · rw [hus] at hkey
      obtain ⟨type, htype, rfl⟩ := List.mem_map.mp hkey
      exact fun hobject => htypes.1 (hobject ▸ htype)
  have hfloat : .exact .float ∉ m.params := by
    rw [hparams]
    intro hmem
    obtain ⟨type, htype, heq⟩ := List.mem_map.mp hmem
    exact htypes.2 (ParamType.exact.inj heq ▸ htype)
  have hargs : ∀ v ∈ args, v.isWrapper = false := by
    intro v hv
    have hkey : ShapeKey.of w.lineage v ∈ types.map (⟨·, false⟩) := hshape _ ▸ List.mem_map_of_mem hv
    obtain ⟨type, -, hkey⟩ := List.mem_map.mp hkey
    rw [← ShapeKey.of_wrapped w.lineage, ← hkey]
  intro s hname script current
  obtain ⟨slot, hs, rfl⟩ := Option.map_eq_some_iff.mp hname
  obtain ⟨names, alloc, w', hreplies⟩ := h.replies_of_pick hs hrec current
    (fun _ _ => by rw [hpick _ (hshape _)]; rfl)
    (fun lin k us m' hus hm' => (Option.some.inj ((hpick k (hus.trans (hshape _))).symm.trans hm')).symm)
    hcode hfloat hargs script
  exact ⟨w', happly names alloc ▸ hreplies⟩

end Computing

end World.Plain

end CachedDispatch
