import CachedDispatch.Machine
import CachedDispatch.Proofs.Changes
import CachedDispatch.Proofs.Heaps
import CachedDispatch.Proofs.NativeCalls

/-!
Which values runs come to. The world has a heap that all its values are in. Whatever runs, the heap grows at
most, all values of the world are in it again, and so is what comes out. A number is allocated once and for
one value, because the heap has nothing yet for the numbers to come.
-/
namespace CachedDispatch

open World Value

section InHeap

variable (heap : Heap)

def Request.InHeap : Request → Prop
  | .call _ receiver args => receiver.InHeap heap ∧ ItemsInHeap heap args
  | .static _ args | .construct _ args => ItemsInHeap heap args
  | .property receiver => receiver.InHeap heap

def Frame.InHeap (frame : Frame) : Prop := frame.receiver.InHeap heap ∧ ItemsInHeap heap frame.args

def Event.InHeap : Event → Prop
  | .asked _ _ request => request.InHeap heap
  | .ran _ frame => frame.InHeap heap
  | .answered result => Gives (Value.InHeap heap) result

/-- All values of the world are in the heap, which has nothing for the numbers to come. -/
structure World.Stocked (w : World) : Prop where
  bounded : ∀ a v, heap a = some v → a < w.fresh
  fields : ∀ o, EntriesInHeap heap (w.object o).fields
  statics : ∀ r, EntriesInHeap heap (w.cls r).staticFields
  stored : EntriesInHeap heap w.scope.stored
  constants : ∀ e ∈ w.scope.units, ItemsInHeap heap e.2.program.constants.toList
  events : ∀ e ∈ w.history, e.InHeap heap

end InHeap

section Growth

variable {heap heap' : Heap} (hg : heap.Grows heap')
include hg

private theorem Request.InHeap.mono {request : Request} (h : request.InHeap heap) :
    request.InHeap heap' := by
  cases request with
  | call => exact ⟨Value.InHeap.mono hg h.1, ItemsInHeap.mono hg h.2⟩
  | static | construct => exact ItemsInHeap.mono hg h
  | property => exact Value.InHeap.mono hg h

theorem Frame.InHeap.mono {frame : Frame} (h : frame.InHeap heap) : frame.InHeap heap' :=
  ⟨Value.InHeap.mono hg h.1, ItemsInHeap.mono hg h.2⟩

private theorem Event.InHeap.mono {e : Event} (h : e.InHeap heap) : e.InHeap heap' := by
  cases e with
  | asked => exact Request.InHeap.mono hg h
  | ran => exact Frame.InHeap.mono hg h
  | answered => exact fun v hv => Value.InHeap.mono hg (h v hv)

end Growth

namespace World.Stocked

variable {w w' : World} {heap : Heap}

private theorem free (h : w.Stocked heap) : heap w.fresh = none := by
  rcases ha : heap w.fresh with _ | v
  · rfl
  · exact absurd (h.bounded _ v ha) (Nat.lt_irrefl _)

/-- Nothing of the world has changed that has to do with values. -/
theorem of_eq (h : w.Stocked heap) (hfresh : w.fresh ≤ w'.fresh) (hobjects : w'.objects = w.objects)
    (hstatics : ∀ r, (w'.cls r).staticFields = (w.cls r).staticFields)
    (hstored : w'.scope.stored = w.scope.stored) (hunits : w'.scope.units = w.scope.units)
    (hhistory : w'.history = w.history) : w'.Stocked heap where
  bounded a v ha := Nat.lt_of_lt_of_le (h.bounded a v ha) hfresh
  fields o := by
    rw [object, hobjects]
    exact h.fields o
  statics r := hstatics r ▸ h.statics r
  stored := hstored ▸ h.stored
  constants := hunits ▸ h.constants
  events := hhistory ▸ h.events

/-- A number is allocated for a value. -/
private theorem allocate (h : w.Stocked heap) (v : Value) :
    w.allocate.2.Stocked (heap.put w.fresh v) := by
  have hg := Heap.grows_put h.free v
  refine ⟨fun a u ha => ?_, fun o => (h.fields o).mono hg, fun r => (h.statics r).mono hg, h.stored.mono hg,
    fun e he => (h.constants e he).mono hg, fun e he => (h.events e he).mono hg⟩
  by_cases hfresh : a = w.fresh
  · exact hfresh ▸ Nat.lt_succ_self _
  · have ha : heap a = some u := (if_neg hfresh).symm.trans ha
    exact Nat.lt_succ_of_lt (h.bounded a u ha)

private theorem record (h : w.Stocked heap) {e : Event} (he : e.InHeap heap) :
    (w.record e).Stocked heap :=
  ⟨h.bounded, h.fields, h.statics, h.stored, h.constants, fun e' he' =>
    (List.mem_cons.mp he').elim (fun heq => heq ▸ he) (h.events e')⟩

theorem newObject (h : w.Stocked heap) (r : ClassRef) : (w.newObject r).2.Stocked heap := by
  refine ⟨h.bounded, fun o => ?_, h.statics, h.stored, h.constants, h.events⟩
  simp only [object, World.newObject, getD_push]
  split
  · refine entriesInHeap_iff.mpr fun e he => ?_
    obtain ⟨name, -, rfl⟩ := List.mem_map.mp he
    trivial
  · exact h.fields o

theorem setField (h : w.Stocked heap) (o : ObjectRef) (name : String) {v : Value} (hv : v.InHeap heap) :
    (w.setField o name v).Stocked heap := by
  refine ⟨h.bounded, fun p => ?_, h.statics, h.stored, h.constants, h.events⟩
  simp only [object, World.setField, getD_modify]
  split
  · exact (h.fields p).set name hv
  · exact h.fields p

theorem updateClass (h : w.Stocked heap) (r : ClassRef) {f : Class → Class}
    (hf : EntriesInHeap heap (w.cls r).staticFields → EntriesInHeap heap (f (w.cls r)).staticFields) :
    (w.updateClass r f).Stocked heap := by
  refine ⟨h.bounded, h.fields, fun q => ?_, h.stored, h.constants, h.events⟩
  rw [cls_updateClass]
  split
  · rename_i hq
    exact hq.1 ▸ hf (h.statics r)
  · exact h.statics q

theorem addClass (h : w.Stocked heap) {c : Class} (hc : EntriesInHeap heap c.staticFields) :
    (w.addClass c).2.Stocked heap := by
  refine ⟨h.bounded, h.fields, fun q => ?_, h.stored, h.constants, h.events⟩
  rw [cls_addClass]
  split
  · exact hc
  · exact h.statics q

theorem findClass (h : w.Stocked heap) (rt : Nat) (t : TypeId) : (w.findClass rt t).2.Stocked heap := by
  have hrest := w.sameRest_findClass rt t
  refine h.of_eq (Nat.le_of_eq hrest.fresh.symm) hrest.objects (fun r => ?_)
    (congrArg Scope.stored hrest.scope) (congrArg Scope.units hrest.scope) hrest.history
  obtain ⟨rs, hrs⟩ := (SameBodies.findClass w rt t).cls r
  rw [hrs]

end World.Stocked

/-- What values are in stays as it is. -/
def World.KeepsStock (w w' : World) : Prop := ∀ heap, w.Stocked heap → w'.Stocked heap

private theorem World.allowsSlots_keepsStock : AllowsSlots KeepsStock where
  lookups rt := {
    refl := fun _ _ h => h
    trans := fun h h' heap hw => h' heap (h heap hw)
    findClass := fun _ t _ h => h.findClass rt t
    allocate := fun w _ h => h.of_eq (Nat.le_succ w.fresh) rfl (fun _ => rfl) rfl rfl rfl }
  count _ _ _ _ h := h.of_eq (Nat.le_refl _) rfl (fun _ => rfl) rfl rfl rfl
  write _ _ _ _ _ h := h.of_eq (Nat.le_refl _) rfl (fun _ => rfl) rfl rfl rfl

theorem World.allowsSearch_keepsStock (rt : Nat) : AllowsSearch rt KeepsStock :=
  (allowsSlots_keepsStock.lookups rt).toAllowsSearch

variable {α β ε : Type} {heap : Heap} {P : Heap → α → Prop} {Q : Heap → β → Prop}

/-- Nothing is said of what comes out. -/
abbrev Anything : Heap → α → Prop := fun _ _ => True

/-- From a world with this heap the computation comes to one with a heap that has grown at most, and what
comes out satisfies the predicate there. -/
def Act.Stocks (heap : Heap) (x : Act α) (P : Heap → α → Prop) : Prop :=
  ∀ w, w.Stocked heap → ∀ a w', x.run w = .ok (a, w') →
    ∃ heap', heap.Grows heap' ∧ w'.Stocked heap' ∧ P heap' a

namespace Act.Stocks

theorem pure {a : α} (h : P heap a) : Act.Stocks heap (Pure.pure a) P := by
  rintro w hw _ _ ⟨⟩
  exact ⟨heap, .refl _, hw, h⟩

theorem stop (s : Stop) : Act.Stocks heap (Act.stop s) P := by
  rintro _ _ _ _ ⟨⟩

theorem bind {x : Act α} {f : α → Act β} (hx : Act.Stocks heap x P)
    (hf : ∀ heap' a, heap.Grows heap' → P heap' a → Act.Stocks heap' (f a) Q) :
    Act.Stocks heap (x >>= f) Q := by
  intro w hw b w' h
  obtain ⟨a, w₁, hrun, h⟩ := Act.bind_eq_ok h
  obtain ⟨heap₁, hg₁, hw₁, ha⟩ := hx w hw a w₁ hrun
  obtain ⟨heap₂, hg₂, hw₂, hb⟩ := hf heap₁ a hg₁ ha w₁ hw₁ b w' h
  exact ⟨heap₂, hg₁.trans hg₂, hw₂, hb⟩

theorem look {k : World → Act β} (hk : ∀ w, w.Stocked heap → Act.Stocks heap (k w) Q) :
    Act.Stocks heap (get >>= k) Q :=
  fun w hw b w' h => hk w hw w hw b w' h

theorem act {f : World → α × World} (hf : ∀ w, w.Stocked heap →
      ∃ heap', heap.Grows heap' ∧ (f w).2.Stocked heap' ∧ P heap' (f w).1) :
    Act.Stocks heap (modifyGet f) P := by
  intro w hw a w' h
  have hrun : f w = (a, w') := Except.ok.inj h
  simpa only [hrun] using hf w hw

theorem change {f : World → World} (hf : ∀ w, w.Stocked heap → (f w).Stocked heap) :
    Act.Stocks heap (modify f) Anything := by
  rintro w hw _ _ ⟨⟩
  exact ⟨heap, .refl _, hf w hw, trivial⟩

/-- A number is allocated for a value that is made with it. -/
theorem allocated {make : Nat → Value}
    (hmake : ∀ n, heap n = none → (make n).InHeap (heap.put n (make n))) :
    Act.Stocks heap (modifyGet (·.allocate)) fun heap' n => (make n).InHeap heap' :=
  act fun w hw => ⟨_, Heap.grows_put hw.free _, hw.allocate (make w.fresh), hmake w.fresh hw.free⟩

theorem ofUpdate_bind {u : Update α} {f : α → Update β} (hu : Act.Stocks heap (Act.ofUpdate u) P)
    (hf : ∀ heap' a, heap.Grows heap' → P heap' a → Act.Stocks heap' (Act.ofUpdate (f a)) Q) :
    Act.Stocks heap (Act.ofUpdate (u >>= f)) Q := bind hu hf

theorem ofUpdate_look {k : World → Update β}
    (hk : ∀ w, w.Stocked heap → Act.Stocks heap (Act.ofUpdate (k w)) Q) :
    Act.Stocks heap (Act.ofUpdate (get >>= k)) Q :=
  fun w hw b w' h => hk w hw w hw b w' h

theorem ofUpdate {u : Update α} (hu : Update.Makes KeepsStock u) :
    Act.Stocks heap (Act.ofUpdate u) Anything := by
  intro w hw a w' h
  have hrun : u.run w = (a, w') := Except.ok.inj h
  refine ⟨heap, .refl _, ?_, trivial⟩
  simpa only [hrun] using hu w heap hw

end Act.Stocks

/-- So for executions, where what comes out counts if they do not fail. -/
abbrev Exec.Stocks (heap : Heap) (x : Exec ε α) (P : Heap → α → Prop) : Prop :=
  Act.Stocks heap x.run fun heap' => Gives (P heap')

namespace Exec.Stocks

theorem pure {a : α} (h : P heap a) :
    Exec.Stocks heap (Pure.pure a : Exec ε α) P := Act.Stocks.pure (.pure h)

theorem throw (e : ε) : Exec.Stocks heap (throw e : Exec ε α) P := Act.Stocks.pure (.throw e)

theorem bind {x : Exec ε α} {f : α → Exec ε β} (hx : Exec.Stocks heap x P)
    (hf : ∀ heap' a, heap.Grows heap' → P heap' a → Exec.Stocks heap' (f a) Q) :
    Exec.Stocks heap (x >>= f) Q := by
  refine Act.Stocks.bind hx fun heap' result hg h => ?_
  cases result with
  | ok a => exact hf heap' a hg (h a rfl)
  | error e => exact Act.Stocks.pure (.throw e)

theorem look {k : World → Exec ε β} (hk : ∀ w, w.Stocked heap → Exec.Stocks heap (k w) Q) :
    Exec.Stocks heap (get >>= k) Q :=
  fun w hw b w' h => hk w hw w hw b w' h

theorem lift {x : Act α} (hx : Act.Stocks heap x P) : Exec.Stocks heap (ExceptT.lift x : Exec ε α) P :=
  Act.Stocks.bind hx fun _ _ _ ha => Act.Stocks.pure (.pure ha)

theorem change {f : World → World} (hf : ∀ w, w.Stocked heap → (f w).Stocked heap) :
    Exec.Stocks heap (modify f : Exec ε Unit) Anything := by
  rintro w hw _ _ ⟨⟩
  exact ⟨heap, .refl _, hf w hw, .pure trivial⟩

private theorem adapt {x : Exec ε α} (hx : Exec.Stocks heap x P) (g : ε → ε) :
    Exec.Stocks heap (ExceptT.adapt g x) P := by
  refine Act.Stocks.bind hx fun heap' result _ h => Act.Stocks.pure ?_
  cases result with
  | ok a => exact h
  | error e => exact .throw (g e)

end Exec.Stocks

/-- Whatever code is run on values of a heap, the heap grows at most, and the answer is one of its values. -/
def Runner.Stocks (run : Runner) : Prop :=
  ∀ heap code frame, frame.InHeap heap → Exec.Stocks heap (run code frame) Value.InHeap

section Invoked

variable {run : Runner} (hrun : run.Stocks) {receiver : Value} {args : List Value}

private theorem stocks_runPrimitive (p : Primitive) {frame : Frame} (h : frame.InHeap heap) :
    Exec.Stocks heap (runPrimitive p frame) Value.InHeap := by
  intro w hw a w' hres
  replace hres : (runPrimitive p frame).result.run w = .ok (a, w') := hres
  rw [runPrimitive, Exec.result_ofUpdate_modifyGet_bind, Exec.result_get_bind] at hres
  rcases happly : p.apply w.allocate.2.naming w.allocate.1 frame.receiver frame.args with f | v <;>
    rw [happly] at hres <;> cases hres
  · exact ⟨_, Heap.grows_put hw.free .null, hw.allocate _, .throw f⟩
  · exact ⟨_, Heap.grows_put hw.free v, hw.allocate v,
      .pure (p.inHeap_apply hw.free h.1 h.2 v happly)⟩

theorem Runner.stocks_ofScripts {script : Script.Body → Frame → Exec Fault Value}
    (h : ∀ heap body frame, frame.InHeap heap → Exec.Stocks heap (script body frame) Value.InHeap) :
    (Runner.ofScripts script).Stocks := by
  intro heap code frame hframe
  refine Exec.Stocks.bind (.change fun w hw => hw.record hframe) fun heap' _ hg _ => ?_
  cases code with
  | primitive p => exact stocks_runPrimitive p (hframe.mono hg)
  | script body => exact h heap' body frame (hframe.mono hg)

include hrun

theorem Method.stocks_invoke (m : Method) (hr : receiver.InHeap heap) (ha : ItemsInHeap heap args) :
    Exec.Stocks heap (m.invoke run receiver args) Value.InHeap := by
  unfold Method.invoke
  split
  · exact hrun heap _ _ ⟨hr, ha⟩
  split
  · exact (hrun heap _ { receiver := .object _, args } ⟨trivial, ha⟩).bind fun _ _ _ _ => .pure trivial
  · exact .look fun _ _ => .throw _

private theorem Method.stocks_construct (cls : ClassRef) (m : Method) (ha : ItemsInHeap heap args) :
    Exec.Stocks heap (m.construct run cls args) Value.InHeap := by
  unfold Method.construct
  split
  · exact .look fun _ _ => hrun heap _ { receiver := .classLiteral _, args } ⟨trivial, ha⟩
  · have hnew : Act.Stocks heap (Act.ofUpdate (modifyGet (·.newObject cls))) Anything :=
      Act.Stocks.act fun w hw => ⟨heap, .refl _, hw.newObject cls, trivial⟩
    refine Exec.Stocks.bind (.lift hnew) fun heap' o hg _ => ?_
    exact (hrun heap' _ { receiver := .object o, args } ⟨trivial, ha.mono hg⟩).bind fun _ _ _ _ =>
      .pure trivial

end Invoked

private def Plan.InHeap (heap : Heap) : Plan → Prop
  | .invoke _ receiver args | .hook _ receiver _ args => receiver.InHeap heap ∧ ItemsInHeap heap args
  | .construct _ _ args => ItemsInHeap heap args
  | .bean _ _ args entries => ItemsInHeap heap args ∧ EntriesInHeap heap entries
  | .answer v | .setField _ _ v => v.InHeap heap
  | .fail _ => True

section Plans

variable {w : World} {c : Site.Context} {receiver : Value} {args : List Value}

theorem World.Stocked.field? (h : w.Stocked heap) {o : ObjectRef} {name : String} {v : Value}
    (hv : w.field? o name = some v) : v.InHeap heap :=
  (h.fields o).get? hv

private theorem World.Stocked.staticField? (h : w.Stocked heap) {r : ClassRef} {name : String}
    {v : Value} (hv : (w.hierarchy r).staticField? name = some v) : v.InHeap heap := by
  obtain ⟨c, hc, hv⟩ := List.exists_of_findSome?_eq_some hv
  rcases List.mem_cons.mp hc with rfl | hc
  · exact (h.statics r).get? hv
  · obtain ⟨q, -, rfl⟩ := List.mem_map.mp hc
    exact (h.statics q).get? hv

private theorem Plan.inHeap_invokeWith (m : Method) (hr : receiver.InHeap heap)
    (ha : ItemsInHeap heap args) : (Plan.invokeWith m receiver args).InHeap heap :=
  ⟨hr, itemsInHeap_prepare m .baseline ha⟩

private theorem inHeap_receiverFor (t : TypeId) (m : Method) (hr : receiver.InHeap heap) :
    (receiverFor t m receiver).InHeap heap := by
  unfold receiverFor
  split
  · trivial
  · exact hr

private theorem inHeap_beanSplit {positional : List Value} {entries : List (String × Value)}
    (ha : ItemsInHeap heap args) (h : beanSplit? args = some (positional, entries)) :
    ItemsInHeap heap positional ∧ EntriesInHeap heap entries := by
  unfold beanSplit? at h
  split at h <;> cases h
  · exact ⟨trivial, ha.1.2⟩
  · exact ⟨⟨ha.1, trivial⟩, ha.2.1.2⟩

private theorem Access.inHeap_read (hw : w.Stocked heap) (cls : ClassRef) (hr : receiver.InHeap heap)
    (access : Access) : (access.read w cls receiver).InHeap heap := by
  cases access with
  | field name =>
    cases receiver with
    | object o => exact inHeap_getD fun v hv => hw.field? hv
    | _ => trivial
  | accessor m => exact ⟨inHeap_receiverFor _ m hr, trivial⟩
  | entry key => exact inHeap_getD fun v hv => hr.entry? hv
  | staticField name => exact inHeap_getD fun v hv => hw.staticField? hv

private theorem Target.inHeap_invoke (target : Target) (hr : receiver.InHeap heap)
    (ha : ItemsInHeap heap args) : (target.invoke w receiver args).InHeap heap :=
  ⟨inHeap_receiverFor _ _ hr, itemsInHeap_prepare _ _ ha⟩

private theorem Site.inHeap_cached (hw : w.Stocked heap) {site : Site} {request : Request}
    (hr : request.InHeap heap) {plan : Plan} (h : site.cached? w request = some plan) :
    plan.InHeap heap := by
  cases cached?_eq_some_iff.mp h with
  | call => exact Target.inHeap_invoke _ hr.1 hr.2
  | static => exact Target.inHeap_invoke _ trivial hr
  | construct => exact itemsInHeap_prepare _ _ hr
  | bean hb =>
    obtain ⟨hp, he⟩ := inHeap_beanSplit hr hb
    exact ⟨itemsInHeap_prepare _ _ hp, he⟩
  | property => exact Access.inHeap_read hw _ hr _

private theorem stocks_recordSlowPath (rt : Nat) :
    Act.Stocks heap (Act.ofUpdate (recordSlowPath rt)) Anything :=
  .ofUpdate fun w => allowsSlots_keepsStock.count w rt Stats.slow

theorem stocks_classOrFault (rt : Nat) (v : Value) :
    Act.Stocks heap (Act.ofUpdate (classOrFault rt v)) Anything :=
  .ofUpdate (makes_classOrFault (allowsSearch_keepsStock rt) v)

private theorem stocks_typeOrFault (rt : Nat) (t : TypeId) :
    Act.Stocks heap (Act.ofUpdate (typeOrFault rt t)) Anything :=
  .ofUpdate (makes_typeOrFault (allowsSearch_keepsStock rt) t)

theorem stocks_rootClass (rt : Nat) {b : BuiltinType} (hb : b.isRoot = true) :
    Act.Stocks heap (Act.ofUpdate (modifyGet (·.rootClass rt b))) Anything :=
  .ofUpdate (makes_rootClass (allowsSearch_keepsStock rt) hb)

private theorem stocks_planNullCall (ha : ItemsInHeap heap args) :
    Act.Stocks heap (Act.ofUpdate (planNullCall c args)) Plan.InHeap := by
  refine .ofUpdate_bind (stocks_rootClass _ rfl) fun heap' null hg _ => .ofUpdate_look fun w hw => ?_
  dsimp only
  split
  · exact .pure ⟨trivial, itemsInHeap_coerceArgs _ (itemsInHeap_unwrapArgs (ha.mono hg))⟩
  · exact .pure trivial

private theorem stocks_planNullProperty :
    Act.Stocks heap (Act.ofUpdate (planNullProperty c)) Plan.InHeap := by
  refine .ofUpdate_bind (stocks_rootClass _ rfl) fun heap' null hg _ => .ofUpdate_look fun w hw => ?_
  split
  · exact .pure ⟨trivial, trivial⟩
  · exact .pure trivial

private theorem stocks_planMissingMethod (cls : ClassRef) (hr : receiver.InHeap heap)
    (ha : ItemsInHeap heap args) :
    Act.Stocks heap (Act.ofUpdate (planMissingMethod c cls receiver args)) Plan.InHeap := by
  have halloc : Act.Stocks heap (Act.ofUpdate (modifyGet (·.allocate))) fun heap' n =>
      (Value.list n args).InHeap heap' := .allocated fun n hn => inHeap_put_list hn ha
  refine .ofUpdate_bind halloc fun heap' n hg hn => .ofUpdate_look fun w hw => ?_
  dsimp only
  split
  · exact .pure (Plan.inHeap_invokeWith _ (hr.mono hg) ⟨trivial, hn, trivial⟩)
  · exact .pure trivial

private theorem stocks_planStatic (t : TypeId) (ha : ItemsInHeap heap args) :
    Act.Stocks heap (Act.ofUpdate (planStatic c t args)) Plan.InHeap := by
  refine .ofUpdate_bind (stocks_recordSlowPath _) fun heap₁ _ hg₁ _ => ?_
  refine .ofUpdate_bind (stocks_typeOrFault _ t) fun heap₂ found hg₂ _ => ?_
  cases found with
  | error f => exact .pure trivial
  | ok r =>
    refine .ofUpdate_look fun w hw => ?_
    dsimp only
    split
    · exact .pure (Plan.inHeap_invokeWith _ trivial (ha.mono (hg₁.trans hg₂)))
    · exact .pure trivial

private theorem stocks_planInstanceCall (current : Bool) (hr : receiver.InHeap heap)
    (ha : ItemsInHeap heap args) :
    Act.Stocks heap (Act.ofUpdate (planInstanceCall c current receiver args)) Plan.InHeap := by
  refine .ofUpdate_bind (stocks_recordSlowPath _) fun heap₁ _ hg₁ _ => .ofUpdate_look fun w hw => ?_
  split
  · exact .pure (Plan.inHeap_invokeWith _ (hr.mono hg₁) (ha.mono hg₁))
  refine .ofUpdate_bind (stocks_classOrFault _ receiver) fun heap₂ found hg₂ _ => ?_
  replace hr := hr.mono (hg₁.trans hg₂)
  replace ha := ha.mono (hg₁.trans hg₂)
  cases found with
  | error f => exact .pure trivial
  | ok r =>
    refine .ofUpdate_look fun w hw => ?_
    dsimp only
    split
    · exact .pure ⟨hr, itemsInHeap_unwrapArgs ha⟩
    split
    · exact .pure (Plan.inHeap_invokeWith _ (inHeap_receiverFor _ _ hr) ha)
    · exact stocks_planMissingMethod r hr (itemsInHeap_unwrapArgs ha)

private theorem stocks_planConstruct (t : TypeId) (ha : ItemsInHeap heap args) :
    Act.Stocks heap (Act.ofUpdate (planConstruct c t args)) Plan.InHeap := by
  refine .ofUpdate_bind (stocks_recordSlowPath _) fun heap₁ _ hg₁ _ => ?_
  refine .ofUpdate_bind (stocks_typeOrFault _ t) fun heap₂ found hg₂ _ => ?_
  replace ha := ha.mono (hg₁.trans hg₂)
  cases found with
  | error f => exact .pure trivial
  | ok r =>
    refine .ofUpdate_look fun w hw => ?_
    dsimp only
    split
    · exact .pure (itemsInHeap_prepare _ _ ha)
    split
    · exact .pure trivial
    · rename_i hsplit
      obtain ⟨hp, he⟩ := inHeap_beanSplit ha hsplit
      split
      · exact .pure ⟨itemsInHeap_prepare _ _ hp, he⟩
      · exact .pure trivial

private theorem stocks_planMissingProperty (cls : ClassRef) (hr : receiver.InHeap heap) :
    Act.Stocks heap (Act.ofUpdate (planMissingProperty c cls receiver)) Plan.InHeap := by
  refine .ofUpdate_look fun w hw => ?_
  dsimp only
  split
  · exact .pure (Plan.inHeap_invokeWith _ hr ⟨trivial, trivial⟩)
  · exact .pure trivial

private theorem stocks_planClassProperty (t : TypeId) :
    Act.Stocks heap (Act.ofUpdate (planClassProperty c t)) Plan.InHeap := by
  refine .ofUpdate_bind (stocks_typeOrFault _ t) fun heap' found hg _ => ?_
  cases found with
  | error f => exact .pure trivial
  | ok r =>
    refine .ofUpdate_look fun w hw => ?_
    dsimp only
    split
    · exact .pure (inHeap_getD fun v hv => hw.staticField? hv)
    · exact .pure (Plan.inHeap_invokeWith _ trivial trivial)
    · exact .pure trivial

private theorem stocks_planInstanceProperty (hr : receiver.InHeap heap) :
    Act.Stocks heap (Act.ofUpdate (planInstanceProperty c receiver)) Plan.InHeap := by
  refine .ofUpdate_bind (stocks_classOrFault _ receiver) fun heap' found hg _ => ?_
  replace hr := hr.mono hg
  cases found with
  | error f => exact .pure trivial
  | ok r =>
    refine .ofUpdate_look fun w hw => ?_
    dsimp only
    split
    · split
      · exact .pure (inHeap_getD fun v hv => hw.field? hv)
      · exact .pure trivial
    · exact .pure (Plan.inHeap_invokeWith _ hr trivial)
    · exact stocks_planMissingProperty r hr

private theorem stocks_planProperty (hr : receiver.InHeap heap) :
    Act.Stocks heap (Act.ofUpdate (planProperty c receiver)) Plan.InHeap := by
  refine .ofUpdate_bind (stocks_recordSlowPath _) fun heap' _ hg _ => ?_
  replace hr := hr.mono hg
  split
  · exact stocks_planNullProperty
  · exact .pure (inHeap_getD fun v hv => hr.entry? hv)
  · exact stocks_planClassProperty _
  · exact stocks_planInstanceProperty hr

/-- The plan of a full lookup has only values of the heap, or a new list of the arguments. -/
private theorem stocks_planFully {request : Request} (hr : request.InHeap heap) :
    Act.Stocks heap (Act.ofUpdate (planFully c request)) Plan.InHeap := by
  cases request with
  | call current receiver args =>
    cases receiver with
    | classLiteral t => exact stocks_planStatic t hr.2
    | null => exact stocks_planNullCall hr.2
    | _ => exact stocks_planInstanceCall current hr.1 hr.2
  | static t args => exact stocks_planStatic t hr
  | construct t args => exact stocks_planConstruct t hr
  | property receiver => exact stocks_planProperty hr

private theorem stocks_planOnNull {request : Request} (hr : request.InHeap heap) :
    Act.Stocks heap (Act.ofUpdate (planOnNull c request)) Plan.InHeap := by
  cases request with
  | call current receiver args => exact stocks_planNullCall hr.2
  | property receiver => exact stocks_planNullProperty
  | static | construct =>
    unfold planOnNull
    exact stocks_planFully hr

private theorem stocks_planSetProperty (rt : Nat) {target v : Value} (name : String)
    (ht : target.InHeap heap) (hv : v.InHeap heap) :
    Act.Stocks heap (Act.ofUpdate (planSetProperty rt target name v)) Plan.InHeap := by
  refine .ofUpdate_bind (stocks_classOrFault rt target) fun heap' found hg _ => ?_
  replace ht := ht.mono hg
  replace hv := hv.mono hg
  cases found with
  | error f => exact .pure trivial
  | ok r =>
    refine .ofUpdate_look fun w hw => ?_
    dsimp only
    split
    · split
      · refine .pure ?_
        split
        · exact hv
        · trivial
      · exact .pure trivial
    · exact .pure (Plan.inHeap_invokeWith _ ht ⟨hv, trivial⟩)
    · exact .pure trivial

private theorem stocks_lookedUp {u : Update Plan} (hu : Act.Stocks heap (Act.ofUpdate u) Plan.InHeap) :
    Act.Stocks heap (Act.ofUpdate (lookedUp u)) fun heap' d => d.plan.InHeap heap' :=
  .ofUpdate_bind hu fun _ _ _ hp => .pure hp

private theorem stocks_planWith (t : TableRef) (header : SiteHeader) {request : Request}
    (hr : request.InHeap heap) {again : Update Decision}
    (hagain : ∀ heap', heap.Grows heap' →
      Act.Stocks heap' (Act.ofUpdate again) fun heap'' d => d.plan.InHeap heap'') :
    Act.Stocks heap (Act.ofUpdate (planWith t header c request again)) fun heap' d =>
      d.plan.InHeap heap' := by
  unfold planWith
  split
  · exact stocks_lookedUp (stocks_planOnNull hr)
  have hsite : Act.Stocks heap (Act.ofUpdate (specialize t header c request)) Anything :=
    .ofUpdate (makes_specialize allowsSlots_keepsStock t header c request)
  refine .ofUpdate_bind hsite fun heap' found hg _ => ?_
  cases found with
  | none => exact stocks_lookedUp (stocks_planFully (hr.mono hg))
  | some site =>
    refine .ofUpdate_look fun w hw => ?_
    split
    · exact .pure (Site.inHeap_cached hw (hr.mono hg) ‹_›)
    · exact hagain heap' hg

/-- Whatever the slot does, its plan has only values of the heap. -/
private theorem stocks_planAt (t : TableRef) (slot : Slot) {request : Request}
    (hr : request.InHeap heap) :
    Act.Stocks heap (Act.ofUpdate (planAt t slot request)) fun heap' d => d.plan.InHeap heap' := by
  have hagain (c : Site.Context) (attempts : Nat) (heap' : Heap) (hg : heap.Grows heap') :
      Act.Stocks heap' (Act.ofUpdate (planGenerically t slot.header c request attempts)) fun heap'' d =>
        d.plan.InHeap heap'' := by
    induction attempts generalizing heap' with
    | zero =>
      exact stocks_planWith t slot.header (hr.mono hg) fun heap'' hg' =>
        stocks_lookedUp (stocks_planFully (hr.mono (hg.trans hg')))
    | succ attempts ih =>
      exact stocks_planWith t slot.header (hr.mono hg) fun heap'' hg' => ih heap'' (hg.trans hg')
  refine .ofUpdate_look fun w hw => ?_
  dsimp only
  split
  · exact stocks_lookedUp (stocks_planFully hr)
  · split
    · exact .pure (Site.inHeap_cached hw hr ‹_›)
    · exact hagain _ _ heap (.refl _)

end Plans

section Dispatch

variable {run : Runner} (hrun : run.Stocks)
include hrun

private theorem stocks_setProperties (rt : Nat) {target : Value} (ht : target.InHeap heap)
    {entries : List (String × Value)} (he : EntriesInHeap heap entries) :
    Exec.Stocks heap (setProperties run rt target entries) Anything := by
  induction entries generalizing heap with
  | nil => exact .pure trivial
  | cons e entries ih =>
    obtain ⟨name, v⟩ := e
    unfold setProperties
    refine Exec.Stocks.bind (.lift (stocks_planSetProperty rt name ht he.1)) fun heap₁ plan hg₁ hp => ?_
    -- the properties that follow
    have hrest (heap₂ : Heap) (hg₂ : heap₁.Grows heap₂) :
        Exec.Stocks heap₂ (setProperties run rt target entries) Anything :=
      ih (ht.mono (hg₁.trans hg₂)) (he.2.mono (hg₁.trans hg₂))
    cases plan with
    | setField o field v =>
      exact Exec.Stocks.bind (.change fun w hw => hw.setField o field hp) fun heap₂ _ hg₂ _ => hrest heap₂ hg₂
    | invoke m receiver args =>
      exact Exec.Stocks.bind ((m.stocks_invoke hrun hp.1 hp.2).adapt _) fun heap₂ _ hg₂ _ => hrest heap₂ hg₂
    | fail f => exact Exec.Stocks.bind (P := Anything) (.throw f) fun heap₂ _ hg₂ _ => hrest heap₂ hg₂
    | _ => exact hrest heap₁ (.refl _)

private theorem Plan.stocks_run (rt : Nat) (origin : Origin) {plan : Plan} (hp : plan.InHeap heap) :
    Exec.Stocks heap (plan.run run rt origin) Value.InHeap := by
  cases plan with
  | invoke m receiver args => exact (m.stocks_invoke hrun hp.1 hp.2).adapt _
  | hook body receiver name args => exact (hrun heap _ { receiver, args, calledName := some name } hp).adapt _
  | construct cls m args => exact (m.stocks_construct hrun cls hp).adapt _
  | bean cls m args entries =>
    refine Exec.Stocks.bind ((m.stocks_construct hrun cls hp.1).adapt _) fun heap' target hg ht => ?_
    have hset := stocks_setProperties hrun rt ht (hp.2.mono hg)
    cases origin with
    | lookup => exact hset.bind fun _ _ hg' _ => .pure (ht.mono hg')
    | memory => exact (hset.adapt _).bind fun _ _ hg' _ => .pure (ht.mono hg')
  | answer v => exact .pure hp
  | setField o name v =>
    exact Exec.Stocks.bind (.change fun w hw => hw.setField o name hp) fun _ _ _ _ => .pure trivial
  | fail f => exact .throw f

private theorem stocks_serve (t : TableRef) (i : Nat) {request : Request} (hr : request.InHeap heap) :
    Exec.Stocks heap (serve run t i request) Value.InHeap := by
  refine .look fun w hw => ?_
  split
  · exact .throw _
  · refine Exec.Stocks.bind (.lift (stocks_planAt t _ hr)) fun heap' d hg hp => .look fun w' hw' => ?_
    exact Plan.stocks_run hrun _ _ hp

/-- A dispatch of a request with values of the heap answers with one. -/
theorem stocks_dispatch (t : TableRef) (i : Nat) {request : Request} (hr : request.InHeap heap) :
    Exec.Stocks heap (dispatch run t i request) Value.InHeap := by
  have hasked : Exec.Stocks heap (modify (·.record (.asked t i request)) : Exec Fault Unit) Anything :=
    .change fun w hw => hw.record hr
  refine hasked.bind fun heap₁ _ hg₁ _ => ?_
  have hserve := (stocks_serve hrun t i (hr.mono hg₁)).adapt Fault.bare
  refine Exec.Stocks.bind (.lift hserve) fun heap₂ answer hg₂ ha => ?_
  have hanswered : Exec.Stocks heap₂ (modify (·.record (.answered answer)) : Exec Fault Unit) Anything :=
    .change fun w hw => hw.record ha
  refine hanswered.bind fun heap₃ _ hg₃ _ => ?_
  exact Act.Stocks.pure fun v hv => (ha v hv).mono hg₃

theorem stocks_dispatchSafe (t : TableRef) (i : Nat) {request : Request} (hr : request.InHeap heap) :
    Exec.Stocks heap (dispatchSafe run t i request) Value.InHeap := by
  unfold dispatchSafe
  split
  · exact .pure trivial
  · exact stocks_dispatch hrun t i hr

end Dispatch

end CachedDispatch
