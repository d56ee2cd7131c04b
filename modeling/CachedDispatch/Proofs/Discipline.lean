import CachedDispatch.Proofs.Growth
import CachedDispatch.Proofs.Preparation
import CachedDispatch.Proofs.Ranking

/-!
What callers promise: one runtime whose identities have not come round, objects of defined classes, host
objects of host types. Under these rules arguments are ranked by their keys, except for a wrapper around
an object whose line the declared type does not cover.
-/
namespace CachedDispatch

/-- A wrapper around an object counts as its declared type alone: either as null, or the line of the
object adds nothing to it. All other values do. -/
def Value.HidesLine (lin : Lineage) : Value → Prop
  | .wrapper _ (.object o) declared => declared = .null ∨ ∀ t ∈ lin o, t = declared ∨ t = .object
  | _ => True

theorem Value.hidesLine_of_not_wrapper {lin : Lineage} {v : Value} (h : v.isWrapper = false) :
    v.HidesLine lin := by
  cases v with
  | wrapper => cases h
  | _ => trivial

namespace Request

/-- The receiver, where there is one, and the arguments. -/
def values (request : Request) : List Value := request.receiver?.toList ++ request.args

theorem mem_values_of_arg {request : Request} {v : Value} (h : v ∈ request.args) :
    v ∈ request.values := List.mem_append_right _ h

end Request

namespace World

/-- The types above the type of a class of objects, itself first; no other type has a line. -/
def line (w : World) (t : TypeId) : List TypeId :=
  match (List.range w.classes.size).find? fun i =>
      (w.cls ⟨i⟩).id = t ∧ (w.cls ⟨i⟩).kind = .dynamic with
  | some i => (w.hierarchy ⟨i⟩).lineage
  | none => []

/-- A host object has a host type, or a type that no class has taken yet. -/
def HostTyped (w : World) : Value → Prop
  | .host _ t _ => t.isBuiltin = false ∧
      ∀ r, r.idx < w.classes.size → (w.cls r).id = t → (w.cls r).kind = .host
  | _ => True

/-- A request that was made of some slot. -/
def Asked (w : World) (request : Request) : Prop := ∃ t i, .asked t i request ∈ w.history

/-- One runtime whose identities have lasted, objects of defined classes, and requests with host objects of
host types only. -/
structure Tame (w : World) : Prop extends Lone w where
  objects : ∀ o, o.idx < w.objects.size → (w.cls (w.classOfObject o)).kind = .dynamic
  hosts : ∀ request, w.Asked request → ∀ v ∈ request.values, w.HostTyped v

/-- Tame, and no argument of a request was a wrapper. -/
structure Disciplined (w : World) : Prop extends Tame w where
  unwrapped : ∀ request, w.Asked request → ∀ v ∈ request.args, v.isWrapper = false

/-- No argument with one of these keys, in the requests made of this slot, has shown an object through
a wrapper. -/
def Quiet (w : World) (t : TableRef) (i : Nat) (shape : Shape) : Prop :=
  ∀ request, .asked t i request ∈ w.history → ∀ v ∈ request.args,
    ShapeKey.of w.lineage v ∈ shape → v.HidesLine w.lineage

/-- All that was asked, and of which slots. -/
def asks (w : World) : List (TableRef × Nat × Request) := w.history.filterMap fun
  | .asked t i request => some (t, i, request)
  | _ => none

private theorem mem_asks {w : World} {t : TableRef} {i : Nat} {request : Request} :
    (t, i, request) ∈ w.asks ↔ .asked t i request ∈ w.history := by
  unfold asks
  rw [List.mem_filterMap]
  constructor
  · rintro ⟨e, he, h⟩
    cases e with
    | asked t i r =>
      cases h
      exact he
    | _ => cases h
  · exact fun h => ⟨_, h, rfl⟩

private theorem forall_asked {w : World} {Q : Request → Prop} :
    (∀ request, w.Asked request → Q request) ↔ ∀ ask ∈ w.asks, Q ask.2.2 :=
  ⟨fun h ask hm => h _ ⟨ask.1, ask.2.1, mem_asks.mp hm⟩,
    fun h _ ⟨t, i, hm⟩ => h (t, i, _) (mem_asks.mpr hm)⟩

instance (lin : Lineage) (v : Value) : Decidable (v.HidesLine lin) :=
  match v with
  | .wrapper _ inner declared =>
    match inner with
    | .object o => inferInstanceAs (Decidable (declared = .null ∨ ∀ t ∈ lin o, t = declared ∨ t = .object))
    | .null | .bool _ | .int _ | .float _ | .text _ | .list _ _ | .map _ _ | .classLiteral _
    | .host _ _ _ | .wrapper _ _ _ => .isTrue trivial
  | .null | .bool _ | .int _ | .float _ | .text _ | .list _ _ | .map _ _ | .classLiteral _ | .object _
  | .host _ _ _ => .isTrue trivial

instance (w : World) (v : Value) : Decidable (w.HostTyped v) :=
  match v with
  | .host _ t _ =>
    decidable_of_iff (t.isBuiltin = false ∧
      ∀ i < w.classes.size, (w.cls ⟨i⟩).id = t → (w.cls ⟨i⟩).kind = .host)
      (and_congr_right fun _ => ⟨fun h r => h r.idx, fun h i => h ⟨i⟩⟩)
  | .null | .bool _ | .int _ | .float _ | .text _ | .list _ _ | .map _ _ | .classLiteral _ | .object _
  | .wrapper _ _ _ => .isTrue trivial

instance (w : World) : Decidable w.Tame :=
  decidable_of_iff ((w.runtimes.size = 1 ∧ (w.registry 0).begun ≤ TypeId.supply)
      ∧ (∀ i < w.objects.size, (w.cls (w.classOfObject ⟨i⟩)).kind = .dynamic)
      ∧ ∀ ask ∈ w.asks, ∀ v ∈ ask.2.2.values, w.HostTyped v)
    ⟨fun h => ⟨⟨h.1.1, h.1.2⟩, fun o => h.2.1 o.idx, forall_asked.mpr h.2.2⟩,
      fun h => ⟨⟨h.single, h.supplied⟩, fun i => h.objects ⟨i⟩, forall_asked.mp h.hosts⟩⟩

instance (w : World) : Decidable w.Disciplined :=
  decidable_of_iff (w.Tame ∧ ∀ ask ∈ w.asks, ∀ v ∈ ask.2.2.args, v.isWrapper = false)
    ⟨fun h => ⟨h.1, forall_asked.mpr h.2⟩, fun h => ⟨h.toTame, forall_asked.mp h.unwrapped⟩⟩

instance (w : World) (t : TableRef) (i : Nat) (shape : Shape) : Decidable (w.Quiet t i shape) :=
  decidable_of_iff (∀ ask ∈ w.asks, ask.1 = t → ask.2.1 = i → ∀ v ∈ ask.2.2.args,
      ShapeKey.of w.lineage v ∈ shape → v.HidesLine w.lineage)
    ⟨fun h _ ha => h (t, i, _) (mem_asks.mpr ha) rfl rfl,
      fun h ask ha ht hi => h ask.2.2 (mem_asks.mp (ht ▸ hi ▸ ha))⟩

variable {w w' : World}

theorem lineage_out_of_range (ho : w.Orderly) {o : ObjectRef} (h : ¬ o.idx < w.objects.size) :
    w.lineage o = [.object] := by
  have hc : w.classOfObject o = ⟨0⟩ := by
    simp only [classOfObject, object, Array.getD, dif_neg h]
    rfl
  have hid : (w.cls ⟨0⟩).id = .object := ho.reserved .object
  simp only [World.lineage, hc, Hierarchy.lineage, Hierarchy.classes, hierarchy, ho.ancestors_zero,
    List.map_cons, List.map_nil, hid]

private theorem line_eq_nil {t : TypeId}
    (h : ∀ r, r.idx < w.classes.size → (w.cls r).id = t → (w.cls r).kind ≠ .dynamic) :
    w.line t = [] := by
  unfold line
  split
  · rename_i i hi
    have hlt := List.mem_range.mp (List.mem_of_find?_eq_some hi)
    obtain ⟨hid, hk⟩ : (w.cls ⟨i⟩).id = t ∧ (w.cls ⟨i⟩).kind = .dynamic := by
      simpa using List.find?_some hi
    exact absurd hk (h ⟨i⟩ hlt hid)
  · rfl

private theorem line_of_builtin (ho : w.Orderly) (b : BuiltinType) : w.line b.id = [] := by
  refine line_eq_nil fun r hr hid => (ho.kinds r ?_).1
  rw [← ho.isBuiltin_iff hr, hid]
  exact b.isBuiltin_id

private theorem line_of_class (ho : w.Orderly) {r : ClassRef} (hr : r.idx < w.classes.size) :
    w.line (w.cls r).id = if (w.cls r).kind = .dynamic then (w.hierarchy r).lineage else [] := by
  split
  · rename_i hk
    unfold line
    split
    · -- no other class has the type
      rename_i i hi
      have hlt := List.mem_range.mp (List.mem_of_find?_eq_some hi)
      obtain ⟨hid, -⟩ : (w.cls ⟨i⟩).id = (w.cls r).id ∧ (w.cls ⟨i⟩).kind = .dynamic := by
        simpa using List.find?_some hi
      rw [ho.apart ⟨i⟩ r hlt hr hid]
    · rename_i hnone
      have hno := List.find?_eq_none.mp hnone r.idx (List.mem_range.mpr hr)
      exact absurd (decide_eq_true ⟨rfl, hk⟩) hno
  · rename_i hk
    refine line_eq_nil fun q hq hid => ?_
    rwa [ho.apart q r hq hr hid]

theorem ne_builtin_of_hostTyped {n : Nat} {t : TypeId} {label : String}
    (h : w.HostTyped (.host n t label)) (b : BuiltinType) : t ≠ b.id := by
  rintro rfl
  cases b <;> cases h.1

private theorem line_of_hostTyped {n : Nat} {t : TypeId} {label : String}
    (h : w.HostTyped (.host n t label)) : w.line t = [] := by
  refine line_eq_nil fun r hr hid => ?_
  rw [h.2 r hr hid]
  nofun

/-- The class of an object in a tame world: a defined one. -/
private theorem Tame.ten_le (ht : w.Tame) (ho : w.Orderly) {o : ObjectRef}
    (h : o.idx < w.objects.size) : 10 ≤ (w.classOfObject o).idx := by
  by_contra hlt
  exact (ho.kinds _ (Nat.lt_of_not_le hlt)).1 (ht.objects o h)

theorem Tame.type_ne_builtin (ht : w.Tame) (ho : w.Orderly) (hh : w.Housed) {o : ObjectRef}
    (h : o.idx < w.objects.size) (b : BuiltinType) : (w.cls (w.classOfObject o)).id ≠ b.id := by
  intro hid
  have hten := (ho.isBuiltin_iff (hh.objects o).lt).mp (hid ▸ b.isBuiltin_id)
  exact Nat.not_le.mpr hten (ht.ten_le ho h)

private theorem line_of_object (ht : w.Tame) (ho : w.Orderly) (hh : w.Housed) {o : ObjectRef}
    (h : o.idx < w.objects.size) : w.line (w.cls (w.classOfObject o)).id = w.lineage o := by
  rw [line_of_class ho (hh.objects o).lt, if_pos (ht.objects o h)]
  rfl

theorem rankedByKey (ht : w.Tame) (ho : w.Orderly) (hh : w.Housed) {v : Value}
    (hv : w.HostTyped v) (hl : v.HidesLine w.lineage) : v.RankedByKey w.lineage w.line := by
  intro target hobj hne hnull
  have hbuiltin (b : BuiltinType) : none = (w.line b.id).idxOf? target := by
    rw [line_of_builtin ho b]
    rfl
  cases v with
  | null => exact hbuiltin .nullObject
  | bool => exact hbuiltin .boolean
  | int => exact hbuiltin .integer
  | float => exact hbuiltin .double
  | text => exact hbuiltin .string
  | list => exact hbuiltin .list
  | map => exact hbuiltin .map
  | classLiteral => exact hbuiltin .classLiteral
  | object o =>
    change (w.lineage o).idxOf? target = (w.line ((w.lineage o).headD .object)).idxOf? target
    by_cases hlt : o.idx < w.objects.size
    · have hhead : (w.lineage o).headD .object = (w.cls (w.classOfObject o)).id := rfl
      rw [hhead, line_of_object ht ho hh hlt]
    · rw [lineage_out_of_range ho hlt]
      change _ = (w.line BuiltinType.object.id).idxOf? target
      rw [← hbuiltin .object, List.idxOf?_eq_none_iff]
      simpa using hobj
  | host n t label =>
    change none = (w.line t).idxOf? target
    rw [line_of_hostTyped hv]
    rfl
  | wrapper n inner declared =>
    cases inner with
    | object o =>
      rcases hl with hd | hl
      · exact absurd hd hnull
      · change (w.lineage o).idxOf? target = none
        rw [List.idxOf?_eq_none_iff]
        intro hmem
        rcases hl target hmem with h | h
        · exact hne h.symm
        · exact hobj h
    | _ => rfl

/-- Nothing but an integer has the type of integers. -/
theorem exists_int_of_typeId (ht : w.Tame) (ho : w.Orderly) (hh : w.Housed) {v : Value}
    (hv : w.HostTyped v) (h : v.typeId w.lineage = .int) : ∃ n, v = .int n := by
  cases v with
  | int n => exact ⟨n, rfl⟩
  | object o =>
    exfalso
    by_cases hlt : o.idx < w.objects.size
    · exact ht.type_ne_builtin ho hh hlt .integer h
    · have hid : (w.lineage o).headD .object = .int := h
      rw [lineage_out_of_range ho hlt] at hid
      cases hid
  | host n t label =>
    exact absurd h (ne_builtin_of_hostTyped hv .integer)
  | _ => cases h

/-- Types whose line can change no more: builtin types, types of classes, and types of host objects
that were passed. -/
inductive Known (w : World) : TypeId → Prop
  | builtin (b : BuiltinType) : Known w b.id
  | cls {r : ClassRef} (h : r.idx < w.classes.size) : Known w (w.cls r).id
  | host {request : Request} {n : Nat} {t : TypeId} {label : String} (h : w.Asked request)
      (hv : .host n t label ∈ request.values) : Known w t

theorem known_of_asked (hh : w.Housed) {request : Request} {v : Value}
    (ha : w.Asked request) (hv : v ∈ request.args)
    (hw : (ShapeKey.of w.lineage v).wrapped = false) : w.Known (ShapeKey.of w.lineage v).type := by
  cases v with
  | null => exact .builtin .nullObject
  | bool => exact .builtin .boolean
  | int => exact .builtin .integer
  | float => exact .builtin .double
  | text => exact .builtin .string
  | list => exact .builtin .list
  | map => exact .builtin .map
  | classLiteral => exact .builtin .classLiteral
  | object o => exact .cls (hh.objects o).lt
  | host n t label => exact .host ha (Request.mem_values_of_arg hv)
  | wrapper => cases hw

namespace Grows

private theorem asked (hg : w.Grows w') {request : Request} (h : w.Asked request) : w'.Asked request :=
  have ⟨t, i, hm⟩ := h
  ⟨t, i, hg.history.subset hm⟩

theorem known (hg : w.Grows w') {t : TypeId} (h : w.Known t) : w'.Known t := by
  cases h with
  | builtin b => exact .builtin b
  | cls hlt =>
    rw [← (hg.later _ hlt).id]
    exact .cls (Nat.lt_of_lt_of_le hlt hg.size)
  | host ha hv => exact .host (hg.asked ha) hv

theorem hierarchy_later (hg : w.Grows w') (ho : w.Orderly) {r : ClassRef} (hr : w.Placed r) :
    w'.hierarchy r = .along w'.cls r (w.cls r).ancestors
      ∧ ∀ q ∈ r :: (w.cls r).ancestors, (w.cls q).Later (w'.cls q) := by
  refine ⟨by rw [hierarchy_eq_along, hg.ancestors r hr], fun q hq => hg.later q ?_⟩
  rcases List.mem_cons.mp hq with rfl | hq
  · exact hr.lt
  · exact (ho.ancestors r q hq).lt

private theorem lineage_eq (hg : w.Grows w') (ho : w.Orderly) {r : ClassRef} (hr : w.Placed r) :
    (w'.hierarchy r).lineage = (w.hierarchy r).lineage := by
  obtain ⟨hw', hl⟩ := hg.hierarchy_later ho hr
  have hmap (k : ClassRef → Class) : (Hierarchy.along k r (w.cls r).ancestors).lineage
      = (r :: (w.cls r).ancestors).map fun q => (k q).id := by
    simp [Hierarchy.along, Hierarchy.lineage, Hierarchy.classes]
  rw [hw', hierarchy_eq_along, hmap, hmap]
  exact List.map_congr_left fun q hq => (hl q hq).id

private theorem object_lineage_eq (hg : w.Grows w') (ho : w.Orderly) (hh : w.Housed) {o : ObjectRef}
    (h : o.idx < w.objects.size) : w'.lineage o = w.lineage o := by
  unfold World.lineage
  rw [(hg.objects o h).2]
  exact hg.lineage_eq ho (hh.objects o)

/-- A run that ends tame has been tame all the time. -/
private theorem tame (hg : w.Grows w') (ho : w.Orderly) (hh : w.Housed) (h : w'.Tame) : w.Tame where
  toLone := ho.toLone
  objects o hlt := by
    have hk := h.objects o (hg.objects o hlt).1
    rw [(hg.objects o hlt).2, (hg.later _ (hh.objects o).lt).kind] at hk
    exact hk
  hosts request ha v hv := by
    have ht := h.hosts request (hg.asked ha) v hv
    cases v with
    | host n t label =>
      refine ⟨ht.1, fun r hr hid => ?_⟩
      have hlater := hg.later r hr
      rw [← hlater.kind]
      exact ht.2 r (Nat.lt_of_lt_of_le hr hg.size) (hlater.id.trans hid)
    | _ => trivial

/-- So has a slot that ends quiet. -/
theorem quiet (hg : w.Grows w') (ho : w.Orderly) (hh : w.Housed) {t : TableRef} {i : Nat}
    {shape : Shape} (h : w'.Quiet t i shape) : w.Quiet t i shape := by
  intro request ha v hv hk
  cases v with
  | wrapper n inner declared =>
    have hl := h request (hg.history.subset ha) _ hv hk
    cases inner with
    | object o =>
      refine hl.imp_right fun hall s hs => ?_
      by_cases hlt : o.idx < w.objects.size
      · exact hall s (by rwa [hg.object_lineage_eq ho hh hlt])
      · rw [lineage_out_of_range ho hlt] at hs
        exact Or.inr (List.mem_singleton.mp hs)
    | _ => trivial
  | _ => trivial

/-- The line of a known type is there for good. -/
private theorem line_eq (hg : w.Grows w') (ho : w.Orderly) (ho' : w'.Orderly) (hh : w.Housed)
    (ht' : w'.Tame) {t : TypeId} (h : w.Known t) : w'.line t = w.line t := by
  cases h with
  | builtin b => rw [line_of_builtin ho, line_of_builtin ho']
  | @cls r hlt =>
    have hlater := hg.later r hlt
    have hline := line_of_class ho' (Nat.lt_of_lt_of_le hlt hg.size)
    rw [hlater.id, hlater.kind] at hline
    rw [hline, line_of_class ho hlt]
    split
    · rename_i hk
      refine hg.lineage_eq ho (ho.placed_defined ?_ hlt)
      by_contra hten
      exact (ho.kinds r (Nat.lt_of_not_le hten)).1 hk
    · rfl
  | host ha hv =>
    rw [line_of_hostTyped ((hg.tame ho hh ht').hosts _ ha _ hv),
      line_of_hostTyped (ht'.hosts _ (hg.asked ha) _ hv)]

end Grows

/-- One tame world on the way to another. -/
structure Onward (w w' : World) : Prop where
  orderly : w.Orderly
  housed : w.Housed
  orderly' : w'.Orderly
  grows : w.Grows w'
  tame' : w'.Tame

theorem Onward.tame (h : w.Onward w') : w.Tame := h.grows.tame h.orderly h.housed h.tame'

theorem Onward.line_eq (h : w.Onward w') {t : TypeId} (ht : w.Known t) : w'.line t = w.line t :=
  h.grows.line_eq h.orderly h.orderly' h.housed h.tame' ht

theorem Reachable.onward (h : w.Reachable) (hm : Moves w w') (ht : w'.Tame) : w.Onward w' :=
  have hlone := h.lone_of_moves hm ht.toLone
  ⟨h.orderly hlone, h.housed hlone, (h.moves hm).orderly ht.toLone, h.grows hm ht.toLone, ht⟩

theorem Disciplined.quiet (h : w.Disciplined) (t : TableRef) (i : Nat) (shape : Shape) :
    w.Quiet t i shape :=
  fun request ha v hv _ => v.hidesLine_of_not_wrapper (h.unwrapped request ⟨t, i, ha⟩ v hv)

/-- A run that ends disciplined has been so all the time. -/
theorem Reachable.disciplined (h : w.Reachable) (hm : Moves w w') (hd : w'.Disciplined) :
    w.Disciplined :=
  have ho := h.onward hm hd.toTame
  ⟨ho.tame, fun request ha => hd.unwrapped request (ho.grows.asked ha)⟩

end World

end CachedDispatch
