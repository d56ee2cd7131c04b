import CachedDispatch.Proofs.NativeCalls

/-!
Adding to lists. A list offers two methods `plus`, one for lists and one for any value, and overload ranking
decides between them. What costs no more as a list than as any value is taken for a list. That is every
list, but also null, a host object of the type of lists, and an object of a class not far below it, and for
these the operation fails.
-/
namespace CachedDispatch

open World

/-- Appends the elements of a list. -/
private def plusList : Method :=
  { Method.ofPrimitive "plus" [.exact .list] (.list .plusList) with declaring := .list }

/-- Appends a value. -/
private def plusAny :
    Method := { Method.ofPrimitive "plus" [.any] (.list .plus) with declaring := .list }

private theorem offers_plus (k : Nat) : BuiltinType.list.offers k "plus" = [plusList, plusAny] :=
  BuiltinType.offers_eq _ _ rfl

/-- A value that costs no more as a list than as any value. -/
def TakenForList (lin : Lineage) (v : Value) : Prop :=
  ∃ d, paramDistance lin (.exact .list) v = some d ∧ d ≤ objectDistance

section Choice

variable {lin : Lineage} {v : Value}

private theorem pick_plus_of_taken (h : TakenForList lin v) (k : Nat) :
    pick lin (BuiltinType.list.offers k "plus") [v] = some plusList := by
  obtain ⟨d, hd, hle⟩ := h
  have hlist : plusList.rank? lin [v] = some d := (rank?_singleton rfl lin v).trans hd
  have hany : plusAny.rank? lin [v] = some objectDistance := rank?_singleton (p := .any) rfl lin v
  rw [offers_plus, pick, pickBy, List.foldl_cons, List.foldl_cons, List.foldl_nil]
  simp only [better, hlist, hany, Nat.not_lt.mpr hle, if_false, Option.map_some]

private theorem pick_plus_of_not_taken (h : ¬ TakenForList lin v) (k : Nat) :
    pick lin (BuiltinType.list.offers k "plus") [v] = some plusAny := by
  have hlist : plusList.rank? lin [v] = paramDistance lin (.exact .list) v := rank?_singleton rfl lin v
  have hany : plusAny.rank? lin [v] = some objectDistance := rank?_singleton (p := .any) rfl lin v
  rw [offers_plus, pick, pickBy, List.foldl_cons, List.foldl_cons, List.foldl_nil]
  rcases hd : paramDistance lin (.exact .list) v with _ | d
  · simp only [better, hlist, hd, hany, Option.map_some]
  · have hlt : objectDistance < d := Nat.lt_of_not_le fun hle => h ⟨d, hd, hle⟩
    simp only [better, hlist, hd, hany, if_pos hlt, Option.map_some]

private theorem paramDistance_list (hv : v.isWrapper = false) :
    paramDistance lin (.exact .list) v
      = if v.typeId lin = .list then some 0
        else if v.typeId lin = .null then some nullDistance else v.depthTo? lin .list := by
  have htype : v.effectiveType lin = v.typeId lin := by
    rw [← ShapeKey.of_type, ShapeKey.of_unwrapped hv]
  have hcoercible : coercible .list (v.effectiveType lin) = false := rfl
  rw [paramDistance, if_neg (by decide), hcoercible, if_neg Bool.false_ne_true, htype]
  rcases v.depthTo? lin .list with _ | d <;> rfl

/-- A value that is taken for a list has the type of lists or that of null, or it is an object of a class
with lists in its line. -/
private theorem TakenForList.cases (h : TakenForList lin v) (hv : v.isWrapper = false) :
    v.typeId lin = .list ∨ v.typeId lin = .null
      ∨ ∃ o d, v = .object o ∧ (lin o)[d]? = some .list ∧ d ≤ objectDistance := by
  obtain ⟨d, hd, hle⟩ := h
  rw [paramDistance_list hv] at hd
  split at hd
  · exact Or.inl ‹_›
  split at hd
  · exact Or.inr (Or.inl ‹_›)
  cases v with
  | object o =>
    obtain ⟨hlt, hget, -⟩ := List.idxOf?_eq_some_iff.mp hd
    exact Or.inr (Or.inr ⟨o, d, rfl, List.getElem?_eq_some_iff.mpr ⟨hlt, hget⟩, hle⟩)
  | wrapper => cases hv
  | _ => cases hd

private theorem takenForList_of_type (hv : v.isWrapper = false)
    (h : v.typeId lin = .list ∨ v.typeId lin = .null) : TakenForList lin v := by
  rw [TakenForList, paramDistance_list hv]
  by_cases hlist : v.typeId lin = .list
  · exact ⟨0, if_pos hlist, by decide⟩
  · rw [if_neg hlist, if_pos (h.resolve_left hlist)]
    exact ⟨nullDistance, rfl, by decide⟩

end Choice

/-- The type is that of lists or of null, or there is an object of it with lists in its line, no farther up
than any value is. -/
def World.Listlike (w : World) (type : TypeId) : Prop :=
  type = .list ∨ type = .null ∨ ∃ o d, (Value.object o).typeId w.lineage = type
    ∧ (w.lineage o)[d]? = some .list ∧ d ≤ objectDistance

namespace World

variable {w w' : World}

private theorem listlike_of_taken {v : Value} (h : TakenForList w.lineage v)
    (hv : v.isWrapper = false) : w.Listlike (v.typeId w.lineage) := by
  rcases h.cases hv with hlist | hnull | ⟨o, d, rfl, hd, hle⟩
  · exact Or.inl hlist
  · exact Or.inr (Or.inl hnull)
  · exact Or.inr (Or.inr ⟨o, d, rfl, hd, hle⟩)

private theorem lineage_eq_map (w : World) (o : ObjectRef) :
    w.lineage o = (w.classOfObject o :: (w.cls (w.classOfObject o)).ancestors).map
      fun r => (w.cls r).id := by
  rw [lineage, Hierarchy.lineage, Hierarchy.classes, hierarchy, List.map_cons, List.map_cons,
    List.map_map]
  rfl

/-- An object whose class is not there is of the root type, and that is all. -/
private theorem lineage_of_missing_class {o : ObjectRef}
    (hout : ¬ (w.classOfObject o).idx < w.classes.size) : w.lineage o = [.object] := by
  have hcls := w.cls_out_of_range hout
  rw [lineage_eq_map, List.map_cons, hcls]
  rfl

/-- An object of a class that came with a runtime has no lists above its own type. -/
private theorem Attained.list_notMem (hw : w.Attained) (hg : w.Genuine .object) {o : ObjectRef}
    (hn : (w.cls (w.classOfObject o)).Native)
    (htype : (Value.object o).typeId w.lineage ≠ .list) : .list ∉ w.lineage o := by
  intro hmem
  rcases hw.lineage_of_native hg hn hmem with heq | heq
  · exact htype heq.symm
  · cases congrArg TypeId.val heq

/-- One with lists above its own type is there, and so is its class, which was defined. -/
private theorem Attained.lt_size_of_list (hw : w.Attained) (hg : w.Genuine .object) {o : ObjectRef}
    (hmem : .list ∈ w.lineage o) (htype : (Value.object o).typeId w.lineage ≠ .list) :
    o.idx < w.objects.size ∧ (w.classOfObject o).idx < w.classes.size
      ∧ ¬ (w.cls (w.classOfObject o)).Native := by
  have hn : ¬ (w.cls (w.classOfObject o)).Native := fun hn => hw.list_notMem hg hn htype hmem
  refine ⟨?_, ?_, hn⟩
  · by_contra hout
    have hcls : w.classOfObject o = ⟨0⟩ := by
      simp only [classOfObject, object, Array.getD, dif_neg hout]
      rfl
    obtain ⟨hlt, hid⟩ := (hw.rooted hg).first
    rw [hcls] at hn
    exact hn (hg ⟨0⟩ hlt hid)
  · by_contra hout
    rw [lineage_of_missing_class hout] at hmem
    cases congrArg TypeId.val (List.mem_singleton.mp hmem)

/-- So no other builtin type is like that of lists, as long as definitions get identities of their own. -/
private theorem Attained.not_listlike (hw : w.Attained) (ha : w.Ample) {type : TypeId}
    (hbuiltin : type.isBuiltin = true) (hlist : type ≠ .list) (hnull : type ≠ .null) :
    ¬ w.Listlike type := by
  have hapart := hw.setApart ha
  rintro (h | h | ⟨o, d, rfl, hget, -⟩)
  · exact hlist h
  · exact hnull h
  · have hmem := List.mem_of_getElem? hget
    obtain ⟨-, hr, hn⟩ := hw.lt_size_of_list (hapart.genuine .object) hmem hlist
    have hdefined : (w.cls (w.classOfObject o)).id.isBuiltin = false := hapart.classes _ hr hn
    cases hdefined.symm.trans hbuiltin

/-- So it stays where lists are in its line. -/
private theorem Listlike.deeds {type : TypeId} (h : w.Listlike type) (hw : w.Attained) (hd : Deeds w w')
    (hg : w'.Genuine .object) : w'.Listlike type := by
  rcases h with hlist | hnull | ⟨o, d, htype, hget, hle⟩
  · exact Or.inl hlist
  · exact Or.inr (Or.inl hnull)
  by_cases hlist : type = .list
  · exact Or.inl hlist
  have he := (hd.keeps hw.inOrder).2
  obtain ⟨ho, hr, hn⟩ :=
    hw.lt_size_of_list (hg.of_endures he) (List.mem_of_getElem? hget) (htype ▸ hlist)
  have hcls := (hd.classOfObject ho).2
  have hline : w'.lineage o = (w.classOfObject o :: (w.cls (w.classOfObject o)).ancestors).map
      fun r => (w'.cls r).id := by
    rw [lineage_eq_map, hcls, hd.ancestors hw hr hn]
  refine Or.inr (Or.inr ⟨o, d, ?_, ?_, hle⟩)
  · rw [← htype, Value.typeId, Value.typeId, hline, lineage_eq_map]
    exact he.id_eq hr
  · rw [lineage_eq_map, List.getElem?_map] at hget
    obtain ⟨r, hget, hid⟩ := Option.map_eq_some_iff.mp hget
    have hlt : r.idx < w.classes.size := by
      by_contra hout
      rw [w.cls_out_of_range hout] at hid
      cases congrArg TypeId.val hid
    rw [hline, List.getElem?_map, hget, Option.map_some, he.id_eq hlt, hid]

namespace Consulted

variable (h : w.Consulted w') (hw : w.Attained) (hg : w.Genuine .object)
include h

private theorem classOfObject (o : ObjectRef) : w'.classOfObject o = w.classOfObject o := by
  rw [World.classOfObject, World.classOfObject, object, object, h.objects]

private theorem native_iff (r : ClassRef) : (w'.cls r).Native ↔ (w.cls r).Native := by
  obtain ⟨rs, hrs⟩ := h.bodies.cls r
  rw [hrs]
  rfl

private theorem genuine {b : BuiltinType} (hb : w.Genuine b) : w'.Genuine b := fun r hr hid =>
  (h.native_iff r).mpr (hb r (h.bodies.size ▸ hr) ((h.bodies.id r).symm.trans hid))

include hw

/-- Planning leaves the line of an object alone whose class was defined. -/
private theorem lineage {o : ObjectRef} (hn : ¬ (w.cls (w.classOfObject o)).Native) :
    w'.lineage o = w.lineage o := by
  by_cases hr : (w.classOfObject o).idx < w.classes.size
  · rw [lineage_eq_map, lineage_eq_map, h.classOfObject, h.deeds.ancestors hw hr hn]
    simp only [h.bodies.id]
  · have hr' : ¬ (w'.classOfObject o).idx < w'.classes.size := by
      rwa [h.classOfObject, h.bodies.size]
    rw [lineage_of_missing_class hr, lineage_of_missing_class hr']

include hg

/-- So it does not change which types are like that of lists, -/
private theorem listlike {type : TypeId} (hlike : w'.Listlike type) : w.Listlike type := by
  rcases hlike with hlist | hnull | ⟨o, d, htype, hget, hle⟩
  · exact Or.inl hlist
  · exact Or.inr (Or.inl hnull)
  by_cases hlist : type = .list
  · exact Or.inl hlist
  have hn := ((hw.deeds h.deeds).lt_size_of_list (h.genuine hg) (List.mem_of_getElem? hget)
    (htype ▸ hlist)).2.2
  rw [h.native_iff, h.classOfObject] at hn
  rw [h.bodies.typeId h.objects] at htype
  rw [h.lineage hw hn] at hget
  exact Or.inr (Or.inr ⟨o, d, htype, hget, hle⟩)

/-- nor which values are taken for lists. -/
private theorem takenForList_iff {v : Value} (hv : v.isWrapper = false) :
    TakenForList w'.lineage v ↔ TakenForList w.lineage v := by
  have htype := h.bodies.typeId h.objects v
  have hdepth (hlist : v.typeId w.lineage ≠ .list) :
      v.depthTo? w'.lineage .list = v.depthTo? w.lineage .list := by
    cases v with
    | object o =>
      change (w'.lineage o).idxOf? .list = (w.lineage o).idxOf? .list
      by_cases hn : (w.cls (w.classOfObject o)).Native
      · have hn' : (w'.cls (w'.classOfObject o)).Native := by
          rwa [h.native_iff, h.classOfObject]
        have hnot := (hw.deeds h.deeds).list_notMem (h.genuine hg) hn' (htype ▸ hlist)
        rw [List.idxOf?_eq_none_iff.mpr (hw.list_notMem hg hn hlist), List.idxOf?_eq_none_iff.mpr hnot]
      · rw [h.lineage hw hn]
    | wrapper => cases hv
    | _ => rfl
  have hdistance : paramDistance w'.lineage (.exact .list) v
      = paramDistance w.lineage (.exact .list) v := by
    rw [paramDistance_list hv, paramDistance_list hv, htype]
    by_cases hlist : v.typeId w.lineage = .list
    · rw [if_pos hlist, if_pos hlist]
    · rw [hdepth hlist]
  rw [TakenForList, TakenForList, hdistance]

end Consulted

/-- What was picked for a value, or for one of the same type. -/
private theorem Picked.plus {v : Value} {m : Method} (h : w.Picked .list "plus" [v] m)
    (hg : w.Genuine .object) (hv : v.isWrapper = false) :
    m = plusList ∧ w.Listlike (v.typeId w.lineage)
      ∨ m = plusAny ∧ v.typeId w.lineage ≠ .list ∧ v.typeId w.lineage ≠ .null := by
  obtain ⟨w₀, k, us, hw₀, hds, hshape, hpick⟩ := h
  obtain ⟨u, rfl, hkey⟩ := List.map_eq_singleton_iff.mp hshape
  have hu : u.isWrapper = false := by
    rw [← ShapeKey.of_wrapped w₀.lineage, hkey, ShapeKey.of_wrapped, hv]
  have htype : u.typeId w₀.lineage = v.typeId w.lineage := by
    rw [ShapeKey.of_unwrapped hu, ShapeKey.of_unwrapped hv] at hkey
    exact congrArg ShapeKey.type hkey
  by_cases htaken : TakenForList w₀.lineage u
  · rw [pick_plus_of_taken htaken] at hpick
    refine Or.inl ⟨(Option.some.inj hpick).symm, ?_⟩
    rw [← htype]
    exact (listlike_of_taken htaken hu).deeds hw₀ hds hg
  · rw [pick_plus_of_not_taken htaken] at hpick
    refine Or.inr ⟨(Option.some.inj hpick).symm, ?_⟩
    rw [← htype]
    exact not_or.mp fun htypes => htaken (takenForList_of_type hu htypes)

end World

private theorem apply_plusList_of_ne {v : Value} (hv : ∀ m ys, v ≠ .list m ys) (names : Naming)
    (k n : Nat) (xs : List Value) :
    Primitive.apply names k (.list n xs) [v] (.list .plusList) = .error (mismatch names .list v) := by
  cases v with
  | list m ys => exact absurd rfl (hv m ys)
  | _ => rfl

/-- What `plus` on a list comes to, for one argument that is no wrapper. -/
structure World.Appends (w : World) (run : Runner) (t : TableRef) (i : Nat) (slot : Slot)
    (current : Bool) (n : Nat) (xs : List Value) (v : Value) : Prop where
  /-- The elements of a list are appended. -/
  elements : ∀ m ys, v = .list m ys →
    ∃ k, w.Answers run t i (.call current (.list n xs) [v]) (.ok (.list k (xs ++ ys)))
  /-- A value is appended if no value of its type is taken for a list. If the occupant does not serve the
  call it is enough that it is not taken for a list itself. -/
  element : ¬ w.Listlike (v.typeId w.lineage)
      ∨ slot.site.cached? w (.call current (.list n xs) [v]) = none ∧ ¬ TakenForList w.lineage v →
    ∃ k, w.Answers run t i (.call current (.list n xs) [v]) (.ok (.list k (xs ++ [v])))
  /-- What is no list but is taken for one cannot be added. That is so for null, for all other values of
  the type of lists and, if the occupant does not serve the call, for objects of classes below it. -/
  taken : (∀ m ys, v ≠ .list m ys) →
    v.typeId w.lineage = .list ∨ v.typeId w.lineage = .null
      ∨ slot.site.cached? w (.call current (.list n xs) [v]) = none ∧ TakenForList w.lineage v →
    w.Answers run t i (.call current (.list n xs) [v]) (.error (.coercion "List" (w.typeName v)))

/-- Where the types of lists and of objects have not been touched and no category is in force, every slot
of the name `plus` adds to lists so, whatever occupies it. -/
theorem list_plus_appends {w : World} (h : w.Plain .list) {t : TableRef} {i : Nat} {slot : Slot}
    (hs : w.slot? t i = some slot) (hname : slot.name = "plus") {v : Value} (hv : v.isWrapper = false)
    (script : Script.Body → Frame → Exec Fault Value) (current : Bool) (n : Nat) (xs : List Value) :
    w.Appends (.ofScripts script) t i slot current n xs v := by
  have hfits (lin : Lineage) (k : Nat) :
      (pick lin (BuiltinType.list.offers k slot.name) [v]).isSome = true := by
    rw [hname]
    by_cases htaken : TakenForList lin v
    · rw [pick_plus_of_taken htaken]
      rfl
    · rw [pick_plus_of_not_taken htaken]
      rfl
  obtain ⟨m, p, tier, w', hcode, hanswers, hcons, hpicked, hmisses⟩ :=
    @Plain.answers_native w .list t i slot (.list n xs) [v] h hs rfl hfits current script
  have hw := h.attained
  have hg := h.root.genuine
  rw [hname] at hpicked hmisses
  have hargs : ∀ u ∈ [v], u.isWrapper = false := fun u hu => List.mem_singleton.mp hu ▸ hv
  have htype := hcons.bodies.typeId hcons.objects v
  rcases hpicked.plus (hcons.genuine hg) hv with ⟨rfl, hlike⟩ | ⟨rfl, hlist, hnull⟩
  · obtain rfl : p = .list .plusList := (Code.primitive.inj hcode).symm
    rw [prepare_of_plain (by decide) hargs] at hanswers
    rw [htype] at hlike
    refine ⟨fun m ys hys => ?_, fun hnot => ?_, fun hne _ => ?_⟩
    · subst hys
      exact ⟨_, hanswers⟩
    · rcases hnot with hnot | ⟨hmiss, hnot⟩
      · exact absurd (hcons.listlike hw hg hlike) hnot
      · obtain ⟨k, hpick⟩ := hmisses hmiss
        rw [pick_plus_of_not_taken (mt (hcons.takenForList_iff hw hg hv).mp hnot)] at hpick
        cases hpick
    · rw [apply_plusList_of_ne hne] at hanswers
      rw [← hcons.bodies.typeName hcons.objects]
      exact hanswers
  · obtain rfl : p = .list .plus := (Code.primitive.inj hcode).symm
    rw [prepare_of_plain (by decide) hargs] at hanswers
    rw [htype] at hlist hnull
    refine ⟨fun m ys hys => ?_, fun _ => ⟨_, hanswers⟩, fun hne htaken => ?_⟩
    · subst hys
      exact absurd rfl hlist
    · rcases htaken with hlist' | hnull' | ⟨hmiss, htaken⟩
      · exact absurd hlist' hlist
      · exact absurd hnull' hnull
      · obtain ⟨k, hpick⟩ := hmisses hmiss
        rw [pick_plus_of_taken ((hcons.takenForList_iff hw hg hv).mpr htaken)] at hpick
        cases hpick

namespace Appended

/-- A slot has been used to add a number to a list. -/
def world : World :=
  ((initial {}).addTable (.ofSites .object 0 [("plus", .call)])).2.planned
    (.call false (.list 0 [.int 1]) [.int 2])

private theorem plain_world : world.Plain .list := by
  have hfirst : (initial {}).Attained := ⟨{}, {}, .refl⟩
  exact ⟨(hfirst.deed (.addTable (by decide) .object [("plus", .call)])).planned _,
    untouched_of_all (by decide +kernel), untouched_of_all (by decide +kernel), rfl⟩

end Appended

/-- The slot remembers how numbers are added. It adds another one, the elements of a list, and a list in a
list as its one element. -/
theorem list_plus_appends_appended : ∃ slot k k' k'',
    Appended.world.slot? ⟨0⟩ 0 = some slot ∧ slot.site.tag = .hostMethod
      ∧ Appended.world.Answers (.ofScripts (Script.evalBody 0)) ⟨0⟩ 0
        (.call false (.list 0 [.int 1]) [.int 3]) (.ok (.list k [.int 1, .int 3]))
      ∧ Appended.world.Answers (.ofScripts (Script.evalBody 0)) ⟨0⟩ 0
        (.call false (.list 0 [.int 1]) [.list 1 [.null, .int 3]])
        (.ok (.list k' [.int 1, .null, .int 3]))
      ∧ Appended.world.Answers (.ofScripts (Script.evalBody 0)) ⟨0⟩ 0
        (.call true (.list 0 [.int 1]) [.list 1 [.list 2 []]])
        (.ok (.list k'' [.int 1, .list 2 []])) := by
  have hslot : (Appended.world.slot? ⟨0⟩ 0).map (fun s => (s.name, s.site.tag))
      = some ("plus", .hostMethod) := by decide +kernel
  obtain ⟨slot, hs, hslot⟩ := Option.map_eq_some_iff.mp hslot
  obtain ⟨hname, htag⟩ := Prod.mk.inj hslot
  have happends {v : Value} (hv : v.isWrapper = false) (current : Bool) :=
    list_plus_appends Appended.plain_world hs hname hv (Script.evalBody 0) current 0 [.int 1]
  have hint : ¬ Appended.world.Listlike .int :=
    Appended.plain_world.attained.not_listlike (by decide +kernel) rfl (by decide) (by decide)
  obtain ⟨k, hk⟩ := (@happends (.int 3) rfl false).element (Or.inl hint)
  obtain ⟨k', hk'⟩ := (@happends (.list 1 [.null, .int 3]) rfl false).elements _ _ rfl
  obtain ⟨k'', hk''⟩ := (@happends (.list 1 [.list 2 []]) rfl true).elements _ _ rfl
  exact ⟨slot, k, k', k'', hs, htag, hk, hk', hk''⟩

/-- Null is no list, and yet it cannot be added to one: as a list it costs less than as any value. -/
theorem null_taken_for_list : Appended.world.Plain .list
    ∧ (Appended.world.slot? ⟨0⟩ 0).map Slot.name = some "plus" ∧ Value.null.isWrapper = false
    ∧ Appended.world.Answers (.ofScripts (Script.evalBody 0)) ⟨0⟩ 0
      (.call false (.list 0 [.int 1]) [.null]) (.error (.coercion "List" "NullObject")) :=
  ⟨Appended.plain_world, by decide +kernel, rfl, _, rfl⟩

end CachedDispatch
