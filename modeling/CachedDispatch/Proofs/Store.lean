import CachedDispatch.Proofs.Stamp
import CachedDispatch.World
import Mathlib.Data.List.Basic

/-!
How operations on a world change what is read from it: the class at a place, the registry, the slot
of a table.
-/
namespace CachedDispatch

namespace BuiltinType

theorem toClass_spec (b : BuiltinType) : b.toClass.id = b.id ∧ b.toClass.kind = b.classKind
    ∧ b.toClass.ancestors = [] ∧ b.toClass.Filed := by
  let empty : Class := { id := b.id, name := b.name, kind := b.classKind }
  obtain ⟨hid, -, hkind, hanc, hfiled⟩ := empty.foldl_declareMethod b.methods
  exact ⟨hid, hkind, hanc, hfiled fun name m hm => by cases hm⟩

end BuiltinType

theorem getD_modify {α : Type} (xs : Array α) (i j : Nat) (f : α → α) (d : α) :
    (xs.modify i f).getD j d = if i = j ∧ j < xs.size then f (xs.getD j d) else xs.getD j d := by
  by_cases hj : j < xs.size
  · by_cases hi : i = j <;> simp [Array.getD, hj, hi, Array.getElem_modify]
  · simp [Array.getD, hj]

theorem getD_push {α : Type} (xs : Array α) (j : Nat) (a d : α) :
    (xs.push a).getD j d = if j = xs.size then a else xs.getD j d := by
  by_cases hj : j < xs.size
  · simp [Array.getD, hj, Nat.lt_succ_of_lt hj, Nat.ne_of_lt hj, Array.getElem_push]
  · by_cases hs : j = xs.size
    · simp [Array.getD, hs]
    · have : ¬ j < xs.size + 1 := by omega
      simp [Array.getD, hj, hs, this]

theorem BuiltinType.eq_id_of_ofId? {t : TypeId} {b : BuiltinType} (h : ofId? t = some b) :
    t = b.id := by
  simpa [eq_comm] using List.find?_some h

theorem BuiltinType.isBuiltin_id (b : BuiltinType) : b.id.isBuiltin = true := by cases b <;> rfl

namespace Registry

variable (g : Registry)

theorem get?_entries_register (name : String) (t t' : TypeId) (r : ClassRef) :
    Assoc.get? (g.register name t r).entries t'
      = if t' = t then some r else Assoc.get? g.entries t' := Assoc.get?_set ..

theorem get?_names_register (name name' : String) (t : TypeId) (r : ClassRef) :
    Assoc.get? (g.register name t r).names name'
      = if name' = name then some t else Assoc.get? g.names name' := Assoc.get?_set ..

theorem lookup?_register (name name' : String) (t : TypeId) (r : ClassRef) :
    (g.register name t r).lookup? name' = if name' = name then some t else g.lookup? name' := by
  unfold lookup?
  rw [get?_names_register]
  by_cases hn : name' = name
  · rw [if_pos hn, if_pos hn]
  · rw [if_neg hn, if_neg hn]

theorem get?_entries_enterBuiltin (b : BuiltinType) (t : TypeId) :
    Assoc.get? (g.enterBuiltin b).entries t
      = if t = b.id then some (g.builtinRef b) else Assoc.get? g.entries t := Assoc.get?_set ..

/-- A name keeps its meaning when the builtin class of that name is entered. -/
theorem lookup?_enterBuiltin (b : BuiltinType) (name : String) :
    (g.enterBuiltin b).lookup? name = g.lookup? name := by
  simp only [lookup?, enterBuiltin]
  by_cases hc : Assoc.contains g.names b.name = true
  · rw [if_pos hc]
  · have hnone : Assoc.get? g.names b.name = none := by
      rw [Assoc.contains_eq_isSome] at hc
      simpa using hc
    rw [if_neg hc]
    by_cases hn : name = b.name
    · subst hn
      rw [Assoc.get?_set_self, hnone, BuiltinType.ofName?_name]
      rfl
    · rw [Assoc.get?_set_of_ne _ _ hn]

end Registry

namespace World

theorem cls_updateClass (w : World) (r q : ClassRef) (f : Class → Class) :
    (w.updateClass r f).cls q
      = if r = q ∧ q.idx < w.classes.size then f (w.cls q) else w.cls q := by
  have hq : r = q ↔ r.idx = q.idx := by cases r; cases q; simp
  unfold cls updateClass
  simp only [getD_modify, hq]

@[simp] theorem size_updateClass (w : World) (r : ClassRef) (f : Class → Class) :
    (w.updateClass r f).classes.size = w.classes.size := by simp [updateClass]

theorem cls_addClass (w : World) (c : Class) (q : ClassRef) :
    (w.addClass c).2.cls q = if q.idx = w.classes.size then c else w.cls q :=
  getD_push ..

theorem cls_of_push {w w' : World} {c : Class} (h : w'.classes = w.classes.push c) (q : ClassRef) :
    w'.cls q = if q.idx = w.classes.size then c else w.cls q := by
  unfold cls
  rw [h, getD_push]

@[simp] theorem size_addClass (w : World) (c : Class) :
    (w.addClass c).2.classes.size = w.classes.size + 1 := by simp [addClass]

/-- There is no class at other places. -/
theorem cls_out_of_range (w : World) {r : ClassRef} (hr : ¬ r.idx < w.classes.size) :
    w.cls r = default := by
  simp [cls, Array.getD, hr]

theorem cls_congr {w w' : World} (h : w'.classes = w.classes) : w'.cls = w.cls := by
  funext r
  simp only [cls, h]

theorem hierarchy_congr {w w' : World} (h : w'.cls = w.cls) : w'.hierarchy = w.hierarchy := by
  funext r
  rw [hierarchy, h]
  rfl

theorem hierarchy_eq_along (w : World) (r : ClassRef) :
    w.hierarchy r = .along w.cls r (w.cls r).ancestors := rfl

theorem registry_updateRegistry_eq (w : World) (rt rt' : Nat) (f : Registry → Registry) :
    (w.updateRegistry rt f).registry rt'
      = if rt = rt' ∧ rt' < w.runtimes.size then f (w.registry rt') else w.registry rt' := by
  simp only [registry, runtime, updateRegistry, getD_modify]
  split <;> rfl

theorem registry_updateRegistry (w : World) (f : Registry → Registry)
    (h : w.runtimes.size = 1) : (w.updateRegistry 0 f).registry 0 = f (w.registry 0) := by
  rw [registry_updateRegistry_eq, if_pos ⟨rfl, by omega⟩]

theorem registry_newRuntime (w : World) (config : Config) (rt : Nat) :
    (w.newRuntime config).2.registry rt
      = if rt = w.runtimes.size then { base := w.classes.size } else w.registry rt := by
  simp only [registry, runtime, newRuntime, getD_push]
  split <;> rfl

@[simp] theorem runtimes_size_updateRegistry (w : World) (rt : Nat) (f : Registry → Registry) :
    (w.updateRegistry rt f).runtimes.size = w.runtimes.size := by simp [updateRegistry]

@[simp] theorem runtimes_size_updateStats (w : World) (rt : Nat) (f : Stats → Stats) :
    (w.updateStats rt f).runtimes.size = w.runtimes.size := by simp [updateStats]

@[simp] theorem registry_updateStats (w : World) (rt rt' : Nat) (f : Stats → Stats) :
    (w.updateStats rt f).registry rt' = w.registry rt' := by
  simp only [registry, runtime, updateStats, getD_modify]
  split <;> rfl

/-- Any value but an object has a type whatever objects there are, and the class of its type. -/
theorem classOf_cases (v : Value) : (∃ o, v = .object o)
    ∨ ∃ t, (∀ lin, v.typeId lin = t) ∧ ∀ (w : World) rt, w.classOf rt v = w.findClass rt t := by
  cases v with
  | object o => exact Or.inl ⟨o, rfl⟩
  | _ => exact Or.inr ⟨_, fun _ => rfl, fun _ _ => rfl⟩

/-- Enters a builtin class below the class that stands for `Object`. -/
def enterBelow (w : World) (rt : Nat) (b : BuiltinType) : ClassRef × World :=
  let found := w.rootClass rt .object
  found.2.enterBuiltin rt b (found.1 :: (found.2.cls found.1).ancestors)

/-- What is found for a type, and what becomes of the world. -/
inductive Found (w : World) (rt : Nat) (t : TypeId) : Option ClassRef × World → Prop
  | entered {r : ClassRef} (h : Assoc.get? (w.registry rt).entries t = some r) : Found w rt t (some r, w)
  | undefined (h : Assoc.get? (w.registry rt).entries t = none) (hb : t.isBuiltin = false) :
      Found w rt t (none, w)
  /-- The identity is set aside for builtin types, and none of them has it. -/
  | spare (h : Assoc.get? (w.registry rt).entries t = none) (hb : t.isBuiltin = true)
      (ht : BuiltinType.ofId? t = none) : Found w rt t (none, (w.rootClass rt .object).2)
  | root {b : BuiltinType} (ht : t = b.id) (h : Assoc.get? (w.registry rt).entries t = none)
      (hb : b.isRoot = true) : Found w rt t (some (w.enterBuiltin rt b []).1, (w.enterBuiltin rt b []).2)
  | below {b : BuiltinType} (ht : t = b.id) (h : Assoc.get? (w.registry rt).entries t = none)
      (hb : ¬ b.isRoot = true) : Found w rt t (some (w.enterBelow rt b).1, (w.enterBelow rt b).2)

theorem found_of_findClass {w : World} {rt : Nat} {t : TypeId} {found : Option ClassRef × World}
    (h : w.findClass rt t = found) : w.Found rt t found := by
  subst h
  unfold findClass
  split
  · exact .entered ‹_›
  rename_i hnone
  split
  · rename_i hb
    exact .undefined hnone (by simpa using hb)
  rename_i hb
  split
  · exact .spare hnone (by simpa using hb) ‹_›
  rename_i b hid
  have ht := BuiltinType.eq_id_of_ofId? hid
  split
  · exact .root ht hnone ‹_›
  · exact .below ht hnone ‹_›

theorem findClass_of_entry {w : World} {rt : Nat} {t : TypeId} {r : ClassRef}
    (h : Assoc.get? (w.registry rt).entries t = some r) : w.findClass rt t = (some r, w) := by
  unfold findClass
  rw [h]

/-- Every builtin type has a class. -/
theorem exists_findClass_id (w : World) (rt : Nat) (b : BuiltinType) :
    ∃ r w', w.findClass rt b.id = (some r, w') := by
  generalize hfound : w.findClass rt b.id = found
  cases found_of_findClass hfound with
  | entered | root | below => exact ⟨_, _, rfl⟩
  | undefined _ hb => cases b.isBuiltin_id.symm.trans hb
  | spare _ _ ht => cases b.ofId?_id.symm.trans ht

theorem size_rootClass (w : World) (rt : Nat) (b : BuiltinType) :
    (w.rootClass rt b).2.classes.size = w.classes.size := by
  unfold rootClass
  split
  · rfl
  · exact w.size_updateClass _ _

theorem size_findClass (w : World) (rt : Nat) (t : TypeId) :
    (w.findClass rt t).2.classes.size = w.classes.size := by
  have hroot := w.size_rootClass rt .object
  generalize hfound : w.findClass rt t = found
  cases found_of_findClass hfound with
  | entered | undefined => rfl
  | spare => exact hroot
  | root => exact w.size_updateClass _ _
  | below => exact (size_updateClass _ _ _).trans hroot

theorem size_replaceClass (w : World) (rt : Nat) (r : ClassRef) :
    (w.replaceClass rt r).2.classes.size = w.classes.size := by
  simp only [replaceClass]
  split
  · exact size_updateClass (w.register rt r) _ _
  · rfl

@[simp] theorem runtimes_size_enterBuiltin (w : World) (rt : Nat) (b : BuiltinType)
    (rs : List ClassRef) : (w.enterBuiltin rt b rs).2.runtimes.size = w.runtimes.size :=
  runtimes_size_updateRegistry (w.updateClass _ _) rt _

@[simp] theorem runtimes_size_rootClass (w : World) (rt : Nat) (b : BuiltinType) :
    (w.rootClass rt b).2.runtimes.size = w.runtimes.size := by
  unfold rootClass; split <;> simp

@[simp] theorem runtimes_size_findClass (w : World) (rt : Nat) (t : TypeId) :
    (w.findClass rt t).2.runtimes.size = w.runtimes.size := by
  generalize hfound : w.findClass rt t = found
  cases found_of_findClass hfound with
  | entered | undefined => rfl
  | spare | root => simp
  | below => simp [enterBelow]

@[simp] theorem runtimes_size_register (w : World) (rt : Nat) (r : ClassRef) :
    (w.register rt r).runtimes.size = w.runtimes.size :=
  runtimes_size_updateRegistry w rt _

@[simp] theorem runtimes_size_replaceClass (w : World) (rt : Nat) (r : ClassRef) :
    (w.replaceClass rt r).2.runtimes.size = w.runtimes.size := by
  simp only [replaceClass]
  split
  · exact runtimes_size_register w rt r
  · exact runtimes_size_register w rt r

@[simp] theorem runtimes_size_beginClass (w : World) (rt : Nat) (name : String) (isHost : Bool) :
    (w.beginClass rt name isHost).2.runtimes.size = w.runtimes.size := by
  simp only [beginClass, runtimes_size_updateRegistry, runtimes_size_rootClass]

@[simp] theorem runtimes_size_buildClass (w : World) (d : Draft) (parent : Option ClassRef)
    (members : ClassMembers) : (w.buildClass d parent members).2.runtimes.size = w.runtimes.size := by
  simp only [buildClass, runtimes_size_register, addClass]

@[simp] theorem runtimes_size_defineClass (w : World) (rt : Nat) (parent : Option ClassRef)
    (members : ClassMembers) :
    (w.defineClass rt parent members).2.2.runtimes.size = w.runtimes.size := by
  simp only [defineClass, runtimes_size_buildClass, runtimes_size_beginClass]

private theorem begun_updateRegistry (w : World) (rt rt' : Nat) {f : Registry → Registry}
    (hf : ∀ g, (f g).begun = g.begun) :
    ((w.updateRegistry rt f).registry rt').begun = (w.registry rt').begun := by
  rw [registry_updateRegistry_eq]
  split
  · exact hf _
  · rfl

theorem begun_enterBuiltin (w : World) (rt rt' : Nat) (b : BuiltinType) (rs : List ClassRef) :
    ((w.enterBuiltin rt b rs).2.registry rt').begun = (w.registry rt').begun :=
  begun_updateRegistry (w.updateClass _ _) rt rt' fun _ => rfl

theorem begun_rootClass (w : World) (rt rt' : Nat) (b : BuiltinType) :
    ((w.rootClass rt b).2.registry rt').begun = (w.registry rt').begun := by
  unfold rootClass
  split
  · rfl
  · exact w.begun_enterBuiltin rt rt' b []

theorem begun_findClass (w : World) (rt rt' : Nat) (t : TypeId) :
    ((w.findClass rt t).2.registry rt').begun = (w.registry rt').begun := by
  have hroot := w.begun_rootClass rt rt' .object
  generalize hfound : w.findClass rt t = found
  cases found_of_findClass hfound with
  | entered | undefined => rfl
  | spare => exact hroot
  | root => exact w.begun_enterBuiltin rt rt' _ _
  | below => exact (begun_enterBuiltin _ rt rt' _ _).trans hroot

theorem begun_replaceClass (w : World) (rt rt' : Nat) (r : ClassRef) :
    ((w.replaceClass rt r).2.registry rt').begun = (w.registry rt').begun := by
  have hregister : ((w.register rt r).registry rt').begun = (w.registry rt').begun :=
    w.begun_updateRegistry rt rt' fun _ => rfl
  simp only [replaceClass]
  split <;> exact hregister

theorem begun_beginClass (w : World) (rt rt' : Nat) (name : String) (isHost : Bool) :
    ((w.beginClass rt name isHost).2.registry rt').begun
      = if rt = rt' ∧ rt' < w.runtimes.size then (w.registry rt').begun + 1
        else (w.registry rt').begun := by
  unfold beginClass
  rw [registry_updateRegistry_eq, runtimes_size_rootClass, ← w.begun_rootClass rt rt' .object]
  split <;> rfl

theorem begun_buildClass (w : World) (d : Draft) (parent : Option ClassRef) (members : ClassMembers)
    (rt : Nat) : ((w.buildClass d parent members).2.registry rt).begun = (w.registry rt).begun :=
  begun_updateRegistry (w.addClass _).2 d.runtime rt fun _ => rfl

theorem begun_defineClass (w : World) (rt rt' : Nat) (parent : Option ClassRef)
    (members : ClassMembers) :
    ((w.defineClass rt parent members).2.2.registry rt').begun
      = if rt = rt' ∧ rt' < w.runtimes.size then (w.registry rt').begun + 1
        else (w.registry rt').begun :=
  (begun_buildClass ..).trans (w.begun_beginClass rt rt' members.name members.isHost)

/-- All but the classes, the runtimes and the drafts is the same. -/
structure SameRest (w w' : World) : Prop where
  objects : w'.objects = w.objects
  tables : w'.tables = w.tables
  active : w'.active = w.active
  fresh : w'.fresh = w.fresh
  scope : w'.scope = w.scope
  history : w'.history = w.history
  embedding : w'.embedding = w.embedding

private theorem SameRest.refl (w : World) : w.SameRest w := ⟨rfl, rfl, rfl, rfl, rfl, rfl, rfl⟩

private theorem SameRest.trans {w w' w'' : World} (h : w.SameRest w') (h' : w'.SameRest w'') :
    w.SameRest w'' :=
  ⟨h'.objects.trans h.objects, h'.tables.trans h.tables, h'.active.trans h.active,
    h'.fresh.trans h.fresh, h'.scope.trans h.scope, h'.history.trans h.history,
    h'.embedding.trans h.embedding⟩

theorem SameRest.classOfObject {w w' : World} (h : w.SameRest w') (o : ObjectRef) :
    w'.classOfObject o = w.classOfObject o := by
  simp only [World.classOfObject, object, h.objects]

private theorem sameRest_enterBuiltin (w : World) (rt : Nat) (b : BuiltinType) (rs : List ClassRef) :
    w.SameRest (w.enterBuiltin rt b rs).2 := ⟨rfl, rfl, rfl, rfl, rfl, rfl, rfl⟩

theorem sameRest_rootClass (w : World) (rt : Nat) (b : BuiltinType) :
    w.SameRest (w.rootClass rt b).2 := by
  unfold rootClass
  split
  · exact .refl w
  · exact w.sameRest_enterBuiltin rt b []

theorem sameRest_findClass (w : World) (rt : Nat) (t : TypeId) :
    w.SameRest (w.findClass rt t).2 := by
  generalize hfound : w.findClass rt t = found
  cases found_of_findClass hfound with
  | entered | undefined => exact .refl w
  | spare => exact w.sameRest_rootClass rt .object
  | root => exact w.sameRest_enterBuiltin rt _ _
  | below => exact (w.sameRest_rootClass rt .object).trans (sameRest_enterBuiltin _ rt _ _)

theorem sameRest_replaceClass (w : World) (rt : Nat) (r : ClassRef) :
    w.SameRest (w.replaceClass rt r).2 := by
  simp only [replaceClass]
  split <;> exact ⟨rfl, rfl, rfl, rfl, rfl, rfl, rfl⟩

theorem sameRest_defineClass (w : World) (rt : Nat) (parent : Option ClassRef)
    (members : ClassMembers) : w.SameRest (w.defineClass rt parent members).2.2 :=
  (w.sameRest_rootClass rt .object).trans ⟨rfl, rfl, rfl, rfl, rfl, rfl, rfl⟩

theorem sameRest_draftClass (w : World) (key : String) (rt : Nat) (name : String) (isHost : Bool) :
    w.SameRest (w.draftClass key rt name isHost).2 :=
  (w.sameRest_rootClass rt .object).trans ⟨rfl, rfl, rfl, rfl, rfl, rfl, rfl⟩

theorem sameRest_finishClass (w : World) (key : String) (d : Draft) (parent : Option ClassRef)
    (members : ClassMembers) : w.SameRest (w.finishClass key d parent members).2 :=
  ⟨rfl, rfl, rfl, rfl, rfl, rfl, rfl⟩

theorem drafts_rootClass (w : World) (rt : Nat) (b : BuiltinType) :
    (w.rootClass rt b).2.drafts = w.drafts := by
  unfold rootClass
  split <;> rfl

theorem drafts_findClass (w : World) (rt : Nat) (t : TypeId) :
    (w.findClass rt t).2.drafts = w.drafts := by
  have hroot := w.drafts_rootClass rt .object
  generalize hfound : w.findClass rt t = found
  cases found_of_findClass hfound with
  | entered | undefined | root => rfl
  | spare | below => exact hroot

theorem drafts_replaceClass (w : World) (rt : Nat) (r : ClassRef) :
    (w.replaceClass rt r).2.drafts = w.drafts := by
  simp only [replaceClass]
  split <;> rfl

theorem table_updateSlot (w : World) (t u : TableRef) (i : Nat) (f : Slot → Slot) :
    (w.updateSlot t i f).table u
      = if t = u ∧ u.idx < w.tables.size then
          { w.table u with slots := (w.table u).slots.modify i f }
        else w.table u := by
  have hu : t = u ↔ t.idx = u.idx := by cases t; cases u; simp
  unfold table updateSlot
  simp only [getD_modify, hu]

theorem owner_updateSlot (w : World) (t u : TableRef) (i : Nat) (f : Slot → Slot) :
    ((w.updateSlot t i f).table u).owner = (w.table u).owner := by
  rw [table_updateSlot]; split <;> rfl

theorem runtime_updateSlot (w : World) (t u : TableRef) (i : Nat) (f : Slot → Slot) :
    ((w.updateSlot t i f).table u).runtime = (w.table u).runtime := by
  rw [table_updateSlot]; split <;> rfl

/-- A slot after one of them was written is the written one or as it was. -/
theorem slot?_updateSlot {w : World} {t u : TableRef} {i j : Nat} {f : Slot → Slot} {s : Slot}
    (h : (w.updateSlot t i f).slot? u j = some s) :
    w.slot? u j = some s ∨ t = u ∧ i = j ∧ ∃ s₀, w.slot? u j = some s₀ ∧ s = f s₀ := by
  unfold slot? at h ⊢
  rw [table_updateSlot] at h
  split at h
  · rename_i ht
    rw [Array.getElem?_modify] at h
    split at h
    · obtain ⟨s₀, hs₀, rfl⟩ := Option.map_eq_some_iff.mp h
      exact Or.inr ⟨ht.1, ‹_›, s₀, hs₀, rfl⟩
    · exact Or.inl h
  · exact Or.inl h

theorem slot?_updateSlot_self {w : World} {t : TableRef} {i : Nat} {s : Slot}
    (h : w.slot? t i = some s) (f : Slot → Slot) : (w.updateSlot t i f).slot? t i = some (f s) := by
  have hlt : t.idx < w.tables.size := by
    by_contra hn
    have hslots : (default : Table).slots = #[] := rfl
    simp [slot?, table, Array.getD, hn, hslots] at h
  unfold slot? at h ⊢
  rw [table_updateSlot, if_pos ⟨rfl, hlt⟩, Array.getElem?_modify, if_pos rfl, h]
  rfl

theorem slot?_updateSlot_of_ne (w : World) {t u : TableRef} {i j : Nat} (h : ¬ (t = u ∧ i = j))
    (f : Slot → Slot) : (w.updateSlot t i f).slot? u j = w.slot? u j := by
  unfold slot?
  rw [table_updateSlot]
  split
  · rename_i ht
    rw [Array.getElem?_modify, if_neg fun hi => h ⟨ht.1, hi⟩]
  · rfl

/-- A write is known by what it makes of the slot that is there. -/
theorem updateSlot_congr {w : World} {t : TableRef} {i : Nat} {s : Slot} (h : w.slot? t i = some s)
    {f g : Slot → Slot} (hfg : f s = g s) : w.updateSlot t i f = w.updateSlot t i g := by
  have hslots {slots : Array Slot} (hs : slots[i]? = some s) :
      slots.modify i f = slots.modify i g := by
    refine Array.ext_getElem? fun j => ?_
    rw [Array.getElem?_modify, Array.getElem?_modify]
    split
    · subst_vars
      rw [hs, Option.map_some, Option.map_some, hfg]
    · rfl
  unfold slot? table at h
  unfold updateSlot
  congr 1
  refine Array.ext_getElem? fun n => ?_
  rw [Array.getElem?_modify, Array.getElem?_modify]
  split
  · subst_vars
    rcases hn : w.tables[t.idx]? with _ | table
    · rfl
    · rw [Array.getD_eq_getD_getElem?, hn, Option.getD_some] at h
      rw [Option.map_some, Option.map_some, hslots h]
  · rfl

theorem table_addTable (w : World) (table : Table) (u : TableRef) :
    (w.addTable table).2.table u = if u.idx = w.tables.size then table else w.table u :=
  getD_push ..

theorem classOfObject_setField (w : World) (o p : ObjectRef) (name : String) (v : Value) :
    (w.setField o name v).classOfObject p = w.classOfObject p := by
  unfold classOfObject object setField
  rw [getD_modify]
  split <;> rfl

theorem classOfObject_newObject (w : World) (r : ClassRef) (p : ObjectRef) :
    (w.newObject r).2.classOfObject p
      = if p.idx = w.objects.size then r else w.classOfObject p := by
  unfold classOfObject object newObject
  rw [getD_push]
  split <;> rfl

end World

end CachedDispatch
