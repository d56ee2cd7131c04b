import CachedDispatch.Proofs.Hit

/-!
Worlds that differ only in what dispatch keeps to itself: the occupants of slots, the counters, and
which builtin classes have been entered so far. No lookup can tell them apart.
-/
namespace CachedDispatch

namespace Script

def SiteView.plain (_ : SiteView) : SiteView := ⟨none, none, 0⟩

def SlotView.plain (v : SlotView) : SlotView := { v with site := v.site.plain }

mutual

/-- The answer without the state of slots, the counters, the settings and the number of entered
classes. -/
def Answer.plain : Answer → Answer
  | .stats _ _ => .stats {} {}
  | .classCount _ => .classCount 0
  | .dispatched result site _ => .dispatched result site.plain {}
  | .slots ss => .slots (ss.map SlotView.plain)
  | .used before inside after replies => .used before inside after (plainReplies replies)
  | .ran runs _ _ => .ran runs [] {}
  | answer => answer

def Reply.plain : Reply → Reply
  | .mk answer trace => .mk answer.plain (plainEntries trace)

def Entry.plain : Entry → Entry
  | .value v => .value v
  | .reply r => .reply r.plain

def plainReplies : List Reply → List Reply
  | [] => []
  | r :: rs => r.plain :: plainReplies rs

def plainEntries : List Entry → List Entry
  | [] => []
  | e :: es => e.plain :: plainEntries es

end

theorem plainReplies_eq_map (rs : List Reply) : plainReplies rs = rs.map Reply.plain := by
  induction rs with
  | nil => rfl
  | cons r rs ih => rw [plainReplies, ih]; rfl

theorem plainEntries_eq_map (es : List Entry) : plainEntries es = es.map Entry.plain := by
  induction es with
  | nil => rfl
  | cons e es ih => rw [plainEntries, ih]; rfl

end Script

def Class.detached (c : Class) : Class := { c with ancestors := [] }

def Slot.plain (s : Slot) : Slot := { s with site := .generic, installs := 0 }

def Table.plain (t : Table) : Table := { t with slots := t.slots.map Slot.plain }

def Scope.plain (s : Scope) : Scope := { s with trace := s.trace.map Script.Entry.plain }

namespace World

structure Same (w₁ w₂ : World) : Prop where
  runtimes : w₁.runtimes.size = w₂.runtimes.size
  classes : w₁.classes.size = w₂.classes.size
  cls : ∀ r, (w₁.cls r).detached = (w₂.cls r).detached
  ancestors : ∀ r, 10 ≤ r.idx → (w₁.cls r).ancestors = (w₂.cls r).ancestors
  names : ∀ name, (w₁.registry 0).lookup? name = (w₂.registry 0).lookup? name
  begun : (w₁.registry 0).begun = (w₂.registry 0).begun
  objects : w₁.objects = w₂.objects
  tables : w₁.tables.map Table.plain = w₂.tables.map Table.plain
  active : w₁.active = w₂.active
  fresh : w₁.fresh = w₂.fresh
  scope : w₁.scope.plain = w₂.scope.plain
  history : w₁.history = w₂.history
  drafts : w₁.drafts = w₂.drafts
  embedding : w₁.embedding = w₂.embedding

namespace Same

variable {w w₁ w₂ w₃ : World}

theorem refl (w : World) : w.Same w :=
  ⟨rfl, rfl, fun _ => rfl, fun _ _ => rfl, fun _ => rfl, rfl, rfl, rfl, rfl, rfl, rfl, rfl, rfl, rfl⟩

theorem symm (h : w₁.Same w₂) : w₂.Same w₁ :=
  ⟨h.runtimes.symm, h.classes.symm, fun r => (h.cls r).symm, fun r hr => (h.ancestors r hr).symm,
    fun n => (h.names n).symm, h.begun.symm, h.objects.symm, h.tables.symm, h.active.symm,
    h.fresh.symm, h.scope.symm, h.history.symm, h.drafts.symm, h.embedding.symm⟩

theorem trans (h : w₁.Same w₂) (h' : w₂.Same w₃) : w₁.Same w₃ :=
  ⟨h.runtimes.trans h'.runtimes, h.classes.trans h'.classes, fun r => (h.cls r).trans (h'.cls r),
    fun r hr => (h.ancestors r hr).trans (h'.ancestors r hr),
    fun n => (h.names n).trans (h'.names n), h.begun.trans h'.begun, h.objects.trans h'.objects,
    h.tables.trans h'.tables, h.active.trans h'.active, h.fresh.trans h'.fresh,
    h.scope.trans h'.scope, h.history.trans h'.history, h.drafts.trans h'.drafts,
    h.embedding.trans h'.embedding⟩

theorem id (h : w₁.Same w₂) (r : ClassRef) : (w₁.cls r).id = (w₂.cls r).id :=
  (congrArg Class.id (h.cls r) :)

theorem name (h : w₁.Same w₂) (r : ClassRef) : (w₁.cls r).name = (w₂.cls r).name :=
  (congrArg Class.name (h.cls r) :)

private theorem kind (h : w₁.Same w₂) (r : ClassRef) : (w₁.cls r).kind = (w₂.cls r).kind :=
  (congrArg Class.kind (h.cls r) :)

theorem hook (h : w₁.Same w₂) (r : ClassRef) : (w₁.cls r).hook = (w₂.cls r).hook :=
  (congrArg Class.hook (h.cls r) :)

theorem classOfObject (h : w₁.Same w₂) (o : ObjectRef) :
    w₁.classOfObject o = w₂.classOfObject o := by
  simp only [World.classOfObject, object, h.objects]

theorem naming (h : w₁.Same w₂) : w₁.naming = w₂.naming := by
  have hname (o : ObjectRef) :
      (w₁.cls (w₁.classOfObject o)).name = (w₂.cls (w₂.classOfObject o)).name := by
    rw [h.classOfObject, h.name]
  simp only [World.naming, h.embedding, hname]

theorem field? (h : w₁.Same w₂) (o : ObjectRef) (name : String) :
    w₁.field? o name = w₂.field? o name := by
  simp only [World.field?, object, h.objects]

theorem hasActiveCategory (h : w₁.Same w₂) : w₁.hasActiveCategory = w₂.hasActiveCategory := by
  simp only [World.hasActiveCategory, h.active]

private theorem hostTyped (h : w₁.Same w₂) {v : Value} (hv : w₂.HostTyped v) : w₁.HostTyped v := by
  cases v with
  | host n t label =>
    exact ⟨hv.1, fun r hr hid => by
      rw [h.kind]
      exact hv.2 r (h.classes ▸ hr) ((h.id r).symm.trans hid)⟩
  | _ => trivial

theorem lone (h : w₁.Same w₂) (hl : w₂.Lone) : w₁.Lone :=
  ⟨h.runtimes.trans hl.single, h.begun ▸ hl.supplied⟩

theorem tame (h : w₁.Same w₂) (ht : w₂.Tame) : w₁.Tame where
  toLone := h.lone ht.toLone
  objects o ho := by
    rw [h.classOfObject, h.kind]
    exact ht.objects o (h.objects ▸ ho)
  hosts request ha v hv := by
    obtain ⟨t, i, ha⟩ := ha
    exact h.hostTyped (ht.hosts request ⟨t, i, h.history ▸ ha⟩ v hv)

theorem disciplined (h : w₁.Same w₂) (hd : w₂.Disciplined) : w₁.Disciplined :=
  ⟨h.tame hd.toTame, fun request ⟨t, i, ha⟩ => hd.unwrapped request ⟨t, i, h.history ▸ ha⟩⟩

theorem table (h : w₁.Same w₂) (t : TableRef) : (w₁.table t).plain = (w₂.table t).plain := by
  have hslots : (default : Table).slots = #[] := rfl
  have hd : (default : Table).plain = default := by
    unfold Table.plain
    rw [hslots, Array.map_empty]
    rfl
  have hmap (w : World) : (w.table t).plain = (w.tables.map Table.plain).getD t.idx default := by
    unfold World.table
    by_cases hlt : t.idx < w.tables.size
    · simp [Array.getD, hlt]
    · simp [Array.getD, hlt, hd]
  rw [hmap, hmap, h.tables]

theorem tableRuntime (h : w₁.Same w₂) (t : TableRef) : (w₁.table t).runtime = (w₂.table t).runtime :=
  (congrArg Table.runtime (h.table t) :)

theorem tableOwner (h : w₁.Same w₂) (t : TableRef) : (w₁.table t).owner = (w₂.table t).owner :=
  (congrArg Table.owner (h.table t) :)

theorem slot? (h : w₁.Same w₂) (t : TableRef) (i : Nat) :
    (w₁.slot? t i).map Slot.plain = (w₂.slot? t i).map Slot.plain := by
  have hslots := congrArg Table.slots (h.table t)
  simp only [Table.plain] at hslots
  unfold World.slot?
  rw [← Array.getElem?_map, ← Array.getElem?_map, hslots]

end Same

/-- Two worlds of one kind, both in order. -/
structure Matched (w₁ w₂ : World) : Prop where
  orderly₁ : w₁.Orderly
  orderly₂ : w₂.Orderly
  housed₁ : w₁.Housed
  housed₂ : w₂.Housed
  tame₁ : w₁.Tame
  tame₂ : w₂.Tame
  same : w₁.Same w₂

theorem Reachable.matched {w₁ w₂ : World} (h₁ : w₁.Reachable) (h₂ : w₂.Reachable)
    (h : w₁.Same w₂) (ht : w₂.Tame) : w₁.Matched w₂ :=
  have ht₁ := h.tame ht
  ⟨h₁.orderly ht₁.toLone, h₂.orderly ht.toLone, h₁.housed ht₁.toLone, h₂.housed ht.toLone, ht₁, ht, h⟩

namespace Matched

variable {w₁ w₂ : World}

theorem cls (h : w₁.Matched w₂) {r : ClassRef} (hr₁ : w₁.Placed r) (hr₂ : w₂.Placed r) :
    w₁.cls r = w₂.cls r := by
  have hanc : (w₁.cls r).ancestors = (w₂.cls r).ancestors := by
    by_cases hten : 10 ≤ r.idx
    · exact h.same.ancestors r hten
    · have hone (w : World) (ho : w.Orderly) (hp : w.Placed r) :
          (w.cls r).ancestors = if r.idx < 2 then [] else [⟨0⟩] := by
        rcases ho.below r (Nat.lt_of_not_le hten) with hn | ⟨h2, hz⟩
        · rw [hn, if_pos (hp.settled.resolve_right fun hne => hne hn)]
        · rw [hz, if_neg (Nat.not_lt.mpr h2)]
      rw [hone w₁ h.orderly₁ hr₁, hone w₂ h.orderly₂ hr₂]
  have hback (c : Class) (rs : List ClassRef) (hrs : c.ancestors = rs) :
      { c.detached with ancestors := rs } = c := by subst hrs; rfl
  rw [← hback (w₁.cls r) _ rfl, ← hback (w₂.cls r) _ rfl, h.same.cls r, hanc]

theorem hierarchy (h : w₁.Matched w₂) {r : ClassRef} (hr₁ : w₁.Placed r) (hr₂ : w₂.Placed r) :
    w₁.hierarchy r = w₂.hierarchy r := by
  have hcls := h.cls hr₁ hr₂
  unfold World.hierarchy
  rw [hcls]
  congr 1
  refine List.map_congr_left fun a ha => h.cls ?_ (h.orderly₂.ancestors r a ha)
  exact h.orderly₁.ancestors r a (by rwa [hcls])

theorem lineage (h : w₁.Matched w₂) : w₁.lineage = w₂.lineage := by
  funext o
  have hp := h.housed₁.objects o
  unfold World.lineage
  rw [h.same.classOfObject] at hp ⊢
  rw [h.hierarchy hp (h.housed₂.objects o)]

/-- The class of a type, if it has one, is the same, however much has been entered. -/
theorem findClass_fst (h : w₁.Matched w₂) (t : TypeId) :
    (w₁.findClass 0 t).1 = (w₂.findClass 0 t).1 := by
  ext r
  rw [h.orderly₁.findClass_fst, h.orderly₂.findClass_fst, h.same.classes, h.same.id]

end Matched

namespace Same

variable {w : World}

theorem updateStats (w : World) (rt : Nat) (f : Stats → Stats) : w.Same (w.updateStats rt f) :=
  ⟨by simp, rfl, fun _ => rfl, fun _ _ => rfl, fun _ => by simp, by simp, rfl, rfl, rfl, rfl, rfl, rfl,
    rfl, rfl⟩

theorem updateSlot (w : World) (t : TableRef) (i : Nat) {f : Slot → Slot}
    (hf : ∀ s, (f s).plain = s.plain) : w.Same (w.updateSlot t i f) := by
  refine ⟨rfl, rfl, fun _ => rfl, fun _ _ => rfl, fun _ => rfl, rfl, rfl, ?_, rfl, rfl, rfl, rfl, rfl,
    rfl⟩
  have hslots (slots : Array Slot) :
      (slots.modify i f).map Slot.plain = slots.map Slot.plain := by
    ext1
    · simp
    · rename_i j _ _
      by_cases hj : i = j <;> simp [Array.getElem_modify, hj, hf]
  unfold World.updateSlot
  ext1
  · simp
  · rename_i j _ _
    by_cases hj : t.idx = j <;> simp [Array.getElem_modify, hj, Table.plain, hslots]

/-- Entering a builtin class makes no difference. -/
private theorem enterBuiltin (ho : w.Orderly) (b : BuiltinType) (rs : List ClassRef) :
    w.Same (w.enterBuiltin 0 b rs).2 := by
  refine ⟨by simp, (size_updateClass w _ _).symm, fun q => ?_, fun q hq => ?_, fun name => ?_,
    (w.begun_enterBuiltin 0 0 b rs).symm, rfl, rfl, rfl, rfl, rfl, rfl, rfl, rfl⟩
  · rw [ho.cls_enterBuiltin]
    split <;> rfl
  · have hlt := b.number_id_lt
    rw [ho.cls_enterBuiltin, if_neg (by omega)]
  · rw [ho.registry_enterBuiltin, Registry.lookup?_enterBuiltin]

theorem rootClass (ho : w.Orderly) (b : BuiltinType) : w.Same (w.rootClass 0 b).2 := by
  unfold World.rootClass
  split
  · exact .refl w
  · exact enterBuiltin ho b []

theorem findClass (ho : w.Orderly) (t : TypeId) : w.Same (w.findClass 0 t).2 := by
  have hroot := rootClass ho .object
  generalize hfound : w.findClass 0 t = found
  cases found_of_findClass hfound with
  | entered | undefined => exact .refl w
  | spare => exact hroot
  | root => exact enterBuiltin ho _ _
  | below => exact hroot.trans (enterBuiltin (ho.rootClass (b := .object) rfl).1 _ _)

end Same

end World

end CachedDispatch
