import CachedDispatch.Proofs.Registration
import Mathlib.Algebra.Group.Nat.Defs
import Mathlib.Data.List.InsertIdx

/-!
One registry that is only ever given classes of its own. Each type has one class, which the registry
answers with from the time it exists, and what a name stands for is decided by what was built and
replaced under it.
-/
namespace CachedDispatch

namespace Workshop

/-- All classes are the one registry's own: the first ten are builtin, every other one was built and
stands for its type. Its identities have not come round. -/
structure Sole (s : Workshop) : Prop extends Recorded s, Singular s 0 where
  supplied : (s.world.registry 0).begun ≤ TypeId.supply
  single : s.world.runtimes.size = 1
  base : (s.world.registry 0).base = 0
  defined : ∀ r : ClassRef, 10 ≤ r.idx → r.idx < s.world.classes.size →
    (s.world.cls r).id ∈ s.built 0 ∧ s.world.classFor? 0 (s.world.cls r).id = some r
  made : ∀ t ∈ s.built 0,
    ∃ r : ClassRef, 10 ≤ r.idx ∧ r.idx < s.world.classes.size ∧ (s.world.cls r).id = t

namespace Sole

variable {s s' : Workshop}

theorem lt_one (h : s.Sole) : 0 < s.world.runtimes.size := by rw [h.single]; exact Nat.one_pos

private theorem le_of_built (h : s.Sole) {t : TypeId} (ht : t ∈ s.built 0) :
    TypeId.firstDefined ≤ t.number :=
  h.firstDefined_le h.lt_one h.supplied (h.built 0 t ht)

theorem id_reserved (h : s.Sole) {r : ClassRef} (hr : r.idx < 10) :
    ∃ b : BuiltinType, r = (s.world.registry 0).builtinRef b ∧ (s.world.cls r).id = b.id := by
  obtain ⟨b, hb⟩ := BuiltinType.exists_of_lt hr
  have href : r = (s.world.registry 0).builtinRef b := by
    rw [Registry.builtinRef, h.base, Nat.zero_add, hb]
  exact ⟨b, href, href ▸ h.catalogued.id_builtinRef h.lt_one b⟩

/-- A type has at most one class. -/
private theorem eq_of_id_eq (h : s.Sole) {r q : ClassRef} (hr : r.idx < s.world.classes.size)
    (hq : q.idx < s.world.classes.size) (hid : (s.world.cls r).id = (s.world.cls q).id) : r = q := by
  have hsep {r q : ClassRef} (hr : r.idx < 10) (hq : 10 ≤ q.idx)
      (hq' : q.idx < s.world.classes.size) : (s.world.cls r).id ≠ (s.world.cls q).id := by
    intro hid
    obtain ⟨b, -, hb⟩ := h.id_reserved hr
    have hle := h.le_of_built (h.defined q hq hq').1
    rw [← hid, hb] at hle
    exact absurd (Nat.lt_of_lt_of_le b.number_id_lt (by decide)) (Nat.not_lt.mpr hle)
  by_cases hr10 : r.idx < 10
  · by_cases hq10 : q.idx < 10
    · obtain ⟨b, rfl, hb⟩ := h.id_reserved hr10
      obtain ⟨b', rfl, hb'⟩ := h.id_reserved hq10
      rw [hb, hb'] at hid
      unfold Registry.builtinRef
      rw [hid]
    · exact absurd hid (hsep hr10 (Nat.le_of_not_lt hq10) hq)
  · by_cases hq10 : q.idx < 10
    · exact absurd hid.symm (hsep hq10 (Nat.le_of_not_lt hr10) hr)
    · have hre := (h.defined r (Nat.le_of_not_lt hr10) hr).2
      rw [hid, (h.defined q (Nat.le_of_not_lt hq10) hq).2] at hre
      exact (Option.some.inj hre).symm

/-- What the registry answers for a type is the class of that type. -/
private theorem findClass_eq_some_iff (h : s.Sole) (t : TypeId) (r : ClassRef) :
    (s.world.findClass 0 t).1 = some r
      ↔ r.idx < s.world.classes.size ∧ (s.world.cls r).id = t := by
  have hm := s.world.materialises_findClass 0 t
  have hfound {q : ClassRef} (hq : (s.world.findClass 0 t).1 = some q) :
      q.idx < s.world.classes.size ∧ (s.world.cls q).id = t := by
    have he := World.classFor?_of_findClass h.lt_one (Prod.ext hq rfl)
    have hcat := (hm.catalogued h.catalogued).entries 0 t q he
    rwa [hm.size, (hm.later q).id] at hcat
  refine ⟨hfound, fun ⟨hr, hid⟩ => ?_⟩
  -- something is found, and there is only one class of this type
  suffices hs : ((s.world.findClass 0 t).1).isSome by
    obtain ⟨q, hq⟩ := Option.isSome_iff_exists.mp hs
    obtain ⟨hq', hqid⟩ := hfound hq
    rw [hq, h.eq_of_id_eq hr hq' (hid.trans hqid.symm)]
  subst hid
  by_cases hr10 : r.idx < 10
  · obtain ⟨b, -, hb⟩ := h.id_reserved hr10
    obtain ⟨q, w', hq⟩ := s.world.exists_findClass_id 0 b
    rw [hb, hq]
    rfl
  · rw [World.findClass_of_entry (h.defined r (Nat.le_of_not_lt hr10) hr).2]
    rfl

/-- A change of the world that keeps what stands for the defined types. -/
private theorem of_kept (h : s.Sole) (hs : s'.Recorded) (hsing : s'.Singular 0)
    (hb : (s'.world.registry 0).begun ≤ TypeId.supply)
    (hsingle : s'.world.runtimes.size = s.world.runtimes.size)
    (hbase : (s'.world.registry 0).base = (s.world.registry 0).base)
    (hsize : s'.world.classes.size = s.world.classes.size)
    (hids : ∀ r : ClassRef, r.idx < s.world.classes.size →
      (s'.world.cls r).id = (s.world.cls r).id) (hbuilt : s'.built 0 = s.built 0)
    (hkept : ∀ r : ClassRef, r.idx < s.world.classes.size →
      s.world.classFor? 0 (s.world.cls r).id = some r →
      s'.world.classFor? 0 (s.world.cls r).id = some r) : s'.Sole where
  toRecorded := hs
  toSingular := hsing
  supplied := hb
  single := hsingle.trans h.single
  base := hbase.trans h.base
  defined r hr hlt := by
    have hlt := hsize ▸ hlt
    rw [hids r hlt, hbuilt]
    exact (h.defined r hr hlt).imp_right (hkept r hlt)
  made t ht := by
    obtain ⟨r, hr, hlt, hid⟩ := h.made t (hbuilt ▸ ht)
    exact ⟨r, hr, hsize ▸ hlt, (hids r hlt).trans hid⟩

private theorem replace (h : s.Sole) {r : ClassRef} (hr : r.idx < s.world.classes.size)
    {log : List Notice}
    (hs : Recorded { s with world := (s.world.replaceClass 0 r).2, log })
    (hsing : Singular { s with world := (s.world.replaceClass 0 r).2, log } 0)
    (hbuilt : Workshop.built { s with world := (s.world.replaceClass 0 r).2, log } 0 = s.built 0) :
    Sole { s with world := (s.world.replaceClass 0 r).2, log } := by
  have hreg := s.world.registers_replaceClass h.lt_one r
  have hend := (h.catalogued.replaceClass 0 hr).2
  refine h.of_kept hs hsing ((hreg.begun 0).symm ▸ h.supplied) hreg.size (hend.bases 0 h.lt_one)
    (s.world.size_replaceClass 0 r) (fun _ => hend.id_eq) hbuilt fun q hq he => ?_
  rw [hreg.classFor?]
  split
  · rename_i heq
    rw [h.eq_of_id_eq hq hr heq.2]
  · exact he

private theorem build (h : s.Sole) {k : Nat} {d : Draft} (hd : s.drafts[k]? = some d)
    (parent : Option ClassRef) (members : ClassMembers) {drafts : List Draft}
    (hs : Recorded {
      world := (s.world.buildClass d parent members).2
      drafts
      log := .built d.runtime d.name d.id :: s.log })
    (hsing : Singular {
      world := (s.world.buildClass d parent members).2
      drafts
      log := .built d.runtime d.name d.id :: s.log } 0) :
    Sole {
      world := (s.world.buildClass d parent members).2
      drafts
      log := .built d.runtime d.name d.id :: s.log } := by
  obtain ⟨hlt, -⟩ := h.drafts d (List.mem_of_getElem? hd)
  obtain hzero : d.runtime = 0 := by
    have := h.single
    omega
  have hnot := h.unbuilt d (List.mem_of_getElem? hd) hzero
  have hreg := s.world.registers_buildClass hlt parent members
  have hend := (h.catalogued.buildClass d parent members).2
  have hsize : (s.world.buildClass d parent members).2.classes.size = s.world.classes.size + 1 :=
    World.size_addClass ..
  have hbuilt : Workshop.built ⟨(s.world.buildClass d parent members).2, drafts,
      .built d.runtime d.name d.id :: s.log⟩ 0 = d.id :: s.built 0 := by
    unfold Workshop.built
    rw [List.filterMap_cons, Notice.built?, if_pos hzero]
  have hten : 10 ≤ s.world.classes.size := by
    have := h.catalogued.room _ hlt
    omega
  have hnew : ((s.world.buildClass d parent members).2.cls ⟨s.world.classes.size⟩).id = d.id := by
    have hc : (s.world.buildClass d parent members).2.cls ⟨s.world.classes.size⟩
        = ClassMembers.toClass { members with name := d.name, isHost := d.isHost } d.id
            (parent.getD d.root :: (s.world.cls (parent.getD d.root)).ancestors) :=
      (World.cls_addClass ..).trans (if_pos rfl)
    rw [hc, ClassMembers.id_toClass]
  refine ⟨hs, hsing, (hreg.begun 0).symm ▸ h.supplied, hreg.size.trans h.single,
    (hend.bases 0 h.lt_one).trans h.base, ?_, ?_⟩
  · intro r hr hr'
    rw [hbuilt, hreg.classFor?]
    by_cases hlast : r.idx = s.world.classes.size
    · obtain rfl : r = ⟨s.world.classes.size⟩ := by rw [← hlast]
      rw [hnew, if_pos ⟨hzero.symm, rfl⟩]
      exact ⟨List.mem_cons_self, rfl⟩
    · have hold : r.idx < s.world.classes.size := by
        have : r.idx < s.world.classes.size + 1 := hsize ▸ hr'
        omega
      obtain ⟨hmem, he⟩ := h.defined r hr hold
      have hne : (s.world.cls r).id ≠ d.id := fun heq => hnot (heq ▸ hmem)
      rw [hend.id_eq hold, if_neg fun hc => hne hc.2]
      exact ⟨List.mem_cons_of_mem _ hmem, he⟩
  · intro t ht
    rw [hbuilt] at ht
    simp only [hsize]
    rcases List.mem_cons.mp ht with rfl | ht
    · exact ⟨⟨s.world.classes.size⟩, hten, Nat.lt_succ_self _, hnew⟩
    · obtain ⟨r, hr, hr', hid⟩ := h.made t ht
      exact ⟨r, hr, Nat.lt_succ_of_lt hr', by rw [hend.id_eq hr', hid]⟩

private theorem step {op : RegistryOp} (h : s.Sole) (hs : s.Step op s')
    (hb : (s'.world.registry 0).begun ≤ TypeId.supply) : s'.Sole := by
  have hrec := h.toRecorded.step hs
  have hsing := h.toSingular.step h.toRecorded hs hb
  cases hs with
  | quiet hm =>
    exact h.of_kept hrec hsing hb hm.runtimes (hm.base 0) hm.size (fun r _ => (hm.later r).id) rfl
      fun r _ he => hm.kept 0 _ r he
  | @define rt name isHost root w' hrt hm =>
    refine h.of_kept hrec hsing hb ((World.runtimes_size_updateRegistry ..).trans hm.runtimes) ?_
      hm.size (fun r _ => (hm.later r).id) rfl fun r _ he => ?_
    · exact (congrArg Registry.base (w'.registry_handOut rt 0)).trans (hm.base 0)
    · exact (w'.classFor?_handOut ..).trans (hm.kept 0 _ r he)
  | @replace rt r hrt hr =>
    obtain rfl : rt = 0 := by
      have := h.single
      omega
    exact h.replace hr hrec hsing rfl
  | build hd => exact h.build hd _ _ hrec hsing

end Sole

private theorem sole_opening (config : Config) : (opening [config]).Sole := by
  refine ⟨recorded_opening [config], singular_opening [config] 0, Nat.zero_le _, rfl, rfl, ?_, ?_⟩
  · intro r hr hlt
    exact absurd hlt (Nat.not_lt.mpr hr)
  · intro t ht
    cases ht

/-- Along a run more and more definitions are begun. -/
private theorem begun_le_foldl {s : Workshop} (h : s.Recorded) (ops : List RegistryOp) (rt : Nat) :
    (s.world.registry rt).begun ≤ ((ops.foldl perform s).world.registry rt).begun := by
  induction ops generalizing s with
  | nil => exact Nat.le_refl _
  | cons op ops ih =>
    have hs := step_perform s op
    have hfirst := hs.begun_le (fun d hd => (h.drafts d hd).1) rt
    exact Nat.le_trans hfirst (ih (h.step hs))

private theorem sole_foldl {s : Workshop} (h : s.Sole) (ops : List RegistryOp)
    (hb : ((ops.foldl perform s).world.registry 0).begun ≤ TypeId.supply) :
    (ops.foldl perform s).Sole := by
  induction ops generalizing s with
  | nil => exact h
  | cons op ops ih =>
    have hs := step_perform s op
    have hlater := begun_le_foldl (h.toRecorded.step hs) ops 0
    exact ih (h.step hs (Nat.le_trans hlater hb)) hb

/-- A class that is there stays, under its type. -/
private theorem lasts_foldl {s : Workshop} (h : s.Recorded) (ops : List RegistryOp) {r : ClassRef}
    (hr : r.idx < s.world.classes.size) :
    r.idx < (ops.foldl perform s).world.classes.size
      ∧ ((ops.foldl perform s).world.cls r).id = (s.world.cls r).id := by
  have hstep {s s' : Workshop} {op : RegistryOp} (h : s.Recorded) (hs : s.Step op s')
      (hr : r.idx < s.world.classes.size) :
      r.idx < s'.world.classes.size ∧ (s'.world.cls r).id = (s.world.cls r).id := by
    have of_endures {w' : World} (he : s.world.Endures w') :
        r.idx < w'.classes.size ∧ (w'.cls r).id = (s.world.cls r).id :=
      ⟨Nat.lt_of_lt_of_le hr he.size, he.id_eq hr⟩
    cases hs with
    | quiet hm | define _ hm => exact ⟨hm.size ▸ hr, (hm.later r).id⟩
    | replace _ hq => exact of_endures (h.catalogued.replaceClass _ hq).2
    | build _ => exact of_endures (h.catalogued.buildClass _ _ _).2
  induction ops generalizing s with
  | nil => exact ⟨hr, rfl⟩
  | cons op ops ih =>
    have hs := step_perform s op
    obtain ⟨hlt, hid⟩ := hstep h hs hr
    obtain ⟨hlt', hid'⟩ := ih (h.step hs) hlt
    exact ⟨hlt', hid'.trans hid⟩

/-- The class that stands for a type stands for it for good. -/
private theorem Sole.classFor?_foldl {s : Workshop} (h : s.Sole) (ops : List RegistryOp)
    (hb : ((ops.foldl perform s).world.registry 0).begun ≤ TypeId.supply) {t : TypeId} {r : ClassRef}
    (he : s.world.classFor? 0 t = some r) :
    (ops.foldl perform s).world.classFor? 0 t = some r := by
  induction ops generalizing s with
  | nil => exact he
  | cons op ops ih =>
    have hs := step_perform s op
    have h' := h.step hs (Nat.le_trans (begun_le_foldl (h.toRecorded.step hs) ops 0) hb)
    refine ih h' hb ?_
    obtain ⟨hr, hid⟩ := h.catalogued.entries 0 t r he
    obtain ⟨hr', hid'⟩ := lasts_foldl h.toRecorded [op] hr
    have hsame {q : ClassRef} (hq : (s.perform op).world.classFor? 0 t = some q) :
        (s.perform op).world.classFor? 0 t = some r := by
      obtain ⟨hq', hqid⟩ := h'.catalogued.entries 0 t q hq
      rw [hq, h'.eq_of_id_eq hq' hr' (hqid.trans (hid'.trans hid).symm)]
    rcases hs.classFor?_cases (fun d hd => (h.drafts d hd).1) he with he | ⟨_, -, -, -, he⟩ |
      ⟨_, _, _, _, -, -, -, -, -, he⟩ <;> exact hsame he

/-- As much of a workshop as decides what goes into its log. -/
private structure Outline where
  log : List Notice
  drafts : List (Nat × TypeId × String)
  size : Nat
  titles : ClassRef → TypeId × String
  runtimes : Nat
  begun : Nat → Nat

private def outline (s : Workshop) : Outline where
  log := s.log
  drafts := s.drafts.map fun d => (d.runtime, d.id, d.name)
  size := s.world.classes.size
  titles r := ((s.world.cls r).id, (s.world.cls r).name)
  runtimes := s.world.runtimes.size
  begun rt := (s.world.registry rt).begun

private def Outline.perform (o : Outline) : RegistryOp → Outline
  | .ask rt (.define name _) =>
    if rt < o.runtimes then
      { o with
        log := .issued rt (.defined (o.begun rt)) :: o.log
        drafts := o.drafts ++ [(rt, .defined (o.begun rt), name)]
        begun := fun rt' => if rt = rt' then o.begun rt' + 1 else o.begun rt' }
    else o
  | .ask rt (.replace r) =>
    if rt < o.runtimes ∧ r.idx < o.size then
      { o with log := .replaced rt (o.titles r).2 (o.titles r).1 :: o.log }
    else o
  | .ask _ _ => o
  | .build k _ _ =>
    match o.drafts[k]? with
    | some (rt, id, name) =>
      { o with
        log := .built rt name id :: o.log
        drafts := o.drafts.eraseIdx k
        size := o.size + 1
        titles := fun r => if r.idx = o.size then (id, name) else o.titles r }
    | none => o

private theorem outline_of_materialises (s : Workshop) {w' : World} (hm : s.world.Materialises w') :
    outline { s with world := w' } = s.outline := by
  unfold outline
  simp only [hm.size, hm.runtimes, hm.begun, (hm.later _).id, (hm.later _).name]

private theorem outline_define (s : Workshop) {rt : Nat} (hrt : rt < s.world.runtimes.size)
    (name : String) (isHost : Bool) :
    (s.send rt (.define name isHost)).outline
      = s.outline.perform (.ask rt (.define name isHost)) := by
  have hm := s.world.materialises_rootClass rt .object
  let w := (s.world.rootClass rt .object).2
  have hbegun (rt' : Nat) : ((w.handOut rt).registry rt').begun
      = if rt = rt' then (s.world.registry rt').begun + 1 else (s.world.registry rt').begun := by
    rw [w.begun_handOut (hm.runtimes ▸ hrt), hm.begun]
  have hgo : s.outline.perform (.ask rt (.define name isHost)) = {
      s.outline with
      log := .issued rt (w.registry rt).next :: s.log
      drafts := s.outline.drafts ++ [(rt, (w.registry rt).next, name)]
      begun := fun rt' => ((w.handOut rt).registry rt').begun } := by
    refine (if_pos hrt).trans ?_
    simp only [hbegun, hm.next, w]
    rfl
  have hold := outline_of_materialises s hm
  rw [hgo, ← hold]
  simp only [outline, send, World.beginClass, World.runtimes_size_updateRegistry, List.map_append,
    List.map_cons, List.map_nil, w]
  rfl

private theorem outline_replace (s : Workshop) {rt : Nat} (hrt : rt < s.world.runtimes.size)
    (r : ClassRef) :
    (s.send rt (.replace r)).outline = s.outline.perform (.ask rt (.replace r)) := by
  have hreg := s.world.registers_replaceClass hrt r
  have hclasses : (s.world.replaceClass rt r).2.classes.size = s.world.classes.size
      ∧ ∀ q, ((s.world.replaceClass rt r).2.cls q).id = (s.world.cls q).id
        ∧ ((s.world.replaceClass rt r).2.cls q).name = (s.world.cls q).name := by
    simp only [World.replaceClass]
    split
    · rename_i p _
      refine ⟨World.size_updateClass .., fun q => ?_⟩
      rw [World.cls_updateClass]
      split <;> exact ⟨rfl, rfl⟩
    · exact ⟨rfl, fun _ => ⟨rfl, rfl⟩⟩
  simp only [send, Outline.perform]
  by_cases hr : r.idx < s.world.classes.size
  · have hgo : rt < s.outline.runtimes ∧ r.idx < s.outline.size := ⟨hrt, hr⟩
    rw [if_pos hgo, if_pos hr]
    simp only [outline, hreg.size, hreg.begun, hclasses.1, (hclasses.2 _).1, (hclasses.2 _).2]
  · have hstop : ¬ (rt < s.outline.runtimes ∧ r.idx < s.outline.size) := fun hc => hr hc.2
    rw [if_neg hstop, if_neg hr]

private theorem outline_build {s : Workshop} (h : s.Recorded) (k : Nat) (parent : Option ClassRef)
    (members : ClassMembers) :
    (s.perform (.build k parent members)).outline
      = s.outline.perform (.build k parent members) := by
  have hget : s.outline.drafts[k]? = (s.drafts[k]?).map fun d => (d.runtime, d.id, d.name) :=
    List.getElem?_map ..
  simp only [perform, Outline.perform, hget]
  rcases hd : s.drafts[k]? with _ | d
  · rfl
  obtain ⟨hlt, -⟩ := h.drafts d (List.mem_of_getElem? hd)
  let made := { members with name := d.name, isHost := d.isHost }
  let w' := (s.world.buildClass d parent members).2
  have hreg : s.world.Registers w' d.runtime d.name d.id ⟨s.world.classes.size⟩ :=
    s.world.registers_buildClass hlt parent members
  have hsize : w'.classes.size = s.world.classes.size + 1 := World.size_addClass ..
  have hcls (r : ClassRef) : w'.cls r = if r.idx = s.world.classes.size then
      made.toClass d.id (parent.getD d.root :: (s.world.cls (parent.getD d.root)).ancestors)
    else s.world.cls r := World.cls_addClass ..
  have htitles (r : ClassRef) : ((w'.cls r).id, (w'.cls r).name)
      = if r.idx = s.world.classes.size then (d.id, d.name)
        else ((s.world.cls r).id, (s.world.cls r).name) := by
    rw [hcls]
    split
    · rw [ClassMembers.id_toClass, ClassMembers.name_toClass]
    · rfl
  have hmap : (s.drafts.eraseIdx k).map (fun d => (d.runtime, d.id, d.name))
      = (s.drafts.map fun d => (d.runtime, d.id, d.name)).eraseIdx k := (List.eraseIdx_map ..).symm
  simp only [outline, Option.map_some, hmap, ← htitles, ← hsize, ← hreg.size, ← hreg.begun, w']

/-- What decides the log does not depend on what questions have entered. -/
private theorem outline_perform {s : Workshop} (h : s.Recorded) (op : RegistryOp) :
    (s.perform op).outline = s.outline.perform op := by
  cases op with
  | build k parent members => exact outline_build h k parent members
  | ask rt errand =>
    by_cases hrt : rt < s.world.runtimes.size
    swap
    · simp only [perform, if_neg hrt]
      cases errand with
      | define name isHost => exact (if_neg hrt).symm
      | replace r => exact (if_neg fun hc => hrt hc.1).symm
      | _ => rfl
    simp only [perform, if_pos hrt]
    cases errand with
    | define name isHost => exact s.outline_define hrt name isHost
    | get t => exact s.outline_of_materialises (s.world.materialises_findClass rt t)
    | lookup name => rfl
    | classOf v => exact s.outline_of_materialises (s.world.materialises_classOf rt v)
    | replace r => exact s.outline_replace hrt r

private theorem outline_foldl {s : Workshop} (h : s.Recorded) (ops : List RegistryOp) :
    (ops.foldl perform s).outline = (ops.filter (!·.isQuestion)).foldl Outline.perform s.outline := by
  induction ops generalizing s with
  | nil => rfl
  | cons op ops ih =>
    have hstep := outline_perform h op
    rw [List.foldl_cons, ih (h.step (step_perform s op)), hstep]
    by_cases hq : op.isQuestion = true
    · have hsame : s.outline.perform op = s.outline := by
        match op, hq with
        | .ask _ (.get _), _ | .ask _ (.lookup _), _ | .ask _ (.classOf _), _ => rfl
      rw [List.filter_cons_of_neg (by simp [hq]), hsame]
    · rw [List.filter_cons_of_pos (by simpa using hq), List.foldl_cons]

private theorem after_append (configs : List Config) (ops more : List RegistryOp) :
    after configs (ops ++ more) = more.foldl perform (after configs ops) := List.foldl_append ..

/-- There is one registry, and it has handed out no more identities than there are. -/
theorem sole_after {config : Config} {ops : List RegistryOp}
    (h : ((after [config] ops).issued 0).length ≤ TypeId.supply) : (after [config] ops).Sole := by
  refine sole_foldl (sole_opening config) ops ?_
  have hrec := recorded_after [config] ops
  by_cases hrt : 0 < (after [config] ops).world.runtimes.size
  · rwa [hrec.length_issued hrt] at h
  · have hout := World.registry_out_of_range _ hrt
    rw [after] at hout
    rw [hout]
    exact Nat.zero_le _

private theorem Sole.findClass_eq_none_iff {s : Workshop} (h : s.Sole) (t : TypeId) :
    (s.world.findClass 0 t).1 = none
      ↔ 10 ≤ t.number ∧ t.number < 64 ∨ 64 ≤ t.number ∧ t ∉ s.built 0 := by
  have hnone : (s.world.findClass 0 t).1 = none
      ↔ ∀ r : ClassRef, r.idx < s.world.classes.size → (s.world.cls r).id ≠ t := by
    rw [Option.eq_none_iff_forall_ne_some]
    simp only [ne_eq, h.findClass_eq_some_iff, not_and]
  rw [hnone]
  constructor
  · intro hall
    have hten : 10 ≤ t.number := by
      by_contra hn
      obtain ⟨b, hb⟩ := BuiltinType.exists_of_lt (Nat.lt_of_not_le hn)
      have hid := h.catalogued.id_builtinRef h.lt_one b
      exact hall _ (h.catalogued.lt_builtinRef h.lt_one b) (hid.trans (TypeId.number_inj hb))
    by_cases h64 : t.number < 64
    · exact Or.inl ⟨hten, h64⟩
    · refine Or.inr ⟨Nat.le_of_not_lt h64, fun hmem => ?_⟩
      obtain ⟨r, -, hr, hid⟩ := h.made t hmem
      exact hall r hr hid
  · rintro hcases r hr rfl
    by_cases hr10 : r.idx < 10
    · obtain ⟨b, -, hb⟩ := h.id_reserved hr10
      have := b.number_id_lt
      rw [hb] at hcases
      omega
    · have hmem := (h.defined r (Nat.le_of_not_lt hr10) hr).1
      have hle : 64 ≤ (s.world.cls r).id.number := h.le_of_built hmem
      rcases hcases with ⟨-, hlt⟩ | ⟨-, hnot⟩
      · omega
      · exact hnot hmem

/-- What a registry that is only given its own classes answers, at any point of any run in which it does
not run out of identities. -/
theorem registry_answers_consistently (config : Config) (ops : List RegistryOp)
    (hfew : ((after [config] ops).issued 0).length ≤ TypeId.supply) :
    let s := after [config] ops
    -- what stands for a type is of that type
    (∀ t r, s.world.classFor? 0 t = some r → (s.world.cls r).id = t)
    -- no identity is handed out twice
    ∧ (s.issued 0).Nodup
    ∧ (∀ t ∈ s.issued 0, 64 ≤ t.number)
    -- an answer is for good
    ∧ (∀ t r, (s.world.findClass 0 t).1 = some r →
        ∀ more, ((after [config] (ops ++ more)).issued 0).length ≤ TypeId.supply →
          ((after [config] (ops ++ more)).world.findClass 0 t).1 = some r)
    -- an answer is entered at once, also that of a builtin type, and after that is only read
    ∧ (∀ t r, (s.world.findClass 0 t).1 = some r →
        (after [config] (ops ++ [.ask 0 (.get t)])).world.classFor? 0 t = some r)
    ∧ (∀ t r, s.world.classFor? 0 t = some r →
        ∀ more, ((after [config] (ops ++ more)).issued 0).length ≤ TypeId.supply →
          (after [config] (ops ++ more)).world.classFor? 0 t = some r
          ∧ after [config] (ops ++ more ++ [.ask 0 (.get t)]) = after [config] (ops ++ more))
    ∧ (∀ t, (s.world.findClass 0 t).1 = none
        ↔ 10 ≤ t.number ∧ t.number < 64 ∨ 64 ≤ t.number ∧ t ∉ s.built 0)
    -- names
    ∧ (∀ name t, Assoc.get? (s.world.registry 0).names name = some t → (s.world.classFor? 0 t).isSome)
    ∧ (∀ name, (s.world.registry 0).lookup? name
        = (s.named? 0 name).or ((BuiltinType.ofName? name).map (·.id)))
    ∧ ∀ ops', ops'.filter (!·.isQuestion) = ops.filter (!·.isQuestion) → ∀ name,
        ((after [config] ops').world.registry 0).lookup? name = (s.world.registry 0).lookup? name := by
  intro s
  have h : s.Sole := sole_after hfew
  have hrun {more : List RegistryOp}
      (hmore : ((after [config] (ops ++ more)).issued 0).length ≤ TypeId.supply) :
      ((more.foldl perform s).world.registry 0).begun ≤ TypeId.supply := by
    have hlater := (sole_after hmore).supplied
    rwa [after_append] at hlater
  -- a get is carried out, as there is a registry to ask
  have hget {s : Workshop} (h : s.Sole) (t : TypeId) :
      s.perform (.ask 0 (.get t)) = { s with world := (s.world.findClass 0 t).2 } := if_pos h.lt_one
  refine ⟨fun t r he => (h.catalogued.entries 0 t r he).2, ?_,
    fun t => h.firstDefined_le h.lt_one h.supplied, ?_, ?_, ?_, h.findClass_eq_none_iff, h.names 0,
    fun name => h.lookups 0 name h.lt_one, ?_⟩
  · rw [h.issued 0 h.lt_one]
    exact nodup_handedOut h.supplied
  · intro t r hfound more hmore
    have h' := sole_foldl h more (hrun hmore)
    obtain ⟨hr, hid⟩ := (h.findClass_eq_some_iff t r).mp hfound
    obtain ⟨hr', hid'⟩ := lasts_foldl h.toRecorded more hr
    rw [after_append]
    exact (h'.findClass_eq_some_iff t r).mpr ⟨hr', hid'.trans hid⟩
  · intro t r hfound
    rw [after_concat, hget h]
    exact World.classFor?_of_findClass h.lt_one (Prod.ext hfound rfl)
  · intro t r he more hmore
    have hkept := h.classFor?_foldl more (hrun hmore) he
    rw [after_concat, after_append, hget (sole_foldl h more (hrun hmore)),
      World.findClass_of_entry hkept]
    exact ⟨hkept, rfl⟩
  · intro ops' hops name
    have hlog : (after [config] ops').log = s.log := by
      have hstart := recorded_opening [config]
      have hout := (outline_foldl hstart ops').trans
        ((congrArg (List.foldl Outline.perform _) hops).trans (outline_foldl hstart ops).symm)
      exact congrArg Outline.log hout
    have h' : (after [config] ops').Sole := sole_after (by rw [issued, hlog]; exact hfew)
    rw [h'.lookups 0 name h'.lt_one, h.lookups 0 name h.lt_one, named?, named?, hlog]

/-- A class is built under a builtin name before the builtin class is asked for, and one definition
is never built. -/
def shadowing : List RegistryOp := [
  .ask 0 (.define "Integer" false),
  .ask 0 (.define "Lost" true),
  .build 0 none { name := "Integer" },
  .ask 0 (.get .int)]

theorem registry_answers_consistently_shadowing :
    let s := after [{}] shadowing
    (s.issued 0).length ≤ TypeId.supply
    ∧ (s.world.registry 0).lookup? "Integer" = some ⟨64⟩
    ∧ (s.world.findClass 0 ⟨65⟩).1 = none
    ∧ (after [{}] (shadowing ++ [.ask 0 (.get .text)])).world.classFor? 0 .text = some ⟨5⟩
    ∧ after [{}] (shadowing ++ [] ++ [.ask 0 (.get .int)]) = after [{}] (shadowing ++ [])
    ∧ ((after [{}] shadowing.dropLast).world.registry 0).lookup? "Integer" = some ⟨64⟩ := by
  intro s
  have hfew : (s.issued 0).length ≤ TypeId.supply := by decide
  obtain ⟨-, -, -, -, hentered, hkept, hnone, -, hlookup, hsame⟩ :=
    registry_answers_consistently {} shadowing hfew
  have hname : (s.world.registry 0).lookup? "Integer" = some ⟨64⟩ := (hlookup "Integer").trans rfl
  refine ⟨hfew, hname, (hnone ⟨65⟩).mpr (Or.inr (by decide)), hentered .text ⟨5⟩ rfl, ?_, ?_⟩
  · exact (hkept .int ⟨3⟩ rfl [] (by decide)).2
  · exact (hsame shadowing.dropLast rfl "Integer").trans hname

end Workshop

end CachedDispatch
