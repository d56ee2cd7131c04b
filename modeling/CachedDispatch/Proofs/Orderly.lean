import CachedDispatch.Proofs.Move

/-!
Order in the store of classes. With one runtime whose identities have not come round, no two classes
share a type, builtin classes stand in their reserved places, definitions that have been begun have
identities that no class has, and every class reference that is kept anywhere goes to a class whose
ancestors are known. What a world remembers of its classes only grows.
-/
namespace CachedDispatch

namespace BuiltinType

theorem number_id_lt (b : BuiltinType) : b.id.number < 10 := by cases b <;> decide

theorem exists_of_lt {n : Nat} (h : n < 10) : ∃ b : BuiltinType, b.id.number = n :=
  have : ∀ n < 10, ∃ b ∈ all, b.id.number = n := by decide
  (this n h).imp fun _ hb => hb.2

private theorem isRoot_iff (b : BuiltinType) :
    b.isRoot = true ↔ b.id.number < 2 := by cases b <;> decide

end BuiltinType

namespace World

/-- The identity has been handed out. -/
def Issued (w : World) (t : TypeId) : Prop := ∃ n < (w.registry 0).begun, t = .defined n

/-- The definition can be built: no class has its identity. -/
structure Pending (w : World) (d : Draft) : Prop where
  runtime : d.runtime = 0
  root : d.root = ⟨0⟩
  issued : w.Issued d.id
  unused : ∀ r, r.idx < w.classes.size → (w.cls r).id ≠ d.id

/-- No identity belongs to two classes, or to a class and to a definition that is still to be built. -/
structure Identified (w : World) : Prop extends Lone w where
  base : (w.registry 0).base = 0
  size : 10 ≤ w.classes.size
  reserved : ∀ b : BuiltinType, (w.cls ⟨b.id.number⟩).id = b.id
  issued : ∀ r, 10 ≤ r.idx → r.idx < w.classes.size → w.Issued (w.cls r).id
  apart : ∀ r q, r.idx < w.classes.size → q.idx < w.classes.size → (w.cls r).id = (w.cls q).id → r = q
  drafts : ∀ key d, Assoc.get? w.drafts key = some d → w.Pending d
  draftsApart : ∀ key key' d d', Assoc.get? w.drafts key = some d →
    Assoc.get? w.drafts key' = some d' → d.id = d'.id → key = key'

structure Orderly (w : World) : Prop extends Identified w where
  kinds : ∀ r, r.idx < 10 → (w.cls r).kind ≠ .dynamic ∧ (w.cls r).kind ≠ .host
  below : ∀ r, r.idx < 10 → (w.cls r).ancestors = [] ∨ 2 ≤ r.idx ∧ (w.cls r).ancestors = [⟨0⟩]
  defined : ∀ r, 10 ≤ r.idx → r.idx < w.classes.size →
    (w.cls r).ancestors ≠ [] ∧ w.StandsFor (w.cls r).id r
  ancestors : ∀ r, ∀ a ∈ (w.cls r).ancestors, w.Placed a
  entries : ∀ t r, w.StandsFor t r → w.Placed r ∧ (w.cls r).id = t
  filed : ∀ r, (w.cls r).Filed

/-- What is known of the classes and objects of `w` still holds in `w'`, and what has happened has
not been forgotten. -/
structure Grows (w w' : World) : Prop where
  size : w.classes.size ≤ w'.classes.size
  later : ∀ r, r.idx < w.classes.size → (w.cls r).Later (w'.cls r)
  ancestors : ∀ r, w.Placed r → (w'.cls r).ancestors = (w.cls r).ancestors
  entries : ∀ t r, w.StandsFor t r → w'.StandsFor t r
  objects : ∀ o, o.idx < w.objects.size →
    o.idx < w'.objects.size ∧ w'.classOfObject o = w.classOfObject o
  history : w.history <:+ w'.history

namespace Grows

variable {w w' w'' : World}

theorem placed (h : w.Grows w') {r : ClassRef} (hr : w.Placed r) : w'.Placed r :=
  ⟨Nat.lt_of_lt_of_le hr.lt h.size, hr.settled.imp_right fun hs => by rwa [h.ancestors r hr]⟩

theorem entered (h : w.Grows w') {r : ClassRef} (hr : w.Entered r) : w'.Entered r :=
  ⟨h.placed hr.toPlaced, by rw [(h.later r hr.lt).id]; exact h.entries _ r hr.stands⟩

theorem refl (w : World) : w.Grows w :=
  ⟨Nat.le_refl _, fun _ _ => .refl _, fun _ _ => rfl, fun _ _ h => h, fun _ h => ⟨h, rfl⟩,
    List.suffix_rfl⟩

theorem trans (h : w.Grows w') (h' : w'.Grows w'') : w.Grows w'' where
  size := Nat.le_trans h.size h'.size
  later r hr := (h.later r hr).trans (h'.later r (Nat.lt_of_lt_of_le hr h.size))
  ancestors r hr := (h'.ancestors r (h.placed hr)).trans (h.ancestors r hr)
  entries t r hr := h'.entries t r (h.entries t r hr)
  objects o ho :=
    have ⟨ho', hc⟩ := h.objects o ho
    have ⟨ho'', hc'⟩ := h'.objects o ho'
    ⟨ho'', hc'.trans hc⟩
  history := h.history.trans h'.history

/-- Nothing but the objects and the history has moved. -/
theorem of_eq (hc : w'.classes = w.classes) (hr : w'.registry 0 = w.registry 0)
    (ho : ∀ o, o.idx < w.objects.size →
      o.idx < w'.objects.size ∧ w'.classOfObject o = w.classOfObject o)
    (hh : w.history <:+ w'.history) : w.Grows w' := by
  have hcls (r : ClassRef) : w'.cls r = w.cls r := by simp only [cls, hc]
  exact ⟨Nat.le_of_eq (by rw [hc]), fun r _ => hcls r ▸ .refl _, fun r _ => by rw [hcls],
    fun t r h => by unfold StandsFor; rwa [hr], ho, hh⟩

end Grows

private theorem Issued.isBuiltin {w : World} (h : w.Lone) {t : TypeId} (ht : w.Issued t) :
    t.isBuiltin = false := by
  obtain ⟨n, hn, rfl⟩ := ht
  exact TypeId.isBuiltin_defined (Nat.lt_of_lt_of_le hn h.supplied)

private theorem Issued.mono {w w' : World} (h : (w.registry 0).begun ≤ (w'.registry 0).begun)
    {t : TypeId} (ht : w.Issued t) : w'.Issued t := by
  obtain ⟨n, hn, rfl⟩ := ht
  exact ⟨n, Nat.lt_of_lt_of_le hn h, rfl⟩

namespace Identified

variable {w w' : World}

/-- Builtin identities belong to the reserved places, and to no others. -/
theorem isBuiltin_iff (h : w.Identified) {r : ClassRef} (hr : r.idx < w.classes.size) :
    (w.cls r).id.isBuiltin = true ↔ r.idx < 10 := by
  constructor
  · intro hb
    by_contra hten
    rw [(h.issued r (Nat.le_of_not_lt hten) hr).isBuiltin h.toLone] at hb
    cases hb
  · intro hten
    obtain ⟨b, hb⟩ := BuiltinType.exists_of_lt hten
    obtain rfl : r = ⟨b.id.number⟩ := by rw [hb]
    rw [h.reserved b]
    exact b.isBuiltin_id

/-- All classes have kept their identities, and none has been added. -/
private theorem of_ids (h : w.Identified) (hsize : w'.classes.size = w.classes.size)
    (hid : ∀ r, (w'.cls r).id = (w.cls r).id) (hs : w'.runtimes.size = w.runtimes.size)
    (hbase : (w'.registry 0).base = (w.registry 0).base)
    (hbegun : (w'.registry 0).begun = (w.registry 0).begun) (hd : w'.drafts = w.drafts) :
    w'.Identified := by
  have hissued {t : TypeId} (ht : w.Issued t) : w'.Issued t := ht.mono (Nat.le_of_eq hbegun.symm)
  constructor
  · exact ⟨hs.trans h.single, hbegun ▸ h.supplied⟩
  · exact hbase.trans h.base
  · rw [hsize]; exact h.size
  · intro b; rw [hid]; exact h.reserved b
  · intro r hle hlt; rw [hid]; exact hissued (h.issued r hle (hsize ▸ hlt))
  · intro r q hr hq heq
    rw [hid, hid] at heq
    exact h.apart r q (hsize ▸ hr) (hsize ▸ hq) heq
  · intro key d hk
    obtain ⟨hruntime, hroot, ht, hunused⟩ := h.drafts key d (hd ▸ hk)
    exact ⟨hruntime, hroot, hissued ht, fun r hr => by rw [hid]; exact hunused r (hsize ▸ hr)⟩
  · rw [hd]; exact h.draftsApart

end Identified

namespace Orderly

variable {w w' : World}

theorem placed_zero (h : w.Orderly) : w.Placed ⟨0⟩ :=
  ⟨Nat.lt_of_lt_of_le (by decide) h.size, Or.inl (by decide)⟩

theorem placed_defined (h : w.Orderly) {r : ClassRef} (hr : 10 ≤ r.idx)
    (hlt : r.idx < w.classes.size) : w.Placed r :=
  ⟨hlt, Or.inr (h.defined r hr hlt).1⟩

theorem of_eq (h : w.Orderly) (hc : w'.classes = w.classes) (hr : w'.registry 0 = w.registry 0)
    (hs : w'.runtimes.size = w.runtimes.size) (hd : w'.drafts = w.drafts) : w'.Orderly := by
  have hcls (r : ClassRef) : w'.cls r = w.cls r := by simp only [cls, hc]
  have hp (r : ClassRef) (hr : w.Placed r) : w'.Placed r := ⟨by rw [hc]; exact hr.lt, by
    rw [hcls]; exact hr.settled⟩
  constructor
  · exact h.toIdentified.of_ids (by rw [hc]) (fun r => by rw [hcls]) hs (by rw [hr]) (by rw [hr]) hd
  · intro r hlt; rw [hcls]; exact h.kinds r hlt
  · intro r hlt; rw [hcls]; exact h.below r hlt
  · intro r hle hlt; rw [hcls, StandsFor, hr]; exact h.defined r hle (hc ▸ hlt)
  · intro r a ha; exact hp a (h.ancestors r a (hcls r ▸ ha))
  · intro t r he
    rw [StandsFor, hr] at he
    rw [hcls]
    exact (h.entries t r he).imp_left (hp r)
  · intro r; rw [hcls]; exact h.filed r

/-- A change of one class that keeps its ancestors. -/
private theorem updateClass (h : w.Orderly) (r : ClassRef) {f : Class → Class}
    (hf : ∀ c : Class, c.Later (f c)) (ha : ∀ c, (f c).ancestors = c.ancestors)
    (hm : ∀ c : Class, c.Filed → (f c).Filed) :
    (w.updateClass r f).Orderly ∧ w.Grows (w.updateClass r f) := by
  have hlater (q : ClassRef) : (w.cls q).Later ((w.updateClass r f).cls q) := by
    rw [cls_updateClass]; split
    · exact hf _
    · exact .refl _
  have hanc (q : ClassRef) : ((w.updateClass r f).cls q).ancestors = (w.cls q).ancestors := by
    rw [cls_updateClass]; split
    · exact ha _
    · rfl
  have hp (q : ClassRef) (hq : w.Placed q) : (w.updateClass r f).Placed q :=
    ⟨by rw [size_updateClass]; exact hq.lt, by rw [hanc]; exact hq.settled⟩
  refine ⟨?_, by simp, fun q _ => hlater q, fun q _ => hanc q, fun _ _ h => h,
    fun _ h => ⟨h, rfl⟩, List.suffix_rfl⟩
  constructor
  · exact h.toIdentified.of_ids (size_updateClass ..) (fun q => (hlater q).id) rfl rfl rfl rfl
  · intro q hq
    rw [(hlater q).kind]
    exact h.kinds q hq
  · intro q hq
    rw [hanc]
    exact h.below q hq
  · intro q hq hlt
    rw [hanc, (hlater q).id]
    exact h.defined q hq (by rwa [size_updateClass] at hlt)
  · intro q a hq
    rw [hanc] at hq
    exact hp a (h.ancestors q a hq)
  · intro t q hq
    rw [(hlater q).id]
    exact (h.entries t q hq).imp_left (hp q)
  · intro q
    rw [cls_updateClass]
    split
    · exact hm _ (h.filed q)
    · exact h.filed q

private theorem builtinRef_eq (h : w.Orderly) (b : BuiltinType) :
    (w.registry 0).builtinRef b = ⟨b.id.number⟩ := by
  rw [Registry.builtinRef, h.base, Nat.zero_add]

section EnterBuiltin

variable (h : w.Orderly) (b : BuiltinType)
include h

theorem registry_enterBuiltin (rs : List ClassRef) :
    (w.enterBuiltin 0 b rs).2.registry 0 = (w.registry 0).enterBuiltin b :=
  registry_updateRegistry (w.updateClass _ _) _ h.single

private theorem entry_enterBuiltin (rs : List ClassRef) (t : TypeId) :
    Assoc.get? ((w.enterBuiltin 0 b rs).2.registry 0).entries t
      = if t = b.id then some ⟨b.id.number⟩ else Assoc.get? (w.registry 0).entries t := by
  rw [h.registry_enterBuiltin, Registry.get?_entries_enterBuiltin, h.builtinRef_eq]

theorem cls_enterBuiltin (rs : List ClassRef) (q : ClassRef) :
    (w.enterBuiltin 0 b rs).2.cls q
      = if q.idx = b.id.number then { w.cls q with ancestors := rs } else w.cls q := by
  have hiff : (⟨b.id.number⟩ : ClassRef) = q ∧ q.idx < w.classes.size ↔ q.idx = b.id.number := by
    have hsize := h.size
    have hlt := b.number_id_lt
    constructor
    · rintro ⟨rfl, -⟩
      rfl
    · intro hq
      exact ⟨by rw [← hq], by omega⟩
  change (w.updateClass ((w.registry 0).builtinRef b) _).cls q = _
  simp only [h.builtinRef_eq, cls_updateClass, hiff]

/-- The roots have no ancestors, and all other builtin classes are below the first. The class that is
entered was not settled before, or these are the ancestors that it had. -/
private theorem ancestors_enterBuiltin {q : ClassRef} (hq : w.Placed q) :
    ((w.enterBuiltin 0 b (if b.isRoot then [] else [⟨0⟩])).2.cls q).ancestors
      = (w.cls q).ancestors := by
  rw [h.cls_enterBuiltin]
  split
  · rename_i hqb
    have hlt := b.number_id_lt
    have hroot := b.isRoot_iff
    rcases h.below q (by omega) with hn | ⟨h2, hz⟩
    · have hr : b.isRoot = true := hroot.mpr (by
        rcases hq.settled with h2 | hne
        · omega
        · exact absurd hn hne)
      simp [hr, hn]
    · have hr : ¬ b.isRoot = true := by rw [hroot]; omega
      simp [hr, hz]
  · rfl

private theorem grows_enterBuiltin :
    w.Grows (w.enterBuiltin 0 b (if b.isRoot then [] else [⟨0⟩])).2 where
  size := Nat.le_of_eq (size_updateClass w _ _).symm
  later q _ := by
    rw [h.cls_enterBuiltin]
    split
    · exact Class.later_withAncestors _ _
    · exact .refl _
  ancestors _ hq := h.ancestors_enterBuiltin b hq
  entries t q hq := by
    rw [StandsFor, h.entry_enterBuiltin]
    split
    · rename_i ht
      obtain ⟨hp, hid⟩ := h.entries t q hq
      have hlt : b.id.number < w.classes.size := Nat.lt_of_lt_of_le b.number_id_lt h.size
      exact congrArg some (h.apart _ q hlt hp.lt ((h.reserved b).trans (ht.symm.trans hid.symm)))
    · exact hq
  objects _ ho := ⟨ho, rfl⟩
  history := List.suffix_rfl

private theorem placed_enterBuiltin :
    (w.enterBuiltin 0 b (if b.isRoot then [] else [⟨0⟩])).2.Placed ⟨b.id.number⟩ := by
  have hsize := (h.grows_enterBuiltin b).size
  refine ⟨Nat.lt_of_lt_of_le b.number_id_lt (Nat.le_trans h.size hsize), ?_⟩
  rw [h.cls_enterBuiltin, if_pos rfl]
  by_cases hr : b.isRoot = true
  · exact Or.inl (b.isRoot_iff.mp hr)
  · exact Or.inr (by simp [hr])

/-- A builtin class enters the registry, the roots without ancestors and all others below the
first. -/
private theorem enterBuiltin : (w.enterBuiltin 0 b (if b.isRoot then [] else [⟨0⟩])).2.Orderly
    ∧ w.Grows (w.enterBuiltin 0 b (if b.isRoot then [] else [⟨0⟩])).2 := by
  have hg := h.grows_enterBuiltin b
  have hpb := h.placed_enterBuiltin b
  have hreg := h.registry_enterBuiltin b (if b.isRoot then [] else [⟨0⟩])
  have hentry := h.entry_enterBuiltin b (if b.isRoot then [] else [⟨0⟩])
  have hcls := h.cls_enterBuiltin b (if b.isRoot then [] else [⟨0⟩])
  have hsize := size_updateClass w ((w.registry 0).builtinRef b)
    fun c => { c with ancestors := if b.isRoot then [] else [⟨0⟩] }
  change (w.enterBuiltin 0 b _).2.classes.size = _ at hsize
  have hone := w.runtimes_size_enterBuiltin 0 b (if b.isRoot then [] else [⟨0⟩])
  have hdrafts : (w.enterBuiltin 0 b (if b.isRoot then [] else [⟨0⟩])).2.drafts = w.drafts := rfl
  generalize (w.enterBuiltin 0 b _).2 = w' at *
  refine ⟨?_, hg⟩
  have hid (q : ClassRef) : (w'.cls q).id = (w.cls q).id := by
    rw [hcls]
    split <;> rfl
  constructor
  · exact h.toIdentified.of_ids hsize hid hone (by rw [hreg]; rfl) (by rw [hreg]; rfl) hdrafts
  · intro q hq
    rw [(hg.later q (Nat.lt_of_lt_of_le hq h.size)).kind]
    exact h.kinds q hq
  · intro q hq
    rw [hcls]
    split
    · rename_i hqb
      dsimp only
      split
      · exact Or.inl rfl
      · rename_i hr
        exact Or.inr ⟨by rw [b.isRoot_iff] at hr; omega, rfl⟩
    · exact h.below q hq
  · intro q hq hlt
    have hp := h.placed_defined hq (hsize ▸ hlt)
    have hd := h.defined q hq (hsize ▸ hlt)
    rw [hg.ancestors q hp, hid]
    exact hd.imp_right (hg.entries _ q)
  · intro q a ha
    rw [hcls] at ha
    split at ha
    · dsimp only at ha
      split at ha
      · cases ha
      · obtain rfl := List.mem_singleton.mp ha
        exact hg.placed h.placed_zero
    · exact hg.placed (h.ancestors q a ha)
  · intro t q hq
    rw [StandsFor, hentry] at hq
    rw [hid]
    split at hq
    · obtain rfl := Option.some.inj hq
      exact ⟨hpb, (h.reserved b).trans (‹t = b.id›).symm⟩
    · exact (h.entries t q hq).imp_left hg.placed
  · intro q
    rw [hcls]
    split <;> exact h.filed q

end EnterBuiltin

theorem ancestors_zero (h : w.Orderly) : (w.cls ⟨0⟩).ancestors = [] :=
  (h.below ⟨0⟩ (by decide)).resolve_right fun hn => absurd hn.1 (by decide)

theorem entered_of_standsFor (h : w.Orderly) {t : TypeId} {r : ClassRef} (hr : w.StandsFor t r) :
    w.Entered r := by
  obtain ⟨hp, ht⟩ := h.entries t r hr
  exact ⟨hp, by rw [ht]; exact hr⟩

/-- The class of a builtin type stands in the place that is reserved for it. -/
private theorem eq_of_standsFor_id (h : w.Orderly) {b : BuiltinType} {r : ClassRef}
    (hr : w.StandsFor b.id r) : r = ⟨b.id.number⟩ := by
  obtain ⟨hp, hid⟩ := h.entries _ r hr
  have hlt : b.id.number < w.classes.size := Nat.lt_of_lt_of_le b.number_id_lt h.size
  exact h.apart r _ hp.lt hlt (hid.trans (h.reserved b).symm)

theorem rootClass_fst (h : w.Orderly) : (w.rootClass 0 .object).1 = ⟨0⟩ := by
  unfold rootClass
  split
  · exact h.eq_of_standsFor_id (b := .object) ‹_›
  · exact h.builtinRef_eq .object

theorem rootClass (h : w.Orderly) {b : BuiltinType} (hb : b.isRoot = true) :
    (w.rootClass 0 b).2.Orderly ∧ w.Grows (w.rootClass 0 b).2 := by
  unfold World.rootClass
  split
  · exact ⟨h, .refl w⟩
  · simpa [hb] using h.enterBuiltin b

theorem findClass (h : w.Orderly) (t : TypeId) :
    (w.findClass 0 t).2.Orderly ∧ w.Grows (w.findClass 0 t).2 := by
  obtain ⟨h₁, hg₁⟩ := h.rootClass (b := .object) rfl
  generalize hfound : w.findClass 0 t = found
  cases found_of_findClass hfound with
  | entered | undefined => exact ⟨h, .refl w⟩
  | spare => exact ⟨h₁, hg₁⟩
  | @root b _ _ hb => simpa [hb] using h.enterBuiltin b
  | @below b _ _ hb =>
    obtain ⟨h₂, hg₂⟩ := h₁.enterBuiltin b
    rw [if_neg hb] at h₂ hg₂
    simp only [enterBelow, h.rootClass_fst, h₁.ancestors_zero]
    exact ⟨h₂, hg₁.trans hg₂⟩

/-- The class of a type is the one that has its identity, whatever has been entered so far. -/
theorem findClass_fst (h : w.Orderly) (t : TypeId) (r : ClassRef) :
    (w.findClass 0 t).1 = some r ↔ r.idx < w.classes.size ∧ (w.cls r).id = t := by
  have hbuiltin (b : BuiltinType) {q : ClassRef} (hq : q = ⟨b.id.number⟩) :
      some q = some r ↔ r.idx < w.classes.size ∧ (w.cls r).id = b.id := by
    have hlt : b.id.number < w.classes.size := Nat.lt_of_lt_of_le b.number_id_lt h.size
    subst hq
    constructor
    · intro heq
      cases heq
      exact ⟨hlt, h.reserved b⟩
    · rintro ⟨hr, hid⟩
      exact congrArg some (h.apart _ r hlt hr ((h.reserved b).trans hid.symm))
  generalize hfound : w.findClass 0 t = found
  cases found_of_findClass hfound with
  | @entered q hq =>
    obtain ⟨hp, ht⟩ := h.entries t q hq
    constructor
    · intro heq
      cases heq
      exact ⟨hp.lt, ht⟩
    · rintro ⟨hr, hid⟩
      exact congrArg some (h.apart q r hp.lt hr (ht.trans hid.symm))
  | undefined hnone hb =>
    refine iff_of_false nofun fun ⟨hr, hid⟩ => ?_
    have hten : 10 ≤ r.idx := by
      by_contra hlt
      rw [← hid, (h.isBuiltin_iff hr).mpr (Nat.lt_of_not_le hlt)] at hb
      cases hb
    have hstands := (h.defined r hten hr).2
    rw [hid, StandsFor, hnone] at hstands
    cases hstands
  | spare hnone hb hs =>
    refine iff_of_false nofun fun ⟨hr, hid⟩ => ?_
    obtain ⟨b, hb'⟩ := BuiltinType.exists_of_lt ((h.isBuiltin_iff hr).mp (hid ▸ hb))
    have ht : t = b.id := by
      rw [← hid, ← h.reserved b, hb']
    rw [ht, b.ofId?_id] at hs
    cases hs
  | @root b ht =>
    subst ht
    exact hbuiltin b (h.builtinRef_eq b)
  | @below b ht =>
    subst ht
    exact hbuiltin b ((h.rootClass (b := .object) rfl).1.builtinRef_eq b)

private theorem register (h : w.Orderly) {r : ClassRef} (hr : w.Placed r) :
    (w.register 0 r).Orderly ∧ w.Grows (w.register 0 r) := by
  have hreg : (w.register 0 r).registry 0 = (w.registry 0).register (w.cls r).name (w.cls r).id r :=
    registry_updateRegistry w _ h.single
  have hentry (t : TypeId) : Assoc.get? ((w.register 0 r).registry 0).entries t
      = if t = (w.cls r).id then some r else Assoc.get? (w.registry 0).entries t := by
    rw [hreg, Registry.get?_entries_register]
  have hkeep (t : TypeId) (q : ClassRef) (hq : Assoc.get? (w.registry 0).entries t = some q) :
      Assoc.get? ((w.register 0 r).registry 0).entries t = some q := by
    rw [hentry]
    split
    · rename_i ht
      obtain ⟨hp, hid⟩ := h.entries t q hq
      exact congrArg some (h.apart r q hr.lt hp.lt (ht.symm.trans hid.symm))
    · exact hq
  have hp (q : ClassRef) (hq : w.Placed q) : (w.register 0 r).Placed q := ⟨hq.lt, hq.settled⟩
  refine ⟨?_, Nat.le_refl _, fun _ _ => .refl _, fun _ _ => rfl, hkeep, fun _ ho => ⟨ho, rfl⟩,
    List.suffix_rfl⟩
  refine ⟨?_, h.kinds, h.below, ?_, ?_, ?_, h.filed⟩
  · exact h.toIdentified.of_ids rfl (fun _ => rfl) (runtimes_size_updateRegistry _ _ _)
      (by rw [hreg]; rfl) (by rw [hreg]; rfl) rfl
  · exact fun q hq hlt => (h.defined q hq hlt).imp_right (hkeep _ q)
  · exact fun q a ha => hp a (h.ancestors q a ha)
  · intro t q hq
    rw [StandsFor, hentry] at hq
    split at hq
    · obtain rfl := Option.some.inj hq
      exact ⟨hp r hr, (‹t = (w.cls r).id›).symm⟩
    · exact (h.entries t q hq).imp_left (hp q)

private theorem bump (h : w.Orderly) (r : ClassRef) :
    (w.updateClass r Class.bump).Orderly ∧ w.Grows (w.updateClass r Class.bump) :=
  h.updateClass r Class.later_bump (fun _ => rfl) fun _ hc => hc

theorem mutate (h : w.Orderly) (r : ClassRef) (mu : Mutation) :
    (w.updateClass r mu.apply).Orderly ∧ w.Grows (w.updateClass r mu.apply) :=
  h.updateClass r (Class.later_mutation · mu) (Class.ancestors_mutation · mu)
    fun _ hc => hc.mutation mu

theorem replaceClass (h : w.Orderly) {r : ClassRef} (hr : w.Placed r) :
    (w.replaceClass 0 r).2.Orderly ∧ w.Grows (w.replaceClass 0 r).2 := by
  obtain ⟨h₁, hg₁⟩ := h.register hr
  simp only [World.replaceClass]
  split
  · rename_i p _
    obtain ⟨h₂, hg₂⟩ := h₁.bump p
    exact ⟨h₂, hg₁.trans hg₂⟩
  · exact ⟨h₁, hg₁⟩

end Orderly

/-- A class has been added at the next place, under an identity that was free, and stands for it. No
draft has come in, and none has the identity any more. -/
private structure Adds (w : World) (c : Class) (w' : World) : Prop where
  single : w'.runtimes.size = 1
  classes : w'.classes = w.classes.push c
  registry : w'.registry 0 = (w.registry 0).register c.name c.id ⟨w.classes.size⟩
  objects : w'.objects = w.objects
  history : w'.history = w.history
  issued : w.Issued c.id
  unused : ∀ r, r.idx < w.classes.size → (w.cls r).id ≠ c.id
  drafts : ∀ key d, Assoc.get? w'.drafts key = some d → Assoc.get? w.drafts key = some d ∧ d.id ≠ c.id

namespace Adds

variable {w w' : World} {c : Class} (ha : w.Adds c w') (h : w.Orderly)
include ha

private theorem size : w'.classes.size = w.classes.size + 1 := by simp [ha.classes]

private theorem cls_new : w'.cls ⟨w.classes.size⟩ = c := by rw [cls_of_push ha.classes, if_pos rfl]

private theorem cls_old {q : ClassRef} (hq : q.idx < w.classes.size) : w'.cls q = w.cls q := by
  rw [cls_of_push ha.classes, if_neg (Nat.ne_of_lt hq)]

private theorem old_or_new {q : ClassRef} (hq : q.idx < w'.classes.size) :
    q.idx < w.classes.size ∨ q = ⟨w.classes.size⟩ := by
  rcases Nat.lt_or_eq_of_le (Nat.le_of_lt_succ (ha.size ▸ hq)) with hq | hq
  · exact Or.inl hq
  · exact Or.inr (by cases q; simpa using hq)

private theorem entry (t : TypeId) : Assoc.get? (w'.registry 0).entries t
    = if t = c.id then some ⟨w.classes.size⟩ else Assoc.get? (w.registry 0).entries t := by
  rw [ha.registry, Registry.get?_entries_register]

include h

/-- The identity is new, so no entry gives way. -/
private theorem grows : w.Grows w' where
  size := by rw [ha.size]; exact Nat.le_succ _
  later q hq := ha.cls_old hq ▸ .refl _
  ancestors q hq := by rw [ha.cls_old hq.lt]
  entries t q hq := by
    obtain ⟨hqp, hqt⟩ := h.entries t q hq
    rw [StandsFor, ha.entry, if_neg fun ht => ha.unused q hqp.lt (hqt.trans ht)]
    exact hq
  objects o ho := ⟨ha.objects ▸ ho, by simp only [classOfObject, object, ha.objects]⟩
  history := ha.history ▸ List.suffix_rfl

private theorem identified : w'.Identified := by
  have hten := h.size
  have hnew := ha.cls_new
  have hbegun : (w'.registry 0).begun = (w.registry 0).begun := by rw [ha.registry]; rfl
  have hissued {t : TypeId} (ht : w.Issued t) : w'.Issued t := ht.mono (Nat.le_of_eq hbegun.symm)
  constructor
  · exact ⟨ha.single, hbegun ▸ h.supplied⟩
  · rw [ha.registry]; exact h.base
  · rw [ha.size]; omega
  · intro b
    have hlt := b.number_id_lt
    rw [ha.cls_old (by simp only; omega)]
    exact h.reserved b
  · intro q hle hlt
    rcases ha.old_or_new hlt with hlt | rfl
    · rw [ha.cls_old hlt]; exact hissued (h.issued q hle hlt)
    · rw [hnew]; exact hissued ha.issued
  · intro q r hq hr hid
    rcases ha.old_or_new hq with hq | rfl <;> rcases ha.old_or_new hr with hr | rfl
    · rw [ha.cls_old hq, ha.cls_old hr] at hid
      exact h.apart q r hq hr hid
    · rw [ha.cls_old hq, hnew] at hid
      exact absurd hid (ha.unused q hq)
    · rw [ha.cls_old hr, hnew] at hid
      exact absurd hid.symm (ha.unused r hr)
    · rfl
  · intro key d hk
    obtain ⟨hold, hne⟩ := ha.drafts key d hk
    obtain ⟨hruntime, hroot, ht, hunused⟩ := h.drafts key d hold
    refine ⟨hruntime, hroot, hissued ht, fun r hr => ?_⟩
    rcases ha.old_or_new hr with hr | rfl
    · rw [ha.cls_old hr]; exact hunused r hr
    · rw [hnew]; exact hne.symm
  · intro key key' d d' hk hk'
    exact h.draftsApart key key' d d' (ha.drafts key d hk).1 (ha.drafts key' d' hk').1

private theorem orderly {p : ClassRef} (hp : w.Placed p) (hanc : c.ancestors = p :: (w.cls p).ancestors)
    (hc : c.Filed) : w'.Orderly := by
  have hg := ha.grows h
  have hten := h.size
  have hsize := ha.size
  have hnew := ha.cls_new
  constructor
  · exact ha.identified h
  · intro q hq
    rw [ha.cls_old (by omega)]
    exact h.kinds q hq
  · intro q hq
    rw [ha.cls_old (by omega)]
    exact h.below q hq
  · intro q hq hlt
    rcases ha.old_or_new hlt with hlt | rfl
    · rw [ha.cls_old hlt]
      exact (h.defined q hq hlt).imp_right (hg.entries _ q)
    · rw [hnew, hanc, StandsFor, ha.entry, if_pos rfl]
      exact ⟨by simp, rfl⟩
  · intro q a hq
    rw [cls_of_push ha.classes] at hq
    split at hq
    · rw [hanc] at hq
      rcases List.mem_cons.mp hq with rfl | hq
      · exact hg.placed hp
      · exact hg.placed (h.ancestors p a hq)
    · exact hg.placed (h.ancestors q a hq)
  · intro t q hq
    rw [StandsFor, ha.entry] at hq
    split at hq
    · obtain rfl := Option.some.inj hq
      rw [hnew]
      exact ⟨⟨by rw [hsize]; exact Nat.lt_succ_self _, Or.inr (by rw [hnew, hanc]; simp)⟩,
        (‹t = c.id›).symm⟩
    · obtain ⟨hp, hid⟩ := h.entries t q hq
      rw [ha.cls_old hp.lt]
      exact ⟨hg.placed hp, hid⟩
  · intro q
    rw [cls_of_push ha.classes]
    split
    · exact hc
    · exact h.filed q

end Adds

/-- A definition has been begun under an identity that nothing has. -/
private structure Begins (w : World) (d : Draft) (w' : World) : Prop where
  orderly : w'.Orderly
  grows : w.Grows w'
  pending : w'.Pending d
  drafts : w'.drafts = w.drafts
  others : ∀ key e, Assoc.get? w.drafts key = some e → e.id ≠ d.id

namespace Orderly

variable {w : World}

/-- The drafts may be others, as long as they can be built. -/
private theorem withDrafts (h : w.Orderly) {drafts : List (String × Draft)}
    (hp : ∀ key d, Assoc.get? drafts key = some d → w.Pending d)
    (ha : ∀ key key' d d', Assoc.get? drafts key = some d → Assoc.get? drafts key' = some d' →
      d.id = d'.id → key = key') : ({ w with drafts } : World).Orderly :=
  have hi : ({ w with drafts } : World).Identified :=
    ⟨⟨h.single, h.supplied⟩, h.base, h.size, h.reserved, h.issued, h.apart,
      fun key d hk => have hd := hp key d hk; ⟨hd.runtime, hd.root, hd.issued, hd.unused⟩, ha⟩
  ⟨hi, h.kinds, h.below, h.defined, fun r a hr => have ha := h.ancestors r a hr; ⟨ha.lt, ha.settled⟩,
    fun t r ht => have ⟨hp, hid⟩ := h.entries t r ht; ⟨⟨hp.lt, hp.settled⟩, hid⟩, h.filed⟩

/-- The next identity is none of those that have been handed out. -/
private theorem ne_next (hs : (w.registry 0).begun < TypeId.supply) {t : TypeId} (ht : w.Issued t) :
    t ≠ (w.registry 0).next := by
  obtain ⟨n, hn, rfl⟩ := ht
  intro heq
  have hsame : n = (w.registry 0).begun := TypeId.defined_inj (Nat.lt_trans hn hs) hs heq
  omega

/-- So no class has it. -/
private theorem id_ne_next (h : w.Orderly) (hs : (w.registry 0).begun < TypeId.supply) {r : ClassRef}
    (hr : r.idx < w.classes.size) : (w.cls r).id ≠ (w.registry 0).next := by
  by_cases hten : r.idx < 10
  · intro heq
    have hb := (h.isBuiltin_iff hr).mpr hten
    rw [heq, Registry.next, TypeId.isBuiltin_defined hs] at hb
    cases hb
  · exact ne_next hs (h.issued r (Nat.le_of_not_lt hten) hr)

private theorem registry_handOut (h : w.Orderly) :
    (w.updateRegistry 0 Registry.handOut).registry 0 = (w.registry 0).handOut :=
  registry_updateRegistry _ _ h.single

/-- Handing out an identity changes nothing that is known of classes. -/
private theorem handOut (h : w.Orderly) (hs : (w.registry 0).begun < TypeId.supply) :
    (w.updateRegistry 0 Registry.handOut).Orderly ∧ w.Grows (w.updateRegistry 0 Registry.handOut) := by
  have hreg := h.registry_handOut
  have hmore : (w.registry 0).begun ≤ ((w.updateRegistry 0 Registry.handOut).registry 0).begun := by
    rw [hreg]
    exact Nat.le_succ _
  have hpending {d : Draft} (hd : w.Pending d) : (w.updateRegistry 0 Registry.handOut).Pending d :=
    ⟨hd.runtime, hd.root, hd.issued.mono hmore, hd.unused⟩
  have hstands (t : TypeId) (r : ClassRef) :
      (w.updateRegistry 0 Registry.handOut).StandsFor t r ↔ w.StandsFor t r := by
    unfold StandsFor
    rw [hreg]
    rfl
  have hidentified : (w.updateRegistry 0 Registry.handOut).Identified := by
    refine ⟨⟨(runtimes_size_updateRegistry ..).trans h.single, ?_⟩, ?_, h.size, h.reserved,
      fun r hle hlt => (h.issued r hle hlt).mono hmore, h.apart,
      fun key d hk => hpending (h.drafts key d hk), h.draftsApart⟩
    · rw [hreg]
      exact hs
    · rw [hreg]
      exact h.base
  refine ⟨⟨hidentified, h.kinds, h.below, fun r hle hlt => ?_, fun r a ha => ?_, fun t r ht => ?_,
    h.filed⟩, ?_⟩
  · exact (h.defined r hle hlt).imp_right (hstands _ r).mpr
  · have hplaced := h.ancestors r a ha
    exact ⟨hplaced.lt, hplaced.settled⟩
  · obtain ⟨hplaced, hid⟩ := h.entries t r ((hstands t r).mp ht)
    exact ⟨⟨hplaced.lt, hplaced.settled⟩, hid⟩
  · exact ⟨Nat.le_refl _, fun _ _ => .refl _, fun _ _ => rfl, fun t r => (hstands t r).mpr,
      fun _ ho => ⟨ho, rfl⟩, List.suffix_rfl⟩

private theorem beginClass (h : w.Orderly) (hs : (w.registry 0).begun < TypeId.supply) (name : String)
    (isHost : Bool) :
    w.Begins (w.beginClass 0 name isHost).1 (w.beginClass 0 name isHost).2 := by
  obtain ⟨h₀, hg₀⟩ := h.rootClass (b := .object) rfl
  have hs₀ : ((w.rootClass 0 .object).2.registry 0).begun < TypeId.supply := by
    rw [w.begun_rootClass]
    exact hs
  obtain ⟨h₁, hg₁⟩ := h₀.handOut hs₀
  have hkept := w.drafts_rootClass 0 .object
  refine ⟨h₁, hg₀.trans hg₁, ⟨rfl, h.rootClass_fst, ⟨_, ?_, rfl⟩, fun r hr => h₀.id_ne_next hs₀ hr⟩,
    hkept, fun key e hk => ne_next hs₀ (h₀.drafts key e (hkept ▸ hk)).issued⟩
  change _ < (((w.rootClass 0 .object).2.updateRegistry 0 Registry.handOut).registry 0).begun
  rw [h₀.registry_handOut]
  exact Nat.lt_succ_self _

/-- What is built of a draft, when the draft is used up. -/
private theorem adds_buildClass (h : w.Orderly) {d : Draft} (hd : w.Pending d)
    (parent : Option ClassRef) (members : ClassMembers) {drafts : List (String × Draft)}
    (hdrafts : ∀ key e, Assoc.get? drafts key = some e →
      Assoc.get? w.drafts key = some e ∧ e.id ≠ d.id) :
    w.Adds (ClassMembers.toClass { members with name := d.name, isHost := d.isHost } d.id
        (parent.getD ⟨0⟩ :: (w.cls (parent.getD ⟨0⟩)).ancestors))
      { (w.buildClass d parent members).2 with drafts } := by
  rw [← hd.root]
  let c := ClassMembers.toClass { members with name := d.name, isHost := d.isHost } d.id
    (parent.getD d.root :: (w.cls (parent.getD d.root)).ancestors)
  have hid : c.id = d.id := ClassMembers.id_toClass ..
  have hcls : (w.addClass c).2.cls ⟨w.classes.size⟩ = c := by
    rw [cls_addClass]
    exact if_pos rfl
  have hreg : (w.buildClass d parent members).2.registry 0
      = (w.registry 0).register c.name c.id ⟨w.classes.size⟩ := by
    have hsum : (w.buildClass d parent members).2 = (w.addClass c).2.register 0 ⟨w.classes.size⟩ := by
      rw [← hd.runtime]
      rfl
    have hone : (w.addClass c).2.runtimes.size = 1 := h.single
    rw [hsum, World.register, registry_updateRegistry _ _ hone, hcls]
    rfl
  refine ⟨(w.runtimes_size_buildClass d parent members).trans h.single, rfl, hreg, rfl, rfl, ?_, ?_, ?_⟩
  · rw [hid]; exact hd.issued
  · rw [hid]; exact hd.unused
  · rw [hid]; exact hdrafts

/-- A class is added at the next place, under the identity of its draft. -/
private theorem buildClass (h : w.Orderly) {d : Draft} (hd : w.Pending d) {parent : Option ClassRef}
    (hp : ∀ p ∈ parent, w.Placed p) (members : ClassMembers) {drafts : List (String × Draft)}
    (hdrafts : ∀ key e, Assoc.get? drafts key = some e →
      Assoc.get? w.drafts key = some e ∧ e.id ≠ d.id) :
    ({ (w.buildClass d parent members).2 with drafts } : World).Orderly
      ∧ w.Grows { (w.buildClass d parent members).2 with drafts } := by
  have hadds := h.adds_buildClass hd parent members hdrafts
  have hparent : w.Placed (parent.getD ⟨0⟩) := by
    cases parent with
    | none => exact h.placed_zero
    | some q => exact hp q rfl
  refine ⟨hadds.orderly h hparent ?_ ?_, hadds.grows h⟩
  · exact ClassMembers.ancestors_toClass ..
  · exact ClassMembers.filed_toClass _ _ _

theorem defineClass (h : w.Orderly) (hs : (w.registry 0).begun < TypeId.supply)
    {parent : Option ClassRef} (hp : ∀ p ∈ parent, w.Placed p) (members : ClassMembers) :
    (w.defineClass 0 parent members).2.2.Orderly
      ∧ w.Grows (w.defineClass 0 parent members).2.2 := by
  have hb := h.beginClass hs members.name members.isHost
  obtain ⟨ho, hg⟩ := hb.orderly.buildClass hb.pending (fun p hpar => hb.grows.placed (hp p hpar))
    members fun key e hk => ⟨hk, hb.others key e (hb.drafts ▸ hk)⟩
  exact ⟨ho, hb.grows.trans hg⟩

theorem draftClass (h : w.Orderly) (hs : (w.registry 0).begun < TypeId.supply) (key name : String)
    (isHost : Bool) :
    (w.draftClass key 0 name isHost).2.Orderly ∧ w.Grows (w.draftClass key 0 name isHost).2 := by
  have hb := h.beginClass hs name isHost
  have hold {k : String} {e : Draft} (hk : Assoc.get? (w.beginClass 0 name isHost).2.drafts k = some e) :
      e.id ≠ (w.beginClass 0 name isHost).1.id := hb.others k e (hb.drafts ▸ hk)
  refine ⟨hb.orderly.withDrafts (fun k e hk => ?_) fun k k' e e' hk hk' hid => ?_, ?_⟩
  · rcases Assoc.eq_or_of_get?_set hk with ⟨-, rfl⟩ | hk
    · exact hb.pending
    · exact hb.orderly.drafts k e hk
  · rcases Assoc.eq_or_of_get?_set hk with ⟨rfl, rfl⟩ | hk₀
    · rcases Assoc.eq_or_of_get?_set hk' with ⟨rfl, -⟩ | hk₀'
      · rfl
      · exact absurd hid.symm (hold hk₀')
    · rcases Assoc.eq_or_of_get?_set hk' with ⟨-, rfl⟩ | hk₀'
      · exact absurd hid (hold hk₀)
      · exact hb.orderly.draftsApart k k' e e' hk₀ hk₀' hid
  · have hg := hb.grows
    exact ⟨hg.size, hg.later, hg.ancestors, hg.entries, hg.objects, hg.history⟩

/-- A class that has just been built stands for its type. -/
private theorem entered_buildClass (h : w.Orderly) {d : Draft} (hd : w.Pending d)
    {parent : Option ClassRef}
    (hp : ∀ p ∈ parent, w.Placed p) (members : ClassMembers) {drafts : List (String × Draft)}
    (hdrafts : ∀ key e, Assoc.get? drafts key = some e →
      Assoc.get? w.drafts key = some e ∧ e.id ≠ d.id) :
    ({ (w.buildClass d parent members).2 with drafts } : World).Entered
      (w.buildClass d parent members).1 := by
  refine (h.buildClass hd hp members hdrafts).1.entered_of_standsFor (t := d.id) ?_
  unfold StandsFor
  rw [(h.adds_buildClass hd parent members hdrafts).registry, ClassMembers.id_toClass]
  exact Assoc.get?_set_self _ _ _

theorem entered_defineClass (h : w.Orderly) (hs : (w.registry 0).begun < TypeId.supply)
    {parent : Option ClassRef} (hp : ∀ p ∈ parent, w.Placed p) (members : ClassMembers) :
    (w.defineClass 0 parent members).2.2.Entered (w.defineClass 0 parent members).2.1 := by
  have hb := h.beginClass hs members.name members.isHost
  exact hb.orderly.entered_buildClass hb.pending (fun p hpar => hb.grows.placed (hp p hpar)) members
    fun key e hk => ⟨hk, hb.others key e (hb.drafts ▸ hk)⟩

/-- The other drafts are for other classes. -/
private theorem drafts_erase (h : w.Orderly) {key : String} {d : Draft}
    (hd : Assoc.get? w.drafts key = some d) {k : String} {e : Draft}
    (hk : Assoc.get? (Assoc.erase w.drafts key) k = some e) :
    Assoc.get? w.drafts k = some e ∧ e.id ≠ d.id := by
  rw [Assoc.get?_erase] at hk
  split at hk
  · cases hk
  · rename_i hne
    exact ⟨hk, fun hid => hne (h.draftsApart k key e d hk hd hid)⟩

theorem finishClass (h : w.Orderly) {key : String} {d : Draft} (hd : Assoc.get? w.drafts key = some d)
    {parent : Option ClassRef} (hp : ∀ p ∈ parent, w.Placed p) (members : ClassMembers) :
    (w.finishClass key d parent members).2.Orderly
      ∧ w.Grows (w.finishClass key d parent members).2 :=
  h.buildClass (h.drafts key d hd) hp members fun _ _ => h.drafts_erase hd

theorem entered_finishClass (h : w.Orderly) {key : String} {d : Draft}
    (hd : Assoc.get? w.drafts key = some d) {parent : Option ClassRef}
    (hp : ∀ p ∈ parent, w.Placed p) (members : ClassMembers) :
    (w.finishClass key d parent members).2.Entered (w.finishClass key d parent members).1 :=
  h.entered_buildClass (h.drafts key d hd) hp members fun _ _ => h.drafts_erase hd

end Orderly

end World

end CachedDispatch
