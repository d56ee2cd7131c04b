import CachedDispatch.Proofs.SiteMemory
import Mathlib.Algebra.Group.Nat.Defs
import Mathlib.Data.List.Nodup

/-!
Versions vouch for lookups. Whatever changes are made to the classes of a forest, no version goes back,
and a version that has not moved means that every lookup answers as it did. This is so for versions kept
in machine words too, unless there are as many changes as words.
-/
namespace CachedDispatch

/-- A change to the classes of a world. -/
inductive Change
  | mutate (r : ClassRef) (mu : Mutation)
  /-- The class comes to stand for its type, which retires the one that stood for it. -/
  | replace (rt : Nat) (r : ClassRef)

def Change.apply (w : World) : Change → World
  | mutate r mu => w.updateClass r mu.apply
  | replace rt r => (w.replaceClass rt r).2

/-- The version as a machine word keeps it, the sum of counters that wrap around. -/
def Hierarchy.word (h : Hierarchy) : UInt64 :=
  h.classes.foldr (fun c n => UInt64.ofNat c.stamp + n) 0

private theorem Hierarchy.word_eq (h : Hierarchy) : h.word = UInt64.ofNat h.version := by
  have hsum (cs : List Class) : cs.foldr (fun c n => UInt64.ofNat c.stamp + n) 0
      = UInt64.ofNat (cs.foldr (fun c n => c.stamp + n) 0) := by
    induction cs with
    | nil => rfl
    | cons c cs ih => simp only [List.foldr_cons, ih, UInt64.ofNat_add]
  exact hsum h.classes

/-- Both lines answer every lookup alike. -/
structure Hierarchy.SameAnswers (lin : Lineage) (h : Hierarchy) (lin' : Lineage) (h' : Hierarchy) :
    Prop where
  pickMethod : ∀ name args l, h'.pickMethod lin' name args l = h.pickMethod lin name args l
  pickConstructor : ∀ args, h'.pickConstructor lin' args = h.pickConstructor lin args
  property : ∀ name, h'.property? lin' name = h.property? lin name
  setter : ∀ name v, h'.setter? lin' name v = h.setter? lin name v
  staticProperty : ∀ name, h'.staticProperty? lin' name = h.staticProperty? lin name

private theorem Hierarchy.sameAnswers_of_sameMembers {f g : ClassRef → Class} {r : ClassRef}
    {rs : List ClassRef} (hm : ∀ q ∈ r :: rs, (f q).SameMembers (g q)) (hid : (g r).id = (f r).id)
    (lin : Lineage) : SameAnswers lin (along f r rs) lin (along g r rs) := by
  have hids : (along g r rs).id = (along f r rs).id := hid
  have hown : (along g r rs).own.constructors = (along f r rs).own.constructors :=
    (hm r List.mem_cons_self).constructors
  constructor
  · intro name args l
    rw [Hierarchy.pickMethod, Hierarchy.pickMethod, candidates_congr hm]
  · intro args
    rw [Hierarchy.pickConstructor, Hierarchy.pickConstructor, hown]
  · exact property?_congr hm hid lin lin
  · intro name v
    simp only [setter?, Hierarchy.pickMethod, hasField_congr hm, candidates_congr hm, hids]
  · exact staticProperty?_congr hm hid lin lin

namespace World

/-- No class is its own ancestor or has an ancestor twice. -/
def Forest (w : World) : Prop :=
  ∀ i < w.classes.size, ((⟨i⟩ : ClassRef) :: (w.cls ⟨i⟩).ancestors).Nodup

instance (w : World) : Decidable w.Forest := by unfold Forest; infer_instance

private theorem Forest.nodup {w : World} (h : w.Forest) (r : ClassRef) :
    (r :: (w.cls r).ancestors).Nodup := by
  by_cases hr : r.idx < w.classes.size
  · exact h r.idx hr
  · have hcls : w.cls r = default := by simp [cls, Array.getD, hr]
    rw [hcls]
    exact List.nodup_singleton r

/-- The classes are what they were, or later, and no version has gone further than `n` steps. -/
private structure Aged (n : Nat) (w w' : World) : Prop where
  size : w'.classes.size = w.classes.size
  objects : w'.objects = w.objects
  later : ∀ q, (w.cls q).Later (w'.cls q)
  ancestors : ∀ q, (w'.cls q).ancestors = (w.cls q).ancestors
  version_le : w.Forest → ∀ r, w'.version r ≤ w.version r + n

namespace Aged

variable {n n' : Nat} {w w' w'' : World}

private theorem refl (w : World) : w.Aged 0 w :=
  ⟨rfl, rfl, fun _ => .refl _, fun _ => rfl, fun _ _ => Nat.le_refl _⟩

private theorem forest (h : w.Aged n w') (hf : w.Forest) : w'.Forest := by
  intro i hi
  rw [h.size] at hi
  rw [h.ancestors]
  exact hf i hi

private theorem mono (h : w.Aged n w') (hn : n ≤ n') : w.Aged n' w' :=
  { h with version_le := fun hf r => Nat.le_trans (h.version_le hf r) (Nat.add_le_add_left hn _) }

private theorem trans (h : w.Aged n w') (h' : w'.Aged n' w'') : w.Aged (n + n') w'' where
  size := h'.size.trans h.size
  objects := h'.objects.trans h.objects
  later q := (h.later q).trans (h'.later q)
  ancestors q := (h'.ancestors q).trans (h.ancestors q)
  version_le hf r := by
    have hle := h.version_le hf r
    have hle' := h'.version_le (h.forest hf) r
    omega

/-- Objects are of the classes that they were of. -/
private theorem lineage (h : w.Aged n w') : w'.lineage = w.lineage := by
  funext o
  have hcls : w'.classOfObject o = w.classOfObject o := by
    rw [classOfObject, classOfObject, object, object, h.objects]
  have hids (rs : List ClassRef) : (rs.map w'.cls).map (·.id) = (rs.map w.cls).map (·.id) := by
    rw [List.map_map, List.map_map]
    exact List.map_congr_left fun q _ => (h.later q).id
  rw [World.lineage, World.lineage, hcls, hierarchy, hierarchy, h.ancestors]
  exact hids (w.classOfObject o :: (w.cls (w.classOfObject o)).ancestors)

private theorem hierarchy_eq (h : w.Aged n w') (r : ClassRef) :
    w'.hierarchy r = .along w'.cls r (w.cls r).ancestors := by
  rw [hierarchy_eq_along, h.ancestors]

private theorem le_version (h : w.Aged n w') (r : ClassRef) : w.version r ≤ w'.version r := by
  rw [version, version, h.hierarchy_eq]
  exact Hierarchy.version_le fun q _ => h.later q

private theorem sameAnswers (h : w.Aged n w') {r : ClassRef} (hv : w.version r = w'.version r) :
    Hierarchy.SameAnswers w.lineage (w.hierarchy r) w'.lineage (w'.hierarchy r) := by
  rw [version, version, h.hierarchy_eq] at hv
  rw [h.lineage, h.hierarchy_eq, hierarchy_eq_along]
  have hm := Hierarchy.sameMembers_of_version_eq (fun q _ => h.later q) hv
  exact Hierarchy.sameAnswers_of_sameMembers hm (h.later r).id w.lineage

end Aged

/-- One class gets a new stamp, and occurs only once in a line. -/
private theorem version_updateClass_le (w : World) (r q : ClassRef) {f : Class → Class}
    (hs : ∀ c, (f c).stamp ≤ c.stamp + 1) (ha : ∀ c, (f c).ancestors = c.ancestors) (hf : w.Forest) :
    (w.updateClass r f).version q ≤ w.version q + 1 := by
  have hstamp (p : ClassRef) :
      ((w.updateClass r f).cls p).stamp ≤ (w.cls p).stamp + if p = r then 1 else 0 := by
    rw [cls_updateClass]
    split
    · rename_i hr
      rw [if_pos hr.1.symm]
      exact hs _
    · exact Nat.le_add_right _ _
  have hsum (ps : List ClassRef) :
      (ps.map (w.updateClass r f).cls).foldr (fun c n => c.stamp + n) 0
        ≤ (ps.map w.cls).foldr (fun c n => c.stamp + n) 0 + ps.count r := by
    induction ps with
    | nil => exact Nat.le_refl _
    | cons p ps ih =>
      have hp := hstamp p
      simp only [List.map_cons, List.foldr_cons, List.count_cons, beq_iff_eq]
      omega
  have hline : ((w.updateClass r f).cls q).ancestors = (w.cls q).ancestors := by
    rw [cls_updateClass]
    split
    · exact ha _
    · rfl
  have hcount := List.nodup_iff_count_le_one.mp (hf.nodup q) r
  have hle := hsum (q :: (w.cls q).ancestors)
  rw [version, version, hierarchy, hierarchy, hline]
  exact Nat.le_trans hle (Nat.add_le_add_left hcount _)

private theorem aged_updateClass (w : World) (r : ClassRef) {f : Class → Class}
    (hl : ∀ c : Class, c.Later (f c)) (hs : ∀ c, (f c).stamp ≤ c.stamp + 1)
    (ha : ∀ c, (f c).ancestors = c.ancestors) : w.Aged 1 (w.updateClass r f) where
  size := size_updateClass w r f
  objects := rfl
  later q := by
    rw [cls_updateClass]
    split
    · exact hl _
    · exact .refl _
  ancestors q := by
    rw [cls_updateClass]
    split
    · exact ha _
    · rfl
  version_le hf q := version_updateClass_le w r q hs ha hf

private theorem stamp_mutation_le (c : Class) (mu : Mutation) : (mu.apply c).stamp ≤ c.stamp + 1 := by
  cases mu with
  | addMethod m => simp only [Mutation.apply, Class.addMethod, Class.putMethod]; split <;> exact Nat.le_refl _
  | addConstructor m => exact Nat.le_refl _
  | removeMethod name =>
    simp only [Mutation.apply, Class.removeMethod]
    split
    · exact Nat.le_refl _
    · exact Nat.le_succ _
  | addField name =>
    simp only [Mutation.apply, Class.addField, Class.putField]
    split
    · exact Nat.le_succ _
    · exact Nat.le_refl _
  | setStatic name v =>
    simp only [Mutation.apply, Class.setStatic]
    split
    · exact Nat.le_succ _
    · exact Nat.le_refl _

/-- A change is one step. -/
private theorem aged_change (w : World) (c : Change) : w.Aged 1 (c.apply w) := by
  cases c with
  | mutate r mu =>
    exact aged_updateClass w r (fun c => c.later_mutation mu) (fun c => stamp_mutation_le c mu)
      fun c => c.ancestors_mutation mu
  | replace rt r =>
    -- the registry is no part of the classes
    have hregister : w.Aged 0 (w.register rt r) :=
      ⟨rfl, rfl, fun _ => .refl _, fun _ => rfl, fun _ _ => Nat.le_refl _⟩
    simp only [Change.apply, replaceClass]
    split
    · exact hregister.trans
        (aged_updateClass _ _ Class.later_bump (fun c => Nat.le_refl _) fun c => rfl)
    · exact hregister.mono (Nat.zero_le 1)

private theorem aged_changes (w : World) (changes : List Change) :
    w.Aged changes.length (changes.foldl Change.apply w) := by
  induction changes generalizing w with
  | nil => exact .refl w
  | cons c changes ih =>
    rw [List.length_cons, Nat.add_comm]
    exact (w.aged_change c).trans (ih (c.apply w))

/-- A version never goes back, and as long as it is the same all lookups answer the same. As a machine
word it can only come back to what it was after as many changes as there are words. -/
theorem version_vouches_for_lookups (w : World) (changes : List Change) (r : ClassRef) :
    w.version r ≤ (changes.foldl Change.apply w).version r
    ∧ (w.version r = (changes.foldl Change.apply w).version r →
      Hierarchy.SameAnswers w.lineage (w.hierarchy r) (changes.foldl Change.apply w).lineage
        ((changes.foldl Change.apply w).hierarchy r))
    ∧ (w.Forest → changes.length < 2 ^ 64 →
      (w.hierarchy r).word = ((changes.foldl Change.apply w).hierarchy r).word →
        Hierarchy.SameAnswers w.lineage (w.hierarchy r) (changes.foldl Change.apply w).lineage
          ((changes.foldl Change.apply w).hierarchy r))
    ∧ (w.Forest → w.version r + changes.length < 2 ^ 64 →
      (w.hierarchy r).word ≤ ((changes.foldl Change.apply w).hierarchy r).word) := by
  have haged := w.aged_changes changes
  generalize changes.foldl Change.apply w = w' at haged ⊢
  have hle := haged.le_version r
  refine ⟨hle, haged.sameAnswers, fun hf hn hword => haged.sameAnswers ?_, fun hf hn => ?_⟩
  · have hbound := haged.version_le hf r
    rw [Hierarchy.word_eq, Hierarchy.word_eq] at hword
    have hmod : w.version r % 2 ^ 64 = w'.version r % 2 ^ 64 := congrArg UInt64.toNat hword
    omega
  · have hbound := haged.version_le hf r
    rw [Hierarchy.word_eq, Hierarchy.word_eq, UInt64.le_iff_toNat_le]
    change (w.version r) % 2 ^ 64 ≤ (w'.version r) % 2 ^ 64
    omega

/-- Three classes, the second below the first. -/
def threeClasses : World :=
  let w := (initial {}).defineClass 0 none { name := "A", statics := [("s", .int 1)] }
  let w' := w.2.2.defineClass 0 (some w.2.1) { name := "B", fields := ["x"] }
  (w'.2.2.defineClass 0 none { name := "C" }).2.2

/-- The third gets a field and is replaced by itself, and the first gets another value. -/
def changesElsewhere : List Change := [
  .mutate ⟨12⟩ (.addField "y"),
  .mutate ⟨10⟩ (.setStatic "s" (.int 2)),
  .replace 0 ⟨12⟩]

/-- The version of the second class stays through these changes, and that of the third does not. -/
theorem version_vouches_for_lookups_elsewhere :
    threeClasses.Forest ∧ changesElsewhere.length < 2 ^ 64
      ∧ threeClasses.version ⟨12⟩ + 2 = (changesElsewhere.foldl Change.apply threeClasses).version ⟨12⟩
      ∧ (threeClasses.hierarchy ⟨11⟩).word
        = ((changesElsewhere.foldl Change.apply threeClasses).hierarchy ⟨11⟩).word
      ∧ Hierarchy.SameAnswers threeClasses.lineage (threeClasses.hierarchy ⟨11⟩)
        (changesElsewhere.foldl Change.apply threeClasses).lineage
        ((changesElsewhere.foldl Change.apply threeClasses).hierarchy ⟨11⟩) := by
  have hforest : threeClasses.Forest := by decide +kernel
  have hlength : changesElsewhere.length < 2 ^ 64 := by decide
  have hthird : threeClasses.version ⟨12⟩ + 2
      = (changesElsewhere.foldl Change.apply threeClasses).version ⟨12⟩ := by decide +kernel
  have hword : (threeClasses.hierarchy ⟨11⟩).word
      = ((changesElsewhere.foldl Change.apply threeClasses).hierarchy ⟨11⟩).word := by decide +kernel
  obtain ⟨-, -, hanswers, -⟩ := version_vouches_for_lookups threeClasses changesElsewhere ⟨11⟩
  exact ⟨hforest, hlength, hthird, hword, hanswers hforest hlength hword⟩

end World

end CachedDispatch
