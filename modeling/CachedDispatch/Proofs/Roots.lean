import CachedDispatch.Proofs.Deeds

/-!
Builtin classes and builtin identities, in every world that sessions come to, with any number of runtimes.
As long as the identities of no registry have come round, no defined class has a builtin identity. And as
long as no defined class has the identity of the root type, the classes that come with the runtimes have
no ancestors but root classes: no builtin type is above another one.
-/
namespace CachedDispatch

/-- The class has come with a runtime, and no session has defined it. -/
def Class.Native (c : Class) : Prop := c.kind ≠ .dynamic ∧ c.kind ≠ .host

instance (c : Class) : Decidable c.Native := inferInstanceAs (Decidable (_ ∧ _))

theorem Class.Later.native_iff {c c' : Class} (h : c.Later c') : c'.Native ↔ c.Native := by
  unfold Class.Native
  rw [h.kind]

theorem BuiltinType.native_toClass (b : BuiltinType) : b.toClass.Native := by
  unfold Class.Native
  rw [b.toClass_spec.2.1]
  cases b <;> decide

theorem ClassMembers.not_native_toClass (m : ClassMembers) (id : TypeId) (rs : List ClassRef) :
    ¬ (m.toClass id rs).Native := by
  unfold Class.Native
  rw [m.kind_toClass]
  split <;> simp

namespace World

variable {w w' : World}

/-- No class of the type has been defined by a session. -/
def Genuine (w : World) (b : BuiltinType) : Prop :=
  ∀ r, r.idx < w.classes.size → (w.cls r).id = b.id → (w.cls r).Native

theorem Genuine.of_endures {b : BuiltinType} (h : w'.Genuine b) (he : w.Endures w') : w.Genuine b := by
  intro r hr hid
  rw [← (he.later r hr).native_iff]
  exact h r (Nat.lt_of_lt_of_le hr he.size) ((he.id_eq hr).trans hid)

private theorem Genuine.endures {b : BuiltinType} (h : w.Genuine b) (he : w.Endures w')
    (hsize : w'.classes.size = w.classes.size) : w'.Genuine b := by
  intro r hr hid
  rw [hsize] at hr
  rw [(he.later r hr).native_iff]
  exact h r hr ((he.id_eq hr).symm.trans hid)

/-- Definitions have no builtin identities, whether they have been built or not. -/
structure SetApart (w : World) : Prop where
  classes : ∀ r, r.idx < w.classes.size → ¬ (w.cls r).Native → (w.cls r).id.isBuiltin = false
  drafts : ∀ key d, Assoc.get? w.drafts key = some d → d.id.isBuiltin = false

namespace SetApart

theorem genuine (h : w.SetApart) (b : BuiltinType) : w.Genuine b := by
  intro r hr hid
  by_contra hn
  have hdefined := h.classes r hr hn
  rw [hid, b.isBuiltin_id] at hdefined
  cases hdefined

/-- No class has been added. -/
private theorem endures (h : w.SetApart) (he : w.Endures w') (hsize : w'.classes.size = w.classes.size)
    (hd : w'.drafts = w.drafts) : w'.SetApart := by
  refine ⟨fun r hr hn => ?_, fun key d hk => h.drafts key d (hd ▸ hk)⟩
  rw [hsize] at hr
  rw [(he.later r hr).native_iff] at hn
  rw [he.id_eq hr]
  exact h.classes r hr hn

private theorem beginClass (h : w.SetApart) (hc : w.Catalogued) (rt : Nat) (name : String)
    (isHost : Bool) (ha : (w.beginClass rt name isHost).2.Ample) :
    (w.beginClass rt name isHost).2.SetApart
      ∧ (w.beginClass rt name isHost).1.id.isBuiltin = false := by
  refine ⟨h.endures (hc.beginClass rt name isHost).2 (w.size_rootClass rt .object)
    (w.drafts_rootClass rt .object), ?_⟩
  have hid : (w.beginClass rt name isHost).1.id = .defined (w.registry rt).begun := by
    rw [← w.begun_rootClass rt rt .object]
    rfl
  rw [hid]
  apply TypeId.isBuiltin_defined
  by_cases hrt : rt < w.runtimes.size
  · -- the identity has just been taken, and the registry has not run out
    have hle := ha rt
    rwa [begun_beginClass, if_pos ⟨rfl, hrt⟩] at hle
  · rw [registry_out_of_range w hrt]
    decide

private theorem addClass (h : w.SetApart) {c : Class} (hid : c.id.isBuiltin = false) :
    (w.addClass c).2.SetApart := by
  refine ⟨fun r hr hn => ?_, h.drafts⟩
  rw [cls_addClass] at hn ⊢
  split
  · exact hid
  · rename_i hne
    rw [if_neg hne] at hn
    rw [size_addClass] at hr
    exact h.classes r (by omega) hn

private theorem buildClass (h : w.SetApart) {d : Draft} (hd : d.id.isBuiltin = false)
    (parent : Option ClassRef) (members : ClassMembers) :
    (w.buildClass d parent members).2.SetApart := by
  have hadd := h.addClass (c := ClassMembers.toClass { members with name := d.name, isHost := d.isHost }
    d.id (parent.getD d.root :: (w.cls (parent.getD d.root)).ancestors)) (by rwa [ClassMembers.id_toClass])
  exact ⟨hadd.classes, hadd.drafts⟩

private theorem newRuntime (h : w.SetApart) (config : Config) : (w.newRuntime config).2.SetApart := by
  refine ⟨fun r hr hn => ?_, h.drafts⟩
  rw [cls_newRuntime] at hn ⊢
  split at hn
  · rename_i hlt
    rw [if_pos hlt]
    exact h.classes r hlt hn
  · have hsize : (w.newRuntime config).2.classes.size = w.classes.size + BuiltinType.all.length := by
      simp [World.newRuntime]
    have hlt : r.idx - w.classes.size < BuiltinType.all.length := by omega
    rw [List.getElem?_eq_getElem hlt] at hn
    exact absurd (BuiltinType.native_toClass _) hn

end SetApart

/-- A class of the root type is there. -/
def IsRoot (w : World) (r : ClassRef) : Prop := r.idx < w.classes.size ∧ (w.cls r).id = .object

/-- The classes that come with the runtimes are below root classes only. -/
structure Rooted (w : World) : Prop where
  first : w.IsRoot ⟨0⟩
  below : ∀ r, (w.cls r).Native → ∀ a ∈ (w.cls r).ancestors, w.IsRoot a

private theorem IsRoot.endures {r : ClassRef} (h : w.IsRoot r) (he : w.Endures w') : w'.IsRoot r :=
  ⟨Nat.lt_of_lt_of_le h.1 he.size, (he.id_eq h.1).trans h.2⟩

namespace Rooted

/-- Each such class keeps its ancestors or gets root classes as ancestors. -/
private theorem step (h : w.Rooted) (he : w.Endures w')
    (hcls : ∀ r, (w'.cls r).Native →
      (w.cls r).Native ∧ (w'.cls r).ancestors = (w.cls r).ancestors
        ∨ ∀ a ∈ (w'.cls r).ancestors, w.IsRoot a) : w'.Rooted := by
  refine ⟨h.first.endures he, fun r hr a ha => ?_⟩
  rcases hcls r hr with ⟨hold, hsame⟩ | hroots
  · exact (h.below r hold a (hsame ▸ ha)).endures he
  · exact (hroots a ha).endures he

private theorem of_eq (h : w.Rooted) (hc : w'.classes = w.classes) : w'.Rooted := by
  have hcls (r : ClassRef) : w'.cls r = w.cls r := by simp only [cls, hc]
  have hroot (r : ClassRef) (hr : w.IsRoot r) : w'.IsRoot r := by
    unfold IsRoot
    rwa [hcls, hc]
  refine ⟨hroot _ h.first, fun r hb a ha => hroot a ?_⟩
  rw [hcls] at hb ha
  exact h.below r hb a ha

private theorem updateClass (h : w.Rooted) (hc : w.Catalogued) (r : ClassRef) {f : Class → Class}
    (hf : ∀ c : Class, c.Later (f c))
    (ha : (∀ c, (f c).ancestors = c.ancestors) ∨ ∀ c, ∀ a ∈ (f c).ancestors, w.IsRoot a) :
    (w.updateClass r f).Rooted := by
  refine h.step (hc.updateClass r hf).2 fun q hq => ?_
  rw [cls_updateClass] at hq ⊢
  split at hq
  · rename_i hr
    rw [if_pos hr]
    rcases ha with hsame | hroots
    · exact Or.inl ⟨(hf (w.cls q)).native_iff.mp hq, hsame _⟩
    · exact Or.inr (hroots _)
  · rename_i hr
    rw [if_neg hr]
    exact Or.inl ⟨hq, rfl⟩

private theorem addClass (h : w.Rooted) (hc : w.Catalogued) {c : Class} (hn : ¬ c.Native) :
    (w.addClass c).2.Rooted := by
  refine h.step (hc.addClass c).2 fun r hr => ?_
  rw [cls_addClass] at hr ⊢
  split at hr
  · exact absurd hr hn
  · rename_i hne
    rw [if_neg hne]
    exact Or.inl ⟨hr, rfl⟩

/-- The classes of a new runtime have no ancestors yet. -/
private theorem ancestors_newRuntime (w : World) (config : Config) {r : ClassRef}
    (h : w.classes.size ≤ r.idx) : ((w.newRuntime config).2.cls r).ancestors = [] := by
  rw [cls_newRuntime, if_neg (Nat.not_lt.mpr h)]
  rcases BuiltinType.all[r.idx - w.classes.size]? with _ | b
  · rfl
  · exact b.toClass_spec.2.2.1

private theorem newRuntime (h : w.Rooted) (hc : w.Catalogued) (config : Config) :
    (w.newRuntime config).2.Rooted := by
  refine h.step (hc.newRuntime config).2 fun r hr => ?_
  by_cases hlt : r.idx < w.classes.size
  · rw [cls_newRuntime, if_pos hlt] at hr ⊢
    exact Or.inl ⟨hr, rfl⟩
  · refine Or.inr fun a ha => ?_
    rw [ancestors_newRuntime w config (Nat.le_of_not_lt hlt)] at ha
    cases ha

/-- The place that is reserved for the root class has it, also for a runtime that is not there. -/
private theorem isRoot_builtinRef (h : w.Rooted) (hc : w.Catalogued) (rt : Nat) :
    w.IsRoot ((w.registry rt).builtinRef .object) := by
  by_cases hrt : rt < w.runtimes.size
  · exact ⟨hc.lt_builtinRef hrt .object, hc.id_builtinRef hrt .object⟩
  · rw [registry_out_of_range w hrt]
    exact h.first

private theorem enterBuiltin (h : w.Rooted) (hc : w.Catalogued) (rt : Nat) (b : BuiltinType)
    {rs : List ClassRef} (hrs : ∀ a ∈ rs, w.IsRoot a) : (w.enterBuiltin rt b rs).2.Rooted := by
  have h₁ := h.updateClass hc ((w.registry rt).builtinRef b)
    (f := fun c => { c with ancestors := rs }) (fun c => c.later_withAncestors rs)
    (Or.inr fun _ => hrs)
  exact h₁.of_eq rfl

private theorem rootClass (h : w.Rooted) (hc : w.Catalogued) (rt : Nat) :
    (w.rootClass rt .object).2.Rooted
      ∧ (w.rootClass rt .object).2.IsRoot (w.rootClass rt .object).1 := by
  unfold World.rootClass
  split
  · rename_i r hr
    exact ⟨h, hc.entries rt _ r hr⟩
  · exact ⟨h.enterBuiltin hc rt .object nofun,
      (h.isRoot_builtinRef hc rt).endures (hc.enterBuiltin rt .object []).2⟩

private theorem findClass (h : w.Rooted) (hc : w.Catalogued) (hg : w.Genuine .object) (rt : Nat)
    (t : TypeId) : (w.findClass rt t).2.Rooted := by
  obtain ⟨h₁, hroot⟩ := h.rootClass hc rt
  obtain ⟨hc₁, he₁⟩ := hc.rootClass rt .object
  generalize hfound : w.findClass rt t = found
  cases found_of_findClass hfound with
  | entered | undefined => exact h
  | spare => exact h₁
  | @root b => exact h.enterBuiltin hc rt b nofun
  | @below b =>
    refine h₁.enterBuiltin hc₁ rt b fun a ha => ?_
    rcases List.mem_cons.mp ha with rfl | ha
    · exact hroot
    · -- what stands for the root type has come with a runtime
      have hg₁ := hg.endures he₁ (w.size_rootClass rt .object)
      exact h₁.below _ (hg₁ _ hroot.1 hroot.2) a ha

private theorem replaceClass (h : w.Rooted) (hc : w.Catalogued) (rt : Nat) {r : ClassRef}
    (hr : r.idx < w.classes.size) : (w.replaceClass rt r).2.Rooted := by
  have hregister : (w.register rt r).Rooted := h.of_eq rfl
  simp only [World.replaceClass]
  split
  · exact hregister.updateClass (hc.register rt hr).1 _ Class.later_bump (Or.inl fun _ => rfl)
  · exact hregister

private theorem buildClass (h : w.Rooted) (hc : w.Catalogued) (d : Draft) (parent : Option ClassRef)
    (members : ClassMembers) : (w.buildClass d parent members).2.Rooted :=
  (h.addClass hc (ClassMembers.not_native_toClass _ _ _)).of_eq rfl

private theorem beginClass (h : w.Rooted) (hc : w.Catalogued) (rt : Nat) (name : String)
    (isHost : Bool) : (w.beginClass rt name isHost).2.Rooted := (h.rootClass hc rt).1.of_eq rfl

end Rooted

/-- A plan adds no class and touches no draft. -/
private theorem same_planAt (t : TableRef) (slot : Slot) (request : Request) (w : World) :
    ((planAt t slot request).run w).2.classes.size = w.classes.size
      ∧ ((planAt t slot request).run w).2.drafts = w.drafts := by
  have hR : AllowsSlots fun w w' => w'.classes.size = w.classes.size ∧ w'.drafts = w.drafts := {
    lookups := fun rt => {
      refl := fun _ => ⟨rfl, rfl⟩
      trans := fun h₁ h₂ => ⟨h₂.1.trans h₁.1, h₂.2.trans h₁.2⟩
      findClass := fun w t => ⟨w.size_findClass rt t, w.drafts_findClass rt t⟩
      allocate := fun _ => ⟨rfl, rfl⟩ }
    count := fun _ _ _ => ⟨rfl, rfl⟩
    write := fun _ _ _ _ => ⟨rfl, rfl⟩ }
  exact makes_planAt hR t request slot w

private theorem Rooted.planAt (h : w.Rooted) (hc : w.Catalogued) (hg : w.Genuine .object) (t : TableRef)
    (slot : Slot) (request : Request) : ((planAt t slot request).run w).2.Rooted := by
  let R (w w' : World) : Prop := w.Catalogued ∧ w.Genuine .object ∧ w.Rooted →
    w'.Catalogued ∧ w'.Genuine .object ∧ w'.Rooted
  -- whatever leaves classes and registries alone
  have hsame (w w' : World) (hc : w'.classes = w.classes) (hs : w'.runtimes.size = w.runtimes.size)
      (hr : ∀ rt, w'.registry rt = w.registry rt) : R w w' := by
    rintro ⟨hcat, hg, h⟩
    exact ⟨hcat.of_eq hc hs hr, hg.endures (.of_eq hc hs hr) (by rw [hc]), h.of_eq hc⟩
  have hR : AllowsSlots R := {
    lookups := fun rt => {
      refl := fun _ h => h
      trans := fun h₁ h₂ h => h₂ (h₁ h)
      findClass := fun w t ⟨hcat, hg, h⟩ => by
        obtain ⟨hcat', he⟩ := hcat.findClass rt t
        exact ⟨hcat', hg.endures he (w.size_findClass rt t), h.findClass hcat hg rt t⟩
      allocate := fun w => hsame w _ rfl rfl fun _ => rfl }
    count := fun w rt f => hsame w _ rfl Array.size_modify fun rt' => w.registry_updateStats rt rt' f
    write := fun w t i f => hsame w _ rfl rfl fun _ => rfl }
  exact (makes_planAt hR t request slot w ⟨hc, hg, h⟩).2.2

private theorem rooted_initial (config : Config) (embedding : Embedding) :
    (initial config embedding).Rooted := by
  refine ⟨⟨Nat.zero_lt_succ _, rfl⟩, fun r _ a ha => ?_⟩
  rw [initial, Rooted.ancestors_newRuntime _ config (Nat.zero_le _)] at ha
  cases ha

private theorem proper_initial (config : Config) (embedding : Embedding) :
    (initial config embedding).SetApart :=
  SetApart.newRuntime (w := { embedding }) ⟨fun _ hr => absurd hr (Nat.not_lt_zero _), nofun⟩ config

private theorem Deed.rooted (hd : Deed w w') (ho : w.InOrder) (hg : w'.Genuine .object) (h : w.Rooted) :
    w'.Rooted := by
  have hc := ho.toCatalogued
  replace hg := hg.of_endures (hd.keeps ho).2
  cases hd with
  | record | allocate | newObject | setField | addTable | activate | rescope => exact h.of_eq rfl
  | findClass rt t => exact h.findClass hc hg rt t
  | mutate r mu =>
    exact h.updateClass hc r (fun c => c.later_mutation mu)
      (Or.inl fun c => c.ancestors_mutation mu)
  | replaceClass hr rt => exact h.replaceClass hc rt hr
  | defineClass rt parent members =>
    have hbegun := hc.beginClass rt members.name members.isHost
    exact (h.beginClass hc rt _ _).buildClass hbegun.1 _ parent members
  | draftClass key rt name isHost => exact (h.beginClass hc rt name isHost).of_eq rfl
  | finishClass _ parent members => exact (h.buildClass hc _ parent members).of_eq rfl
  | newRuntime config => exact h.newRuntime hc config
  | plan => exact h.planAt hc hg _ _ _

private theorem Deed.setApart (hd : Deed w w') (ho : w.InOrder) (ha : w'.Ample) (h : w.SetApart) :
    w'.SetApart := by
  have hc := ho.toCatalogued
  have he := (hd.keeps ho).2
  cases hd with
  | record | allocate | newObject | setField | addTable | activate | rescope =>
    exact h.endures he rfl rfl
  | findClass rt t => exact h.endures he (w.size_findClass rt t) (w.drafts_findClass rt t)
  | mutate r mu => exact h.endures he (w.size_updateClass r _) rfl
  | replaceClass hr rt => exact h.endures he (w.size_replaceClass rt _) (w.drafts_replaceClass rt _)
  | defineClass rt parent members =>
    have hbuild := ((hc.beginClass rt members.name members.isHost).1.buildClass
      (w.beginClass rt members.name members.isHost).1 parent members).2
    obtain ⟨h₁, hid⟩ := h.beginClass hc rt members.name members.isHost (hbuild.ample ha)
    exact h₁.buildClass hid parent members
  | draftClass key rt name isHost =>
    obtain ⟨h₁, hid⟩ := h.beginClass hc rt name isHost ha
    refine ⟨h₁.classes, fun key' d hk => ?_⟩
    rcases Assoc.eq_or_of_get?_set hk with ⟨-, rfl⟩ | hold
    · exact hid
    · exact h₁.drafts key' d hold
  | @finishClass key d hd parent members =>
    have h₁ := h.buildClass (h.drafts key d hd) parent members
    refine ⟨h₁.classes, fun key' d' hk => ?_⟩
    rw [World.finishClass, Assoc.get?_erase] at hk
    split at hk
    · cases hk
    · exact h₁.drafts key' d' hk
  | newRuntime config => exact h.newRuntime config
  | plan => exact h.endures he (same_planAt _ _ _ w).1 (same_planAt _ _ _ w).2

theorem Attained.rooted (h : w.Attained) (hg : w.Genuine .object) : w.Rooted := by
  obtain ⟨config, embedding, hd⟩ := h
  have ho := inOrder_initial config embedding
  induction hd with
  | refl => exact rooted_initial config embedding
  | @tail v w hds hd ih =>
    have hv := (Deeds.keeps hds ho).1
    exact hd.rooted hv hg (ih (hg.of_endures (hd.keeps hv).2))

/-- As long as the identities last, definitions have none that is a builtin's. -/
theorem Attained.setApart (h : w.Attained) (ha : w.Ample) : w.SetApart := by
  obtain ⟨config, embedding, hd⟩ := h
  have ho := inOrder_initial config embedding
  induction hd with
  | refl => exact proper_initial config embedding
  | @tail v w hds hd ih =>
    have hv := (Deeds.keeps hds ho).1
    exact hd.setApart hv ha (ih ((hd.keeps hv).2.ample ha))

/-- The line of a class that came with a runtime goes up to root classes right away. -/
theorem Attained.lineage_of_native (h : w.Attained) (hg : w.Genuine .object) {r : ClassRef}
    (hr : (w.cls r).Native) {t : TypeId} (ht : t ∈ (w.hierarchy r).lineage) :
    t = (w.cls r).id ∨ t = .object := by
  obtain ⟨c, hc, rfl⟩ := List.mem_map.mp ht
  rcases List.mem_cons.mp hc with rfl | hc
  · exact Or.inl rfl
  · obtain ⟨a, ha, rfl⟩ := List.mem_map.mp hc
    exact Or.inr ((h.rooted hg).below r hr a ha).2

/-- As long as the identities last, so does the line of a class of a builtin type. -/
theorem Attained.lineage_of_builtin (h : w.Attained) (ha : w.Ample) {r : ClassRef}
    (hr : (w.cls r).id.isBuiltin = true) {t : TypeId} (ht : t ∈ (w.hierarchy r).lineage) :
    t = (w.cls r).id ∨ t = .object := by
  have happart := h.setApart ha
  by_cases hlt : r.idx < w.classes.size
  · refine h.lineage_of_native (happart.genuine .object) ?_ ht
    by_contra hn
    rw [happart.classes r hlt hn] at hr
    cases hr
  · have hdefault : w.hierarchy r = ⟨default, []⟩ := by
      rw [hierarchy, w.cls_out_of_range hlt]
      rfl
    rw [hdefault] at ht
    rw [w.cls_out_of_range hlt]
    exact Or.inl (List.mem_singleton.mp ht)

end World

end CachedDispatch
