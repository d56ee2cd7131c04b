import CachedDispatch.Proofs.Lines

/-!
The class above a class. A builtin class gets its parent when a registry first asks for it, and until then it
has none. Scripts name only classes that were found or defined. So in every session the classes that
registries have and that labels go to have a parent, but for those of the root types.
-/
namespace CachedDispatch

/-- A class of a builtin type has a class above it, unless the type is a root. -/
def Class.Seated (c : Class) : Prop :=
  ∀ b : BuiltinType, b.isRoot = false → c.id = b.id → c.ancestors ≠ []

private theorem Class.Seated.of_isRoot {c : Class} {b : BuiltinType} (hid : c.id = b.id)
    (hb : b.isRoot = true) : c.Seated := by
  intro b' hb' hid'
  have hsame : b.id = b'.id := hid.symm.trans hid'
  have hroot : b = b' := Option.some.inj (by rw [← b.ofId?_id, hsame, b'.ofId?_id])
  rw [hroot, hb'] at hb
  cases hb

namespace World

/-- The classes of registries and labels have a parent, but for those of the root types. -/
structure Grounded (w : World) : Prop where
  entries : ∀ rt t r, w.classFor? rt t = some r → (w.cls r).Seated
  labels : ∀ name r, Assoc.get? w.scope.labels name = some r → (w.cls r).Seated

variable {w w' : World}

/-- No class loses its parent, and what is new in a registry has one. -/
private structure Seats (w w' : World) : Prop where
  kept : ∀ r, r.idx < w.classes.size → (w.cls r).Seated → (w'.cls r).Seated
  entered : ∀ rt t r, w'.classFor? rt t = some r → w.classFor? rt t = some r ∨ (w'.cls r).Seated

/-- A class that is put below another has a parent. -/
private theorem seated_addClass (w : World) (members : ClassMembers) (id : TypeId) (p : ClassRef)
    (above : List ClassRef) :
    ((w.addClass (members.toClass id (p :: above))).2.cls ⟨w.classes.size⟩).Seated := by
  intro _ _ _
  rw [cls_addClass, if_pos rfl, ClassMembers.ancestors_toClass]
  exact List.cons_ne_nil _ _

namespace Seats

private theorem of_eq (hc : w'.classes = w.classes) (hr : ∀ rt, w'.registry rt = w.registry rt) :
    w.Seats w' := by
  refine ⟨fun r _ h => ?_, fun rt t r h => Or.inl ?_⟩
  · rwa [cls_congr hc]
  · rwa [classFor?, hr] at h

private theorem trans {w'' : World} (h : w.Seats w') (h' : w'.Seats w'')
    (hsize : w.classes.size ≤ w'.classes.size) (hc : w'.Catalogued) : w.Seats w'' := by
  refine ⟨fun r hr hs => h'.kept r (Nat.lt_of_lt_of_le hr hsize) (h.kept r hr hs), fun rt t r hr => ?_⟩
  rcases h'.entered rt t r hr with hr' | hs
  · exact (h.entered rt t r hr').imp_right fun hs => h'.kept r (hc.entries rt t r hr').1 hs
  · exact Or.inr hs

private theorem updateClass (w : World) (r : ClassRef) {f : Class → Class}
    (hf : (w.cls r).Seated → (f (w.cls r)).Seated) : w.Seats (w.updateClass r f) := by
  refine ⟨fun q _ hq => ?_, fun _ _ _ h => Or.inl h⟩
  rw [cls_updateClass]
  split
  · rename_i h
    rw [← h.1] at hq ⊢
    exact hf hq
  · exact hq

private theorem addClass (w : World) (c : Class) : w.Seats (w.addClass c).2 := by
  refine ⟨fun r hr hs => ?_, fun _ _ _ h => Or.inl h⟩
  rwa [cls_addClass, if_neg (Nat.ne_of_lt hr)]

/-- A registry may take in a class that has a parent. -/
private theorem updateRegistry (w : World) (rt : Nat) {f : Registry → Registry}
    (hf : ∀ t r, Assoc.get? (f (w.registry rt)).entries t = some r →
      w.classFor? rt t = some r ∨ (w.cls r).Seated) : w.Seats (w.updateRegistry rt f) := by
  refine ⟨fun _ _ hs => hs, fun rt' t r hr => ?_⟩
  rw [classFor?, registry_updateRegistry_eq] at hr
  split at hr
  · rename_i h
    obtain ⟨rfl, -⟩ := h
    exact hf t r hr
  · exact Or.inl hr

private theorem register (w : World) (rt : Nat) {r : ClassRef} (hr : (w.cls r).Seated) :
    w.Seats (w.register rt r) := by
  refine updateRegistry w rt (f := (·.register (w.cls r).name (w.cls r).id r)) fun t q hq => ?_
  rcases Assoc.eq_or_of_get?_set hq with ⟨-, rfl⟩ | hold
  · exact Or.inr hr
  · exact Or.inl hold

private theorem enterBuiltin (hc : w.Catalogued) (ha : w.Anchored) (rt : Nat) {b : BuiltinType}
    {ancestors : List ClassRef} (hs : b.isRoot = true ∨ ancestors ≠ []) :
    w.Seats (w.enterBuiltin rt b ancestors).2 := by
  let r := (w.registry rt).builtinRef b
  let f (c : Class) : Class := { c with ancestors }
  have hseated : (f (w.cls r)).Seated :=
    hs.elim (.of_isRoot (ha.id rt b)) fun hne _ _ _ => hne
  have hcls : (w.updateClass r f).cls r = f (w.cls r) := by
    rw [cls_updateClass, if_pos ⟨rfl, (ha rt b).1⟩]
  have hcat := hc.updateClass r (f := f) fun c => c.later_withAncestors ancestors
  have hentered : (w.updateClass r f).Seats (w.enterBuiltin rt b ancestors).2 := by
    refine updateRegistry _ rt (f := (·.enterBuiltin b)) fun t q hq => ?_
    rcases Assoc.eq_or_of_get?_set hq with ⟨-, rfl⟩ | hold
    · exact Or.inr (hcls ▸ hseated)
    · exact Or.inl hold
  exact (updateClass w r fun _ => hseated).trans hentered hcat.2.size hcat.1

private theorem rootClass (hc : w.Catalogued) (ha : w.Anchored) (rt : Nat) {b : BuiltinType}
    (hb : b.isRoot = true) : w.Seats (w.rootClass rt b).2 := by
  unfold World.rootClass
  split
  · exact .of_eq rfl fun _ => rfl
  · exact enterBuiltin hc ha rt (Or.inl hb)

private theorem findClass (hc : w.Catalogued) (ha : w.Anchored) (rt : Nat) (t : TypeId) :
    w.Seats (w.findClass rt t).2 := by
  have hroot := rootClass hc ha rt (b := .object) rfl
  obtain ⟨hc₁, he₁⟩ := hc.rootClass rt .object
  generalize hfound : w.findClass rt t = found
  cases found_of_findClass hfound with
  | entered | undefined => exact .of_eq rfl fun _ => rfl
  | spare => exact hroot
  | root _ _ hb => exact enterBuiltin hc ha rt (Or.inl hb)
  | below =>
    exact hroot.trans (enterBuiltin hc₁ (ha.endures hc₁ he₁) rt (Or.inr (List.cons_ne_nil _ _))) he₁.size hc₁

private theorem planAt (hc : w.Catalogued) (ha : w.Anchored) (t : TableRef) (slot : Slot)
    (request : Request) : w.Seats ((planAt t slot request).run w).2 := by
  let R (w w' : World) : Prop :=
    w.Catalogued ∧ w.Anchored → (w'.Catalogued ∧ w'.Anchored) ∧ w.classes.size ≤ w'.classes.size ∧ w.Seats w'
  -- whatever leaves classes and registries alone
  have hsame (w w' : World) (hc : w'.classes = w.classes) (hs : w'.runtimes.size = w.runtimes.size)
      (hr : ∀ rt, w'.registry rt = w.registry rt) : R w w' := by
    rintro ⟨hcat, ha⟩
    have hcat' := hcat.of_eq hc hs hr
    exact ⟨⟨hcat', ha.endures hcat' (.of_eq hc hs hr)⟩, hc ▸ Nat.le_refl _, .of_eq hc hr⟩
  have hR : AllowsSlots R := {
    lookups := fun rt => {
      refl := fun w => hsame w w rfl rfl fun _ => rfl
      trans := fun h₁ h₂ h => by
        obtain ⟨h', hsize, hseats⟩ := h₁ h
        obtain ⟨h'', hsize', hseats'⟩ := h₂ h'
        exact ⟨h'', Nat.le_trans hsize hsize', hseats.trans hseats' hsize h'.1⟩
      findClass := fun w t h => by
        obtain ⟨hcat', he⟩ := h.1.findClass rt t
        exact ⟨⟨hcat', h.2.endures hcat' he⟩, he.size, findClass h.1 h.2 rt t⟩
      allocate := fun w => hsame w _ rfl rfl fun _ => rfl }
    count := fun w rt f => hsame w _ rfl Array.size_modify fun rt' => w.registry_updateStats rt rt' f
    write := fun w t i f => hsame w _ rfl rfl fun _ => rfl }
  exact (makes_planAt hR t request slot w ⟨hc, ha⟩).2.2

private theorem newRuntime (w : World) (config : Config) : w.Seats (w.newRuntime config).2 := by
  refine ⟨fun r hr hs => ?_, fun rt t r h => ?_⟩
  · rwa [cls_newRuntime, if_pos hr]
  · rw [classFor?, registry_newRuntime] at h
    split at h
    · cases h
    · exact Or.inl h

private theorem replaceClass (hc : w.Catalogued) (rt : Nat) {r : ClassRef} (hr : r.idx < w.classes.size)
    (hs : (w.cls r).Seated) : w.Seats (w.replaceClass rt r).2 := by
  obtain ⟨hc₁, he₁⟩ := hc.register rt hr
  simp only [World.replaceClass]
  split
  · exact (register w rt hs).trans (updateClass _ _ fun h => h) he₁.size hc₁
  · exact register w rt hs

private theorem beginClass (hc : w.Catalogued) (ha : w.Anchored) (rt : Nat) (name : String)
    (isHost : Bool) : w.Seats (w.beginClass rt name isHost).2 := by
  obtain ⟨hc₁, he₁⟩ := hc.rootClass rt .object
  have hnext := updateRegistry (w.rootClass rt .object).2 rt (f := Registry.handOut) fun _ _ h => Or.inl h
  exact (rootClass hc ha rt (b := .object) rfl).trans hnext he₁.size hc₁

private theorem buildClass (hc : w.Catalogued) (d : Draft) (parent : Option ClassRef)
    (members : ClassMembers) : w.Seats (w.buildClass d parent members).2 := by
  obtain ⟨hc₁, he₁⟩ := hc.addClass (ClassMembers.toClass { members with name := d.name, isHost := d.isHost }
    d.id (parent.getD d.root :: (w.cls (parent.getD d.root)).ancestors))
  exact (addClass w _).trans (register _ d.runtime (w.seated_addClass _ _ _ _)) he₁.size hc₁

private theorem defineClass (hc : w.Catalogued) (ha : w.Anchored) (rt : Nat) (parent : Option ClassRef)
    (members : ClassMembers) : w.Seats (w.defineClass rt parent members).2.2 := by
  obtain ⟨hc₁, he₁⟩ := hc.beginClass rt members.name members.isHost
  exact (beginClass hc ha rt _ _).trans (buildClass hc₁ _ parent members) he₁.size hc₁

private theorem withDrafts (h : w.Seats w') (drafts : List (String × Draft)) :
    w.Seats { w' with drafts } :=
  ⟨h.kept, h.entered⟩

end Seats

private theorem Grounded.seats (h : w.Grounded) (hw : w.InOrder) (hs : w.Seats w')
    (hl : w'.scope.labels = w.scope.labels) : w'.Grounded := by
  refine ⟨fun rt t r hr => ?_, fun name r hr => ?_⟩
  · exact (hs.entered rt t r hr).elim
      (fun hr => hs.kept r (hw.entries rt t r hr).1 (h.entries rt t r hr)) fun hs => hs
  · rw [hl] at hr
    exact hs.kept r (hw.labels name r hr) (h.labels name r hr)

theorem Grounded.planAt (h : w.Grounded) (hw : w.Attained) (t : TableRef) (slot : Slot)
    (request : Request) : ((planAt t slot request).run w).2.Grounded :=
  h.seats hw.inOrder (.planAt hw.inOrder.toCatalogued hw.anchored t slot request)
    (congrArg Scope.labels (sameStage_planAt t slot request w).scope)

private theorem grounded_initial (config : Config) (embedding : Embedding) :
    (initial config embedding).Grounded := by
  refine ⟨fun rt t r h => ?_, fun _ _ h => by cases h⟩
  rw [classFor?, initial, registry_newRuntime] at h
  split at h
  · cases h
  · rw [registry_out_of_range _ (Nat.not_lt_zero rt)] at h
    cases h

/-- A class that can be named has a parent. -/
private theorem Named.seated {r : ClassRef} (hr : w.Named r) (hw : w.InOrder) (h : w.Grounded) :
    (w.cls r).Seated := by
  cases hr with
  | label hl => exact h.labels _ r hl
  | @found w₀ _ t _ hf =>
    have hsize : w.runtimes.size = w₀.runtimes.size := by
      rw [← w₀.runtimes_size_findClass w₀.scope.runtime t, hf]
    have hscope : w.scope = w₀.scope := by
      rw [← (w₀.sameRest_findClass w₀.scope.runtime t).scope, hf]
    have hrt : w₀.scope.runtime < w₀.runtimes.size := hsize ▸ hscope ▸ hw.current
    exact h.entries _ t r (classFor?_of_findClass hrt hf)
  | @built w₀ _ d parent members _ hd =>
    cases hd
    exact w₀.seated_addClass _ _ _ _

/-- It goes on in deeds, and parents stay in place. -/
private def GoesOnGrounded (w w' : World) : Prop :=
  GoesOn w w' ∧ (w.Attained → w.Grounded → w'.Grounded)

private theorem allowsSteps_grounded : AllowsSteps GoesOnGrounded := by
  have hgo := allowsSteps_goesOn
  -- whatever leaves classes, registries and labels alone
  have hsame {w w' : World} (h : GoesOn w w') (hc : w'.classes = w.classes)
      (hr : w'.runtimes = w.runtimes) (hl : w'.scope.labels = w.scope.labels) : GoesOnGrounded w w' :=
    ⟨h, fun hw hg => hg.seats hw.inOrder (.of_eq hc fun rt => by simp only [registry, runtime, hr]) hl⟩
  exact {
    lookups := fun rt => {
      refl := fun w => hsame ((hgo.lookups rt).refl w) rfl rfl rfl
      trans := fun h h' => ⟨(hgo.lookups rt).trans h.1 h'.1, fun hw hg =>
        h'.2 (hw.deeds (h.1 hw.inOrder).1.deeds) (h.2 hw hg)⟩
      findClass := fun w t => ⟨(hgo.lookups rt).findClass w t, fun hw hg =>
        hg.seats hw.inOrder (.findClass hw.inOrder.toCatalogued hw.anchored rt t)
          (congrArg Scope.labels (w.sameRest_findClass rt t).scope)⟩
      allocate := fun w => hsame ((hgo.lookups rt).allocate w) rfl rfl rfl }
    record := fun w e => hsame (hgo.record w e) rfl rfl rfl
    newObject := fun w r => hsame (hgo.newObject w r) rfl rfl rfl
    setField := fun w o name v => hsame (hgo.setField w o name v) rfl rfl rfl
    plan := fun hs ha => ⟨hgo.plan hs ha, fun hw hg => hg.planAt hw _ _ _⟩
    mutate := fun w r mu => ⟨hgo.mutate w r mu, fun hw hg =>
      hg.seats hw.inOrder (.updateClass w r fun hs b hb hid => by
        rw [(w.cls r).ancestors_mutation mu]
        exact hs b hb (((w.cls r).later_mutation mu).id ▸ hid)) rfl⟩
    defineClass := fun w rt parent members => ⟨hgo.defineClass w rt parent members, fun hw hg =>
      hg.seats hw.inOrder (.defineClass hw.inOrder.toCatalogued hw.anchored rt parent members)
        (congrArg Scope.labels (w.sameRest_defineClass rt parent members).scope)⟩
    draftClass := fun w key rt name isHost => ⟨hgo.draftClass w key rt name isHost, fun hw hg =>
      hg.seats hw.inOrder ((Seats.beginClass hw.inOrder.toCatalogued hw.anchored rt name isHost).withDrafts _)
        (congrArg Scope.labels (w.sameRest_draftClass key rt name isHost).scope)⟩
    finishClass := fun {w key d} hd parent members => ⟨hgo.finishClass hd parent members, fun hw hg =>
      hg.seats hw.inOrder ((Seats.buildClass hw.inOrder.toCatalogued d parent members).withDrafts _)
        (congrArg Scope.labels (w.sameRest_finishClass key d parent members).scope)⟩
    replaceClass := fun {w _} hr rt => ⟨hgo.replaceClass hr rt, fun hw hg =>
      hg.seats hw.inOrder (.replaceClass hw.inOrder.toCatalogued rt (hr.lt_size hw.inOrder)
        (hr.seated hw.inOrder hg)) (congrArg Scope.labels (w.sameRest_replaceClass rt _).scope)⟩
    label := fun {w r} hr name => ⟨hgo.label hr name, fun hw hg => ⟨hg.entries, fun n q hq => by
      rcases Assoc.eq_or_of_get?_set hq with ⟨-, rfl⟩ | hold
      · exact hr.seated hw.inOrder hg
      · exact hg.labels n q hold⟩⟩
    rescope := fun w scope hrt hl => hsame (hgo.rescope w scope hrt hl) rfl rfl hl
    newRuntime := fun w config => ⟨hgo.newRuntime w config, fun hw hg =>
      hg.seats hw.inOrder (.newRuntime w config) rfl⟩
    switch := fun hlt => hsame (hgo.switch hlt) rfl rfl rfl
    addTable := fun w owner sites => hsame (hgo.addTable w owner sites) rfl rfl rfl
    block := fun {w w'} c h => ⟨hgo.block c h.1, fun hw hg => by
      have hblock := h.2 (hw.deed (.activate w _)) ⟨hg.entries, hg.labels⟩
      exact ⟨hblock.entries, hblock.labels⟩⟩ }

/-- In the worlds that sessions come to, registered classes have a parent, but for those of the root
types. -/
theorem grounded_of_session {fuel : Nat} {steps : List Script.Step} {config : Config}
    {embedding : Embedding} {replies : List Script.Reply}
    (h : (Script.performSteps fuel steps).run (initial config embedding) = .ok (replies, w)) : w.Grounded :=
  ((Script.makes_session allowsSteps_grounded fuel).2 steps h).2 ⟨config, embedding, .refl⟩
    (grounded_initial config embedding)

end World

end CachedDispatch
