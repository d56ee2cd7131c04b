import CachedDispatch.Proofs.Visits

/-!
What slots come to hold, with any number of runtimes. After a deed the occupant of a slot is one that was
there before, or generic or megamorphic, or it was resolved for a request that was made. So a fact about
sites that resolution brings about and that deeds leave alone holds of every occupant.
-/
namespace CachedDispatch

namespace World

variable {w w' : World} {t : TableRef} {i : Nat} {slot : Slot}

/-- Where an occupant comes from, for a slot whose lookups depend on `c`, when `w` has become `w'`. -/
private inductive Occupies (w w' : World) (c : Site.Context) : Site → Prop
  | kept {t : TableRef} {i : Nat} {slot : Slot} (hs : w.slot? t i = some slot)
      (hc : w.siteContext t slot = c) : Occupies w w' c slot.site
  | generic : Occupies w w' c .generic
  | megamorphic : Occupies w w' c .megamorphic
  /-- The site was resolved in `w` for a request, and nothing else was done. -/
  | installed {t : TableRef} {i : Nat} {request : Request} {site : Site} {w₁ : World}
      (hrt : c.runtime < w.runtimes.size) (ha : .asked t i request ∈ w.history)
      (hr : (resolve c request).run w = (some site, w₁))
      (hw : w' = w₁.installed t i c.runtime site) : Occupies w w' c site

private theorem Occupies.of_tables_eq (ht : w'.tables = w.tables) (hs : w'.slot? t i = some slot) :
    Occupies w w' (w'.siteContext t slot) slot.site :=
  .kept ((slot?_of_tables_eq ht t i).symm.trans hs)
    (by rw [siteContext, siteContext, table_of_tables_eq ht])

private theorem Occupies.addTable {owner : TypeId} {rt : Nat} {sites : List (String × SiteKind)}
    (hs : (w.addTable (.ofSites owner rt sites)).2.slot? t i = some slot) :
    Occupies w (w.addTable (.ofSites owner rt sites)).2
      ((w.addTable (.ofSites owner rt sites)).2.siteContext t slot) slot.site := by
  have htable := w.table_addTable (.ofSites owner rt sites) t
  by_cases hnew : t.idx = w.tables.size
  · rw [slot?, htable, if_pos hnew, slots_ofSites] at hs
    obtain ⟨site, -, rfl⟩ := Option.map_eq_some_iff.mp hs
    exact .generic
  · rw [if_neg hnew] at htable
    rw [slot?, htable] at hs
    exact .kept hs (by rw [siteContext, siteContext, htable])

private theorem Occupies.plan {u : TableRef} {j : Nat} {s : Slot} {request : Request} (hv : w.Visited)
    (hs : w.slot? t i = some slot) (ha : .asked t i request ∈ w.history)
    (hs' : ((planAt t slot request).run w).2.slot? u j = some s) :
    Occupies w ((planAt t slot request).run w).2
      (((planAt t slot request).run w).2.siteContext u s) s.site := by
  have hi : slot.header.index = i := hv.balanced.index t i slot hs
  obtain ⟨f, htables, hheader, hf⟩ := (course_planAt hs hi request).writes
  generalize ((planAt t slot request).run w).2 = w' at htables hf hs'
  rw [siteContext, table_of_tables_eq htables, runtime_updateSlot, owner_updateSlot]
  rcases slot?_updateSlot ((slot?_of_tables_eq htables u j).symm.trans hs') with
    hold | ⟨rfl, rfl, s₀, hs₀, rfl⟩
  · exact .kept hold rfl
  have hname : (f s₀).name = s₀.name := congrArg SiteHeader.name (hheader s₀)
  rw [hname]
  rcases hf s₀ with hsite | hsite | ⟨w₁, hr, rfl⟩
  · rw [hsite]
    exact .kept hs₀ rfl
  · rw [hsite]
    exact .megamorphic
  · obtain rfl : slot = s₀ := Option.some.inj (hs.symm.trans hs₀)
    exact .installed (hv.slot_mem hs).1 ha hr rfl

/-- Every occupant after a deed comes from one of these. -/
private theorem Deed.occupies (hd : Deed w w') (hw : w.Attained) (hs : w'.slot? t i = some slot) :
    Occupies w w' (w'.siteContext t slot) slot.site := by
  cases hd with
  | findClass rt type => exact .of_tables_eq (w.sameRest_findClass rt type).tables hs
  | replaceClass _ rt => exact .of_tables_eq (w.sameRest_replaceClass rt _).tables hs
  | defineClass rt parent members =>
    exact .of_tables_eq (w.sameRest_defineClass rt parent members).tables hs
  | draftClass key rt name isHost =>
    exact .of_tables_eq (w.sameRest_draftClass key rt name isHost).tables hs
  | finishClass _ parent members =>
    exact .of_tables_eq (w.sameRest_finishClass _ _ parent members).tables hs
  | addTable hrt owner sites => exact .addTable hs
  | plan hplan ha => exact .plan hw.visited hplan ha hs
  | _ => exact .of_tables_eq rfl hs

/-- Facts about the occupants of slots, with what the lookups of the slots depend on, that hold of
everything that a slot can come to hold and that deeds of the kind `D` leave alone. -/
structure OccupantFact (D : World → World → Prop) (P : World → Site.Context → Site → Prop) : Prop where
  deed : ∀ {w w'}, D w w' → Deed w w'
  generic : ∀ w c, P w c .generic
  megamorphic : ∀ w c, P w c .megamorphic
  later : ∀ {w w' c site}, w.Attained → D w w' → P w c site → P w' c site
  installed : ∀ {w w₁ t i c request site}, w.Attained → D w (w₁.installed t i c.runtime site) →
    c.runtime < w.runtimes.size → .asked t i request ∈ w.history →
    (resolve c request).run w = (some site, w₁) → P (w₁.installed t i c.runtime site) c site

/-- They hold of all occupants. -/
theorem OccupantFact.occupant {D : World → World → Prop} {P : World → Site.Context → Site → Prop}
    (hP : OccupantFact D P) {config : Config} {embedding : Embedding}
    (h : Relation.ReflTransGen D (initial config embedding) w)
    (hs : w.slot? t i = some slot) : P w (w.siteContext t slot) slot.site := by
  induction h generalizing t i slot with
  | refl => cases hs
  | @tail w₁ w₂ hds hd ih =>
    have hw₁ : w₁.Attained := ⟨config, embedding, Relation.ReflTransGen.mono (fun _ _ => hP.deed) _ _ hds⟩
    have hocc := (hP.deed hd).occupies hw₁ hs
    generalize slot.site = site, w₂.siteContext t slot = c at hocc
    cases hocc with
    | kept hs hc => exact hP.later hw₁ hd (hc ▸ ih hs)
    | generic => exact hP.generic w₂ c
    | megamorphic => exact hP.megamorphic w₂ c
    | installed hrt ha hr hw =>
      subst hw
      exact hP.installed hw₁ hd hrt ha hr

/-- Where identities are left in the end, they have been left all the time. -/
theorem ample_all_along {D : World → World → Prop} (hD : ∀ {w w'}, D w w' → Deed w w') {config : Config}
    {embedding : Embedding} (h : Relation.ReflTransGen D (initial config embedding) w) (ha : w.Ample) :
    Relation.ReflTransGen (fun w w' => D w w' ∧ w'.Ample) (initial config embedding) w := by
  induction h with
  | refl => exact .refl
  | @tail w₁ w₂ hds hd ih =>
    have hw₁ : w₁.Attained := ⟨config, embedding, Relation.ReflTransGen.mono (fun _ _ => hD) _ _ hds⟩
    have hbefore := ((hD hd).keeps hw₁.inOrder).2.ample ha
    exact (ih hbefore).tail ⟨hd, ha⟩

/-- The site was resolved for a request and installed, and then the world became `w`. -/
inductive Stems (w : World) (c : Site.Context) (site : Site) : Prop
  | resolved {w₀ w₁ : World} {t : TableRef} {i : Nat} {request : Request} (hw : w₀.Attained)
      (hd : Deed w₀ (w₁.installed t i c.runtime site)) (hrt : c.runtime < w₀.runtimes.size)
      (ha : .asked t i request ∈ w₀.history) (hr : (resolve c request).run w₀ = (some site, w₁))
      (hds : Deeds (w₁.installed t i c.runtime site) w)

/-- Every specialized occupant has come about so. -/
theorem Attained.stems (hw : w.Attained) (hs : w.slot? t i = some slot)
    (hspec : slot.site.tag.isSpecialized = true) : Stems w (w.siteContext t slot) slot.site := by
  have hfact : OccupantFact Deed fun w c site => site.tag.isSpecialized = true → Stems w c site := {
    deed := fun hd => hd
    generic := fun _ _ h => by cases h
    megamorphic := fun _ _ h => by cases h
    later := fun _ hd h hspec => by
      obtain ⟨hw₀, hd₀, hrt, ha, hr, hds⟩ := h hspec
      exact .resolved hw₀ hd₀ hrt ha hr (hds.tail hd)
    installed := fun hw hd hrt ha hr _ => .resolved hw hd hrt ha hr .refl }
  obtain ⟨config, embedding, hd⟩ := hw
  exact hfact.occupant hd hs hspec

/-- A plan for a request that does not go to null is remembered by a site that has come about so, the
occupant or else the one that was resolved for the request, or a full lookup made it. -/
theorem Attained.source (hw : w.Attained) (hs : w.slot? t i = some slot) {request : Request}
    (ha : .asked t i request ∈ w.history) (hnull : request.onNull = false) {d : Decision}
    (hp : (planAt t slot request).run w = (d, w')) :
    (∃ site, Stems w' (w.siteContext t slot) site ∧ site.cached? w' request = some d.plan
      ∧ (slot.site.cached? w request = none →
        ∃ w₁, (resolve (w.siteContext t slot) request).run w = (some site, w₁)
          ∧ w' = w₁.installed t i (w.siteContext t slot).runtime site))
      ∨ ∃ w₁, (w₁ = w ∨ w₁.active = []) ∧ w₁.runtimes.size = w.runtimes.size
        ∧ (planFully (w.siteContext t slot) request).run w₁ = (d.plan, w') := by
  have hplan : Deed w _ := .plan hs ha
  have hcourse := course_planAt hs (hw.visited.balanced.index t i slot hs) request
  rw [hp] at hplan hcourse
  rcases hcourse.source hnull with ⟨hit, rfl⟩ | ⟨site, w₁, hr, rfl, hit⟩ | hfull
  · have hstems := hw.stems hs (Site.isSpecialized_of_cached? hit)
    exact Or.inl ⟨slot.site, hstems, hit, fun hnone => by cases hnone.symm.trans hit⟩
  · have hrt : (w.siteContext t slot).runtime < w.runtimes.size := (hw.visited.slot_mem hs).1
    exact Or.inl ⟨site, .resolved hw hplan hrt ha hr .refl, hit, fun _ => ⟨w₁, hr, rfl⟩⟩
  · exact Or.inr hfull

end World

end CachedDispatch
