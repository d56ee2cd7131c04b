import CachedDispatch.Proofs.Books
import CachedDispatch.Proofs.Slots

/-!
How a slot comes to its plan. The occupant is asked first. Where it does not serve the request the
slot resolves at most once and is written at most once, because a site that was just resolved for a
request serves that request.
-/
namespace CachedDispatch

open World

/-- What a site makes of a request depends on the classes, the objects and the active categories. -/
theorem Site.cached?_congr {w w' : World} (hc : w'.classes = w.classes) (ho : w'.objects = w.objects)
    (ha : w'.active = w.active) (site : Site) (request : Request) :
    site.cached? w' request = site.cached? w request := by
  cases w
  cases w'
  subst hc ho ha
  rfl

/-- Installing a site changes none of them. -/
private theorem Site.cached?_installed (w : World) (t : TableRef) (i rt : Nat) (fresh site : Site)
    (request : Request) : site.cached? (w.installed t i rt fresh) request = site.cached? w request :=
  @Site.cached?_congr w (w.installed t i rt fresh) rfl rfl rfl site request

section Fresh

variable {c : Site.Context} {request : Request} {w₀ w : World} {site : Site}

/-- The guard of a fresh site admits the receiver that it was made for. -/
private theorem admits_of_guardFor {rt : Nat} {receiver : Value} {rc : ReceiverClass}
    (hrc : ReceiverClass.of? receiver = some rc) {r : ClassRef} {guard : Guard}
    (h : (guardFor rt rc).run w₀ = (some (r, guard), w)) : guard.admits w receiver = true := by
  cases rc with
  | literal t =>
    obtain rfl : receiver = .classLiteral t := by cases receiver <;> cases hrc; rfl
    simp only [guardFor, Update.run_modifyGet_bind] at h
    rcases hf : w₀.findClass rt t with ⟨_ | q, w₁⟩ <;> rw [hf] at h <;> cases h
    simp [Guard.admits]
  | object o =>
    obtain rfl : receiver = .object o := by cases receiver <;> cases hrc; rfl
    simp only [guardFor, Update.run_get_bind] at h
    cases h
    simp [Guard.admits]
  | other v =>
    simp only [guardFor, Update.run_get_bind, Update.run_modifyGet_bind] at h
    rcases hf : w₀.classOf rt v with ⟨_ | q, w₁⟩ <;> rw [hf] at h <;> cases h
    cases receiver <;> cases hrc <;> simp [Guard.admits, Value.typeId]

private theorem active_guardFor (w₀ : World) (rt : Nat) (rc : ReceiverClass) :
    ((guardFor rt rc).run w₀).2.active = w₀.active := by
  have hfind (t : TypeId) : (w₀.findClass rt t).2.active = w₀.active :=
    (w₀.sameRest_findClass rt t).active
  cases rc with
  | literal t => exact hfind t
  | object o => rfl
  | other v =>
    cases v with
    | object o => rfl
    | _ => exact hfind _

private theorem valid_make (ha : w.hasActiveCategory = false) (r : ClassRef) (m : Method)
    (args : List Value) : (Target.make w r m args).Valid w args := ⟨rfl, rfl, ha⟩

/-- A site that was just resolved for a request serves it. -/
theorem isSome_cached?_of_resolve (h : (resolve c request).run w₀ = (some site, w)) :
    (site.cached? w request).isSome := by
  obtain ⟨w₁, hact, -, hres⟩ := resolved_of_resolve h
  have hkept {v : World} (hv : v.active = w₁.active) : v.hasActiveCategory = false := by
    rw [hasActiveCategory, hv]
    exact hact
  have hfound {t : TypeId} {r : ClassRef} (hf : w₁.findClass c.runtime t = (some r, w)) :
      w.hasActiveCategory = false := by
    have haw := (w₁.sameRest_findClass c.runtime t).active
    rw [hf] at haw
    exact hkept haw
  have hguarded {rc : ReceiverClass} {r : ClassRef} {guard : Guard}
      (hg : (guardFor c.runtime rc).run w₁ = (some (r, guard), w)) : w.hasActiveCategory = false := by
    have haw := active_guardFor w₁ c.runtime rc
    rw [hg] at haw
    exact hkept haw
  have hliteral (t : TypeId) : (Guard.literalOf t).admits w (.classLiteral t) = true :=
    decide_eq_true rfl
  cases hres with
  | literal hf =>
    exact (Site.Serves.call (hliteral _) (valid_make (hfound hf) ..)).isSome_cached?
  | static hf => exact (Site.Serves.static (hliteral _) (valid_make (hfound hf) ..)).isSome_cached?
  | method hrc _ hg =>
    exact (Site.Serves.call (admits_of_guardFor hrc hg) (valid_make (hguarded hg) ..)).isSome_cached?
  | constructor hf => exact (Site.Serves.construct (valid_make (hfound hf) ..)).isSome_cached?
  | bean hf hb => exact (Site.Serves.bean hb (valid_make (hfound hf) ..)).isSome_cached?
  | property hrc hg =>
    exact (Site.Serves.property (admits_of_guardFor hrc hg) (hguarded hg)).isSome_cached?

end Fresh

/-- Nothing but its number of installs keeps the slot from being specialized for the request. -/
structure Cacheable (w : World) (t : TableRef) (slot : Slot) (request : Request) : Prop where
  notNull : request.onNull = false
  enabled : (w.runtime (w.table t).runtime).config.cacheEnabled = true
  quiet : w.hasActiveCategory = false
  notMegamorphic : slot.site.tag ≠ .megamorphic

/-- The ways in which slot `i` can come to its plan, with the plan and the world after it. -/
inductive Course (w : World) (t : TableRef) (i : Nat) (slot : Slot) (request : Request) :
    Decision × World → Prop
  /-- The occupant serves the request. -/
  | hit {plan : Plan} (h : slot.site.cached? w request = some plan) :
      Course w t i slot request (⟨.memory, plan⟩, w)
  | onNull (h : request.onNull = true) :
      Course w t i slot request ((lookedUp (planOnNull (w.siteContext t slot) request)).run w)
  /-- The slot is not to be specialized. -/
  | uncached (h : slot.site.tag = .megamorphic
        ∨ request.onNull = false ∧ ((w.runtime (w.table t).runtime).config.cacheEnabled = false
          ∨ w.hasActiveCategory = true)) :
      Course w t i slot request ((lookedUp (planFully (w.siteContext t slot) request)).run w)
  /-- The slot has been specialized too often. -/
  | givenUp (h : Cacheable w t slot request)
      (hT : (w.runtime (w.table t).runtime).config.threshold ≤ slot.installs) :
      Course w t i slot request
        ((lookedUp (planFully (w.siteContext t slot) request)).run (w.givenUp t i (w.table t).runtime))
  /-- The one resolution finds no site. -/
  | unresolved {w' : World} (h : Cacheable w t slot request)
      (hT : slot.installs < (w.runtime (w.table t).runtime).config.threshold)
      (hr : (resolve (w.siteContext t slot) request).run w = (none, w')) :
      Course w t i slot request ((lookedUp (planFully (w.siteContext t slot) request)).run w')
  /-- The one resolution finds a site, which serves the request. -/
  | installed {w' : World} {site : Site} {plan : Plan} (h : Cacheable w t slot request)
      (hT : slot.installs < (w.runtime (w.table t).runtime).config.threshold)
      (hr : (resolve (w.siteContext t slot) request).run w = (some site, w'))
      (hit : site.cached? (w'.installed t i (w.table t).runtime site) request = some plan) :
      Course w t i slot request (⟨.memory, plan⟩, w'.installed t i (w.table t).runtime site)

section Courses

variable {w : World} {t : TableRef} {i : Nat} {slot : Slot}

theorem table_of_tables_eq {w w' : World} (h : w'.tables = w.tables) (t : TableRef) :
    w'.table t = w.table t := by
  simp only [table, h]

theorem slot?_of_tables_eq {w w' : World} (h : w'.tables = w.tables) (t : TableRef) (i : Nat) :
    w'.slot? t i = w.slot? t i := by
  rw [slot?, table_of_tables_eq h, slot?]

/-- What an attempt to specialize a slot does, up to the site that it finds. -/
private theorem run_specialize (hs : w.slot? t i = some slot) (hi : slot.header.index = i)
    (hm : slot.site.tag ≠ .megamorphic) (request : Request) :
    (specialize t slot.header (w.siteContext t slot) request).run w
      = if (w.runtime (w.table t).runtime).config.cacheEnabled = false
          ∨ w.hasActiveCategory = true then (none, w)
        else if (w.runtime (w.table t).runtime).config.threshold ≤ slot.installs then
          (none, w.givenUp t i (w.table t).runtime)
        else
          match (resolve (w.siteContext t slot) request).run w with
          | (none, w') => (none, w')
          | (some site, w') => (some site, w'.installed t i (w.table t).runtime site) := by
  subst hi
  unfold specialize
  rw [Update.run_get_bind, hs]
  simp only [Option.map_some, Option.getD_some, Bool.or_eq_true, Bool.not_eq_true']
  change StateT.run (if (w.runtime (w.table t).runtime).config.cacheEnabled = false
    ∨ w.hasActiveCategory = true then _ else _) w = _
  split
  · rfl
  change StateT.run (if (w.runtime (w.table t).runtime).config.threshold ≤ slot.installs then _
    else _) w = _
  split
  · rw [Update.run_bind, run_giveUp hs rfl hm]
    rfl
  rw [Update.run_bind]
  have hbooks := books_resolve (w.siteContext t slot) request w
  rcases hr : (resolve (w.siteContext t slot) request).run w with ⟨_ | site, w'⟩ <;> rw [hr] at hbooks
  · rfl
  have htables : w'.tables = w.tables := congrArg Books.tables hbooks
  dsimp only
  rw [Update.run_bind, run_install ((slot?_of_tables_eq htables t _).trans hs) rfl]
  rfl

/-- A slot whose occupant does not serve the request takes its course, whatever it would do if a
fresh site did not serve the request either. -/
private theorem course_planWith (hs : w.slot? t i = some slot) (hi : slot.header.index = i)
    (hm : slot.site.tag ≠ .megamorphic) (request : Request) (again : Update Decision) :
    Course w t i slot request
      ((planWith t slot.header (w.siteContext t slot) request again).run w) := by
  unfold planWith
  by_cases hnull : request.onNull = true
  · rw [if_pos hnull]
    exact .onNull hnull
  rw [if_neg hnull, Update.run_bind, run_specialize hs hi hm]
  have hnull : request.onNull = false := by simpa using hnull
  by_cases hoff : (w.runtime (w.table t).runtime).config.cacheEnabled = false
      ∨ w.hasActiveCategory = true
  · rw [if_pos hoff]
    exact .uncached (Or.inr ⟨hnull, hoff⟩)
  rw [if_neg hoff]
  rw [not_or, Bool.not_eq_false, Bool.not_eq_true] at hoff
  have hc : Cacheable w t slot request := ⟨hnull, hoff.1, hoff.2, hm⟩
  by_cases hT : (w.runtime (w.table t).runtime).config.threshold ≤ slot.installs
  · rw [if_pos hT]
    exact .givenUp hc hT
  rw [if_neg hT]
  have hT := Nat.lt_of_not_le hT
  rcases hr : (resolve (w.siteContext t slot) request).run w with ⟨_ | site, w'⟩
  · exact .unresolved hc hT hr
  obtain ⟨plan, hit⟩ := Option.isSome_iff_exists.mp (isSome_cached?_of_resolve hr)
  have hserves : site.cached? (w'.installed t i (w.table t).runtime site) request = some plan := by
    rw [Site.cached?_installed]
    exact hit
  dsimp only
  rw [Update.run_get_bind, hserves]
  exact .installed hc hT hr hserves

/-- So the slot does the same whatever it would do then. -/
theorem planWith_again (hs : w.slot? t i = some slot) (hi : slot.header.index = i)
    (hm : slot.site.tag ≠ .megamorphic) (request : Request) (again again' : Update Decision) :
    (planWith t slot.header (w.siteContext t slot) request again).run w
      = (planWith t slot.header (w.siteContext t slot) request again').run w := by
  unfold planWith
  split
  · rfl
  rw [Update.run_bind, Update.run_bind]
  rcases hrun : (specialize t slot.header (w.siteContext t slot) request).run w with ⟨_ | site, w'⟩
  · rfl
  have hserves : (site.cached? w' request).isSome := by
    rw [run_specialize hs hi hm] at hrun
    split at hrun
    · cases hrun
    split at hrun
    · cases hrun
    rcases hr : (resolve (w.siteContext t slot) request).run w with ⟨_ | found, w₁⟩ <;>
      rw [hr] at hrun <;> cases hrun
    rw [Site.cached?_installed]
    exact isSome_cached?_of_resolve hr
  obtain ⟨plan, hit⟩ := Option.isSome_iff_exists.mp hserves
  dsimp only
  rw [Update.run_get_bind, Update.run_get_bind, hit]

/-- A plan from memory is what the occupant of the slot remembers from then on. -/
theorem Course.served {request : Request} {r : Decision × World} (h : Course w t i slot request r)
    (hs : w.slot? t i = some slot) (hm : r.1.origin = .memory) {served : Slot}
    (hs' : r.2.slot? t i = some served) : served.site.cached? r.2 request = some r.1.plan := by
  cases h with
  | hit hit =>
    obtain rfl : slot = served := Option.some.inj (hs.symm.trans hs')
    exact hit
  | onNull | uncached | givenUp | unresolved =>
    rw [run_lookedUp] at hm
    cases hm
  | @installed w' site plan hc hT hr hit =>
    have hbooks := books_resolve (w.siteContext t slot) request w
    rw [hr] at hbooks
    have htables : w'.tables = w.tables := congrArg Books.tables hbooks
    have hslot := slot?_updateSlot_self ((slot?_of_tables_eq htables t i).trans hs)
      fun s => { s with site, installs := s.installs + 1 }
    obtain rfl : _ = served := Option.some.inj (hslot.symm.trans hs')
    exact hit

/-- Every slot takes one of the courses. -/
theorem course_planAt (hs : w.slot? t i = some slot) (hi : slot.header.index = i)
    (request : Request) : Course w t i slot request ((planAt t slot request).run w) := by
  unfold planAt
  rw [Update.run_get_bind]
  dsimp only
  split
  · rename_i hm
    exact .uncached (Or.inl (by rw [hm]; rfl))
  · rename_i hm
    have hm : slot.site.tag ≠ .megamorphic := by
      intro htag
      refine hm ?_
      generalize slot.site = site at htag ⊢
      cases site with
      | method guard _ _ => cases guard <;> cases htag
      | property guard _ _ _ => cases guard <;> cases htag
      | megamorphic => rfl
      | _ => cases htag
    rcases hit : slot.site.cached? w request with _ | plan
    · dsimp only
      cases (w.runtime (w.siteContext t slot).runtime).config.threshold with
      | zero => exact course_planWith hs hi hm request _
      | succ n => exact course_planWith hs hi hm request _
    · exact .hit hit

end Courses

/-- What making one plan can do to the books. -/
inductive Posting (b : Books) (t : TableRef) (i : Nat) (slot : Slot) : Books → Prop
  | idle : Posting b t i slot b
  | slow : Posting b t i slot (b.count (b.table t).runtime Stats.slow)
  | givenUp (hon : (b.account (b.table t).runtime).config.cacheEnabled = true)
      (hm : slot.site.tag ≠ .megamorphic)
      (hT : (b.account (b.table t).runtime).config.threshold ≤ slot.installs) :
      Posting b t i slot ((b.write t i fun s => { s with site := .megamorphic }).count
        (b.table t).runtime fun s => s.givenUp.slow)
  | missed (hon : (b.account (b.table t).runtime).config.cacheEnabled = true) :
      Posting b t i slot (b.count (b.table t).runtime fun s => s.resolved.slow)
  | installed {site : Site} (hon : (b.account (b.table t).runtime).config.cacheEnabled = true)
      (hm : slot.site.tag ≠ .megamorphic)
      (hT : slot.installs < (b.account (b.table t).runtime).config.threshold)
      (hsite : site.tag.isSpecialized = true) :
      Posting b t i slot ((b.write t i fun s => { s with site, installs := s.installs + 1 }).count
        (b.table t).runtime fun s => s.resolved.installed)

/-- Resolution makes specialized sites only. -/
private theorem isSpecialized_of_resolve {c : Site.Context} {request : Request} {w₀ w : World}
    {site : Site} (h : (resolve c request).run w₀ = (some site, w)) :
    site.tag.isSpecialized = true := by
  obtain ⟨w₁, -, -, hres⟩ := resolved_of_resolve h
  cases hres with
  | @method _ _ _ _ _ guard | @property _ _ _ guard => cases guard <;> rfl
  | _ => rfl

/-- Others serve nothing. -/
theorem Site.isSpecialized_of_cached? {site : Site} {w : World} {request : Request} {plan : Plan}
    (h : site.cached? w request = some plan) : site.tag.isSpecialized = true := by
  cases site with
  | generic | null | megamorphic => cases request <;> cases h
  | method guard | property guard => cases guard <;> rfl
  | _ => rfl

private theorem books_installed (w : World) (t : TableRef) (i rt : Nat) (site : Site) :
    (w.installed t i rt site).books
      = (w.books.write t i fun s => { s with site, installs := s.installs + 1 }).count rt
          Stats.installed := books_updateStats ..

private theorem books_givenUp (w : World) (t : TableRef) (i rt : Nat) :
    (w.givenUp t i rt).books
      = (w.books.write t i fun s => { s with site := .megamorphic }).count rt Stats.givenUp :=
  books_updateStats ..

/-- A full lookup for a request that does not go to null is counted. -/
private theorem books_lookedUp {request : Request} (h : request.onNull = false) (c : Site.Context)
    (w : World) :
    ((lookedUp (planFully c request)).run w).2.books = w.books.count c.runtime Stats.slow := by
  rw [run_lookedUp]
  refine (books_planFully c request w).trans ?_
  cases request with
  | call current receiver args =>
    cases receiver with
    | null => cases h
    | _ => rfl
  | _ => rfl

theorem Course.posting {w : World} {t : TableRef} {i : Nat} {slot : Slot} {request : Request}
    {r : Decision × World} (h : Course w t i slot request r) :
    Posting w.books t i slot r.2.books := by
  have htable : w.books.table t = w.table t := rfl
  have hconfig : (w.books.account (w.books.table t).runtime).config
      = (w.runtime (w.table t).runtime).config := by rw [account_books, htable]
  cases h with
  | hit => exact .idle
  | onNull hnull =>
    have hbooks : ((lookedUp (planOnNull (w.siteContext t slot) request)).run w).2.books = w.books :=
      makes_planOnNull (allowsLookups_books _).toAllowsSearch hnull w
    rw [hbooks]
    exact .idle
  | uncached =>
    have hbooks : ((lookedUp (planFully (w.siteContext t slot) request)).run w).2.books = _ :=
      books_planFully (w.siteContext t slot) request w
    rw [hbooks]
    split
    · exact .idle
    · exact .slow
  | givenUp hc hT =>
    rw [books_lookedUp hc.notNull, books_givenUp]
    change Posting _ _ _ _ (Books.count (Books.count _ (w.table t).runtime _) (w.table t).runtime _)
    rw [Books.count_count]
    exact .givenUp (hconfig ▸ hc.enabled) hc.notMegamorphic (hconfig ▸ hT)
  | unresolved hc hT hr =>
    have hbooks := books_resolve (w.siteContext t slot) request w
    rw [hr] at hbooks
    rw [books_lookedUp hc.notNull, hbooks, Books.count_count]
    exact .missed (hconfig ▸ hc.enabled)
  | installed hc hT hr =>
    have hbooks := books_resolve (w.siteContext t slot) request w
    rw [hr] at hbooks
    dsimp only at hbooks ⊢
    rw [books_installed, hbooks, Books.write_count]
    change Posting _ _ _ _ (Books.count (Books.count _ (w.table t).runtime _) (w.table t).runtime _)
    rw [Books.count_count]
    exact .installed (hconfig ▸ hc.enabled) hc.notMegamorphic (hconfig ▸ hT) (isSpecialized_of_resolve hr)

/-- Whatever the course, no slot but this one is written. It keeps its header, and it comes to hold what it
held, or a megamorphic site, or the site that was resolved. -/
theorem Course.writes {w : World} {t : TableRef} {i : Nat} {slot : Slot} {request : Request}
    {r : Decision × World} (h : Course w t i slot request r) :
    ∃ f, r.2.tables = (w.updateSlot t i f).tables ∧ (∀ s, (f s).header = s.header)
      ∧ ∀ s, (f s).site = s.site ∨ (f s).site = .megamorphic
        ∨ ∃ w₁, (resolve (w.siteContext t slot) request).run w = (some (f s).site, w₁)
          ∧ r.2 = w₁.installed t i (w.table t).runtime (f s).site := by
  -- the tables are as before
  have hidle (w' : World) (ht : w'.tables = w.tables) :
      ∃ f, w'.tables = (w.updateSlot t i f).tables ∧ (∀ s, (f s).header = s.header)
        ∧ ∀ s, (f s).site = s.site ∨ (f s).site = .megamorphic
          ∨ ∃ w₁, (resolve (w.siteContext t slot) request).run w = (some (f s).site, w₁)
            ∧ w' = w₁.installed t i (w.table t).runtime (f s).site :=
    ⟨id, ht.trans (congrArg Books.tables (w.books.write_id t i)).symm, fun _ => rfl, fun _ => Or.inl rfl⟩
  have hlookup (w' : World) :
      ((lookedUp (planFully (w.siteContext t slot) request)).run w').2.tables = w'.tables :=
    (congrArg Books.tables (books_planFully (w.siteContext t slot) request w')).trans
      (by split <;> rfl)
  have hresolve := congrArg Books.tables (books_resolve (w.siteContext t slot) request w)
  cases h with
  | hit => exact hidle w rfl
  | onNull hnull =>
    have hbooks : ((planOnNull (w.siteContext t slot) request).run w).2.books = w.books :=
      makes_planOnNull (allowsLookups_books _).toAllowsSearch hnull w
    exact hidle _ (congrArg Books.tables hbooks)
  | uncached => exact hidle _ (hlookup w)
  | givenUp =>
    exact ⟨fun s => { s with site := .megamorphic }, hlookup _, fun _ => rfl,
      fun _ => Or.inr (Or.inl rfl)⟩
  | unresolved _ _ hr =>
    rw [hr] at hresolve
    exact hidle _ ((hlookup _).trans hresolve)
  | @installed w₁ site plan _ _ hr =>
    rw [hr] at hresolve
    refine ⟨fun s => { s with site, installs := s.installs + 1 }, ?_, fun _ => rfl,
      fun s => Or.inr (Or.inr ⟨w₁, hr, rfl⟩)⟩
    change (w₁.updateSlot t i _).tables = _
    unfold updateSlot
    rw [show w₁.tables = w.tables from hresolve]

theorem World.frame_resolve (c : Site.Context) (request : Request) (w : World) :
    ((resolve c request).run w).2.active = w.active
      ∧ ((resolve c request).run w).2.runtimes.size = w.runtimes.size := by
  let R (w w' : World) : Prop := w'.active = w.active ∧ w'.runtimes.size = w.runtimes.size
  have hR : AllowsSearch c.runtime R := by
    refine ⟨fun _ => ⟨rfl, rfl⟩, fun h₁ h₂ => ⟨h₂.1.trans h₁.1, h₂.2.trans h₁.2⟩, fun w t => ?_⟩
    exact ⟨(w.sameRest_findClass c.runtime t).active, w.runtimes_size_findClass c.runtime t⟩
  have hcount : R w (w.updateStats c.runtime Stats.resolved) := ⟨rfl, Array.size_modify⟩
  exact hR.trans hcount (makes_resolve hR request w)

/-- A plan for a request that does not go to null is remembered by the occupant or by the site that was
resolved for the request, or a full lookup made it. -/
theorem Course.source {w : World} {t : TableRef} {i : Nat} {slot : Slot} {request : Request}
    {r : Decision × World} (h : Course w t i slot request r) (hnull : request.onNull = false) :
    slot.site.cached? w request = some r.1.plan ∧ r.2 = w
      ∨ (∃ site w₁, (resolve (w.siteContext t slot) request).run w = (some site, w₁)
        ∧ r.2 = w₁.installed t i (w.table t).runtime site
        ∧ site.cached? r.2 request = some r.1.plan)
      ∨ ∃ w₁, (w₁ = w ∨ w₁.active = []) ∧ w₁.runtimes.size = w.runtimes.size
        ∧ (planFully (w.siteContext t slot) request).run w₁ = (r.1.plan, r.2) := by
  have hquiet (hc : Cacheable w t slot request) : w.active = [] := by
    simpa [hasActiveCategory] using hc.quiet
  cases h with
  | hit hit => exact Or.inl ⟨hit, rfl⟩
  | onNull h => cases hnull.symm.trans h
  | uncached => exact Or.inr (Or.inr ⟨w, Or.inl rfl, rfl, rfl⟩)
  | givenUp hc =>
    have hsize : (w.givenUp t i (w.table t).runtime).runtimes.size = w.runtimes.size :=
      Array.size_modify
    exact Or.inr (Or.inr ⟨w.givenUp t i (w.table t).runtime, Or.inr (hquiet hc), hsize, rfl⟩)
  | @unresolved w₁ hc _ hres =>
    obtain ⟨hact, hsize⟩ := frame_resolve (w.siteContext t slot) request w
    rw [hres] at hact hsize
    exact Or.inr (Or.inr ⟨w₁, Or.inr (hact.trans (hquiet hc)), hsize, rfl⟩)
  | installed _ _ hr hit => exact Or.inr (Or.inl ⟨_, _, hr, rfl, hit⟩)

end CachedDispatch
