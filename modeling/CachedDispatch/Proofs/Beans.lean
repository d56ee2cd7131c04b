import CachedDispatch.Proofs.Lines
import CachedDispatch.Proofs.NewObjects
import CachedDispatch.Proofs.Occupants
import CachedDispatch.Proofs.Retirement
import Mathlib.Data.List.Pairwise

/-!
Objects made from a map, of a class that has a default constructor and none that takes a map. Whatever
occupies the slot, the map is set on a new object, provided that the occupant does not serve from another
class of the same type. It never does while registries retire the classes that they displace. A definition
that takes the place of a class which the registry had been given leaves that class as it was, and then the
slot goes on making objects of it.
-/
namespace CachedDispatch

namespace World

variable {w w' : World}

/-- No registry puts another class in the place of one without giving that one a new version. -/
def Retires (w w' : World) : Prop :=
  ∀ rt t r, w.classFor? rt t = some r → w'.classFor? rt t = some r ∨ w.version r < w'.version r

/-- The worlds that sessions come to without ever leaving a displaced class as it was. -/
def FairlyAttained (w : World) : Prop :=
  ∃ config embedding,
    Relation.ReflTransGen (fun w w' => Deed w w' ∧ w.Retires w') (initial config embedding) w

/-- No registry has a class for the identity that it hands out next, nor for one of a draft. -/
private structure Unclaimed (w : World) : Prop where
  next : ∀ rt, w.classFor? rt (w.registry rt).next = none
  drafts : ∀ key d, Assoc.get? w.drafts key = some d → w.classFor? d.runtime d.id = none

/-- Only the place of the class that is registered is taken. -/
private theorem classFor?_register (rt : Nat) (r : ClassRef) {rt' : Nat} {t : TypeId} {q : ClassRef}
    (h : w.classFor? rt' t = some q) :
    (w.register rt r).classFor? rt' t = some q ∨ rt = rt' ∧ t = (w.cls r).id := by
  unfold classFor? at h ⊢
  rw [register, registry_updateRegistry_eq]
  split
  · rename_i hrt
    by_cases ht : t = (w.cls r).id
    · exact Or.inr ⟨hrt.1, ht⟩
    · exact Or.inl ((Assoc.get?_set_of_ne _ _ ht).trans h)
  · exact Or.inl h

private theorem retires_replaceClass (hc : w.Catalogued) (rt : Nat) (r : ClassRef) :
    w.Retires (w.replaceClass rt r).2 := by
  intro rt' t q hq
  have hentries (t : TypeId) :
      (w.replaceClass rt r).2.classFor? rt' t = (w.register rt r).classFor? rt' t := by
    simp only [replaceClass]
    split <;> rfl
  rcases classFor?_register rt r hq with hkept | ⟨rfl, rfl⟩
  · exact Or.inl ((hentries t).trans hkept)
  · exact Or.inr (version_lt_replaceClass hc hq)

private theorem classFor?_buildClass (d : Draft) (parent : Option ClassRef)
    (members : ClassMembers) {rt : Nat} {t : TypeId} {q : ClassRef} (hq : w.classFor? rt t = some q) :
    (w.buildClass d parent members).2.classFor? rt t = some q ∨ d.runtime = rt ∧ t = d.id := by
  let c := ClassMembers.toClass { members with name := d.name, isHost := d.isHost } d.id
    (parent.getD d.root :: (w.cls (parent.getD d.root)).ancestors)
  have hadded : (w.addClass c).2.classFor? rt t = some q := hq
  refine (classFor?_register d.runtime ⟨w.classes.size⟩ hadded).imp_right fun htaken => ?_
  rwa [cls_addClass, if_pos rfl, ClassMembers.id_toClass] at htaken

private theorem classFor?_beginClass {rt' : Nat} {t : TypeId} {q : ClassRef}
    (hq : w.classFor? rt' t = some q) (rt : Nat) (name : String) (isHost : Bool) :
    (w.beginClass rt name isHost).2.classFor? rt' t = some q :=
  (classFor?_handOut ..).trans ((w.materialises_rootClass rt .object).kept rt' t q hq)

private theorem retires_defineClass (hfree : w.Unclaimed) (rt : Nat) (parent : Option ClassRef)
    (members : ClassMembers) : w.Retires (w.defineClass rt parent members).2.2 := by
  intro rt' t q hq
  have hid : (w.beginClass rt members.name members.isHost).1.id = (w.registry rt).next :=
    (w.materialises_rootClass rt .object).next rt
  have hbegun := classFor?_beginClass hq rt members.name members.isHost
  rcases classFor?_buildClass (w.beginClass rt members.name members.isHost).1 parent members hbegun with
    hkept | ⟨hrt, ht⟩
  · exact Or.inl hkept
  · -- the place that is taken was free
    obtain rfl : rt = rt' := hrt
    rw [ht, hid, hfree.next rt] at hq
    cases hq

private theorem retires_finishClass (hfree : w.Unclaimed) {key : String} {d : Draft}
    (hd : Assoc.get? w.drafts key = some d) (parent : Option ClassRef) (members : ClassMembers) :
    w.Retires (w.finishClass key d parent members).2 := by
  intro rt t q hq
  rcases classFor?_buildClass d parent members hq with hkept | ⟨rfl, rfl⟩
  · exact Or.inl hkept
  · rw [hfree.drafts key d hd] at hq
    cases hq

private theorem kept_planAt {rt : Nat} {type : TypeId} {r : ClassRef} (h : w.classFor? rt type = some r)
    (t : TableRef) (slot : Slot) (request : Request) :
    ((planAt t slot request).run w).2.classFor? rt type = some r := by
  have hR : AllowsSlots fun w w' => w.classFor? rt type = some r → w'.classFor? rt type = some r := {
    lookups := fun rt' => {
      refl := fun _ h => h
      trans := fun h₁ h₂ h => h₂ (h₁ h)
      findClass := fun w t => (w.materialises_findClass rt' t).kept rt type r
      allocate := fun _ h => h }
    count := fun w rt' f h => by rwa [classFor?, registry_updateStats]
    write := fun _ _ _ _ h => h }
  exact makes_planAt hR t request slot w h

/-- A deed retires what it displaces where nothing has taken the identities of definitions to come. -/
private theorem Deed.retires (hd : Deed w w') (hc : w.Catalogued) (hfree : w.Unclaimed) :
    w.Retires w' := by
  cases hd with
  | findClass rt t => exact fun rt' t' r hr => Or.inl ((w.materialises_findClass rt t).kept rt' t' r hr)
  | replaceClass _ rt => exact retires_replaceClass hc rt _
  | defineClass rt parent members => exact retires_defineClass hfree rt parent members
  | draftClass key rt name isHost => exact fun _ _ _ hr => Or.inl (classFor?_beginClass hr rt name isHost)
  | finishClass hd parent members => exact retires_finishClass hfree hd parent members
  | newRuntime config =>
    intro rt t r hr
    refine Or.inl ?_
    unfold classFor? at hr ⊢
    rw [registry_newRuntime]
    split
    · rename_i hrt
      rw [registry_out_of_range w (hrt ▸ Nat.lt_irrefl _)] at hr
      cases hr
    · exact hr
  | plan => exact fun rt t r hr => Or.inl (kept_planAt hr ..)
  | _ => exact fun rt t r hr => Or.inl hr

private theorem FairlyAttained.attained (h : w.FairlyAttained) : w.Attained :=
  have ⟨config, embedding, hds⟩ := h
  ⟨config, embedding, Relation.ReflTransGen.mono (fun _ _ => And.left) _ _ hds⟩

private theorem FairlyAttained.deed (h : w.FairlyAttained) (hd : Deed w w') (hfree : w.Unclaimed) :
    w'.FairlyAttained :=
  have ⟨config, embedding, hds⟩ := h
  ⟨config, embedding, hds.tail ⟨hd, hd.retires h.attained.inOrder.toCatalogued hfree⟩⟩

private theorem Unclaimed.of_one (hsize : w.runtimes.size = 1) (hnone : w.drafts = [])
    (h : w.classFor? 0 (w.registry 0).next = none) : w.Unclaimed := by
  refine ⟨fun rt => ?_, fun key d hd => ?_⟩
  · by_cases hrt : rt < w.runtimes.size
    · obtain rfl : rt = 0 := by omega
      exact h
    · rw [classFor?, registry_out_of_range w hrt]
      rfl
  · rw [hnone] at hd
    cases hd

end World

open World

/-- An argument of a builtin type that is not wrapped is ranked by its type alone. -/
private theorem World.Attained.rankedByKey {w : World} (hw : w.Attained) (ha : w.Ample) {v : Value}
    (hv : v.isWrapper = false) (hb : (v.effectiveType w.lineage).isBuiltin = true) :
    v.RankedByKey w.lineage fun _ => [] := by
  intro target hobject htype hnull
  rw [hv]
  cases v with
  | wrapper => cases hv
  | object o =>
    have hnot : target ∉ w.lineage o := fun ht => by
      rcases hw.lineage_of_builtin ha hb ht with heq | heq
      · exact htype heq.symm
      · exact hobject heq
    exact List.idxOf?_eq_none_iff.mpr hnot
  | _ => rfl

/-- What the target of a site that makes objects of the type still says about the constructors of its
class: while the version stays, the method is the one for arguments of this shape, as far as their types
are builtin. -/
private structure Target.Recalls (w : World) (type : TypeId) (target : Target) : Prop where
  there : target.cls.idx < w.classes.size
  id : (w.cls target.cls).id = type
  version : target.version ≤ w.version target.cls
  found : w.version target.cls = target.version →
    (∀ k ∈ target.shape, k.wrapped = false ∧ k.type.isBuiltin = true) →
      pickByShape (fun _ => []) (w.cls target.cls).constructors target.shape = some target.method

private theorem Target.Recalls.deed {w w' : World} {type : TypeId} {target : Target}
    (h : target.Recalls w type) (hw : w.Attained) (hd : Deed w w') (hid : type.isBuiltin = false) :
    target.Recalls w' type := by
  have he := (hd.keeps hw.inOrder).2
  have hold := h.version
  obtain ⟨hle, hsame⟩ := hd.version_le hw h.there (hw.not_native h.there (h.id.symm ▸ hid))
  refine ⟨Nat.lt_of_lt_of_le h.there he.size, (he.id_eq h.there).trans h.id, Nat.le_trans hold hle,
    fun hv hk => ?_⟩
  rw [(hsame (by omega)).constructors]
  exact h.found (by omega) hk

private theorem World.Attained.recalls_make {w : World} (hw : w.Attained) (ha : w.Ample) {r : ClassRef}
    (hr : r.idx < w.classes.size) {m : Method} {args : List Value}
    (hm : pick w.lineage (w.cls r).constructors args = some m) :
    (Target.make w r m args).Recalls w (w.cls r).id := by
  refine ⟨hr, rfl, Nat.le_refl _, fun _ hk => (pick_eq_pickByShape (fun v hv => ?_) _).symm.trans hm⟩
  obtain ⟨hwrapped, hbuiltin⟩ := hk _ (List.mem_map_of_mem hv)
  rw [ShapeKey.of_wrapped] at hwrapped
  rw [ShapeKey.of_type] at hbuiltin
  exact hw.rankedByKey ha hwrapped hbuiltin

/-- The type that a site makes objects of, and what it remembers of it. -/
private def Site.maker? : Site → Option (TypeId × Target)
  | .constructor type target | .bean type target => some (type, target)
  | _ => none

section Makers

variable {w w₁ : World} {c : Site.Context} {request : Request} {site : Site} {type : TypeId}
  {target : Target}

/-- A site that was resolved remembers a constructor of the class that the registry has for the type. -/
private theorem maker_of_resolve (hrt : c.runtime < w.runtimes.size)
    (h : (resolve c request).run w = (some site, w₁)) (hsite : site.maker? = some (type, target)) :
    w₁.classFor? c.runtime type = some target.cls
      ∧ ∃ args, pick w₁.lineage (w₁.cls target.cls).constructors args = some target.method
        ∧ target = .make w₁ target.cls target.method args := by
  obtain ⟨w₀, -, hsize, hres⟩ := resolved_of_resolve h
  cases hres with
  | constructor hf hm | bean hf _ _ hm =>
    obtain ⟨rfl, rfl⟩ := Prod.mk.inj (Option.some.inj hsite)
    exact ⟨classFor?_of_findClass (hsize ▸ hrt) hf, _, hm, rfl⟩
  | _ => cases hsite

/-- A site that serves a construction is for its type, and for the version that its class has. -/
private theorem maker_of_cached? {args : List Value} {plan : Plan}
    (h : site.cached? w (.construct type args) = some plan) :
    ∃ target, site.maker? = some (type, target) ∧ site.cls? = some target.cls
      ∧ w.version target.cls = target.version := by
  cases Site.cached?_eq_some_iff.mp h with
  | construct hv | bean _ hv => exact ⟨_, rfl, rfl, hv.version⟩

end Makers

/-- The memory of the sites that make objects of defined types is true. -/
private theorem occupantFact_recalls : OccupantFact (fun w w' => Deed w w' ∧ w'.Ample) fun w _ site =>
    ∀ type target, site.maker? = some (type, target) → type.isBuiltin = false → target.Recalls w type where
  deed := fun hd => hd.1
  generic := fun _ _ _ _ hsite => by cases hsite
  megamorphic := fun _ _ _ _ hsite => by cases hsite
  later := fun hw hd h type target hsite hid => (h type target hsite hid).deed hw hd.1 hid
  installed := fun {w w₁ t i c request site} hw hd hrt _ hr type target hsite _ => by
    obtain ⟨hentry, args, hpick, hmake⟩ := maker_of_resolve hrt hr hsite
    have hentry' : (w₁.installed t i c.runtime site).classFor? c.runtime type = some target.cls := by
      rwa [classFor?, World.installed, registry_updateStats]
    have hw' := hw.deed hd.1
    obtain ⟨hlt, rfl⟩ := hw'.inOrder.entries _ _ _ hentry'
    rw [hmake]
    exact hw'.recalls_make hd.2 hlt hpick

/-- Where registries retire what they displace, a site of the current version is for the class that its
registry has. -/
private theorem occupantFact_seated :
    OccupantFact (fun w w' => (Deed w w' ∧ w.Retires w') ∧ w'.Ample) fun w c site =>
    ∀ type target, site.maker? = some (type, target) → type.isBuiltin = false →
      target.Recalls w type
        ∧ (w.version target.cls = target.version → w.classFor? c.runtime type = some target.cls) where
  deed := fun hd => hd.1.1
  generic := fun _ _ _ _ hsite => by cases hsite
  megamorphic := fun _ _ _ _ hsite => by cases hsite
  later := fun {w w' c site} hw hd h type target hsite hid => by
    obtain ⟨hrecalls, hseated⟩ := h type target hsite hid
    refine ⟨hrecalls.deed hw hd.1.1 hid, fun hv => ?_⟩
    -- the version has not moved, so the class was there and has not been displaced
    have hold := hrecalls.version
    have hdefined := hw.not_native hrecalls.there (hrecalls.id.symm ▸ hid)
    have hle := (hd.1.1.version_le hw hrecalls.there hdefined).1
    rcases hd.1.2 c.runtime type target.cls (hseated (by omega)) with hkept | hlt
    · exact hkept
    · omega
  installed := fun {w w₁ t i c request site} hw hd hrt ha hr type target hsite hid => by
    refine ⟨occupantFact_recalls.installed hw ⟨hd.1.1, hd.2⟩ hrt ha hr type target hsite hid, fun _ => ?_⟩
    rw [classFor?, World.installed, registry_updateStats]
    exact (maker_of_resolve hrt hr hsite).1

section Planning

variable {w : World} {t : TableRef} {i : Nat} {slot : Slot} {type : TypeId} {r : ClassRef}
  {m : Method} {n : Nat} {entries : List (String × Value)}

private theorem World.Attained.recalls (hw : w.Attained) (ha : w.Ample) (hs : w.slot? t i = some slot)
    {target : Target} (hsite : slot.site.maker? = some (type, target)) (hid : type.isBuiltin = false) :
    target.Recalls w type := by
  obtain ⟨config, embedding, hds⟩ := hw
  exact occupantFact_recalls.occupant (ample_all_along id hds ha) hs type target hsite hid

/-- In a world that was come to fairly no occupant serves from a class that was displaced. -/
private theorem World.FairlyAttained.cls_of_cached? (hw : w.FairlyAttained) (ha : w.Ample)
    (hs : w.slot? t i = some slot) (hr : w.classFor? (w.table t).runtime type = some r)
    (hid : type.isBuiltin = false)
    {args : List Value} {plan : Plan} (hit : slot.site.cached? w (.construct type args) = some plan) :
    slot.site.cls? = some r := by
  obtain ⟨config, embedding, hds⟩ := hw
  obtain ⟨target, hsite, hcls, hversion⟩ := maker_of_cached? hit
  have hseated :=
    (occupantFact_seated.occupant (ample_all_along And.left hds ha) hs type target hsite hid).2 hversion
  rw [hcls, ← hseated]
  exact hr

/-- The one constructor without parameters is picked when there are no arguments. -/
private theorem Class.Distinct.pick_nil {c : Class} (h : c.Distinct) (hm : m ∈ c.constructors)
    (hp : m.params = []) (lin : Lineage) : pick lin c.constructors [] = some m := by
  rcases hpick : pick lin c.constructors [] with _ | k
  · have hnone := pickBy_eq_none_iff.mp hpick m hm
    rw [Method.rank?, hp] at hnone
    cases hnone
  · obtain ⟨d, hrank, -⟩ := firstLeast_of_pickBy hpick
    have hk : k.params = [] := List.eq_nil_of_length_eq_zero (Method.rank?_eq_some_iff.mp hrank).1.1
    have hsymm : Std.Symm fun m n : Method => m.params ≠ n.params := ⟨fun _ _ hne => hne.symm⟩
    by_contra hne
    have hdiffer : m ≠ k := fun heq => hne (heq ▸ rfl)
    exact List.Pairwise.forall h hm (mem_of_pickBy hpick) hdiffer (hp.trans hk.symm)

/-- What an occupant of the class serves is the plan that makes the bean. -/
private theorem World.Attained.bean_of_cached? (hw : w.Attained) (ha : w.Ample)
    (hs : w.slot? t i = some slot) (hid : type.isBuiltin = false) (hcls : slot.site.cls? = some r)
    (hn : pick w.lineage (w.cls r).constructors [.map n entries] = none)
    (hm : pick w.lineage (w.cls r).constructors [] = some m) {plan : Plan}
    (hit : slot.site.cached? w (.construct type [.map n entries]) = some plan) :
    plan = .bean r m [] entries := by
  obtain ⟨target, hsite, hcls', hversion⟩ := maker_of_cached? hit
  have hrecalls := hw.recalls ha hs hsite hid
  obtain rfl : target.cls = r := Option.some.inj (hcls'.symm.trans hcls)
  -- both argument lists are ranked by their shapes
  have hfound {args : List Value} (hargs : ∀ v ∈ args, v = .map n entries)
      (hshape : target.shape = Shape.of w.lineage args) :
      pick w.lineage (w.cls target.cls).constructors args = some target.method := by
    have hranked : ∀ v ∈ args, v.RankedByKey w.lineage fun _ => [] := fun v hv => by
      rw [hargs v hv]
      exact hw.rankedByKey ha rfl rfl
    rw [pick_eq_pickByShape hranked, ← hshape]
    refine hrecalls.found hversion fun k hk => ?_
    rw [hshape] at hk
    obtain ⟨v, hv, rfl⟩ := List.mem_map.mp hk
    rw [hargs v hv]
    exact ⟨rfl, rfl⟩
  generalize slot.site = site at hit hsite
  cases Site.cached?_eq_some_iff.mp hit with
  | construct hv =>
    obtain ⟨-, rfl⟩ := Prod.mk.inj (Option.some.inj hsite)
    rw [hfound (fun v hv => List.mem_singleton.mp hv) hv.shape] at hn
    cases hn
  | bean hb hv =>
    obtain ⟨-, rfl⟩ := Prod.mk.inj (Option.some.inj hsite)
    obtain ⟨rfl, rfl⟩ := Prod.mk.inj (Option.some.inj hb)
    rw [hfound (fun v hv => by cases hv) hv.shape] at hm
    rw [prepare_nil, Option.some.inj hm]

/-- A full lookup comes to the same plan. -/
private theorem run_planFully_bean {c : Site.Context} (hr : w.classFor? c.runtime type = some r)
    (hn : pick w.lineage (w.cls r).constructors [.map n entries] = none)
    (hm : pick w.lineage (w.cls r).constructors [] = some m) :
    (lookedUp (planFully c (.construct type [.map n entries]))).run w
      = (⟨.lookup, .bean r m [] entries⟩, w.counted c.runtime) := by
  have hf : (w.counted c.runtime).findClass c.runtime type = (some r, w.counted c.runtime) := by
    refine findClass_of_entry ?_
    rw [World.counted, registry_updateStats]
    exact hr
  have hplan := run_planConstruct_bean hf hn rfl hm
  rw [prepare_nil] at hplan
  rw [run_lookedUp, planFully, hplan]

/-- And so does the site that resolution finds. -/
private theorem run_resolve_bean {c : Site.Context} (hquiet : w.hasActiveCategory = false)
    (hr : w.classFor? c.runtime type = some r)
    (hn : pick w.lineage (w.cls r).constructors [.map n entries] = none)
    (hm : pick w.lineage (w.cls r).constructors [] = some m) :
    ∃ w₁, (resolve c (.construct type [.map n entries])).run w
        = (some (.bean type (.make w₁ r m [])), w₁)
      ∧ w₁.classes = w.classes ∧ w₁.objects = w.objects := by
  let w₁ := w.updateStats c.runtime fun s => { s with resolutions := s.resolutions + 1 }
  have hf : w₁.findClass c.runtime type = (some r, w₁) := by
    refine findClass_of_entry ?_
    rw [registry_updateStats]
    exact hr
  have hn₁ : (w₁.hierarchy r).pickConstructor w₁.lineage [.map n entries] = none := hn
  have hm₁ : (w₁.hierarchy r).pickConstructor w₁.lineage [] = some m := hm
  have hquiet₁ : w₁.hasActiveCategory = false := hquiet
  refine ⟨w₁, ?_, rfl, rfl⟩
  rw [resolve, Update.run_modify_bind, Update.run_get_bind, hquiet₁, if_neg Bool.false_ne_true]
  rw [resolveConstruct, Update.run_modifyGet_bind, hf]
  dsimp only
  rw [Update.run_get_bind, hn₁]
  dsimp only [beanSplit?]
  rw [hm₁]
  rfl

/-- So every course comes to it, unless the occupant serves from another class. -/
private theorem World.Attained.planAt_bean (hw : w.Attained) (ha : w.Ample)
    (hs : w.slot? t i = some slot)
    (hid : type.isBuiltin = false) (hr : w.classFor? (w.table t).runtime type = some r)
    (hn : pick w.lineage (w.cls r).constructors [.map n entries] = none)
    (hm : pick w.lineage (w.cls r).constructors [] = some m)
    (hcls : ∀ plan, slot.site.cached? w (.construct type [.map n entries]) = some plan →
      slot.site.cls? = some r) :
    ∃ origin w₁, (planAt t slot (.construct type [.map n entries])).run w
        = (⟨origin, .bean r m [] entries⟩, w₁)
      ∧ w₁.classes = w.classes ∧ w₁.objects = w.objects := by
  have hi : slot.header.index = i := hw.visited.balanced.index t i slot hs
  have hcourse := course_planAt hs hi (.construct type [.map n entries])
  generalize (planAt t slot (.construct type [.map n entries])).run w = out at hcourse
  cases hcourse with
  | hit hit => exact ⟨.memory, w, by rw [hw.bean_of_cached? ha hs hid (hcls _ hit) hn hm hit], rfl, rfl⟩
  | onNull hnull => cases hnull
  | uncached => exact ⟨_, _, run_planFully_bean hr hn hm, rfl, rfl⟩
  | givenUp =>
    have hr' : (w.givenUp t i (w.table t).runtime).classFor? (w.table t).runtime type = some r := by
      rwa [classFor?, World.givenUp, registry_updateStats]
    exact ⟨_, _, run_planFully_bean hr' hn hm, rfl, rfl⟩
  | unresolved hc _ hnone =>
    obtain ⟨w₁, hsome, -⟩ := run_resolve_bean (c := w.siteContext t slot) hc.quiet hr hn hm
    cases (Prod.mk.inj (hsome.symm.trans hnone)).1
  | installed hc _ hsome hit =>
    obtain ⟨w₁, hresolve, hclasses, hobjects⟩ :=
      run_resolve_bean (c := w.siteContext t slot) hc.quiet hr hn hm
    obtain ⟨hsite, rfl⟩ := Prod.mk.inj (hresolve.symm.trans hsome)
    obtain rfl := Option.some.inj hsite
    cases Site.cached?_eq_some_iff.mp hit with
    | bean hb =>
      obtain ⟨rfl, rfl⟩ := Prod.mk.inj (Option.some.inj hb)
      exact ⟨.memory, w₁.installed t i _ _, by rw [prepare_nil]; rfl, hclasses, hobjects⟩

end Planning

namespace World.MakesBean

variable {w w' : World} {r : ClassRef} {entries : List (String × Value)}
  {outcome : Except Stop (Except Fault Value × World)}

private theorem congr (hc : w'.classes = w.classes) (ho : w'.objects = w.objects)
    (h : w'.MakesBean r entries outcome) : w.MakesBean r entries outcome := by
  cases w
  cases w'
  subst hc ho
  exact ⟨h.made, h.missing⟩

/-- A dispatch only adds to the history. -/
private theorem dispatch {run : Runner} {t : TableRef} {i : Nat} {request : Request}
    (h : w.MakesBean r entries
      ((serve run t i request).result.run (w.record (.asked t i request)))) :
    w.MakesBean r entries ((dispatch run t i request).result.run w) := by
  rw [result_dispatch]
  constructor
  · intro hkeys
    obtain ⟨w', fields, hout, hobjects, hfields⟩ := h.made hkeys
    rw [hout]
    exact ⟨_, fields, rfl, hobjects, hfields⟩
  · intro before name v after hentries hkeys hname hsetter hv
    obtain ⟨w', hout⟩ := h.missing before name v after hentries hkeys hname hsetter hv
    rw [hout]
    exact ⟨_, rfl⟩

end World.MakesBean

/-- Let a registry have a class for its type that was defined, with a default constructor and none that
takes the map. Whatever occupies a slot of the registry and however it comes to its plan, the map is set on
a new object of the class, if registries have retired what they displaced, or if at least the occupant
does not serve from another class. -/
theorem map_makes_bean {w : World} (hw : w.Attained) (ha : w.Ample) {t : TableRef} {i : Nat}
    {slot : Slot} (hs : w.slot? t i = some slot) {r : ClassRef}
    (hr : w.classFor? (w.table t).runtime (w.cls r).id = some r) (hkind : (w.cls r).kind = .dynamic)
    {run : Runner} {m : Method} (hm : m ∈ (w.cls r).constructors) (hdefault : m.IsDefault run)
    {n : Nat} {entries : List (String × Value)}
    (hnone : ∀ k ∈ (w.cls r).constructors, ¬ k.Accepts w.lineage [.map n entries])
    (hcls : w.FairlyAttained
      ∨ ∀ plan, slot.site.cached? w (.construct (w.cls r).id [.map n entries]) = some plan →
        slot.site.cls? = some r) :
    w.MakesBean r entries
      ((dispatch run t i (.construct (w.cls r).id [.map n entries])).result.run w) := by
  have hid : (w.cls r).id.isBuiltin = false :=
    (hw.setApart ha).classes r (hw.inOrder.entries _ _ r hr).1 fun hn => hn.1 hkind
  have hserves (plan : Plan)
      (hit : slot.site.cached? w (.construct (w.cls r).id [.map n entries]) = some plan) :
      slot.site.cls? = some r :=
    hcls.elim (fun hfair => hfair.cls_of_cached? ha hs hr hid hit) (fun h => h plan hit)
  have hn : pick w.lineage (w.cls r).constructors [.map n entries] = none := by
    refine pickBy_eq_none_iff.mpr fun k hk => Option.eq_none_iff_forall_ne_some.mpr fun d hd => ?_
    exact hnone k hk (Method.rank?_eq_some_iff.mp hd).1
  have hpick := (hw.distinct r).pick_nil hm hdefault.params w.lineage
  -- the request is on record when the slot comes to its plan
  let w₀ := w.record (.asked t i (.construct (w.cls r).id [.map n entries]))
  have hw₀ : w₀.Attained := hw.deed (.record w _)
  have hs₀ : w₀.slot? t i = some slot := hs
  obtain ⟨origin, w₁, hplan, hclasses, hobjects⟩ :=
    hw₀.planAt_bean (n := n) ha hs₀ hid hr hn hpick hserves
  refine MakesBean.dispatch ?_
  rw [result_serve hs₀ hplan]
  exact (hdefault.makesBean r entries _ origin w₁).congr hclasses hobjects

private theorem Code.idleFor_seq_nil (fuel : Nat) :
    (Code.script (.seq [])).IdleFor (.ofScripts (Script.evalBody (fuel + 1))) :=
  fun _ _ => ⟨.null, rfl⟩

private theorem Method.IsDefault.not_accepts {run : Runner} {m : Method} (hm : m.IsDefault run)
    (lin : Lineage) (v : Value) (args : List Value) : ¬ m.Accepts lin (v :: args) := by
  rintro ⟨harity, -⟩
  rw [Method.arity, hm.params] at harity
  cases harity

private theorem isDefault_defaultConstructor (declaring : TypeId) (fuel : Nat) :
    Method.IsDefault (.ofScripts (Script.evalBody (fuel + 1)))
      { Method.defaultConstructor with declaring } :=
  ⟨rfl, rfl, Code.idleFor_seq_nil fuel⟩

namespace Furnished

def request (entries : List (String × Value)) : Request := .construct ⟨64⟩ [.map 0 entries]

/-- A class with two fields, and a slot that makes objects. -/
def opened : World :=
  (((initial {}).defineClass 0 none
    { name := "A", fields := ["x", "y"], methods := [.defaultConstructor] }).2.2.addTable
      (.ofSites .object 0 [("<init>", .callConstructor)])).2

def world : World := opened.planned (request [("x", .int 1)])

private theorem fairlyAttained_world : world.FairlyAttained := by
  have hfirst : (initial {}).FairlyAttained := ⟨{}, {}, .refl⟩
  have hdefined := hfirst.deed (.defineClass _ 0 none
    { name := "A", fields := ["x", "y"], methods := [.defaultConstructor] }) (.of_one rfl rfl rfl)
  have hopened : opened.FairlyAttained :=
    hdefined.deed (.addTable (by decide) .object [("<init>", .callConstructor)]) (.of_one rfl rfl rfl)
  have hasked := hopened.deed (.record _ (.asked ⟨0⟩ 0 (request [("x", .int 1)]))) (.of_one rfl rfl rfl)
  rcases opened.deeds_planned (request [("x", .int 1)]) with heq | hd
  · exact (congrArg FairlyAttained heq).mpr hasked
  · exact hasked.deed hd (.of_one rfl rfl rfl)

private theorem constructors_world :
    (world.cls ⟨10⟩).constructors = [{ Method.defaultConstructor with declaring := ⟨64⟩ }] := rfl

end Furnished

/-- A filled slot makes beans: the last entry for a field counts, and a name without a field is missing. -/
theorem map_makes_bean_furnished : ∃ slot w' fields w'',
    Furnished.world.Ample ∧ Furnished.world.slot? ⟨0⟩ 0 = some slot ∧ slot.site.tag = .beanConstructor
      ∧ (dispatch (.ofScripts (Script.evalBody 1)) ⟨0⟩ 0
          (Furnished.request [("x", .int 1), ("x", .int 2)])).result.run Furnished.world
        = .ok (.ok (.object ⟨0⟩), w')
      ∧ w'.objects = #[⟨⟨10⟩, fields⟩]
      ∧ Assoc.get? fields "x" = some (.int 2) ∧ Assoc.get? fields "y" = some .null
      ∧ (dispatch (.ofScripts (Script.evalBody 1)) ⟨0⟩ 0
          (Furnished.request [("x", .int 1), ("z", .int 2)])).result.run Furnished.world
        = .ok (.error (.missingProperty "A" "z"), w'') := by
  have htag : (Furnished.world.slot? ⟨0⟩ 0).map (·.site.tag) = some .beanConstructor := by decide +kernel
  obtain ⟨slot, hs, hsite⟩ := Option.map_eq_some_iff.mp htag
  have hfair := Furnished.fairlyAttained_world
  have hample : Furnished.world.Ample := by decide +kernel
  have hdefault := isDefault_defaultConstructor ⟨64⟩ 0
  have hmem : { Method.defaultConstructor with declaring := ⟨64⟩ }
      ∈ (Furnished.world.cls ⟨10⟩).constructors := by
    rw [Furnished.constructors_world]
    exact List.mem_singleton_self _
  have hnone (entries : List (String × Value)) : ∀ k ∈ (Furnished.world.cls ⟨10⟩).constructors,
      ¬ k.Accepts Furnished.world.lineage [.map 0 entries] := by
    rw [Furnished.constructors_world]
    intro k hk
    obtain rfl := List.mem_singleton.mp hk
    exact hdefault.not_accepts _ _ _
  have hbean (entries : List (String × Value)) := map_makes_bean hfair.attained hample hs (by decide +kernel)
    (by decide +kernel) hmem hdefault (hnone entries) (Or.inl hfair)
  have hfields : (Furnished.world.hierarchy ⟨10⟩).declaredFields = ["x", "y"] := by decide +kernel
  obtain ⟨w', fields, hmade, hobjects, hget⟩ := (hbean [("x", .int 1), ("x", .int 2)]).made
    (by rw [hfields]; decide)
  obtain ⟨w'', hmissing⟩ := (hbean [("x", .int 1), ("z", .int 2)]).missing [("x", .int 1)] "z" (.int 2) []
    rfl (by rw [hfields]; decide) (by rw [hfields]; decide)
    (Hierarchy.pickMethod_eq_none_iff.mp rfl) (fun o ho => by cases ho)
  rw [hfields] at hget
  exact ⟨slot, w', fields, w'', hample, hs, hsite, hmade, hobjects, hget "x", hget "y", hmissing⟩

namespace Usurped

/-- The second runtime has been given the class of the first, and has a slot that makes objects. -/
def given : World :=
  let w := ((initial {}).defineClass 0 none
    { name := "A", fields := ["x"], methods := [.defaultConstructor] }).2.2
  let w := ((w.newRuntime {}).2.replaceClass 1 ⟨10⟩).2
  (w.addTable (.ofSites .object 1 [("<init>", .callConstructor)])).2

/-- The slot has come to a plan for that class, and then the runtime defines one of the same identity. -/
def world : World :=
  ((given.planned (Furnished.request [("x", .int 1)])).defineClass 1 none
    { name := "B", fields := ["y"], methods := [.defaultConstructor] }).2.2

private theorem attained_world : world.Attained := by
  have hfirst : (initial {}).Attained := ⟨{}, {}, .refl⟩
  have hdefined := hfirst.deed (.defineClass _ 0 none
    { name := "A", fields := ["x"], methods := [.defaultConstructor] })
  have hreplaced := (hdefined.deed (.newRuntime _ {})).deed (.replaceClass (r := ⟨10⟩) (by decide) 1)
  have hgiven : given.Attained :=
    hreplaced.deed (.addTable (by decide) .object [("<init>", .callConstructor)])
  have hasked := hgiven.deed (.record _ (.asked ⟨0⟩ 0 (Furnished.request [("x", .int 1)])))
  have hplanned : (given.planned (Furnished.request [("x", .int 1)])).Attained := by
    rcases given.deeds_planned (Furnished.request [("x", .int 1)]) with heq | hd
    · exact (congrArg Attained heq).mpr hasked
    · exact hasked.deed hd
  exact hplanned.deed (.defineClass _ 1 none
    { name := "B", fields := ["y"], methods := [.defaultConstructor] })

private theorem constructors_world :
    (world.cls ⟨21⟩).constructors = [{ Method.defaultConstructor with declaring := ⟨64⟩ }] := rfl

end Usurped

/-- The registry has the class `B` with the field `y` and nothing but a default constructor, and yet the
slot finds that `y` is missing from the class that `B` has displaced. -/
theorem displaced_class_makes_bean :
    Usurped.world.Attained ∧ Usurped.world.Ample ∧ (Usurped.world.slot? ⟨0⟩ 0).isSome = true
      ∧ Usurped.world.classFor? (Usurped.world.table ⟨0⟩).runtime (Usurped.world.cls ⟨21⟩).id = some ⟨21⟩
      ∧ (Usurped.world.cls ⟨21⟩).name = "B" ∧ (Usurped.world.cls ⟨21⟩).kind = .dynamic
      ∧ (∃ m ∈ (Usurped.world.cls ⟨21⟩).constructors, m.IsDefault (.ofScripts (Script.evalBody 1)))
      ∧ (∀ k ∈ (Usurped.world.cls ⟨21⟩).constructors,
          ¬ k.Accepts Usurped.world.lineage [.map 0 [("y", .int 2)]])
      ∧ (Usurped.world.hierarchy ⟨21⟩).declaredFields = ["y"]
      ∧ ∃ w', (dispatch (.ofScripts (Script.evalBody 1)) ⟨0⟩ 0
          (.construct (Usurped.world.cls ⟨21⟩).id [.map 0 [("y", .int 2)]])).result.run Usurped.world
        = .ok (.error (.missingProperty "A" "y"), w') := by
  have hdefault := isDefault_defaultConstructor ⟨64⟩ 0
  refine ⟨Usurped.attained_world, by decide +kernel, by decide +kernel, by decide +kernel, by decide +kernel,
    by decide +kernel, ?_, ?_, by decide +kernel, _, rfl⟩
  · rw [Usurped.constructors_world]
    exact ⟨_, List.mem_singleton_self _, hdefault⟩
  · rw [Usurped.constructors_world]
    intro k hk
    obtain rfl := List.mem_singleton.mp hk
    exact hdefault.not_accepts _ _ _

end CachedDispatch
