import CachedDispatch.Proofs.Visits

/-!
Encapsulation. What a slot remembers was seen by the lookup for the kind of request that it serves,
so a method that only its declaring type may see is run on behalf of that type, or on an object of
exactly that type by a call on the current object.
-/
namespace CachedDispatch

open World

/-- Everybody may see the method, or it is the type's own. -/
def Method.OpenTo (m : Method) (t : TypeId) : Prop := m.visibility = .everyone ∨ m.declaring = t

/-- The plan runs a method that has the property, or a hook, or nothing. -/
def Plan.Runs (P : Method → Prop) : Plan → Prop
  | .invoke m _ _ => P m
  | .hook .. | .fail _ => True
  | _ => False

private theorem Plan.Runs.imp {P Q : Method → Prop} {plan : Plan} (h : plan.Runs P)
    (hPQ : ∀ m, P m → Q m) : plan.Runs Q := by
  cases plan with
  | invoke m receiver args => exact hPQ m h
  | _ => exact h

/-- The class of the value declares the method. -/
def World.Declares (w : World) (rt : Nat) (v : Value) (m : Method) : Prop :=
  ∃ r, (w.classOf rt v).1 = some r ∧ m.declaring = (w.cls r).id

/-- Host objects are of types that were defined for them. -/
def Request.HostDefined (request : Request) : Prop :=
  ∀ alloc type label, request.receiver? = some (.host alloc type label) → type.isBuiltin = false

def World.HostsDefined (w : World) : Prop :=
  ∀ t i request, .asked t i request ∈ w.history → request.HostDefined

section Selected

variable {h : Hierarchy} {lin : Lineage} {name : String} {args : List Value} {l : Lookup} {m : Method}
  {owner : TypeId} {current : Bool}

private theorem Hierarchy.openTo_of_pickMethod (hm : h.pickMethod lin name args l = some m) :
    m.OpenTo l.sender ∨ l.current = some m.declaring := by
  obtain ⟨c, -, hmem⟩ := List.mem_flatMap.mp (mem_of_pickBy hm)
  have hsees := (List.mem_filter.mp hmem).2
  simpa only [Lookup.sees, Bool.or_eq_true, decide_eq_true_eq, Method.OpenTo] using hsees

private theorem Hierarchy.openTo_of_pickForCall
    (hm : h.pickForCall lin owner current name args = some m) :
    m.OpenTo owner ∨ current = true ∧ m.declaring = h.id := by
  unfold Hierarchy.pickForCall at hm
  cases current with
  | false => exact Or.inl ((openTo_of_pickMethod hm).resolve_right nofun)
  | true =>
    have hown {l : Lookup} (hs : l.sender = owner) (hc : l.current = some h.id)
        (hm : h.pickMethod lin name args l = some m) :
        m.OpenTo owner ∨ true = true ∧ m.declaring = h.id := by
      rcases openTo_of_pickMethod hm with hopen | hdecl
      · exact Or.inl (hs ▸ hopen)
      · exact Or.inr ⟨rfl, Option.some.inj (hdecl.symm.trans hc)⟩
    rcases Option.or_eq_some_iff.mp hm with hm | ⟨-, hm⟩
    · exact hown rfl rfl hm
    · exact hown rfl rfl hm

/-- A class that has methods is there. -/
private theorem World.lt_size_of_pickForCall {w : World} {r : ClassRef}
    (hm : (w.hierarchy r).pickForCall lin owner current name args = some m) :
    r.idx < w.classes.size := by
  by_contra hout
  have hcls : w.cls r = default := by simp [World.cls, Array.getD, hout]
  have hnone (l : Lookup) : (w.hierarchy r).pickMethod lin name args l = none := by
    have hempty : (w.hierarchy r).candidates name l = [] := by
      have hnone (statics : Bool) : (default : Class).overloads statics name = [] := by
        cases statics <;> rfl
      have ha : (default : Class).ancestors = [] := rfl
      simp [Hierarchy.candidates, Hierarchy.classes, World.hierarchy, hcls, hnone, ha]
    rw [Hierarchy.pickMethod, hempty]
    rfl
  simp [Hierarchy.pickForCall, hnone] at hm

end Selected

/-- Whatever world it starts in, what the computation gives has the property. -/
private def Update.Gives {α : Type} (P : α → Prop) (u : Update α) : Prop := ∀ w : World, P (u.run w).1

namespace Update.Gives

variable {α β : Type} {P : α → Prop}

private theorem pure {a : α} (h : P a) : Update.Gives P (Pure.pure a : Update α) := fun _ => h

private theorem bind (u : Update β) {f : β → Update α} (hf : ∀ b, Update.Gives P (f b)) :
    Update.Gives P (u >>= f) := fun w => hf _ (u.run w).2

private theorem look {k : World → Update α} (hk : ∀ w, Update.Gives P (k w)) :
    Update.Gives P (get >>= k) :=
  fun w => hk w w

end Update.Gives

section Lookup

variable {w w' : World} {c : Site.Context}

private theorem runs_planStatic (c : Site.Context) (t : TypeId) (args : List Value) :
    Update.Gives (Plan.Runs (·.OpenTo c.owner)) (planStatic c t args) := by
  refine .bind _ fun _ => .bind _ fun found => ?_
  cases found with
  | error f => exact .pure trivial
  | ok r =>
    refine .look fun w => ?_
    dsimp only
    split
    · rename_i m hm
      exact .pure ((Hierarchy.openTo_of_pickMethod hm).resolve_right nofun)
    · exact .pure trivial

private theorem runs_planMissingMethod (c : Site.Context) (cls : ClassRef) (receiver : Value)
    (args : List Value) :
    Update.Gives (Plan.Runs (·.OpenTo c.owner)) (planMissingMethod c cls receiver args) := by
  refine .bind _ fun alloc => .look fun w => ?_
  dsimp only
  split
  · rename_i m hm
    exact .pure ((Hierarchy.openTo_of_pickMethod hm).resolve_right nofun)
  · exact .pure trivial

/-- The class that was found for a value is the value's own from then on. -/
private theorem World.classOf_of_classOf {rt : Nat} {v : Value} {r : ClassRef}
    (hrt : rt < w.runtimes.size) (h : w.classOf rt v = (some r, w')) :
    (w'.classOf rt v).1 = some r := by
  rcases classOf_cases v with ⟨o, rfl⟩ | ⟨t, -, hof⟩
  · cases h
    rfl
  · rw [hof] at h ⊢
    rw [findClass_of_entry (classFor?_of_findClass hrt h)]

private theorem runs_planInstanceCall (hrt : c.runtime < w.runtimes.size) {current : Bool}
    {receiver : Value} {args : List Value} {plan : Plan}
    (h : (planInstanceCall c current receiver args).run w = (plan, w')) :
    plan.Runs fun m => m.OpenTo c.owner
      ∨ Category.findActive? w.lineage w.active receiver c.name args = some m
      ∨ current = true ∧ w'.Declares c.runtime receiver m := by
  have hrt : c.runtime < (w.updateStats c.runtime Stats.slow).runtimes.size := by
    simpa [World.updateStats] using hrt
  unfold planInstanceCall at h
  rw [recordSlowPath, Update.run_modify_bind, Update.run_get_bind] at h
  change StateT.run _ (w.updateStats c.runtime Stats.slow) = _ at h
  split at h
  · rename_i m hm
    cases h
    exact Or.inr (Or.inl hm)
  · generalize w.updateStats c.runtime Stats.slow = w₀ at h hrt
    rcases hcls : w₀.classOf c.runtime receiver with ⟨_ | r, w₁⟩
    · rw [Update.run_bind, classOrFault, Update.run_modifyGet_bind, hcls] at h
      cases h
      trivial
    rw [run_classOrFault_bind hcls, Update.run_get_bind] at h
    dsimp only at h
    split at h
    · cases h
      trivial
    split at h
    · rename_i m hm
      cases h
      refine (Hierarchy.openTo_of_pickForCall hm).imp_right fun hown => Or.inr ⟨hown.1, r, ?_, hown.2⟩
      exact classOf_of_classOf hrt hcls
    · have hmissing := runs_planMissingMethod c r receiver (unwrapArgs args) w₁
      rw [h] at hmissing
      exact hmissing.imp fun m => Or.inl

end Lookup

/-- The site may serve the method that it remembers on behalf of the owner. What only the type of the
current object may see is for the objects of that class, or the values of that type. -/
private def Site.Sealed (w : World) (owner : TypeId) (rt : Nat) : Site → Prop
  | .method (.literalOf _) target _ => target.method.OpenTo owner
  | .method (.instanceOf r) target current =>
    target.method.OpenTo owner
      ∨ current = true ∧ r.idx < w.classes.size ∧ target.method.declaring = (w.cls r).id
  | .method (.valueOf t) target current =>
    t ≠ .classLiteral ∧ (target.method.OpenTo owner
      ∨ current = true ∧ (w.classFor? rt t).isSome ∧ target.method.declaring = t)
  | _ => True

section Sealed

variable {w w' : World} {owner : TypeId} {rt : Nat}

private theorem Site.Sealed.endures {site : Site} (h : site.Sealed w owner rt) (he : w.Endures w') :
    site.Sealed w' owner rt := by
  cases site with
  | method guard target current =>
    cases guard with
    | literalOf t => exact h
    | instanceOf r =>
      refine Or.imp_right (fun ⟨hc, hr, hd⟩ => ⟨hc, Nat.lt_of_lt_of_le hr he.size, ?_⟩) h
      exact hd.trans (he.id_eq hr).symm
    | valueOf t => exact ⟨h.1, h.2.imp_right fun ⟨hc, hs, hd⟩ => ⟨hc, he.entries rt t hs, hd⟩⟩
  | _ => trivial

/-- A value that is no object gets a site for its type. -/
private theorem sealed_of_guardFor {w₀ : World} {c : Site.Context} {v : Value} {r : ClassRef}
    {guard : Guard} {m : Method} {current : Bool} {args : List Value} (hcat : w.Catalogued)
    (hrt : c.runtime < w.runtimes.size)
    (hcls : ∀ w : World, w.classOf c.runtime v = w.findClass c.runtime (v.typeId w.lineage))
    (hlit : v.typeId w₀.lineage ≠ .classLiteral)
    (hg : (guardFor c.runtime (.other v)).run w₀ = (some (r, guard), w))
    (hm : m.OpenTo c.owner ∨ current = true ∧ m.declaring = (w.cls r).id) :
    (Site.method guard (.make w r m args) current).Sealed w c.owner c.runtime := by
  rw [guardFor, Update.run_get_bind, Update.run_modifyGet_bind, hcls] at hg
  rcases hf : w₀.findClass c.runtime (v.typeId w₀.lineage) with ⟨_ | q, w₁⟩ <;> rw [hf] at hg <;>
    cases hg
  have hrt₀ : c.runtime < w₀.runtimes.size := by
    rw [← w₀.runtimes_size_findClass c.runtime (v.typeId w₀.lineage), hf]
    exact hrt
  have hentry := classFor?_of_findClass hrt₀ hf
  refine ⟨hlit, hm.imp_right fun hcur => ⟨hcur.1, ?_, ?_⟩⟩
  · rw [hentry]
    rfl
  · exact hcur.2.trans (hcat.entries _ _ _ hentry).2

/-- Resolution makes sealed sites. -/
private theorem sealed_of_resolve {w₀ : World} {c : Site.Context} {request : Request} {site : Site}
    (hcat : w.Catalogued) (hrt : c.runtime < w.runtimes.size) (hh : request.HostDefined)
    (h : (resolve c request).run w₀ = (some site, w)) : site.Sealed w c.owner c.runtime := by
  obtain ⟨w₁, -, -, hres⟩ := resolved_of_resolve h
  cases hres with
  | literal _ hm | static _ hm => exact (Hierarchy.openTo_of_pickMethod hm).resolve_right nofun
  | @method receiver _ _ _ _ _ _ hrc hne hg _ hm =>
    have hown := Hierarchy.openTo_of_pickForCall hm
    cases receiver with
    | null => cases hrc
    | classLiteral t =>
      cases hrc
      exact absurd rfl (hne t)
    | object o =>
      cases hrc
      rw [guardFor, Update.run_get_bind] at hg
      cases hg
      exact hown.imp_right fun hcur => ⟨hcur.1, lt_size_of_pickForCall hm, hcur.2⟩
    | host alloc type label =>
      cases hrc
      have hlit : type ≠ .classLiteral := by
        rintro rfl
        cases hh alloc _ label rfl
      refine sealed_of_guardFor hcat hrt (fun _ => rfl) ?_ hg hown
      exact hlit
    | _ =>
      cases hrc
      refine sealed_of_guardFor hcat hrt (fun _ => rfl) ?_ hg hown
      intro hlit
      cases congrArg TypeId.val hlit
  | _ => trivial

section Served

variable {guard : Guard} {target : Target} {current : Bool}

private theorem openTo_of_admits_literal
    (hs : (Site.method guard target current).Sealed w owner rt) {t : TypeId}
    (ha : guard.admits w (.classLiteral t) = true) : target.method.OpenTo owner := by
  cases guard with
  | literalOf u => exact hs
  | instanceOf r => cases ha
  | valueOf u => exact absurd (of_decide_eq_true ha).symm hs.1

private theorem openTo_of_admits_value (hcat : w.Catalogued)
    (hs : (Site.method guard target current).Sealed w owner rt) {v : Value}
    (hv : ∀ t, v ≠ .classLiteral t) (ha : guard.admits w v = true) :
    target.method.OpenTo owner ∨ current = true ∧ w.Declares rt v target.method := by
  cases guard with
  | literalOf t =>
    cases v with
    | classLiteral u => exact absurd rfl (hv u)
    | _ => cases ha
  | instanceOf r =>
    cases v with
    | object o =>
      obtain rfl : w.classOfObject o = r := of_decide_eq_true ha
      exact Or.imp_right (fun ⟨hc, _, hd⟩ => ⟨hc, _, rfl, hd⟩) hs
    | _ => cases ha
  | valueOf t =>
    have hfound (hsome : (w.classFor? rt t).isSome) (hd : target.method.declaring = t) :
        ∃ r, (w.findClass rt t).1 = some r ∧ target.method.declaring = (w.cls r).id := by
      obtain ⟨r, hr⟩ := Option.isSome_iff_exists.mp hsome
      exact ⟨r, by rw [findClass_of_entry hr], hd.trans (hcat.entries rt t r hr).2.symm⟩
    have hcls : (w.classOf rt v) = w.findClass rt t := by
      cases v with
      | object o => cases ha
      | _ => exact congrArg (w.findClass rt) (of_decide_eq_true ha)
    refine hs.2.imp_right fun ⟨hc, hsome, hd⟩ => ⟨hc, ?_⟩
    unfold World.Declares
    rw [hcls]
    exact hfound hsome hd

end Served

private theorem Site.Sealed.runs_static {site : Site} (hs : site.Sealed w owner rt) {t : TypeId}
    {args : List Value} {plan : Plan} (h : site.cached? w (.static t args) = some plan) :
    plan.Runs (·.OpenTo owner) := by
  cases cached?_eq_some_iff.mp h with
  | static ha => exact openTo_of_admits_literal hs ha

private theorem Site.Sealed.runs_literal {site : Site} (hs : site.Sealed w owner rt) {current : Bool}
    {t : TypeId} {args : List Value} {plan : Plan}
    (h : site.cached? w (.call current (.classLiteral t) args) = some plan) :
    plan.Runs (·.OpenTo owner) := by
  cases cached?_eq_some_iff.mp h with
  | call ha => exact openTo_of_admits_literal hs ha

private theorem Site.Sealed.runs_call {site : Site} (hs : site.Sealed w owner rt) (hcat : w.Catalogued)
    {current : Bool} {v : Value} (hv : ∀ t, v ≠ .classLiteral t) {args : List Value} {plan : Plan}
    (h : site.cached? w (.call current v args) = some plan) :
    plan.Runs fun m => m.OpenTo owner ∨ current = true ∧ w.Declares rt v m := by
  cases cached?_eq_some_iff.mp h with
  | call ha => exact openTo_of_admits_value hcat hs hv ha

end Sealed

section Sessions

variable {w w' : World}

/-- Every slot holds a site that is sealed for its table. -/
private def World.Sealed (w : World) : Prop :=
  ∀ t i slot, w.slot? t i = some slot →
    slot.site.Sealed w (w.table t).owner (w.table t).runtime

private theorem World.Sealed.of_tables_eq (hs : w.Sealed) (ht : w'.tables = w.tables)
    (he : w.Endures w') : w'.Sealed := by
  intro t i slot hslot
  rw [table_of_tables_eq ht]
  exact (hs t i slot ((slot?_of_tables_eq ht t i).symm.trans hslot)).endures he

private theorem World.Sealed.addTable (hs : w.Sealed) (owner : TypeId) (rt : Nat)
    (sites : List (String × SiteKind)) (he : w.Endures (w.addTable (.ofSites owner rt sites)).2) :
    (w.addTable (.ofSites owner rt sites)).2.Sealed := by
  intro t i slot hslot
  have htable := w.table_addTable (.ofSites owner rt sites) t
  by_cases hnew : t.idx = w.tables.size
  · rw [slot?, htable, if_pos hnew, slots_ofSites] at hslot
    obtain ⟨site, -, rfl⟩ := Option.map_eq_some_iff.mp hslot
    trivial
  · rw [if_neg hnew] at htable
    rw [slot?, htable] at hslot
    rw [htable]
    exact (hs t i slot hslot).endures he

private theorem World.Sealed.plan (hv : w.Visited) (h : w.InOrder) (hs : w.Sealed) {t : TableRef}
    {i : Nat} {slot : Slot} {request : Request} (hslot : w.slot? t i = some slot)
    (hh : request.HostDefined) : ((planAt t slot request).run w).2.Sealed := by
  obtain ⟨hcat', he⟩ := h.planAt t slot request
  have hi : slot.header.index = i := hv.balanced.index t i slot hslot
  obtain ⟨f, htables, -, hf⟩ := (course_planAt hslot hi request).writes
  generalize ((planAt t slot request).run w).2 = w' at hcat' he htables hf
  intro u j s hs'
  rw [table_of_tables_eq htables, owner_updateSlot, runtime_updateSlot]
  rcases slot?_updateSlot ((slot?_of_tables_eq htables u j).symm.trans hs') with
    hold | ⟨rfl, rfl, s₀, hs₀, rfl⟩
  · exact (hs u j s hold).endures he
  rcases hf s₀ with hsite | hsite | ⟨w₁, hr, rfl⟩
  · rw [hsite]
    exact (hs t i s₀ hs₀).endures he
  · rw [hsite]
    trivial
  · -- what was resolved is sealed, and the write leaves classes and registries alone
    have hsize : (w₁.installed t i (w.table t).runtime (f s₀).site).runtimes.size
        = w₁.runtimes.size := Array.size_modify
    have hreg (rt : Nat) : (w₁.installed t i (w.table t).runtime (f s₀).site).registry rt
        = w₁.registry rt := registry_updateStats ..
    have hcat₁ : w₁.Catalogued := hcat'.of_eq rfl hsize.symm fun rt => (hreg rt).symm
    have hrt : (w.table t).runtime < w₁.runtimes.size :=
      Nat.lt_of_lt_of_le (hv.slot_mem hslot).1 (hsize ▸ he.runtimes)
    have hsealed := sealed_of_resolve (c := w.siteContext t slot) hcat₁ hrt hh hr
    exact hsealed.endures (.of_eq rfl hsize hreg)

private theorem World.Deed.sealed (hd : Deed w w') (hw : w.Attained) (hh : w.HostsDefined)
    (hs : w.Sealed) : w'.Sealed := by
  have he := (hd.keeps hw.inOrder).2
  cases hd with
  | findClass rt t => exact hs.of_tables_eq (w.sameRest_findClass rt t).tables he
  | replaceClass _ rt => exact hs.of_tables_eq (w.sameRest_replaceClass rt _).tables he
  | defineClass rt parent members =>
    exact hs.of_tables_eq (w.sameRest_defineClass rt parent members).tables he
  | draftClass key rt name isHost =>
    exact hs.of_tables_eq (w.sameRest_draftClass key rt name isHost).tables he
  | finishClass _ parent members =>
    exact hs.of_tables_eq (w.sameRest_finishClass _ _ parent members).tables he
  | addTable _ owner sites => exact hs.addTable owner _ sites he
  | plan hslot ha => exact hs.plan hw.visited hw.inOrder hslot (hh _ _ _ ha)
  | _ => exact hs.of_tables_eq rfl he

/-- Every slot of every world that sessions come to is sealed. -/
private theorem World.Attained.sealed (hw : w.Attained) (hh : w.HostsDefined) : w.Sealed := by
  obtain ⟨config, embedding, hds⟩ := hw
  induction hds with
  | refl => exact fun t i slot hslot => by cases hslot
  | tail hds hd ih =>
    have hbefore : World.HostsDefined _ := fun t i request ha =>
      hh t i request (hd.history_suffix.subset ha)
    exact hd.sealed ⟨config, embedding, hds⟩ hbefore (ih hbefore)

/-- A plan for a request that does not go to null comes from a sealed site or from a full lookup. -/
private theorem World.Attained.plan_cases (hw : w.Attained) (hh : w.HostsDefined) {t : TableRef}
    {i : Nat} {slot : Slot} {request : Request} (hslot : w.slot? t i = some slot)
    (ha : .asked t i request ∈ w.history) (hnull : request.onNull = false) {d : Decision}
    (hp : (planAt t slot request).run w = (d, w')) :
    (∃ site : Site, site.Sealed w' (w.table t).owner (w.table t).runtime
        ∧ site.cached? w' request = some d.plan)
      ∨ ∃ w₁, (w₁ = w ∨ w₁.active = []) ∧ (w.table t).runtime < w₁.runtimes.size
        ∧ (planFully (w.siteContext t slot) request).run w₁ = (d.plan, w') := by
  have hi : slot.header.index = i := hw.visited.balanced.index t i slot hslot
  have hrt := (hw.visited.slot_mem hslot).1
  have hcourse := course_planAt hslot hi request
  have hsealed : ((planAt t slot request).run w).2.Sealed := by
    refine (hw.deed (.plan hslot ha)).sealed fun t' i' request' ha' => hh t' i' request' ?_
    rwa [(sameStage_planAt t slot request w).history] at ha'
  rw [hp] at hcourse hsealed
  -- the occupant of the slot remembers the plan
  have hmemory (hm : d.origin = .memory) :
      ∃ site : Site, site.Sealed w' (w.table t).owner (w.table t).runtime
        ∧ site.cached? w' request = some d.plan := by
    obtain ⟨f, htables, -⟩ := hcourse.writes
    have hserved : w'.slot? t i = some (f slot) :=
      (slot?_of_tables_eq htables t i).trans (slot?_updateSlot_self hslot f)
    have hsite := hsealed t i _ hserved
    rw [table_of_tables_eq htables, owner_updateSlot, runtime_updateSlot] at hsite
    exact ⟨(f slot).site, hsite, hcourse.served hslot hm hserved⟩
  have hlookup (w₁ : World) (hact : w₁ = w ∨ w₁.active = [])
      (hsize : w₁.runtimes.size = w.runtimes.size)
      (hr : (d, w') = (lookedUp (planFully (w.siteContext t slot) request)).run w₁) :
      ∃ w₁, (w₁ = w ∨ w₁.active = []) ∧ (w.table t).runtime < w₁.runtimes.size
        ∧ (planFully (w.siteContext t slot) request).run w₁ = (d.plan, w') := by
    cases hr
    exact ⟨w₁, hact, hsize ▸ hrt, rfl⟩
  have hquiet (hc : Cacheable w t slot request) : w.active = [] := by
    simpa [hasActiveCategory] using hc.quiet
  generalize hr : (d, w') = r at hcourse
  cases hcourse with
  | hit =>
    cases hr
    exact Or.inl (hmemory rfl)
  | onNull h => cases hnull.symm.trans h
  | uncached => exact Or.inr (hlookup w (Or.inl rfl) rfl hr)
  | givenUp hc =>
    have hsize : (w.givenUp t i (w.table t).runtime).runtimes.size = w.runtimes.size :=
      Array.size_modify
    exact Or.inr (hlookup (w.givenUp t i (w.table t).runtime) (Or.inr (hquiet hc)) hsize hr)
  | unresolved hc _ hres =>
    obtain ⟨hact, hsize⟩ := frame_resolve (w.siteContext t slot) request w
    rw [hres] at hact hsize
    exact Or.inr (hlookup _ (Or.inr (hact.trans (hquiet hc))) hsize hr)
  | installed =>
    cases hr
    exact Or.inl (hmemory rfl)

end Sessions

/-- Whatever occupies the slot, a call on a class and a static call run a method that everybody or the
table's owner may see. So does a call on a value, except that on the current object it may run what the
value's own class declares. Only a category in force adds methods of its own. -/
theorem dispatch_respects_visibility {w : World} (hw : w.Attained) (hh : w.HostsDefined) {t : TableRef}
    {i : Nat} {slot : Slot} {request : Request} (hr : request.HostDefined)
    (hs : w.slot? t i = some slot) {d : Decision} {w' : World}
    (hp : (planAt t slot request).run (w.record (.asked t i request)) = (d, w')) :
    (∀ type args, request = .static type args → d.plan.Runs (·.OpenTo (w.table t).owner))
    ∧ (∀ current type args, request = .call current (.classLiteral type) args →
      d.plan.Runs (·.OpenTo (w.table t).owner))
    ∧ ∀ current receiver args, request = .call current receiver args → receiver ≠ .null →
      (∀ type, receiver ≠ .classLiteral type) →
        d.plan.Runs fun m => m.OpenTo (w.table t).owner
          ∨ Category.findActive? w.lineage w.active receiver slot.name args = some m
          ∨ current = true ∧ w'.Declares (w.table t).runtime receiver m := by
  have hw := hw.deed (.record w (.asked t i request))
  have hh : (w.record (.asked t i request)).HostsDefined := by
    intro t' i' request' ha
    rcases List.mem_cons.mp ha with heq | ha
    · cases heq
      exact hr
    · exact hh t' i' request' ha
  have hcat : w'.Catalogued := by
    have hkept := (hw.deed (.plan hs List.mem_cons_self)).inOrder
    rw [hp] at hkept
    exact hkept.toCatalogued
  have hcases (hnull : request.onNull = false) := hw.plan_cases hh hs List.mem_cons_self hnull hp
  have hstatic {type : TypeId} {args : List Value} {w₁ : World}
      (h : (planStatic (w.siteContext t slot) type args).run w₁ = (d.plan, w')) :
      d.plan.Runs (·.OpenTo (w.table t).owner) := by
    have hruns := runs_planStatic (w.siteContext t slot) type args w₁
    rwa [h] at hruns
  refine ⟨?_, ?_, ?_⟩
  · rintro type args rfl
    rcases hcases rfl with ⟨site, hsealed, hhit⟩ | ⟨w₁, -, -, hrun⟩
    · exact hsealed.runs_static hhit
    · exact hstatic hrun
  · rintro current type args rfl
    rcases hcases rfl with ⟨site, hsealed, hhit⟩ | ⟨w₁, -, -, hrun⟩
    · exact hsealed.runs_literal hhit
    · exact hstatic hrun
  · rintro current receiver args rfl hnull hlit
    have hcall : (Request.call current receiver args).onNull = false
        ∧ planFully (w.siteContext t slot) (.call current receiver args)
          = planInstanceCall (w.siteContext t slot) current receiver args := by
      cases receiver with
      | null => exact absurd rfl hnull
      | classLiteral type => exact absurd rfl (hlit type)
      | _ => exact ⟨rfl, rfl⟩
    rcases hcases hcall.1 with ⟨site, hsealed, hhit⟩ | ⟨w₁, hw₁, hrt, hrun⟩
    · exact (hsealed.runs_call hcat hlit hhit).imp fun m hm => hm.imp_right Or.inr
    · have hrun : (planInstanceCall (w.siteContext t slot) current receiver args).run w₁
          = (d.plan, w') := hcall.2 ▸ hrun
      refine (runs_planInstanceCall hrt hrun).imp fun m hm => hm.imp_right fun hm => ?_
      rcases hw₁ with rfl | hquiet
      · exact hm
      · rw [hquiet] at hm
        exact Or.inr (hm.resolve_left nofun)

/-- A session that calls the private method `m` of an object as if on the current object, through a
table of another type. -/
def Script.intimate : List Script.Step := [
  .defineClass ⟨⟨"A", none, [], [], [
    { name := "m", params := [], isPrivate := true, body := .const (.int 1) }], none⟩, "A", false⟩,
  .defineClass ⟨⟨"B", none, [], [], [], none⟩, "B", false⟩,
  .newObject (.named "A") "a",
  .newTable "t" (.named "B") [("m", .call)],
  .call "t" 0 .callCurrent (.stored "a") [] none]

private def Plan.method? : Plan → Option Method
  | .invoke m _ _ => some m
  | _ => none

private theorem Plan.eq_invoke_of_method? {plan : Plan} {m : Method} (h : plan.method? = some m) :
    ∃ receiver args, plan = .invoke m receiver args := by
  cases plan with
  | invoke m receiver args =>
    cases h
    exact ⟨receiver, args, rfl⟩
  | _ => cases h

/-- No host object is asked. -/
def Event.isHostless : Event → Bool
  | .asked _ _ request => request.receiver?.all fun
    | .host .. => false
    | _ => true
  | _ => true

theorem hostsDefined_of_hostless {w : World} (h : w.history.all Event.isHostless = true) :
    w.HostsDefined := by
  intro t i request ha alloc type label hr
  have hcheck := List.all_eq_true.mp h _ ha
  rw [Event.isHostless, hr] at hcheck
  cases hcheck

/-- The call on the object of the session, planned for its one slot. -/
def planIntimate (w : World) (slot : Slot) (current : Bool) : Decision × World :=
  (planAt ⟨0⟩ slot (.call current (.object ⟨0⟩) [])).run
    (w.record (.asked ⟨0⟩ 0 (.call current (.object ⟨0⟩) [])))

/-- Whether the slot serves the call on the current object from memory with a method that the table's
owner may not see, and a plain call gets none. -/
private def intimateServes : Option Bool :=
  match (Script.performSteps 8 Script.intimate).run (initial {}) with
  | .ok (_, w) => (w.slot? ⟨0⟩ 0).map fun slot : Slot =>
      let d := (planIntimate w slot true).1
      decide (d.origin = .memory ∧ w.active = []) && w.history.all Event.isHostless
        && (planIntimate w slot false).1.plan.method?.isNone
        && d.plan.method?.any fun m =>
          decide (m.visibility ≠ .everyone ∧ m.declaring ≠ (w.table ⟨0⟩).owner)
  | .error _ => none

/-- The slot remembers the private method for calls on the current object, and the class of the object
declares it. A plain call through the same slot does not get it. -/
theorem dispatch_respects_visibility_intimate : ∃ replies w slot m receiver args w',
    (Script.performSteps 8 Script.intimate).run (initial {}) = .ok (replies, w)
      ∧ w.slot? ⟨0⟩ 0 = some slot
      ∧ planIntimate w slot true = (⟨.memory, .invoke m receiver args⟩, w')
      ∧ ¬ m.OpenTo (w.table ⟨0⟩).owner
      ∧ w'.Declares (w.table ⟨0⟩).runtime (.object ⟨0⟩) m
      ∧ ∀ m receiver args, (planIntimate w slot false).1.plan ≠ .invoke m receiver args := by
  have hcheck : intimateServes = some true := by decide +kernel
  unfold intimateServes at hcheck
  rcases hrun : (Script.performSteps 8 Script.intimate).run (initial {}) with
    stop | ⟨replies, w⟩ <;> rw [hrun] at hcheck
  · cases hcheck
  · obtain ⟨slot, hs, hslot⟩ := Option.map_eq_some_iff.mp hcheck
    rcases hp : planIntimate w slot true with ⟨⟨origin, plan⟩, w'⟩
    simp only [hp, Bool.and_eq_true, decide_eq_true_eq] at hslot
    obtain ⟨⟨⟨⟨rfl, hquiet⟩, hhosts⟩, hplain⟩, hany⟩ := hslot
    obtain ⟨m, hm, hclosed⟩ := (Option.any_eq_true _ _).mp hany
    obtain ⟨receiver, args, rfl⟩ := Plan.eq_invoke_of_method? hm
    have hclosed : ¬ m.OpenTo (w.table ⟨0⟩).owner := not_or.mpr (of_decide_eq_true hclosed)
    have hhost : (Request.call true (.object ⟨0⟩) []).HostDefined := nofun
    have hruns := (dispatch_respects_visibility (attained_of_session hrun)
      (hostsDefined_of_hostless hhosts) hhost hs hp).2.2 true (.object ⟨0⟩) []
      rfl nofun nofun
    rw [hquiet] at hruns
    refine ⟨replies, w, slot, m, receiver, args, w', rfl, hs, hp, hclosed, ?_, fun m _ _ hd => ?_⟩
    · exact ((hruns.resolve_left hclosed).resolve_left nofun).2
    · rw [hd] at hplain
      cases hplain

end CachedDispatch
