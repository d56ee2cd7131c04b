import CachedDispatch.Proofs.SiteMemory

/-!
Resolution makes faithful sites, so every slot of every world that a run comes to holds one.
-/
namespace CachedDispatch

section Resolve

variable {c : Site.Context} {t : TypeId} {args : List Value} {current : Bool} {receiver : Value}
  {w₀ w : World} {site : Site}

private theorem resolveStatic_some
    (h : (resolveStatic c t args current).run w₀ = (some site, w)) :
    ∃ r m, w₀.findClass c.runtime t = (some r, w)
      ∧ (Query.static c.owner c.name).select w.lineage (w.hierarchy r) args = some m
      ∧ site = .method (.literalOf t) (.make w r m args) current := by
  simp only [resolveStatic, Update.run_modifyGet_bind] at h
  rcases hf : w₀.findClass c.runtime t with ⟨_ | r, w₁⟩ <;> rw [hf] at h
  · cases h
  simp only [Update.run_get_bind] at h
  rcases hm : (w₁.hierarchy r).pickMethod w₁.lineage c.name args (.staticsFor c.owner) with _ | m <;>
    rw [hm] at h <;> cases h
  exact ⟨r, m, rfl, hm, rfl⟩

private theorem resolveCall_some
    (h : (resolveCall c current receiver args).run w₀ = (some site, w)) :
    (∃ t, receiver = .classLiteral t ∧ (resolveStatic c t args current).run w₀ = (some site, w))
      ∨ ∃ rc r guard m, ReceiverClass.of? receiver = some rc ∧ (∀ t, rc ≠ .literal t)
        ∧ (guardFor c.runtime rc).run w₀ = (some (r, guard), w) ∧ (w.cls r).hook = none
        ∧ (Query.call c.owner current c.name).select w.lineage (w.hierarchy r) args = some m
        ∧ site = .method guard (.make w r m args) current := by
  unfold resolveCall at h
  split at h
  · cases h
  · rename_i t hrc
    refine Or.inl ⟨t, ?_, h⟩
    cases receiver <;> simp_all [ReceiverClass.of?]
  rename_i rc hne hrc
  right
  simp only [Update.run_bind] at h
  rcases hg : (guardFor c.runtime rc).run w₀ with ⟨_ | ⟨r, guard⟩, w₁⟩ <;> rw [hg] at h
  · cases h
  simp only [Update.run_get_bind] at h
  rcases hk : (w₁.hierarchy r).own.hook with _ | body <;> rw [hk] at h
  · rcases hm : (w₁.hierarchy r).pickForCall w₁.lineage c.owner current c.name args with _ | m <;>
      rw [hm] at h <;> cases h
    exact ⟨rc, r, guard, m, hrc, hne, hg, hk, hm, rfl⟩
  · cases h

private theorem resolveConstruct_some
    (h : (resolveConstruct c t args).run w₀ = (some site, w)) :
    ∃ r, w₀.findClass c.runtime t = (some r, w) ∧
      ((∃ m, Query.constructor.select w.lineage (w.hierarchy r) args = some m
          ∧ site = .constructor t (.make w r m args))
        ∨ ∃ positional entries m, beanSplit? args = some (positional, entries)
          ∧ (w.hierarchy r).pickConstructor w.lineage args = none
          ∧ (w.hierarchy r).pickConstructor w.lineage positional = some m
          ∧ site = .bean t (.make w r m positional)) := by
  simp only [resolveConstruct, Update.run_modifyGet_bind] at h
  rcases hf : w₀.findClass c.runtime t with ⟨_ | r, w₁⟩ <;> rw [hf] at h
  · cases h
  simp only [Update.run_get_bind] at h
  rcases hm : (w₁.hierarchy r).pickConstructor w₁.lineage args with _ | m <;> rw [hm] at h
  · rcases hb : beanSplit? args with _ | ⟨positional, entries⟩ <;> rw [hb] at h
    · cases h
    · simp only at h
      rcases hp : (w₁.hierarchy r).pickConstructor w₁.lineage positional with _ | m <;>
        rw [hp] at h <;> cases h
      exact ⟨r, rfl, Or.inr ⟨positional, entries, m, rfl, hm, hp, rfl⟩⟩
  · cases h
    exact ⟨r, rfl, Or.inl ⟨m, hm, rfl⟩⟩

private theorem resolveProperty_some
    (h : (resolveProperty c receiver).run w₀ = (some site, w)) :
    ∃ rc r guard access, ReceiverClass.of? receiver = some rc
      ∧ (guardFor c.runtime rc).run w₀ = (some (r, guard), w)
      ∧ accessFor w r c.name receiver guard = some access
      ∧ site = .property guard r (w.version r) access := by
  unfold resolveProperty at h
  split at h
  · cases h
  rename_i rc hrc
  simp only [Update.run_bind] at h
  rcases hg : (guardFor c.runtime rc).run w₀ with ⟨_ | ⟨r, guard⟩, w₁⟩ <;> rw [hg] at h
  · cases h
  simp only [Update.run_get_bind] at h
  rcases ha : accessFor w₁ r c.name receiver guard with _ | access <;> rw [ha] at h <;> cases h
  exact ⟨rc, r, guard, access, hrc, hg, ha, rfl⟩

end Resolve

/-- The sites that resolution can find for a request, and how. -/
inductive Resolved (c : Site.Context) (w₀ w : World) : Request → Site → Prop
  | literal {t : TypeId} {args : List Value} {current : Bool} {r : ClassRef} {m : Method}
      (hf : w₀.findClass c.runtime t = (some r, w))
      (hm : (Query.static c.owner c.name).select w.lineage (w.hierarchy r) args = some m) :
      Resolved c w₀ w (.call current (.classLiteral t) args)
        (.method (.literalOf t) (.make w r m args) current)
  | static {t : TypeId} {args : List Value} {r : ClassRef} {m : Method}
      (hf : w₀.findClass c.runtime t = (some r, w))
      (hm : (Query.static c.owner c.name).select w.lineage (w.hierarchy r) args = some m) :
      Resolved c w₀ w (.static t args) (.method (.literalOf t) (.make w r m args) false)
  | method {receiver : Value} {args : List Value} {current : Bool} {rc : ReceiverClass} {r : ClassRef}
      {guard : Guard} {m : Method} (hrc : ReceiverClass.of? receiver = some rc)
      (hne : ∀ t, rc ≠ .literal t) (hg : (guardFor c.runtime rc).run w₀ = (some (r, guard), w))
      (hk : (w.cls r).hook = none)
      (hm : (Query.call c.owner current c.name).select w.lineage (w.hierarchy r) args = some m) :
      Resolved c w₀ w (.call current receiver args) (.method guard (.make w r m args) current)
  | constructor {t : TypeId} {args : List Value} {r : ClassRef} {m : Method}
      (hf : w₀.findClass c.runtime t = (some r, w))
      (hm : Query.constructor.select w.lineage (w.hierarchy r) args = some m) :
      Resolved c w₀ w (.construct t args) (.constructor t (.make w r m args))
  | bean {t : TypeId} {args positional : List Value} {entries : List (String × Value)} {r : ClassRef}
      {m : Method} (hf : w₀.findClass c.runtime t = (some r, w))
      (hb : beanSplit? args = some (positional, entries))
      (hn : (w.hierarchy r).pickConstructor w.lineage args = none)
      (hm : (w.hierarchy r).pickConstructor w.lineage positional = some m) :
      Resolved c w₀ w (.construct t args) (.bean t (.make w r m positional))
  | property {receiver : Value} {rc : ReceiverClass} {r : ClassRef} {guard : Guard} {access : Access}
      (hrc : ReceiverClass.of? receiver = some rc)
      (hg : (guardFor c.runtime rc).run w₀ = (some (r, guard), w))
      (hacc : accessFor w r c.name receiver guard = some access) :
      Resolved c w₀ w (.property receiver) (.property guard r (w.version r) access)

/-- It finds nothing while a category is in force. -/
theorem resolved_of_resolve {c : Site.Context} {request : Request} {w₀ w : World} {site : Site}
    (h : (resolve c request).run w₀ = (some site, w)) :
    ∃ w₁, w₁.hasActiveCategory = false ∧ w₁.runtimes.size = w₀.runtimes.size
      ∧ Resolved c w₁ w request site := by
  simp only [resolve, Update.run_modify_bind, Update.run_get_bind] at h
  split at h
  · cases h
  rename_i hact
  refine ⟨w₀.updateStats c.runtime _, Bool.eq_false_iff.mpr hact, Array.size_modify, ?_⟩
  cases request with
  | call current receiver args =>
    rcases resolveCall_some h with ⟨t, rfl, hs⟩ | ⟨rc, r, guard, m, hrc, hne, hg, hk, hm, rfl⟩
    · obtain ⟨r, m, hf, hm, rfl⟩ := resolveStatic_some hs
      exact .literal hf hm
    · exact .method hrc hne hg hk hm
  | static t args =>
    obtain ⟨r, m, hf, hm, rfl⟩ := resolveStatic_some h
    exact .static hf hm
  | construct t args =>
    obtain ⟨r, hf, ⟨m, hm, rfl⟩ | ⟨positional, entries, m, hb, hn, hm, rfl⟩⟩ := resolveConstruct_some h
    · exact .constructor hf hm
    · exact .bean hf hb hn hm
  | property receiver =>
    obtain ⟨rc, r, guard, access, hrc, hg, hacc, rfl⟩ := resolveProperty_some h
    exact .property hrc hg hacc

/-- A class that was looked up stands for its type from then on. -/
theorem standsFor_findClass {w₀ w : World} {t : TypeId} {r : ClassRef}
    (h : w₀.findClass 0 t = (some r, w)) (hs : w.runtimes.size = 1) : w.StandsFor t r := by
  have hs₀ : w₀.runtimes.size = 1 := by
    rw [← w₀.runtimes_size_findClass 0 t, h]
    exact hs
  have henter (v : World) (b : BuiltinType) (rs : List ClassRef) (hv : v.runtimes.size = 1) :
      (v.enterBuiltin 0 b rs).2.StandsFor b.id (v.enterBuiltin 0 b rs).1 := by
    have hreg : (v.enterBuiltin 0 b rs).2.registry 0 = (v.registry 0).enterBuiltin b :=
      World.registry_updateRegistry (v.updateClass _ _) _ hv
    unfold World.StandsFor
    rw [hreg]
    exact Assoc.get?_set_self _ _ _
  cases World.found_of_findClass h with
  | entered hr => exact hr
  | @root b ht =>
    subst ht
    exact henter w₀ b [] hs₀
  | @below b ht =>
    subst ht
    exact henter _ b _ ((w₀.runtimes_size_rootClass 0 .object).trans hs₀)

section Faithful

variable {w₀ w : World}

/-- A target made of what a lookup selects is remembered truthfully. -/
private theorem remembers_make (ht : w.Tame) (ho : w.Orderly) (hh : w.Housed) {q : Query}
    {r : ClassRef} (hr : w.Placed r) {request : Request} (ha : w.Asked request) {args : List Value}
    (hsub : ∀ v ∈ args, v ∈ request.args)
    (hl : ∀ v ∈ request.args, ShapeKey.of w.lineage v ∈ Shape.of w.lineage args →
      v.HidesLine w.lineage) {m : Method}
    (hm : q.select w.lineage (w.hierarchy r) args = some m) :
    (Target.make w r m args).Remembers w q := by
  have hhost (v : Value) (hv : v ∈ args) : w.HostTyped v :=
    ht.hosts request ha v (Request.mem_values_of_arg (hsub v hv))
  refine ⟨hr, Nat.le_refl _, ?_, ?_, fun _ => ?_⟩
  · intro k hk hw
    obtain ⟨v, hv, rfl⟩ := List.mem_map.mp hk
    exact World.known_of_asked hh ha (hsub v hv) hw
  · refine selectTier_fits m fun o hv _ h => ?_
    obtain ⟨n, hn⟩ := World.exists_int_of_typeId ht ho hh (hhost _ hv) h
    cases hn
  · refine (Query.select_eq_find (fun v hv => ?_) ?_ _ q).symm.trans hm
    · exact World.rankedByKey ht ho hh (hhost v hv) (hl v (hsub v hv) (List.mem_map_of_mem hv))
    · exact World.rankedByKey ht ho hh trivial trivial

private theorem guardFor_some (ho : w.Orderly) (hh : w.Housed) {receiver : Value}
    (hv : w.HostTyped receiver) {rc : ReceiverClass} (hrc : ReceiverClass.of? receiver = some rc)
    {r : ClassRef} {guard : Guard} (h : (guardFor 0 rc).run w₀ = (some (r, guard), w)) :
    guard.Pins w r ∧ w.Placed r ∧ (∀ t, guard = .literalOf t → rc = .literal t)
      ∧ ∀ name, accessFor w r name receiver guard = guard.access w r name := by
  cases rc with
  | literal t =>
    simp only [guardFor, Update.run_modifyGet_bind] at h
    rcases hf : w₀.findClass 0 t with ⟨_ | q, w₁⟩ <;> rw [hf] at h <;> cases h
    have hstands := standsFor_findClass hf ho.single
    exact ⟨hstands, (ho.entries t r hstands).1, fun _ h => by cases h; rfl, fun _ => rfl⟩
  | object o =>
    simp only [guardFor, Update.run_get_bind] at h
    cases h
    exact ⟨rfl, hh.objects o, nofun, fun _ => rfl⟩
  | other v =>
    obtain ⟨rfl, hno⟩ : receiver = v ∧ ∀ o, v ≠ .object o := by
      cases receiver <;> cases hrc <;> exact ⟨rfl, fun _ h => by cases h⟩
    have hclass : w₀.classOf 0 receiver = w₀.findClass 0 (receiver.typeId w₀.lineage) := by
      obtain ⟨t, ht, hof⟩ := (World.classOf_cases receiver).resolve_left fun ⟨o, ho⟩ => hno o ho
      rw [hof, ht]
    simp only [guardFor, Update.run_get_bind, Update.run_modifyGet_bind, hclass] at h
    rcases hf : w₀.findClass 0 (receiver.typeId w₀.lineage) with ⟨_ | q, w₁⟩ <;>
      rw [hf] at h <;> cases h
    have hstands := standsFor_findClass hf ho.single
    refine ⟨?_, (ho.entries _ r hstands).1, nofun, ?_⟩
    · refine ⟨hstands, ?_⟩
      cases receiver with
      | null | classLiteral | object => cases hrc
      | host n t label =>
        have hne := World.ne_builtin_of_hostTyped hv
        exact ⟨hne .nullObject, hne .classLiteral⟩
      | _ => exact ⟨nofun, nofun⟩
    · intro name
      cases receiver with
      | null | classLiteral | object => cases hrc
      | map => rfl
      | host n t label =>
        exact (if_neg (World.ne_builtin_of_hostTyped hv .map)).symm
      | _ => rfl

theorem eq_append_of_beanSplit? {args positional : List Value} {entries : List (String × Value)}
    (h : beanSplit? args = some (positional, entries)) :
    ∃ n, args = positional ++ [.map n entries] := by
  unfold beanSplit? at h
  split at h <;> cases h
  · exact ⟨_, rfl⟩
  · exact ⟨_, rfl⟩

/-- A bean is looked up only when no constructor takes the map. -/
private theorem select_bean {lin : Lineage} {h : Hierarchy} {args positional : List Value}
    {entries : List (String × Value)} (hb : beanSplit? args = some (positional, entries))
    (hn : h.pickConstructor lin args = none) :
    Query.bean.select lin h positional = h.pickConstructor lin positional := by
  obtain ⟨n, rfl⟩ := eq_append_of_beanSplit? hb
  have hnone : (h.pickConstructor lin (positional ++ [.map 0 []])).isSome = false := by
    rw [Hierarchy.pickConstructor, pick_append_map] at hn
    rw [Hierarchy.pickConstructor, hn]
    rfl
  simp [Query.select, hnone]

/-- Resolution makes faithful sites. -/
private theorem faithful_of_resolve (ht : w.Tame) (ho : w.Orderly) (hh : w.Housed)
    {c : Site.Context} (hc : c.runtime = 0) {request : Request} (ha : w.Asked request) {site : Site}
    (hl : ∀ target ∈ site.target?, ∀ v ∈ request.args, ShapeKey.of w.lineage v ∈ target.shape →
      v.HidesLine w.lineage)
    (h : (resolve c request).run w₀ = (some site, w)) : site.Faithful w c := by
  obtain ⟨w₁, -, -, hres⟩ := resolved_of_resolve h
  have hfound {t : TypeId} {r : ClassRef} (hf : w₁.findClass c.runtime t = (some r, w)) :
      w.StandsFor t r ∧ w.Placed r := by
    rw [hc] at hf
    have hstands := standsFor_findClass hf ho.single
    exact ⟨hstands, (ho.entries t r hstands).1⟩
  cases hres with
  | literal hf hm | static hf hm =>
    obtain ⟨hstands, hr⟩ := hfound hf
    exact ⟨hstands, remembers_make ht ho hh hr ha (fun _ hv => hv) (hl _ rfl) hm,
      fun hn => absurd rfl (hn _)⟩
  | @method receiver args current rc r guard m hrc hne hg hk hm =>
    rw [hc] at hg
    obtain ⟨hpins, hr, hlit, -⟩ := guardFor_some ho hh (ht.hosts _ ha receiver (by simp [Request.values,
      Request.receiver?])) hrc hg
    have hq : guard.query c current = .call c.owner current c.name := by
      cases guard with
      | literalOf t => exact absurd (hlit t rfl) (hne t)
      | _ => rfl
    refine ⟨hpins, ?_, fun _ => hk⟩
    rw [hq]
    exact remembers_make ht ho hh hr ha (fun _ hv => hv) (hl _ rfl) hm
  | constructor hf hm =>
    obtain ⟨hstands, hr⟩ := hfound hf
    exact ⟨hstands, remembers_make ht ho hh hr ha (fun _ hv => hv) (hl _ rfl) hm⟩
  | bean hf hb hn hm =>
    obtain ⟨hstands, hr⟩ := hfound hf
    refine ⟨hstands, remembers_make ht ho hh hr ha ?_ (hl _ rfl) ((select_bean hb hn).trans hm)⟩
    obtain ⟨n, rfl⟩ := eq_append_of_beanSplit? hb
    exact fun v hv => List.mem_append_left _ hv
  | @property receiver rc r guard access hrc hg hacc =>
    rw [hc] at hg
    obtain ⟨hpins, hr, -, hguard⟩ := guardFor_some ho hh (ht.hosts _ ha receiver (by simp [
      Request.values, Request.receiver?])) hrc hg
    exact ⟨hpins, hr, Nat.le_refl _, fun _ => (hguard c.name).symm.trans hacc⟩

end Faithful

/-- The class that a site constructs objects of stands for its type. -/
def Site.Seated (w : World) : Site → Prop
  | .constructor _ target | .bean _ target => w.Entered target.cls
  | _ => True

/-- A site that was resolved knows a class that stands for its type, whatever was passed to it. -/
private theorem seated_of_resolve {w₀ w : World} (ho : w.Orderly) {c : Site.Context}
    (hc : c.runtime = 0) {request : Request} {site : Site}
    (h : (resolve c request).run w₀ = (some site, w)) :
    site.Seated w := by
  obtain ⟨w₁, -, -, hres⟩ := resolved_of_resolve h
  cases hres with
  | constructor hf | bean hf =>
    rw [hc] at hf
    exact ho.entered_of_standsFor (standsFor_findClass hf ho.single)
  | _ => trivial

namespace World

/-- What one move can do to a slot. -/
private theorem Move.slot_cases {w w' : World} (hm : Move w w') {t : TableRef} {i : Nat} {s : Slot}
    (hs : w'.slot? t i = some s) :
    (s.site = .generic ∧ s.header.index = i)
      ∨ ∃ s₀, w.slot? t i = some s₀ ∧ s₀.header = s.header
        ∧ w.siteContext t s₀ = w'.siteContext t s
        ∧ (s₀.site = s.site ∨ s.site = .megamorphic
          ∨ ∃ request w₀, .asked t i request ∈ w.history
            ∧ (resolve (w'.siteContext t s) request).run w₀ = (some s.site, w)) := by
  have hsame (h : w'.tables = w.tables) :
      w.slot? t i = some s ∧ w.siteContext t s = w'.siteContext t s := by
    refine ⟨?_, ?_⟩
    · simpa only [slot?, table, h] using hs
    · simp only [siteContext, table, h]
  have hkept (h : w.slot? t i = some s ∧ w.siteContext t s = w'.siteContext t s) :
      ∃ s₀, w.slot? t i = some s₀ ∧ s₀.header = s.header
        ∧ w.siteContext t s₀ = w'.siteContext t s
        ∧ (s₀.site = s.site ∨ s.site = .megamorphic
          ∨ ∃ request w₀, .asked t i request ∈ w.history
            ∧ (resolve (w'.siteContext t s) request).run w₀ = (some s.site, w)) :=
    ⟨s, h.1, rfl, h.2, Or.inl rfl⟩
  cases hm with
  | record | allocate | count | newObject | setField | mutate | newRuntime | activate | rescope =>
    exact Or.inr (hkept (hsame rfl))
  | findClass hrt u => exact Or.inr (hkept (hsame (w.sameRest_findClass _ u).tables))
  | replaceClass hrt hr => exact Or.inr (hkept (hsame (w.sameRest_replaceClass _ _).tables))
  | defineClass hrt hp members =>
    exact Or.inr (hkept (hsame (w.sameRest_defineClass _ _ members).tables))
  | draftClass hrt key name isHost =>
    exact Or.inr (hkept (hsame (w.sameRest_draftClass key _ name isHost).tables))
  | finishClass hd hp members =>
    exact Or.inr (hkept (hsame (w.sameRest_finishClass _ _ _ members).tables))
  | addTable hrt owner sites =>
    simp only [slot?, table_addTable] at hs
    split at hs
    · rw [Table.ofSites, List.getElem?_toArray, List.getElem?_map] at hs
      obtain ⟨⟨e, j⟩, hj, rfl⟩ := Option.map_eq_some_iff.mp hs
      rw [List.getElem?_zipIdx] at hj
      obtain ⟨e', -, hj⟩ := Option.map_eq_some_iff.mp hj
      exact Or.inl ⟨rfl, by simpa using (congrArg Prod.snd hj).symm⟩
    · rename_i ht
      exact Or.inr (hkept ⟨hs, by simp only [siteContext, table_addTable, if_neg ht]⟩)
  | @install w₀ _ t' i' slot request site hslot ha hr =>
    have hctx (s₀ : Slot) : w.siteContext t s₀
        = siteContext (w.updateSlot t' i' fun s => { s with site, installs := s.installs + 1 }) t s₀ := by
      simp only [siteContext, owner_updateSlot, runtime_updateSlot]
    rcases slot?_updateSlot hs with hs | ⟨rfl, rfl, s₀, hs₀, rfl⟩
    · exact Or.inr (hkept ⟨hs, hctx s⟩)
    · obtain rfl : slot = s₀ := Option.some.inj (hslot.symm.trans hs₀)
      refine Or.inr ⟨slot, hs₀, rfl, hctx slot, Or.inr (Or.inr ⟨request, w₀, ha, ?_⟩)⟩
      rw [← hctx]
      exact hr
  | giveUp _ t' i' =>
    have hctx (s₀ : Slot) : w.siteContext t s₀
        = siteContext (w.updateSlot t' i' fun s => { s with site := .megamorphic }) t s₀ := by
      simp only [siteContext, owner_updateSlot, runtime_updateSlot]
    rcases slot?_updateSlot hs with hs | ⟨rfl, rfl, s₀, hs₀, rfl⟩
    · exact Or.inr (hkept ⟨hs, hctx s⟩)
    · exact Or.inr ⟨s₀, hs₀, rfl, hctx s₀, Or.inr (Or.inl rfl)⟩

/-- The occupant of a slot says where the slot is. -/
theorem Reachable.header_index {w : World} (h : w.Reachable) {t : TableRef} {i : Nat} {s : Slot}
    (hs : w.slot? t i = some s) : s.header.index = i := by
  obtain ⟨config, embedding, hm⟩ := h
  induction hm generalizing s with
  | refl =>
    have hslots : (default : Table).slots = #[] := rfl
    simp [slot?, table, initial, newRuntime, hslots] at hs
  | tail _ hm ih =>
    rcases hm.slot_cases hs with ⟨-, hi⟩ | ⟨s₀, hs₀, hheader, -⟩
    · exact hi
    · rw [← hheader]
      exact ih hs₀

theorem Grows.seated {w w' : World} (hg : w.Grows w') {site : Site} (h : site.Seated w) :
    site.Seated w' := by
  cases site with
  | constructor | bean => exact hg.entered h
  | _ => trivial

theorem Reachable.seated {w : World} (h : w.Reachable) (hl : w.Lone) {t : TableRef} {i : Nat} {s : Slot}
    (hs : w.slot? t i = some s) : s.site.Seated w := by
  obtain ⟨config, embedding, hm⟩ := h
  induction hm generalizing s with
  | refl =>
    have hslots : (default : Table).slots = #[] := rfl
    simp [slot?, table, initial, newRuntime, hslots] at hs
  | @tail v w hv hm ih =>
    have hreach : v.Reachable := ⟨config, embedding, hv⟩
    have hw := hreach.moves (.single hm)
    have hl' := hreach.lone_of_moves (.single hm) hl
    have hg := hreach.grows (.single hm) hl
    rcases hm.slot_cases hs with
      ⟨hgen, -⟩ | ⟨s₀, hs₀, -, -, hsite | hgen | ⟨request, w₀, -, hr⟩⟩
    · rw [hgen]; trivial
    · rw [← hsite]
      exact hg.seated (ih hl' hs₀)
    · rw [hgen]; trivial
    · have hc : (w.siteContext t s).runtime = 0 := (hw.housed hl).tables t
      exact hg.seated (seated_of_resolve (hreach.orderly hl') hc hr)

/-- Every slot of a tame world holds a faithful site, if it has been asked quietly about the arguments
that the site is for. -/
theorem Reachable.faithful {w : World} (h : w.Reachable) (ht : w.Tame) {t : TableRef} {i : Nat}
    {s : Slot} (hs : w.slot? t i = some s) (hq : ∀ target ∈ s.site.target?, w.Quiet t i target.shape) :
    s.site.Faithful w (w.siteContext t s) := by
  obtain ⟨config, embedding, hm⟩ := h
  induction hm generalizing s with
  | refl =>
    have hslots : (default : Table).slots = #[] := rfl
    simp [slot?, table, initial, newRuntime, hslots] at hs
  | @tail v w hv hm ih =>
    have hreach : v.Reachable := ⟨config, embedding, hv⟩
    have hon := hreach.onward (.single hm) ht
    have hqv (target : Target) (hmem : target ∈ s.site.target?) :=
      hon.grows.quiet hon.orderly hon.housed (hq target hmem)
    rcases hm.slot_cases hs with
      ⟨hg, -⟩ | ⟨s₀, hs₀, -, hctx, hsite | hg | ⟨request, w₀, ha, hr⟩⟩
    · rw [hg]; trivial
    · rw [← hsite] at hqv ⊢
      rw [← hctx]
      exact (ih hon.tame hs₀ hqv).onward hon
    · rw [hg]; trivial
    · have hc : (w.siteContext t s).runtime = 0 :=
        ((hreach.moves (.single hm)).housed ht.toLone).tables t
      exact (faithful_of_resolve hon.tame hon.orderly hon.housed hc ⟨t, i, ha⟩
        (fun target hmem => hqv target hmem request ha) hr).onward hon

end World

end CachedDispatch
