import CachedDispatch.Proofs.Resolution

/-!
A request that a faithful site serves gets the plan that a full lookup would make.
-/
namespace CachedDispatch

/-- A full lookup is counted. -/
def World.counted (w : World) (rt : Nat) : World :=
  w.updateStats rt fun s => { s with slowPathCalls := s.slowPathCalls + 1 }

section Lookup

variable {α : Type} {w w' : World} {r : ClassRef} {rt : Nat}

theorem run_recordSlowPath_bind (f : Unit → Update α) (w : World) :
    (recordSlowPath rt >>= f).run w = (f ()).run (w.counted rt) := rfl

theorem run_classOrFault_bind {v : Value} (h : w.classOf rt v = (some r, w'))
    (f : Except Fault ClassRef → Update α) :
    (classOrFault rt v >>= f).run w = (f (.ok r)).run w' := by
  have hrun : (classOrFault rt v).run w = (.ok r, w') := by
    simp only [classOrFault, Update.run_modifyGet_bind, h]
    rfl
  rw [Update.run_bind, hrun]

private theorem run_typeOrFault_bind {t : TypeId} (h : w.findClass rt t = (some r, w'))
    (f : Except Fault ClassRef → Update α) :
    (typeOrFault rt t >>= f).run w = (f (.ok r)).run w' := by
  have hrun : (typeOrFault rt t).run w = (.ok r, w') := by
    simp only [typeOrFault, Update.run_modifyGet_bind, h]
    rfl
  rw [Update.run_bind, hrun]

private theorem findClass_of_standsFor {t : TypeId} (h : w.StandsFor t r) :
    w.findClass 0 t = (some r, w) :=
  World.findClass_of_entry h

private theorem standsFor_counted {t : TypeId} (h : w.StandsFor t r) : (w.counted 0).StandsFor t r := by
  unfold World.StandsFor World.counted
  rw [World.registry_updateStats]
  exact h

end Lookup

section Plans

variable {w : World} {c : Site.Context} {t : TypeId} {receiver : Value} {args : List Value}
  {r : ClassRef} {m : Method}

private theorem run_planStatic (hc : c.runtime = 0) (hs : w.StandsFor t r)
    (hm : (Query.static c.owner c.name).select w.lineage (w.hierarchy r) args = some m) :
    (planStatic c t args).run w = (.invokeWith m (.classLiteral t) args, w.counted 0) := by
  have hm' : ((w.counted 0).hierarchy r).pickMethod (w.counted 0).lineage c.name args
      (.staticsFor c.owner) = some m := hm
  unfold planStatic
  rw [hc, run_recordSlowPath_bind,
    run_typeOrFault_bind (findClass_of_standsFor (standsFor_counted hs))]
  simp only [Update.run_get_bind, hm']
  rfl

private theorem run_planInstanceCall (hc : c.runtime = 0) (hact : w.active = []) {current : Bool}
    (hcls : (w.counted 0).classOf 0 receiver = (some r, w.counted 0))
    (hk : (w.cls r).hook = none)
    (hm : (Query.call c.owner current c.name).select w.lineage (w.hierarchy r) args = some m) :
    (planInstanceCall c current receiver args).run w
      = (.invokeWith m (receiverFor (w.cls r).id m receiver) args, w.counted 0) := by
  have hnone : Category.findActive? (w.counted 0).lineage (w.counted 0).active receiver c.name args
      = none := by
    change Category.findActive? _ w.active receiver c.name args = none
    rw [hact]
    rfl
  have hk' : ((w.counted 0).hierarchy r).own.hook = none := hk
  have hm' : ((w.counted 0).hierarchy r).pickForCall (w.counted 0).lineage c.owner current c.name args
      = some m := hm
  unfold planInstanceCall
  rw [hc, run_recordSlowPath_bind, Update.run_get_bind]
  simp only [hnone]
  rw [run_classOrFault_bind hcls]
  simp only [Update.run_get_bind, hk', hm']
  rfl

private theorem run_planConstruct (hc : c.runtime = 0) (hs : w.StandsFor t r)
    (hm : (w.hierarchy r).pickConstructor w.lineage args = some m) :
    (planConstruct c t args).run w = (.construct r m (prepare m args .baseline), w.counted 0) := by
  have hm' : ((w.counted 0).hierarchy r).pickConstructor (w.counted 0).lineage args = some m := hm
  unfold planConstruct
  rw [hc, run_recordSlowPath_bind,
    run_typeOrFault_bind (findClass_of_standsFor (standsFor_counted hs))]
  simp only [Update.run_get_bind, hm']
  rfl

theorem run_planConstruct_bean
    (hf : (w.counted c.runtime).findClass c.runtime t = (some r, w.counted c.runtime))
    (hn : (w.hierarchy r).pickConstructor w.lineage args = none) {positional : List Value}
    {entries : List (String × Value)} (hb : beanSplit? args = some (positional, entries))
    (hm : (w.hierarchy r).pickConstructor w.lineage positional = some m) :
    (planConstruct c t args).run w
      = (.bean r m (prepare m positional .baseline) entries, w.counted c.runtime) := by
  have hn' : ((w.counted c.runtime).hierarchy r).pickConstructor (w.counted c.runtime).lineage args
      = none := hn
  have hm' : ((w.counted c.runtime).hierarchy r).pickConstructor (w.counted c.runtime).lineage
      positional = some m := hm
  unfold planConstruct
  rw [run_recordSlowPath_bind, run_typeOrFault_bind hf]
  simp only [Update.run_get_bind, hn', hb, hm']
  rfl

private theorem access_literalOf {name : String} {access : Access}
    (ha : (Guard.literalOf t).access w r name = some access) :
    (∃ field, (w.hierarchy r).staticProperty? w.lineage name = some (.staticField field)
        ∧ access = .staticField field)
      ∨ ∃ m, (w.hierarchy r).staticProperty? w.lineage name = some (.accessor m)
        ∧ access = .accessor m := by
  simp only [Guard.access, accessFor] at ha
  split at ha <;> cases ha
  · exact .inl ⟨_, ‹_›, rfl⟩
  · exact .inr ⟨_, ‹_›, rfl⟩

private theorem access_instanceOf {q : ClassRef} {name : String} {access : Access}
    (ha : (Guard.instanceOf q).access w r name = some access) :
    (∃ field, (w.hierarchy r).property? w.lineage name = some (.field field) ∧ access = .field field)
      ∨ ∃ m, (w.hierarchy r).property? w.lineage name = some (.accessor m) ∧ access = .accessor m := by
  simp only [Guard.access, accessFor] at ha
  split at ha <;> cases ha
  · exact .inl ⟨_, ‹_›, rfl⟩
  · exact .inr ⟨_, ‹_›, rfl⟩

private theorem access_valueOf {name : String} {access : Access} (ht : t ≠ .map)
    (ha : (Guard.valueOf t).access w r name = some access) :
    ∃ m, (w.hierarchy r).property? w.lineage name = some (.accessor m) ∧ access = .accessor m := by
  simp only [Guard.access, if_neg ht, accessFor] at ha
  split at ha <;> cases ha
  exact ⟨_, ‹_›, rfl⟩

private theorem run_planClassProperty (hc : c.runtime = 0) (hs : w.StandsFor t r) {access : Access}
    (ha : (Guard.literalOf t).access w r c.name = some access) (hid : (w.cls r).id = t) :
    (planClassProperty c t).run w = (access.read w r (.classLiteral t), w) := by
  unfold planClassProperty
  rw [hc, run_typeOrFault_bind (findClass_of_standsFor hs)]
  simp only [Update.run_get_bind]
  obtain ⟨name, hp, rfl⟩ | ⟨m, hp, rfl⟩ := access_literalOf ha
  · simp only [hp]
    rfl
  · simp only [hp, Access.read, receiverFor, hid, ite_self, Plan.invokeWith, prepare_nil]
    rfl

private theorem run_planInstanceProperty (hc : c.runtime = 0)
    (hcls : w.classOf 0 receiver = (some r, w)) {access : Access} {guard : Guard}
    (hg : (∃ o, receiver = .object o ∧ guard = .instanceOf r)
      ∨ ∃ t, t ≠ .map ∧ guard = .valueOf t)
    (hfiled : ∀ q ∈ (w.hierarchy r).classes, q.Filed)
    (ha : guard.access w r c.name = some access) :
    (planInstanceProperty c receiver).run w = (access.read w r receiver, w) := by
  have hstatic {m : Method} (hp : (w.hierarchy r).property? w.lineage c.name = some (.accessor m)) :
      m.isStatic = false := by
    unfold Hierarchy.property? at hp
    split at hp
    · cases hp
    · obtain ⟨n, hn, hnm⟩ := Option.map_eq_some_iff.mp hp
      cases hnm
      obtain ⟨q, hq, hm⟩ := List.mem_flatMap.mp (mem_of_pickBy hn)
      exact hfiled q hq _ m (List.mem_filter.mp hm).1
  unfold planInstanceProperty
  rw [hc, run_classOrFault_bind hcls]
  simp only [Update.run_get_bind]
  have haccessor {m : Method} (hp : (w.hierarchy r).property? w.lineage c.name = some (.accessor m)) :
      Plan.invokeWith m receiver [] = (Access.accessor m).read w r receiver := by
    simp [Access.read, receiverFor, hstatic hp, Plan.invokeWith]
  rcases hg with ⟨o, rfl, rfl⟩ | ⟨t, ht, rfl⟩
  · obtain ⟨name, hp, rfl⟩ | ⟨m, hp, rfl⟩ := access_instanceOf ha
    · simp only [hp]
      rfl
    · simp only [hp]
      rw [haccessor hp]
      rfl
  · obtain ⟨m, hp, rfl⟩ := access_valueOf ht ha
    simp only [hp]
    rw [haccessor hp]
    rfl

end Plans

section Hit

variable {w : World} {c : Site.Context}

/-- What a valid target remembers is what a full lookup selects. -/
theorem Target.Remembers.select_eq (ht : w.Tame) (ho : w.Orderly) (hh : w.Housed) {q : Query}
    {target : Target} (h : target.Remembers w q) {args : List Value} (hvalid : target.Valid w args)
    (hv : ∀ v ∈ args, w.HostTyped v) (hl : ∀ v ∈ args, v.HidesLine w.lineage) :
    q.select w.lineage (w.hierarchy target.cls) args = some target.method
      ∧ prepare target.method args target.tier = prepare target.method args .baseline
      ∧ w.active = [] := by
  obtain ⟨hversion, hshape, hquiet⟩ := hvalid
  have hact : w.active = [] := by simpa [World.hasActiveCategory] using hquiet
  refine ⟨?_, prepare_of_fits (hshape ▸ h.fits), hact⟩
  rw [Query.select_eq_find (fun v hv' => World.rankedByKey ht ho hh (hv v hv') (hl v hv'))
    (World.rankedByKey ht ho hh trivial trivial), ← hshape]
  exact h.found hversion

/-- The class of a value that passes a guard. -/
private theorem Guard.Pins.classOf {cls : ClassRef} {guard : Guard} (h : guard.Pins w cls)
    {v : Value} (ha : guard.admits w v = true) (hlit : ∀ t, guard ≠ .literalOf t) :
    w.classOf 0 v = (some cls, w) ∧ v ≠ .null ∧ ∀ t, v ≠ .classLiteral t := by
  cases guard with
  | instanceOf r =>
    obtain rfl : r = cls := h
    cases v with
    | object o =>
      have ho : w.classOfObject o = r := by simpa [Guard.admits] using ha
      exact ⟨by rw [← ho]; rfl, nofun, nofun⟩
    | _ => cases ha
  | valueOf t =>
    obtain ⟨hs, hnull, hclass⟩ := h
    cases v with
    | object o => cases ha
    | null =>
      obtain rfl : TypeId.null = t := of_decide_eq_true ha
      exact absurd rfl hnull
    | classLiteral u =>
      obtain rfl : TypeId.classLiteral = t := of_decide_eq_true ha
      exact absurd rfl hclass
    | _ =>
      have htype := of_decide_eq_true ha
      rw [← htype] at hs
      exact ⟨findClass_of_standsFor hs, nofun, nofun⟩
  | literalOf t => exact absurd rfl (hlit t)

private theorem Guard.Pins.counted {cls : ClassRef} {guard : Guard} (h : guard.Pins w cls) :
    guard.Pins (w.counted 0) cls := by
  cases guard with
  | instanceOf r => exact h
  | valueOf t => exact h.imp_left standsFor_counted
  | literalOf t => exact standsFor_counted h

theorem planFully_instanceCall {current : Bool} {v : Value} {args : List Value} (hnull : v ≠ .null)
    (hclass : ∀ t, v ≠ .classLiteral t) :
    planFully c (.call current v args) = planInstanceCall c current v args := by
  cases v with
  | null => exact absurd rfl hnull
  | classLiteral t => exact absurd rfl (hclass t)
  | _ => rfl

private theorem standsFor_id (ho : w.Orderly) {t : TypeId} {r : ClassRef} (h : w.StandsFor t r) :
    (w.cls r).id = t := (ho.entries t r h).2

private theorem run_planFully_static (ht : w.Tame) (ho : w.Orderly) (hh : w.Housed)
    (hc : c.runtime = 0) {t : TypeId} {target : Target} (hs : w.StandsFor t target.cls)
    (hr : target.Remembers w (.static c.owner c.name)) {args : List Value}
    (hv : ∀ v ∈ args, w.HostTyped v) (hl : ∀ v ∈ args, v.HidesLine w.lineage)
    (hvalid : target.Valid w args) :
    (planStatic c t args).run w = (target.invoke w (.classLiteral t) args, w.counted 0) := by
  obtain ⟨hm, hprep, -⟩ := hr.select_eq ht ho hh hvalid hv hl
  rw [run_planStatic hc hs hm, Target.invoke, hprep, receiverFor, standsFor_id ho hs, ite_self]
  rfl

private theorem run_planProperty (ho : w.Orderly) (hc : c.runtime = 0) {cls : ClassRef}
    {guard : Guard} (hp : guard.Pins w cls) {receiver : Value}
    (hadm : guard.admits w receiver = true) (hv : w.HostTyped receiver) {access : Access}
    (ha : guard.access w cls c.name = some access) :
    (planProperty c receiver).run w = (access.read w cls receiver, w.counted 0) := by
  have hread (v : Value) : access.read (w.counted 0) cls v = access.read w cls v := by
    cases access <;> rfl
  have hfiled : ∀ q ∈ ((w.counted 0).hierarchy cls).classes, q.Filed := by
    intro q hq
    rcases List.mem_cons.mp hq with rfl | hq
    · exact ho.filed cls
    · obtain ⟨p, -, rfl⟩ := List.mem_map.mp hq
      exact ho.filed p
  unfold planProperty
  rw [hc, run_recordSlowPath_bind, ← hread]
  cases guard with
  | literalOf t =>
    cases receiver with
    | classLiteral u =>
      obtain rfl : t = u := of_decide_eq_true hadm
      exact run_planClassProperty hc (standsFor_counted hp) ha (standsFor_id ho hp)
    | _ => cases hadm
  | instanceOf r =>
    obtain ⟨hcls, -, -⟩ := hp.counted.classOf hadm nofun
    obtain rfl : r = cls := hp
    cases receiver with
    | object o => exact run_planInstanceProperty hc hcls (Or.inl ⟨o, rfl, rfl⟩) hfiled ha
    | _ => cases hadm
  | valueOf t =>
    obtain ⟨hcls, hnull, hclass⟩ := hp.counted.classOf hadm nofun
    cases receiver with
    | null => exact absurd rfl hnull
    | classLiteral u => exact absurd rfl (hclass u)
    | object o => cases hadm
    | map n entries =>
      obtain rfl : TypeId.map = t := of_decide_eq_true hadm
      cases ha
      rfl
    | host n u label =>
      obtain rfl : u = t := of_decide_eq_true hadm
      have hmap := World.ne_builtin_of_hostTyped hv .map
      exact run_planInstanceProperty hc hcls (Or.inr ⟨u, hmap, rfl⟩) hfiled ha
    | _ =>
      refine run_planInstanceProperty hc hcls (Or.inr ⟨t, ?_, rfl⟩) hfiled ha
      rw [← of_decide_eq_true hadm]
      exact nofun

/-- A full lookup makes the plan of the hit, and leaves no trace but the count. -/
theorem planFully_of_hit (ht : w.Tame) (ho : w.Orderly) (hh : w.Housed) (hc : c.runtime = 0)
    {site : Site} (hf : site.Faithful w c) {request : Request}
    (hv : ∀ v ∈ request.values, w.HostTyped v) (hl : ∀ v ∈ request.args, v.HidesLine w.lineage)
    {plan : Plan} (hit : site.cached? w request = some plan) :
    (planFully c request).run w = (plan, w.counted 0) := by
  have hargs (v : Value) (h : v ∈ request.args) : w.HostTyped v :=
    hv v (Request.mem_values_of_arg h)
  cases Site.cached?_eq_some_iff.mp hit with
  | @call guard target current receiver args hadm hvalid =>
    obtain ⟨hp, hr, hk⟩ := hf
    cases guard with
    | literalOf t =>
      cases receiver with
      | classLiteral u =>
        obtain rfl : t = u := of_decide_eq_true hadm
        exact run_planFully_static ht ho hh hc hp hr hargs hl hvalid
      | _ => cases hadm
    | _ =>
      obtain ⟨hcls, hnull, hclass⟩ := hp.counted.classOf hadm nofun
      obtain ⟨hm, hprep, hact⟩ := hr.select_eq ht ho hh hvalid hargs hl
      rw [planFully_instanceCall hnull hclass,
        run_planInstanceCall hc hact hcls (hk nofun) hm, Target.invoke, hprep]
      rfl
  | @static guard target current t args hadm hvalid =>
    obtain ⟨hp, hr, -⟩ := hf
    cases guard with
    | literalOf u =>
      obtain rfl : u = t := of_decide_eq_true hadm
      exact run_planFully_static ht ho hh hc hp hr hargs hl hvalid
    | valueOf u => exact absurd (of_decide_eq_true hadm).symm hp.2.2
    | instanceOf r => cases hadm
  | construct hvalid =>
    obtain ⟨hs, hr⟩ := hf
    obtain ⟨hm, hprep, -⟩ := hr.select_eq ht ho hh hvalid hargs hl
    rw [hprep]
    exact run_planConstruct hc hs hm
  | bean hb hvalid =>
    obtain ⟨hs, hr⟩ := hf
    obtain ⟨n, rfl⟩ := eq_append_of_beanSplit? hb
    obtain ⟨hm, hprep, -⟩ := hr.select_eq ht ho hh hvalid
      (fun v h => hargs v (List.mem_append_left _ h))
      (fun v h => hl v (List.mem_append_left _ h))
    simp only [Query.select, Option.ite_none_left_eq_some] at hm
    rw [hprep, ← hc]
    refine run_planConstruct_bean ?_ ?_ hb hm.2
    · rw [hc]
      exact findClass_of_standsFor (standsFor_counted hs)
    · rw [Hierarchy.pickConstructor, pick_append_map]
      exact Option.not_isSome_iff_eq_none.mp hm.1
  | @property guard cls access receiver hadm =>
    obtain ⟨hp, -, -, hacc⟩ := hf
    have hrecv := hv receiver (by simp [Request.values, Request.receiver?])
    exact run_planProperty ho hc hp hadm hrecv (hacc rfl)

end Hit

end CachedDispatch
