import CachedDispatch.Proofs.Lookups

/-!
The plan that a slot makes is the plan of a full lookup, whatever the slot holds and however often
it has been specialized. So slots behave alike in worlds that differ only in what they hold.
-/
namespace CachedDispatch

open World

namespace World

private theorem Move.history_suffix {w w' : World} (hm : Move w w') : w.history <:+ w'.history := by
  cases hm with
  | record _ e => exact List.suffix_cons e _
  | findClass hrt t => exact (w.sameRest_findClass _ t).history ▸ List.suffix_rfl
  | replaceClass hrt hr => exact (w.sameRest_replaceClass _ _).history ▸ List.suffix_rfl
  | defineClass hrt hp members => exact (w.sameRest_defineClass _ _ members).history ▸ List.suffix_rfl
  | draftClass hrt key name isHost =>
    exact (w.sameRest_draftClass key _ name isHost).history ▸ List.suffix_rfl
  | @finishClass _ key d parent hd hp members =>
    exact (w.sameRest_finishClass key d parent members).history ▸ List.suffix_rfl
  | _ => exact List.suffix_rfl

/-- A slot stays where it is and keeps its header and its context. -/
private theorem Move.slot_stays {w w' : World} (hm : Move w w') {t : TableRef} {i : Nat} {s : Slot}
    (hs : w.slot? t i = some s) :
    ∃ s', w'.slot? t i = some s' ∧ s'.header = s.header
      ∧ w'.siteContext t s' = w.siteContext t s := by
  have hsame (h : w'.tables = w.tables) :
      ∃ s', w'.slot? t i = some s' ∧ s'.header = s.header
        ∧ w'.siteContext t s' = w.siteContext t s :=
    ⟨s, by simpa only [slot?, table, h] using hs, rfl, by simp only [siteContext, table, h]⟩
  have hwrite {t' : TableRef} {i' : Nat} {f : Slot → Slot} (h : w' = w.updateSlot t' i' f)
      (hf : ∀ s, (f s).header = s.header) :
      ∃ s', w'.slot? t i = some s' ∧ s'.header = s.header
        ∧ w'.siteContext t s' = w.siteContext t s := by
    subst h
    by_cases hti : t' = t ∧ i' = i
    · obtain ⟨rfl, rfl⟩ := hti
      refine ⟨f s, slot?_updateSlot_self hs f, hf s, ?_⟩
      simp only [siteContext, owner_updateSlot, runtime_updateSlot, Slot.name, hf]
    · refine ⟨s, (slot?_updateSlot_of_ne w hti f).trans hs, rfl, ?_⟩
      simp only [siteContext, owner_updateSlot, runtime_updateSlot]
  cases hm with
  | record | allocate | count | newObject | setField | mutate | newRuntime | activate | rescope =>
    exact hsame rfl
  | findClass hrt u => exact hsame (w.sameRest_findClass _ u).tables
  | replaceClass hrt hr => exact hsame (w.sameRest_replaceClass _ _).tables
  | defineClass hrt hp members => exact hsame (w.sameRest_defineClass _ _ members).tables
  | draftClass hrt key name isHost => exact hsame (w.sameRest_draftClass key _ name isHost).tables
  | finishClass hd hp members => exact hsame (w.sameRest_finishClass _ _ _ members).tables
  | addTable hrt owner sites =>
    have hne : t.idx ≠ w.tables.size := by
      intro hsize
      have hslots : (default : Table).slots = #[] := rfl
      simp [slot?, table, Array.getD, hsize, hslots] at hs
    refine ⟨s, ?_, rfl, ?_⟩
    · rw [slot?, table_addTable, if_neg hne]
      exact hs
    · simp only [siteContext, table_addTable, if_neg hne]
  | install hslot ha hr => exact hwrite rfl fun _ => rfl
  | giveUp _ t' i' => exact hwrite rfl fun _ => rfl

end World

/-- A slot in its context serves a request that was made of it. -/
private structure World.Serving (w : World) (t : TableRef) (header : SiteHeader) (c : Site.Context)
    (request : Request) : Prop where
  hosts : w.Hosts c.runtime
  asked : .asked t header.index request ∈ w.history
  slot : ∃ s, w.slot? t header.index = some s ∧ s.header = header ∧ w.siteContext t s = c

private theorem World.Serving.moves {w w' : World} (hr : w.Reachable) (hm : Moves w w') {t : TableRef}
    {header : SiteHeader} {c : Site.Context} {request : Request}
    (h : w.Serving t header c request) : w'.Serving t header c request where
  hosts := (Lasting.hosts c.runtime).stable hr hm h.hosts
  asked := by
    induction hm with
    | refl => exact h.asked
    | tail _ hm ih => exact hm.history_suffix.subset ih
  slot := by
    induction hm with
    | refl => exact h.slot
    | tail _ hm ih =>
      obtain ⟨s, hs, hh, hc⟩ := ih
      obtain ⟨s', hs', hh', hc'⟩ := hm.slot_stays hs
      exact ⟨s', hs', hh'.trans hh, hc'.trans hc⟩

def Lasting.asked (t : TableRef) (i : Nat) (request : Request) : Lasting :=
  ⟨fun w => .asked t i request ∈ w.history, fun _ hm h => by
    induction hm with
    | refl => exact h
    | tail _ hm ih => exact hm.history_suffix.subset ih⟩

/-- It goes on in moves, and no lookup can tell that it went on. -/
private def World.Hushed (rt : Nat) (w w' : World) : Prop :=
  w.Reachable → w.Hosts rt → Moves w w' ∧ (w.Lone → w.Same w')

private theorem World.allowsSearch_hushed (rt : Nat) : AllowsSearch rt (Hushed rt) where
  refl w _ _ := ⟨.refl, fun _ => .refl w⟩
  trans h₁ h₂ hr hrt := by
    obtain ⟨hm, hs⟩ := h₁ hr hrt
    obtain ⟨hm', hs'⟩ := h₂ (hr.moves hm) ((Lasting.hosts rt).stable hr hm hrt)
    refine ⟨hm.trans hm', fun hone => ?_⟩
    have h := hs hone
    exact h.trans (hs' (h.symm.lone hone))
  findClass w t hr hrt := by
    refine ⟨.single (.findClass hrt t), fun hone => ?_⟩
    obtain rfl := hrt hone
    exact Same.findClass (hr.orderly hone) t

private theorem hushed_resolve (c : Site.Context) (request : Request) (w : World) :
    Hushed c.runtime w ((resolve c request).run w).2 := by
  have hR := allowsSearch_hushed c.runtime
  have hcount : Hushed c.runtime w (w.updateStats c.runtime Stats.resolved) := fun _ _ =>
    ⟨.single (.count w c.runtime _), fun _ => .updateStats w c.runtime _⟩
  exact hR.trans hcount (makes_resolve hR request w)

/-- The world with a specialized site in the slot. -/
def World.installed (w : World) (t : TableRef) (i : Nat) (rt : Nat) (site : Site) : World :=
  (w.updateSlot t i fun s => { s with site, installs := s.installs + 1 }).updateStats rt fun s =>
    { s with installs := s.installs + 1 }

/-- The world with a megamorphic site in the slot. -/
def World.givenUp (w : World) (t : TableRef) (i : Nat) (rt : Nat) : World :=
  (w.updateSlot t i fun s => { s with site := .megamorphic }).updateStats rt fun s =>
    { s with megamorphicTransitions := s.megamorphicTransitions + 1 }

section Writes

variable {w : World} {t : TableRef} {header : SiteHeader} {s : Slot}

/-- A write by the occupant of a slot keeps the header there. -/
theorem run_install (hs : w.slot? t header.index = some s) (hh : s.header = header) (rt : Nat)
    (site : Site) :
    (install t header rt site).run w = ((), w.installed t header.index rt site) := by
  have hwrite := updateSlot_congr hs (f := fun s => { s with header, site, installs := s.installs + 1 })
    (g := fun s => { s with site, installs := s.installs + 1 }) (by rw [hh])
  unfold install World.installed
  rw [Update.run_modify_bind, Update.run_modify, hwrite]

theorem run_giveUp (hs : w.slot? t header.index = some s) (hh : s.header = header)
    (hm : s.site.tag ≠ .megamorphic) (rt : Nat) :
    (giveUp t header rt).run w = ((), w.givenUp t header.index rt) := by
  have hwrite := updateSlot_congr hs (f := fun s => { s with header, site := .megamorphic })
    (g := fun s => { s with site := .megamorphic }) (by rw [hh])
  unfold giveUp World.givenUp
  rw [Update.run_get_bind, hs]
  dsimp only
  rw [if_pos hm, Update.run_modify_bind, Update.run_modify, hwrite]

private theorem run_giveUp_of_megamorphic (hs : w.slot? t header.index = some s)
    (hm : s.site.tag = .megamorphic) (rt : Nat) : (giveUp t header rt).run w = ((), w) := by
  unfold giveUp
  rw [Update.run_get_bind, hs]
  dsimp only
  rw [if_neg (not_not.mpr hm), Update.run_pure]

/-- Giving up a slot cannot be told by lookups either. -/
private theorem hushed_giveUp (hs : w.slot? t header.index = some s) (hh : s.header = header)
    (rt : Nat) :
    Moves w ((giveUp t header rt).run w).2 ∧ w.Same ((giveUp t header rt).run w).2 := by
  by_cases hm : s.site.tag = .megamorphic
  · rw [run_giveUp_of_megamorphic hs hm]
    exact ⟨.refl, .refl w⟩
  · rw [run_giveUp hs hh hm]
    have hput : w.Same (w.updateSlot t header.index fun s => { s with site := .megamorphic }) :=
      .updateSlot w t _ fun _ => rfl
    dsimp only
    exact ⟨.tail (.single (.giveUp w t header.index)) (.count _ rt _),
      hput.trans (.updateStats _ rt _)⟩

end Writes

/-- A site that is installed for a request was resolved for it and is in the slot. -/
private theorem specialize_spec {w : World} (hr : w.Reachable) {t : TableRef} {header : SiteHeader}
    {c : Site.Context} {request : Request} (h : w.Serving t header c request) {found : Option Site}
    {w' : World} (hrun : (specialize t header c request).run w = (found, w')) :
    Moves w w' ∧ (w.Lone → w.Same w')
      ∧ ∀ site ∈ found, ∃ s, w'.slot? t header.index = some s ∧ s.site = site
        ∧ w'.siteContext t s = c := by
  unfold specialize at hrun
  rw [Update.run_get_bind] at hrun
  dsimp only at hrun
  split at hrun
  · obtain ⟨rfl, rfl⟩ := Prod.mk.inj hrun
    exact ⟨.refl, fun _ => .refl w, fun _ hn => (Option.not_mem_none _ hn).elim⟩
  split at hrun
  · rw [Update.run_bind, Update.run_pure] at hrun
    obtain ⟨rfl, rfl⟩ := Prod.mk.inj hrun
    obtain ⟨s, hslot, hh, -⟩ := h.slot
    obtain ⟨hm, hs⟩ := hushed_giveUp hslot hh c.runtime
    exact ⟨hm, fun _ => hs, fun _ hn => (Option.not_mem_none _ hn).elim⟩
  rw [Update.run_bind] at hrun
  obtain ⟨hm, hs⟩ := hushed_resolve c request w hr h.hosts
  rcases hres : (resolve c request).run w with ⟨_ | site, v⟩ <;> rw [hres] at hrun hm hs
  · obtain ⟨rfl, rfl⟩ := Prod.mk.inj hrun
    exact ⟨hm, hs, fun _ hn => (Option.not_mem_none _ hn).elim⟩
  have hv := h.moves hr hm
  obtain ⟨s, hslot, hh, hc⟩ := hv.slot
  rw [← hc] at hres
  have hinstall := Move.install hslot hv.asked hres
  have hself := slot?_updateSlot_self hslot fun s => { s with site, installs := s.installs + 1 }
  dsimp only at hrun
  rw [Update.run_bind, run_install hslot hh, Update.run_pure] at hrun
  obtain ⟨rfl, rfl⟩ := Prod.mk.inj hrun
  dsimp only at hm hs ⊢
  refine ⟨(hm.tail hinstall).tail (.count _ _ _), fun hone => ?_, ?_⟩
  · have hput : v.Same
        (v.updateSlot t header.index fun s => { s with site, installs := s.installs + 1 }) :=
      .updateSlot v t _ fun _ => rfl
    exact ((hs hone).trans hput).trans (.updateStats _ _ _)
  · rintro _ ⟨⟩
    refine ⟨_, hself, rfl, ?_⟩
    rw [← hc]
    exact congrArg₂ (Site.Context.mk · · s.name) (runtime_updateSlot v t t header.index _)
      (owner_updateSlot v t t header.index _)

/-- The classes that a site constructs objects of. -/
private def Site.classes (site : Site) : Lasting :=
  ⟨fun w => w.Lone → site.Seated w, fun hr hm h hs =>
    (hr.grows hm hs).seated (h (hr.lone_of_moves hm hs))⟩

private theorem Access.classes_read (access : Access) (w : World) (cls : ClassRef) (receiver : Value) :
    (access.read w cls receiver).classes = .none := by
  cases access with
  | field name => cases receiver <;> rfl
  | _ => rfl

private theorem Site.classes_of_cached? {site : Site} {w w' : World} {request : Request} {plan : Plan}
    (h : site.cached? w request = some plan) (hs : site.classes.holds w') : plan.classes.holds w' := by
  cases cached?_eq_some_iff.mp h with
  | call | static => trivial
  | construct | bean => exact hs
  | property =>
    rw [Access.classes_read]
    trivial

section Plans

variable {w : World} {t : TableRef} {header : SiteHeader} {c : Site.Context} {request : Request}

/-- The plan comes about by moves, and the classes in it stand for their types. -/
private def Sound (w : World) (u : Update Decision) : Prop :=
  Moves w (u.run w).2 ∧ (u.run w).1.plan.classes.holds (u.run w).2

/-- The plan is the one that a full lookup makes. -/
private def Faithfully (w : World) (c : Site.Context) (request : Request) (u : Update Decision) :
    Prop :=
  (u.run w).1.plan = ((planFully c request).run w).1
    ∧ (u.run w).2.Same ((planFully c request).run w).2

/-- One of the two ways to make the plan ends disciplined. -/
private def Ends (w : World) (c : Site.Context) (request : Request) (u : Update Decision) : Prop :=
  (u.run w).2.Disciplined ∨ ((planFully c request).run w).2.Disciplined

theorem run_lookedUp (u : Update Plan) (w : World) :
    (lookedUp u).run w = (⟨.lookup, (u.run w).1⟩, (u.run w).2) := rfl

private theorem sound_of_steady {u : Update Plan} {P : Lasting}
    (h : Steady P Plan.classes (Act.ofUpdate u)) (hr : w.Reachable) (hp : P.holds w) :
    Sound w (lookedUp u) :=
  h.left hr hp rfl

private theorem sound_planFully (request : Request) (hr : w.Reachable) (hrt : w.Hosts c.runtime) :
    Sound w (lookedUp (planFully c request)) :=
  sound_of_steady (.planFully (Lasting.entails_self _) request) hr hrt

/-- The same steady computation in two worlds that cannot be told apart. -/
private theorem same_run {α : Type} {P : Lasting} {Q : α → Lasting} {u : Update α}
    (h : Steady P Q (Act.ofUpdate u)) {w₁ w₂ : World} (hr₁ : w₁.Reachable) (hr₂ : w₂.Reachable)
    (hs : w₁.Same w₂) (hp₁ : P.holds w₁) (hp₂ : P.holds w₂) (hd : (u.run w₂).2.Disciplined) :
    (u.run w₁).1 = (u.run w₂).1 ∧ (u.run w₁).2.Same (u.run w₂).2 := by
  obtain ⟨a, w₁', hrun, hv, hs'⟩ := h.same hr₁ hr₂ hs hp₁ hp₂ rfl hd
  have hrun' : u.run w₁ = (a, w₁') := Except.ok.inj hrun
  rw [hrun']
  exact ⟨hv, hs'⟩

private theorem planOnNull_call (c : Site.Context) (current : Bool) (args : List Value) :
    planOnNull c (.call current .null args) = planFully c (.call current .null args) := rfl

private theorem faithfully_lookedUp (w : World) (c : Site.Context) (request : Request) :
    Faithfully w c request (lookedUp (planFully c request)) := ⟨rfl, .refl _⟩

private theorem sound_planWith (hr : w.Reachable) (h : w.Serving t header c request)
    {again : Update Decision}
    (hagain : ∀ w', w'.Reachable → w'.Serving t header c request → Sound w' again) :
    Sound w (planWith t header c request again) := by
  unfold planWith
  split
  · rename_i hnull
    cases request with
    | call current receiver args =>
      cases receiver with
      | null =>
        rw [planOnNull_call]
        exact sound_planFully _ hr h.hosts
      | _ => cases hnull
    | property receiver =>
      exact sound_of_steady (.planNullProperty (Lasting.entails_self _)) hr h.hosts
    | static | construct => cases hnull
  · rcases hrun : (specialize t header c request).run w with ⟨found, w'⟩
    obtain ⟨hm, -, hslot⟩ := specialize_spec hr h hrun
    have hr' := hr.moves hm
    have h' := h.moves hr hm
    unfold Sound
    rw [Update.run_bind, hrun]
    cases found with
    | none =>
      obtain ⟨hm', hc'⟩ := sound_planFully request hr' h'.hosts
      exact ⟨hm.trans hm', hc'⟩
    | some site =>
      dsimp only
      rw [Update.run_get_bind]
      rcases hit : site.cached? w' request with _ | plan
      · obtain ⟨hm', hc'⟩ := hagain w' hr' h'
        exact ⟨hm.trans hm', hc'⟩
      · obtain ⟨s, hs, rfl, -⟩ := hslot site rfl
        exact ⟨hm, Site.classes_of_cached? hit fun hone => hr'.seated hone hs⟩

private theorem sound_planGenerically (attempts : Nat) (hr : w.Reachable)
    (h : w.Serving t header c request) : Sound w (planGenerically t header c request attempts) := by
  induction attempts generalizing w with
  | zero => exact sound_planWith hr h fun w' hr' h' => sound_planFully _ hr' h'.hosts
  | succ n ih => exact sound_planWith hr h fun w' hr' h' => ih hr' h'

private theorem Ends.disciplined {u : Update Decision} (h : Ends w c request u) (hr : w.Reachable)
    (hrt : w.Hosts c.runtime) (hu : Sound w u) : w.Disciplined :=
  h.elim (hr.disciplined hu.1) (hr.disciplined (sound_planFully _ hr hrt).1)

private theorem faithfully_of_same {w' : World} (hr : w.Reachable) (hm : Moves w w')
    (hs : w.Same w') (hrt : w.Hosts c.runtime) {u v : Update Decision} (hu : u.run w = v.run w')
    (hv : Ends w' c request v → Faithfully w' c request v) (hd : Ends w c request u) :
    Faithfully w c request u := by
  have hr' := hr.moves hm
  have hrt' := (Lasting.hosts c.runtime).stable hr hm hrt
  have hsteady := Steady.planFully (Lasting.entails_self (.hosts c.runtime)) request
  have hends : Ends w' c request v := by
    rcases hd with hd | hd
    · exact Or.inl (hu ▸ hd)
    · exact Or.inr ((same_run hsteady hr' hr hs.symm hrt' hrt hd).2.disciplined hd)
  obtain ⟨hplan, hworld⟩ := hv hends
  have hd' : ((planFully c request).run w').2.Disciplined :=
    hends.elim hworld.symm.disciplined fun h => h
  obtain ⟨hplan', hworld'⟩ := same_run hsteady hr hr' hs hrt hrt' hd'
  unfold Faithfully
  rw [hu]
  exact ⟨hplan.trans hplan'.symm, hworld.trans hworld'.symm⟩

private theorem faithfully_of_hit (hr : w.Reachable) (h : w.Serving t header c request)
    (hd : w.Disciplined) {s : Slot} (hs : w.slot? t header.index = some s) (hc : w.siteContext t s = c)
    {plan : Plan} (hit : s.site.cached? w request = some plan) :
    Faithfully w c request (pure ⟨.memory, plan⟩) := by
  have ha : w.Asked request := ⟨t, header.index, h.asked⟩
  have hf := hr.faithful hd.toTame hs fun target _ => hd.quiet t header.index target.shape
  rw [hc] at hf
  have hrun := planFully_of_hit hd.toTame (hr.orderly hd.toLone) (hr.housed hd.toLone)
    (h.hosts hd.toLone) hf (hd.hosts request ha)
    (fun v hv => v.hidesLine_of_not_wrapper (hd.unwrapped request ha v hv)) hit
  unfold Faithfully
  rw [hrun]
  exact ⟨rfl, (Same.updateStats w 0 _ : w.Same (w.counted 0))⟩

/-- A read of a property of null differs from a full lookup in the count alone. -/
private theorem faithfully_onNull (hr : w.Reachable) (hrt : w.Hosts c.runtime)
    (hnull : request.onNull = true) (hd : Ends w c request (lookedUp (planOnNull c request))) :
    Faithfully w c request (lookedUp (planOnNull c request)) := by
  cases request with
  | call current receiver args =>
    cases receiver with
    | null =>
      rw [planOnNull_call]
      exact faithfully_lookedUp w c _
    | _ => cases hnull
  | property receiver =>
    cases receiver with
    | null =>
      have hm : Moves w (w.counted c.runtime) := .single (.count w c.runtime _)
      have hs : w.Same (w.counted c.runtime) := .updateStats w c.runtime _
      have hrt' := (Lasting.hosts c.runtime).stable hr hm hrt
      have hsteady := Steady.planNullProperty (Lasting.entails_self (.hosts c.runtime))
      have hfull : (planFully c (.property .null)).run w
          = (planNullProperty c).run (w.counted c.runtime) := run_recordSlowPath_bind _ w
      have hnull : planOnNull c (.property .null) = planNullProperty c := rfl
      unfold Ends at hd
      unfold Faithfully
      rw [hfull, hnull, run_lookedUp] at hd
      rw [hfull, hnull, run_lookedUp]
      rcases hd with hd | hd
      · obtain ⟨hplan, hworld⟩ := same_run hsteady (hr.moves hm) hr hs.symm hrt' hrt hd
        exact ⟨hplan.symm, hworld.symm⟩
      · exact same_run hsteady hr (hr.moves hm) hs hrt hrt' hd
    | _ => cases hnull
  | static | construct => cases hnull

/-- What becomes of a request after the attempt to find a site for it. -/
private def afterAttempt (c : Site.Context) (request : Request) (again : Update Decision) :
    Option Site → Update Decision
  | none => lookedUp (planFully c request)
  | some site => do
    match site.cached? (← get) request with
    | some plan => pure ⟨.memory, plan⟩
    | none => again

private theorem faithfully_planWith (hr : w.Reachable) (h : w.Serving t header c request)
    {again : Update Decision}
    (hsound : ∀ w', w'.Reachable → w'.Serving t header c request → Sound w' again)
    (hagain : ∀ w', w'.Reachable → w'.Serving t header c request → Ends w' c request again →
      Faithfully w' c request again)
    (hd : Ends w c request (planWith t header c request again)) :
    Faithfully w c request (planWith t header c request again) := by
  have hdw := hd.disciplined hr h.hosts (sound_planWith hr h hsound)
  by_cases hnull : request.onNull = true
  · have heq : planWith t header c request again = lookedUp (planOnNull c request) := if_pos hnull
    rw [heq] at hd ⊢
    exact faithfully_onNull hr h.hosts hnull hd
  rcases hrun : (specialize t header c request).run w with ⟨found, w'⟩
  obtain ⟨hm, hs, hslot⟩ := specialize_spec hr h hrun
  have hr' := hr.moves hm
  have h' := h.moves hr hm
  have hs := hs hdw.toLone
  -- what is done after the attempt is done in a world that cannot be told apart
  have hrest {v : Update Decision} (hv : (planWith t header c request again).run w = v.run w')
      (hf : Ends w' c request v → Faithfully w' c request v) :
      Faithfully w c request (planWith t header c request again) :=
    faithfully_of_same hr hm hs h.hosts hv hf hd
  have hunfold : (planWith t header c request again).run w
      = (afterAttempt c request again found).run w' := by
    unfold planWith
    rewrite [if_neg hnull, Update.run_bind, hrun]
    rfl
  cases found with
  | none => exact hrest hunfold fun _ => faithfully_lookedUp w' c request
  | some site =>
    rw [afterAttempt, Update.run_get_bind] at hunfold
    rcases hit : site.cached? w' request with _ | plan <;> rw [hit] at hunfold
    · exact hrest hunfold (hagain w' hr' h')
    · obtain ⟨s, hs', rfl, hc⟩ := hslot site rfl
      exact hrest hunfold fun _ => faithfully_of_hit hr' h' (hs.symm.disciplined hdw) hs' hc hit

private theorem faithfully_planGenerically (attempts : Nat) (hr : w.Reachable)
    (h : w.Serving t header c request) (hd : Ends w c request (planGenerically t header c request attempts)) :
    Faithfully w c request (planGenerically t header c request attempts) := by
  induction attempts generalizing w with
  | zero =>
    exact faithfully_planWith hr h (fun w' hr' h' => sound_planFully _ hr' h'.hosts)
      (fun w' _ _ _ => faithfully_lookedUp w' c request) hd
  | succ n ih =>
    exact faithfully_planWith hr h (fun w' hr' h' => sound_planGenerically n hr' h')
      (fun w' hr' h' hd' => ih hr' h' hd') hd

/-- The cases of what a slot does. -/
private theorem planAt_cases (slot : Slot) (w : World) :
    (planAt t slot request).run w = (lookedUp (planFully (w.siteContext t slot) request)).run w
      ∨ (∃ plan, slot.site.cached? w request = some plan
        ∧ (planAt t slot request).run w = (pure ⟨.memory, plan⟩ : Update Decision).run w)
      ∨ ∃ attempts, (planAt t slot request).run w
        = (planGenerically t slot.header (w.siteContext t slot) request attempts).run w := by
  unfold planAt
  rw [Update.run_get_bind]
  dsimp only
  split
  · exact Or.inl rfl
  · split
    · exact Or.inr (Or.inl ⟨_, ‹_›, rfl⟩)
    · exact Or.inr (Or.inr ⟨_, rfl⟩)

/-- The plan of a slot, if there is one. -/
def planSlot (t : TableRef) (i : Nat) (request : Request) : Update (Option Decision) := do
  match (← get).slot? t i with
  | none => pure none
  | some slot => do
    let decision ← planAt t slot request
    pure (some decision)

private theorem serving_of_slot (hr : w.Reachable) {i : Nat} (ha : .asked t i request ∈ w.history)
    {s : Slot} (hs : w.slot? t i = some s) :
    w.Serving t s.header (w.siteContext t s) request := by
  obtain rfl := hr.header_index hs
  exact ⟨fun hone => (hr.housed hone).tables t, ha, s, hs, rfl, rfl⟩

private theorem sound_planAt (hr : w.Reachable) {i : Nat} (ha : .asked t i request ∈ w.history)
    {s : Slot}
    (hs : w.slot? t i = some s) : Sound w (planAt t s request) := by
  have h := serving_of_slot hr ha hs
  unfold Sound
  rcases planAt_cases s w with hrun | ⟨plan, hit, hrun⟩ | ⟨n, hrun⟩ <;> rw [hrun]
  · exact sound_planFully _ hr h.hosts
  · exact ⟨.refl, Site.classes_of_cached? hit fun hone => hr.seated hone hs⟩
  · exact sound_planGenerically n hr h

/-- A slot plans what a full lookup plans. -/
private theorem faithfully_planAt (hr : w.Reachable) {i : Nat}
    (ha : .asked t i request ∈ w.history) {s : Slot}
    (hs : w.slot? t i = some s) (hd : Ends w (w.siteContext t s) request (planAt t s request)) :
    Faithfully w (w.siteContext t s) request (planAt t s request) := by
  have h := serving_of_slot hr ha hs
  have hdw := hd.disciplined hr h.hosts (sound_planAt hr ha hs)
  rcases planAt_cases s w with hrun | ⟨plan, hit, hrun⟩ | ⟨n, hrun⟩
  · unfold Faithfully
    rw [hrun]
    exact faithfully_lookedUp w _ request
  · unfold Faithfully
    rw [hrun]
    obtain rfl := hr.header_index hs
    exact faithfully_of_hit hr h hdw hs rfl hit
  · unfold Ends at hd
    rw [hrun] at hd
    unfold Faithfully
    rw [hrun]
    exact faithfully_planGenerically n hr h hd

end Plans

/-- Slots plan the same, whatever they hold. -/
theorem Alike.planSlot {P : Lasting} {t : TableRef} {i : Nat} {request : Request}
    (h : P.Entails (.asked t i request)) :
    Alike P (Option.map Decision.plan) (.ofOption Plan.classes) (Act.ofUpdate (planSlot t i request))
      (Act.ofUpdate (planSlot t i request)) := by
  have hnone {w : World} (hs : w.slot? t i = none) :
      (CachedDispatch.planSlot t i request).run w = (none, w) := by
    unfold CachedDispatch.planSlot
    rw [Update.run_get_bind, hs]
    rfl
  have hsome {w : World} {s : Slot} (hs : w.slot? t i = some s) :
      (CachedDispatch.planSlot t i request).run w
        = (some ((planAt t s request).run w).1, ((planAt t s request).run w).2) := by
    unfold CachedDispatch.planSlot
    rw [Update.run_get_bind, hs]
    rfl
  have steps : Steps P (fun d => .ofOption Plan.classes (d.map Decision.plan))
      (Act.ofUpdate (CachedDispatch.planSlot t i request)) := by
    intro w a w' hr hp hrun
    have hrun : (CachedDispatch.planSlot t i request).run w = (a, w') := Except.ok.inj hrun
    rcases hs : w.slot? t i with _ | s
    · rw [hnone hs] at hrun
      cases hrun
      exact ⟨.refl, trivial⟩
    · rw [hsome hs] at hrun
      obtain ⟨rfl, rfl⟩ := Prod.mk.inj hrun
      exact sound_planAt hr (h w hp) hs
  refine ⟨steps, steps, ?_⟩
  intro w₁ w₂ b w₂' hr₁ hr₂ hs hp₁ hp₂ hrun hd
  have hdw := hr₂.disciplined (steps hr₂ hp₂ hrun).1 hd
  have hrun : (CachedDispatch.planSlot t i request).run w₂ = (b, w₂') := Except.ok.inj hrun
  have hslot := hs.slot? t i
  rcases hs₂ : w₂.slot? t i with _ | s₂
  · rw [hs₂, Option.map_none, Option.map_eq_none_iff] at hslot
    rw [hnone hs₂] at hrun
    cases hrun
    exact ⟨none, w₁, congrArg Except.ok (hnone hslot), rfl, hs⟩
  rw [hs₂, Option.map_some, Option.map_eq_some_iff] at hslot
  obtain ⟨s₁, hs₁, hplain⟩ := hslot
  rw [hsome hs₂] at hrun
  obtain ⟨rfl, rfl⟩ := Prod.mk.inj hrun
  have hcontext : w₁.siteContext t s₁ = w₂.siteContext t s₂ := by
    have hname : s₁.name = s₂.name := (congrArg Slot.name hplain :)
    simp only [siteContext, hs.tableRuntime, hs.tableOwner, hname]
  have hrt₁ : w₁.Hosts (w₁.siteContext t s₁).runtime := fun hone => (hr₁.housed hone).tables t
  have hrt₂ : w₂.Hosts (w₂.siteContext t s₂).runtime := fun hone => (hr₂.housed hone).tables t
  obtain ⟨hplan₂, hworld₂⟩ := faithfully_planAt hr₂ (h w₂ hp₂) hs₂ (Or.inl hd)
  obtain ⟨hplan, hworld⟩ := same_run (.planFully (Lasting.entails_self _) request) hr₁ hr₂ hs
    (hcontext ▸ hrt₁) hrt₂ (hworld₂.symm.disciplined hd)
  rw [← hcontext] at hplan hworld hplan₂ hworld₂
  have hd₁ := hworld.disciplined (hworld₂.symm.disciplined hd)
  obtain ⟨hplan₁, hworld₁⟩ := faithfully_planAt hr₁ (h w₁ hp₁) hs₁ (Or.inr hd₁)
  refine ⟨_, _, congrArg Except.ok (hsome hs₁), ?_, ?_⟩
  · exact congrArg some (hplan₁.trans (hplan.trans hplan₂.symm))
  · exact hworld₁.trans (hworld.trans hworld₂.symm)

end CachedDispatch
