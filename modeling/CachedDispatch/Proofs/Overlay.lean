import CachedDispatch.Proofs.Visits

/-!
Categories are a scoped overlay. While any is in force, slots and their statistics stay as they are,
the categories come before everything else in calls on values and change nothing in other requests,
and the end of a block puts in force what was in force before it.
-/
namespace CachedDispatch

open World

namespace Category

variable {lin : Lineage} {active : List Category} {c : Category} {receiver : Value} {name : String}
  {args : List Value} {m : Method}

/-- The category has an overload for the arguments at one of the types of the receiver. -/
def Applies (lin : Lineage) (c : Category) (receiver : Value) (name : String) (args : List Value) :
    Prop :=
  ∃ t ∈ targets lin receiver, ∃ m ∈ c.overloads t name, m.rank? lin args ≠ none

/-- The method is the best overload, at the nearest type that has an applicable one, of the innermost
category that has any. -/
def Prevails (lin : Lineage) (active : List Category) (receiver : Value) (name : String)
    (args : List Value) (m : Method) : Prop :=
  ∃ inner c outer, active = inner ++ c :: outer
    ∧ (∀ c' ∈ inner, ¬ c'.Applies lin receiver name args)
    ∧ ∃ nearer target farther, targets lin receiver = nearer ++ target :: farther
      ∧ (∀ t ∈ nearer, ∀ n ∈ c.overloads t name, n.rank? lin args = none)
      ∧ ∃ d, FirstLeast (·.rank? lin args) (c.overloads target name) (some (d, m))

private theorem find?_eq_none_iff :
    c.find? lin receiver name args = none ↔ ¬ c.Applies lin receiver name args := by
  simp only [find?, List.findSome?_eq_none_iff, pick, pickBy_eq_none_iff, Applies, not_exists,
    not_and, not_not]

private theorem findActive?_eq_none_iff :
    findActive? lin active receiver name args = none
      ↔ ∀ c ∈ active, ¬ c.Applies lin receiver name args := by
  simp only [findActive?, List.findSome?_eq_none_iff, find?_eq_none_iff]

private theorem prevails_of_findActive? (h : findActive? lin active receiver name args = some m) :
    Prevails lin active receiver name args m := by
  obtain ⟨inner, c, outer, rfl, hfind, hinner⟩ := List.findSome?_eq_some_iff.mp h
  obtain ⟨nearer, target, farther, htargets, hpick, hnearer⟩ := List.findSome?_eq_some_iff.mp hfind
  refine ⟨inner, c, outer, rfl, fun c' hc' => find?_eq_none_iff.mp (hinner c' hc'), nearer, target,
    farther, htargets, fun t ht => pickBy_eq_none_iff.mp (hnearer t ht), ?_⟩
  exact firstLeast_of_pickBy hpick

end Category

/-- The world with no category in force. -/
def World.quiet (w : World) : World := { w with active := [] }

/-- The computation does the same with no category in force. -/
private def Update.Unaware {α : Type} (u : Update α) : Prop :=
  ∀ w : World, u.run w.quiet = ((u.run w).1, (u.run w).2.quiet)

namespace Update.Unaware

variable {α β : Type}

private theorem pure (a : α) : Update.Unaware (Pure.pure a : Update α) := fun _ => rfl

private theorem bind {u : Update α} {f : α → Update β} (hu : Update.Unaware u)
    (hf : ∀ a, Update.Unaware (f a)) : Update.Unaware (u >>= f) := by
  intro w
  rw [Update.run_bind, Update.run_bind, hu w]
  exact hf _ _

private theorem look {k : World → Update β} (hk : ∀ w, k w.quiet = k w)
    (hu : ∀ w, Update.Unaware (k w)) : Update.Unaware (get >>= k) := by
  intro w
  rw [Update.run_get_bind, Update.run_get_bind, hk w]
  exact hu w w

private theorem fst_eq {u : Update α} (hu : Update.Unaware u) (w : World) :
    (u.run w.quiet).1 = (u.run w).1 := by rw [hu w]

end Update.Unaware

section Unaware

open Update

variable (rt : Nat) (c : Site.Context)

private theorem World.quiet_rootClass (w : World) (b : BuiltinType) :
    w.quiet.rootClass rt b = ((w.rootClass rt b).1, (w.rootClass rt b).2.quiet) := by
  have hreg : w.quiet.registry rt = w.registry rt := rfl
  unfold rootClass
  rw [hreg]
  split <;> rfl

private theorem World.quiet_findClass (w : World) (t : TypeId) :
    w.quiet.findClass rt t = ((w.findClass rt t).1, (w.findClass rt t).2.quiet) := by
  have hreg : w.quiet.registry rt = w.registry rt := rfl
  unfold findClass
  simp only [hreg, quiet_rootClass]
  split
  · rfl
  split
  · rfl
  split
  · rfl
  split <;> rfl

private theorem unaware_recordSlowPath : Unaware (recordSlowPath rt) := fun _ => rfl

private theorem unaware_allocate : Unaware (modifyGet World.allocate) := fun _ => rfl

private theorem unaware_rootClass (b : BuiltinType) : Unaware (modifyGet (·.rootClass rt b)) :=
  fun w => w.quiet_rootClass rt b

private theorem unaware_findClass (t : TypeId) : Unaware (modifyGet (·.findClass rt t)) :=
  fun w => w.quiet_findClass rt t

private theorem unaware_classOf (v : Value) : Unaware (modifyGet (·.classOf rt v)) := by
  rcases classOf_cases v with ⟨o, rfl⟩ | ⟨t, -, hof⟩
  · exact fun _ => rfl
  · simp only [hof]
    exact unaware_findClass rt t

private theorem unaware_classOrFault (v : Value) : Unaware (classOrFault rt v) := by
  refine (unaware_classOf rt v).bind fun found => ?_
  cases found with
  | some r => exact .pure _
  | none => exact .look (fun _ => rfl) fun _ => .pure _

private theorem unaware_typeOrFault (t : TypeId) : Unaware (typeOrFault rt t) := by
  refine (unaware_findClass rt t).bind fun found => ?_
  cases found with
  | some r => exact .pure _
  | none => exact .pure _

private theorem unaware_planNullCall (args : List Value) : Unaware (planNullCall c args) := by
  refine (unaware_rootClass _ _).bind fun null => .look (fun _ => rfl) fun w => ?_
  dsimp only
  split <;> exact .pure _

private theorem unaware_planNullProperty : Unaware (planNullProperty c) := by
  refine (unaware_rootClass _ _).bind fun null => .look (fun _ => rfl) fun w => ?_
  split <;> exact .pure _

private theorem unaware_planMissingMethod (cls : ClassRef) (receiver : Value) (args : List Value) :
    Unaware (planMissingMethod c cls receiver args) := by
  refine unaware_allocate.bind fun alloc => .look (fun _ => rfl) fun w => ?_
  dsimp only
  split <;> exact .pure _

private theorem unaware_planStatic (t : TypeId) (args : List Value) :
    Unaware (planStatic c t args) := by
  refine (unaware_recordSlowPath _).bind fun _ => (unaware_typeOrFault _ t).bind fun found => ?_
  cases found with
  | error f => exact .pure _
  | ok r =>
    refine .look (fun _ => rfl) fun w => ?_
    dsimp only
    split <;> exact .pure _

private theorem unaware_planConstruct (t : TypeId) (args : List Value) :
    Unaware (planConstruct c t args) := by
  refine (unaware_recordSlowPath _).bind fun _ => (unaware_typeOrFault _ t).bind fun found => ?_
  cases found with
  | error f => exact .pure _
  | ok r =>
    refine .look (fun _ => rfl) fun w => ?_
    dsimp only
    split
    · exact .pure _
    split
    · exact .pure _
    split <;> exact .pure _

private theorem unaware_planClassProperty (t : TypeId) : Unaware (planClassProperty c t) := by
  refine (unaware_typeOrFault _ t).bind fun found => ?_
  cases found with
  | error f => exact .pure _
  | ok r =>
    refine .look (fun _ => rfl) fun w => ?_
    dsimp only
    split <;> exact .pure _

private theorem unaware_planInstanceProperty (receiver : Value) :
    Unaware (planInstanceProperty c receiver) := by
  refine (unaware_classOrFault _ receiver).bind fun found => ?_
  cases found with
  | error f => exact .pure _
  | ok r =>
    refine .look (fun _ => rfl) fun w => ?_
    dsimp only
    split
    · split <;> exact .pure _
    · exact .pure _
    · refine .look (fun _ => rfl) fun w => ?_
      dsimp only
      split <;> exact .pure _

private theorem unaware_planProperty (receiver : Value) : Unaware (planProperty c receiver) := by
  refine (unaware_recordSlowPath _).bind fun _ => ?_
  split
  · exact unaware_planNullProperty c
  · exact .pure _
  · exact unaware_planClassProperty c _
  · exact unaware_planInstanceProperty c _

/-- A call for which no category has an overload comes to the same plan with no category in force. -/
private theorem planInstanceCall_quiet {w : World} (current : Bool) {receiver : Value}
    {args : List Value} (h : Category.findActive? w.lineage w.active receiver c.name args = none) :
    ((planInstanceCall c current receiver args).run w.quiet).1
      = ((planInstanceCall c current receiver args).run w).1 := by
  have hcounted : Category.findActive? (w.counted c.runtime).lineage (w.counted c.runtime).active
      receiver c.name args = none := h
  have hquiet : Category.findActive? (w.counted c.runtime).quiet.lineage
      (w.counted c.runtime).quiet.active receiver c.name args = none := rfl
  have hcommute : w.quiet.counted c.runtime = (w.counted c.runtime).quiet := rfl
  unfold planInstanceCall
  rw [run_recordSlowPath_bind, run_recordSlowPath_bind, hcommute, Update.run_get_bind,
    Update.run_get_bind, hcounted, hquiet]
  dsimp only
  refine Unaware.fst_eq ((unaware_classOrFault _ receiver).bind fun found => ?_) (w.counted c.runtime)
  cases found with
  | error f => exact .pure _
  | ok r =>
    refine .look (fun _ => rfl) fun w => ?_
    split
    · exact .pure _
    split
    · exact .pure _
    · exact unaware_planMissingMethod c r receiver _

end Unaware

section Plans

variable {w w' : World} {c : Site.Context} {t : TableRef} {i : Nat} {slot : Slot} {request : Request}

/-- The request is a call on a value that is neither null nor a class. -/
def Request.CallsOn (request : Request) (receiver : Value) (args : List Value) : Prop :=
  (∃ current, request = .call current receiver args) ∧ receiver ≠ .null
    ∧ ∀ type, receiver ≠ .classLiteral type

/-- With a category in force no site serves anything. -/
private theorem Site.cached?_eq_none (h : w.active ≠ []) (site : Site) (request : Request) :
    site.cached? w request = none := by
  have hloud (hq : w.hasActiveCategory = false) : False := h (by simpa [hasActiveCategory] using hq)
  rcases hc : site.cached? w request with _ | plan
  · rfl
  · cases cached?_eq_some_iff.mp hc with
    | call _ hv | static _ hv | construct hv | bean _ hv => exact (hloud hv.quiet).elim
    | property _ hq => exact (hloud hq).elim

/-- With a category in force a slot looks everything up. -/
private theorem Course.of_active {r : Decision × World} (h : Course w t i slot request r)
    (hc : w.active ≠ []) :
    r = (lookedUp (planFully (w.siteContext t slot) request)).run w
      ∨ request.onNull = true ∧ r = (lookedUp (planOnNull (w.siteContext t slot) request)).run w := by
  have hloud (hcache : Cacheable w t slot request) : False :=
    hc (by simpa [hasActiveCategory] using hcache.quiet)
  cases h with
  | hit h =>
    rw [Site.cached?_eq_none hc] at h
    cases h
  | onNull h => exact Or.inr ⟨h, rfl⟩
  | uncached => exact Or.inl rfl
  | givenUp hcache | unresolved hcache | installed hcache => exact (hloud hcache).elim

/-- A count does not change which class is found, nor what is in it. -/
private theorem rootClass_counted (w : World) (rt rt' : Nat) (b : BuiltinType) :
    ((w.counted rt).rootClass rt' b).1 = (w.rootClass rt' b).1
      ∧ ((w.counted rt).rootClass rt' b).2.hierarchy = (w.rootClass rt' b).2.hierarchy
      ∧ ((w.counted rt).rootClass rt' b).2.lineage = (w.rootClass rt' b).2.lineage := by
  have hreg : (w.counted rt).registry rt' = w.registry rt' := w.registry_updateStats ..
  unfold rootClass enterBuiltin
  rw [hreg]
  split <;> exact ⟨rfl, rfl, rfl⟩

private theorem planNullProperty_counted (w : World) (rt : Nat) :
    ((planNullProperty c).run (w.counted rt)).1 = ((planNullProperty c).run w).1 := by
  obtain ⟨hr, hhier, hlin⟩ := rootClass_counted w rt c.runtime .nullObject
  unfold planNullProperty
  rw [Update.run_modifyGet_bind, Update.run_modifyGet_bind, Update.run_get_bind, Update.run_get_bind,
    hr, hhier, hlin]
  split <;> rw [Update.run_pure, Update.run_pure]

/-- What goes to null comes to the plan of a full lookup. -/
theorem plan_planOnNull (h : request.onNull = true) (w : World) :
    ((planOnNull c request).run w).1 = ((planFully c request).run w).1 := by
  cases request with
  | static | construct => cases h
  | call current receiver args =>
    cases receiver with
    | null =>
      have hsame : planOnNull c (.call current .null args) = planFully c (.call current .null args) :=
        rfl
      rw [hsame]
    | _ => cases h
  | property receiver =>
    cases receiver with
    | null =>
      have hfull : (planFully c (.property .null)).run w
          = (planNullProperty c).run (w.counted c.runtime) := run_recordSlowPath_bind _ w
      rw [hfull, planNullProperty_counted]
      rfl
    | _ => cases h

/-- Where no category has an overload, a full lookup comes to the same plan with none in force. -/
private theorem planFully_quiet
    (h : ∀ receiver args, request.CallsOn receiver args →
      Category.findActive? w.lineage w.active receiver c.name args = none) :
    ((planFully c request).run w.quiet).1 = ((planFully c request).run w).1 := by
  cases request with
  | static type args => exact (unaware_planStatic c type args).fst_eq w
  | construct type args => exact (unaware_planConstruct c type args).fst_eq w
  | property receiver => exact (unaware_planProperty c receiver).fst_eq w
  | call current receiver args =>
    by_cases hnull : receiver = .null
    · subst hnull
      exact (unaware_planNullCall c args).fst_eq w
    by_cases hclass : ∃ type, receiver = .classLiteral type
    · obtain ⟨type, rfl⟩ := hclass
      exact (unaware_planStatic c type args).fst_eq w
    have hclass (type : TypeId) : receiver ≠ .classLiteral type := fun heq => hclass ⟨type, heq⟩
    rw [planFully_instanceCall hnull hclass]
    exact planInstanceCall_quiet c current (h receiver args ⟨⟨current, rfl⟩, hnull, hclass⟩)

/-- An overload of a category comes first. -/
private theorem planFully_categorized {receiver : Value} {args : List Value} {m : Method}
    (hr : request.CallsOn receiver args)
    (h : Category.findActive? w.lineage w.active receiver c.name args = some m) :
    ((planFully c request).run w).1 = .invokeWith m receiver args := by
  obtain ⟨⟨current, rfl⟩, hnull, hclass⟩ := hr
  have hcounted : Category.findActive? (w.counted c.runtime).lineage (w.counted c.runtime).active
      receiver c.name args = some m := h
  rw [planFully_instanceCall hnull hclass, planInstanceCall, run_recordSlowPath_bind,
    Update.run_get_bind, hcounted]
  rfl

end Plans

namespace World

/-- Every slot is as it was, and the counters differ in the number of full lookups at most. -/
structure SparesSlots (w w' : World) : Prop where
  slot : ∀ t i slot, w.slot? t i = some slot → w'.slot? t i = some slot
  runtimes : w.runtimes.size ≤ w'.runtimes.size
  stats : ∀ rt, rt < w.runtimes.size → (w'.runtime rt).stats
    = { (w.runtime rt).stats with slowPathCalls := (w'.runtime rt).stats.slowPathCalls }

namespace SparesSlots

variable {w w' w'' : World}

private theorem refl (w : World) : w.SparesSlots w := ⟨fun _ _ _ h => h, Nat.le_refl _, fun _ _ => rfl⟩

theorem trans (h : w.SparesSlots w') (h' : w'.SparesSlots w'') : w.SparesSlots w'' := by
  refine ⟨fun t i slot hs => h'.slot t i slot (h.slot t i slot hs),
    Nat.le_trans h.runtimes h'.runtimes, fun rt hrt => ?_⟩
  rw [h'.stats rt (Nat.lt_of_lt_of_le hrt h.runtimes), h.stats rt hrt]

theorem of_eq (ht : w'.tables = w.tables) (hr : w'.runtimes = w.runtimes) : w.SparesSlots w' := by
  refine ⟨fun t i slot hs => (slot?_of_tables_eq ht t i).trans hs, hr ▸ Nat.le_refl _,
    fun rt _ => ?_⟩
  rw [runtime, hr]
  rfl

/-- The books say whether slots are spared. -/
private theorem of_books {rt : Nat} {f : Stats → Stats}
    (hf : ∀ s, f s = { s with slowPathCalls := (f s).slowPathCalls })
    (h : w'.books = w.books.count rt f) : w.SparesSlots w' := by
  have ht : w'.tables = w.tables := congrArg Books.tables h
  have haccount (rt' : Nat) : w'.books.account rt' = (w.books.count rt f).account rt' := by rw [h]
  refine ⟨fun t i slot hs => (slot?_of_tables_eq ht t i).trans hs, ?_, fun rt' _ => ?_⟩
  · have hsize := congrArg (fun b : Books => b.accounts.size) h
    simp only [books, Books.count, Array.size_map, Array.size_modify] at hsize
    exact Nat.le_of_eq hsize.symm
  · have hstats := congrArg Account.stats (haccount rt')
    rw [account_books, Books.account_count, account_books] at hstats
    dsimp only at hstats
    split at hstats
    · rw [hstats]
      exact hf _
    · rw [hstats]

private theorem of_books_eq (h : w'.books = w.books) : w.SparesSlots w' :=
  @of_books w w' 0 id (fun _ => rfl) (h.trans (w.books.count_id 0).symm)

private theorem newRuntime (w : World) (config : Config) : w.SparesSlots (w.newRuntime config).2 := by
  refine ⟨fun _ _ _ h => h, by simp, fun rt hrt => ?_⟩
  have hkept : (w.newRuntime config).2.runtime rt = w.runtime rt := by
    simp only [runtime, World.newRuntime, getD_push, if_neg (Nat.ne_of_lt hrt)]
  rw [hkept]

private theorem addTable (w : World) (table : Table) : w.SparesSlots (w.addTable table).2 := by
  refine ⟨fun t i slot hs => ?_, Nat.le_refl _, fun _ _ => rfl⟩
  have hold : t.idx < w.tables.size := Books.lt_of_slot (b := w.books) hs
  rw [slot?, table_addTable, if_neg (Nat.ne_of_lt hold)]
  exact hs

/-- Full lookups leave slots alone. -/
private theorem allowsLookups (rt : Nat) : AllowsLookups rt SparesSlots where
  refl := refl
  trans := trans
  findClass w t := of_books_eq (w.books_findClass rt t)
  allocate _ := of_eq rfl rfl

theorem of_lookedUp {c : Site.Context} {request : Request} {r : Decision × World}
    (h : r = (lookedUp (planFully c request)).run w
      ∨ request.onNull = true ∧ r = (lookedUp (planOnNull c request)).run w) : w.SparesSlots r.2 := by
  have hcharged (rt : Nat) : w.SparesSlots (w.charged rt request) := by
    unfold charged
    split
    · exact refl w
    · exact of_books (fun _ => rfl) (w.books_updateStats rt Stats.slow)
  rcases h with rfl | ⟨hnull, rfl⟩
  · exact (hcharged _).trans (makes_planFully (allowsLookups _) request w)
  · exact makes_planOnNull (allowsLookups _).toAllowsSearch hnull w

private theorem planAt {t : TableRef} {i : Nat} {slot : Slot} (request : Request)
    (hs : w.slot? t i = some slot) (hi : slot.header.index = i) (hc : w.active ≠ []) :
    w.SparesSlots ((CachedDispatch.planAt t slot request).run w).2 :=
  of_lookedUp ((course_planAt hs hi request).of_active hc)

end SparesSlots

variable {w w' : World} {base : List Category}

/-- With a category in force no deed touches a slot. -/
private theorem Deed.sparesSlots (hd : Deed w w') (hw : w.Attained) (hc : w.active ≠ []) :
    w.SparesSlots w' := by
  cases hd with
  | findClass rt t => exact .of_books_eq (w.books_findClass rt t)
  | replaceClass hr rt => exact .of_books_eq (w.books_replaceClass rt _)
  | defineClass rt parent members => exact .of_books_eq (w.books_defineClass rt parent members)
  | draftClass key rt name isHost => exact .of_books_eq (w.books_beginClass rt name isHost)
  | finishClass _ parent members => exact .of_books_eq (w.books_buildClass _ parent members)
  | plan hs ha => exact .planAt _ hs (hw.visited.balanced.index _ _ _ hs) hc
  | newRuntime config => exact .newRuntime w config
  | addTable hrt owner sites => exact .addTable w _
  | _ => exact .of_eq rfl rfl

/-- A deed under the categories of `base` that touches no slot. -/
def DeedAside (base : List Category) (w w' : World) : Prop := DeedOver base w w' ∧ w.SparesSlots w'

private theorem DeedsOver.aside (h : DeedsOver base w w') (hbase : base ≠ []) (hw : w.Attained) :
    Relation.ReflTransGen (DeedAside base) w w' ∧ w.SparesSlots w' := by
  induction h with
  | refl => exact ⟨.refl, .refl w⟩
  | @tail w₁ w₂ hpath hd ih =>
    have hw₁ : w₁.Attained := hw.deeds (DeedsOver.deeds hpath)
    have hact : w₁.active ≠ [] := fun hnil => hbase (List.suffix_nil.mp (hnil ▸ hd.2.1))
    have hspares := hd.1.sparesSlots hw₁ hact
    exact ⟨ih.1.tail ⟨hd, hspares⟩, ih.2.trans hspares⟩

end World

section Scoped

variable {w w' : World} {fuel : Nat}

private theorem goesOn_answer {t : TableRef} {i : Nat} {safe : Bool} {request : Request}
    {answer : Except Fault Value}
    (h : (Machine.answer (.ofScripts (Script.evalBody fuel)) t i safe request).result.run w
      = .ok (answer, w')) : GoesOn w w' := by
  have hW := allowsSteps_goesOn.toAllowsWork
  have hrun := Runner.makes_ofScripts hW (Script.makes_session allowsSteps_goesOn fuel).1
  unfold Machine.answer at h
  split at h
  · exact makes_dispatchSafe hW allowsSteps_goesOn.plan hrun t i request h
  · exact makes_dispatch hW allowsSteps_goesOn.plan hrun t i request h

/-- Inside a block the category is in force before all others, and so it is at the end of the block,
whose end puts in force what was in force before it. -/
private theorem block_restores (hw : w.Attained) {name : String} {steps : List Script.Step}
    {answer : Script.Answer}
    (h : (Script.withCategory (Script.performSteps fuel) name steps).run w = .ok (answer, w')) :
    ∃ c replies w₁, Assoc.get? w.scope.categories name = some c
      ∧ (Script.performSteps fuel steps).run { w with active := c :: w.active } = .ok (replies, w₁)
      ∧ w₁.active = c :: w.active ∧ w' = { w₁ with active := w.active } ∧ w.SparesSlots w' := by
  obtain ⟨c, replies, w₁, hc, hrun, rfl⟩ := Script.withCategory_eq_ok h
  have hpushed := hw.deed (.activate w (c :: w.active))
  obtain ⟨hd, ha⟩ := (Script.makes_session allowsSteps_goesOn fuel).2 steps hrun hpushed.inOrder
  obtain ⟨-, hspares⟩ := hd.aside (List.cons_ne_nil _ _) hpushed
  have hpop : w₁.active.tail = w.active := congrArg List.tail ha
  rw [hpop]
  exact ⟨c, replies, w₁, hc, hrun, ha, rfl, hspares.slot, hspares.runtimes, hspares.stats⟩

/-- While categories are in force, nothing that a dispatch does touches a slot, and neither do the
dispatches inside it. A call on a value runs the overload of the innermost category that has one for
it, and everything else is planned as if no category were in force. Blocks restore what was in force
before them, and bodies of methods leave it as it is, whether or not they fail. -/
theorem categories_overlay_dispatch (hw : w.Attained) :
    (w.active ≠ [] →
      (∀ fuel t i safe request answer w',
        (Machine.answer (.ofScripts (Script.evalBody fuel)) t i safe request).result.run w
            = .ok (answer, w') →
          Relation.ReflTransGen (DeedAside w.active) w w' ∧ w.SparesSlots w')
      ∧ ∀ t i slot request, w.slot? t i = some slot →
        (∀ receiver args, request.CallsOn receiver args →
          (∃ c ∈ w.active, c.Applies w.lineage receiver slot.name args) →
            ∃ m, Category.Prevails w.lineage w.active receiver slot.name args m
              ∧ ((planAt t slot request).run w).1.plan = .invokeWith m receiver args)
        ∧ ((∀ receiver args, request.CallsOn receiver args →
            ∀ c ∈ w.active, ¬ c.Applies w.lineage receiver slot.name args) →
          ((planAt t slot request).run w).1.plan
            = ((planFully (w.siteContext t slot) request).run w.quiet).1))
    ∧ (∀ fuel name steps answer w',
      (Script.withCategory (Script.performSteps fuel) name steps).run w = .ok (answer, w') →
        ∃ c replies w₁, Assoc.get? w.scope.categories name = some c
          ∧ (Script.performSteps fuel steps).run { w with active := c :: w.active } = .ok (replies, w₁)
          ∧ w₁.active = c :: w.active ∧ w' = { w₁ with active := w.active } ∧ w.SparesSlots w')
    ∧ ∀ fuel body frame result w',
      (Script.evalBody fuel body frame).result.run w = .ok (result, w') → w'.active = w.active := by
  refine ⟨fun hc => ⟨fun fuel t i safe request answer w' h => ?_, fun t i slot request hs => ?_⟩,
    fun fuel name steps answer w' h => block_restores hw h, fun fuel body frame result w' h => ?_⟩
  · exact (goesOn_answer h hw.inOrder).1.aside hc hw
  · have hi : slot.header.index = i := hw.visited.balanced.index t i slot hs
    have hplan : ((planAt t slot request).run w).1.plan
        = ((planFully (w.siteContext t slot) request).run w).1 := by
      rcases (course_planAt hs hi request).of_active hc with hr | ⟨hnull, hr⟩ <;> rw [hr]
      · rfl
      · exact plan_planOnNull hnull w
    rw [hplan]
    refine ⟨fun receiver args hr happlies => ?_, fun hnone => ?_⟩
    · rcases hfound : Category.findActive? w.lineage w.active receiver slot.name args with _ | m
      · obtain ⟨c, hc, happlies⟩ := happlies
        exact absurd happlies (Category.findActive?_eq_none_iff.mp hfound c hc)
      · exact ⟨m, Category.prevails_of_findActive? hfound, planFully_categorized hr hfound⟩
    · refine (planFully_quiet fun receiver args hr => ?_).symm
      exact Category.findActive?_eq_none_iff.mpr (hnone receiver args hr)
  · exact ((Script.makes_session allowsSteps_goesOn fuel).1 body frame h hw.inOrder).2

/-- A session that fills a slot for `m` and declares a category with another `m`. -/
def Script.categorical : List Script.Step := [
  .defineClass ⟨⟨"A", none, [], [], [
    { name := "m", params := [], body := .const (.int 1) }], none⟩, "A", false⟩,
  .defineCategory "K" [(.named "A", { name := "m", params := [], body := .const (.int 2) })],
  .newObject (.named "A") "a",
  .newTable "t" (.named "A") [("m", .call)],
  .call "t" 0 .call (.stored "a") [] none]

/-- The call on the object of the session, with its category in force. -/
def answerCategorical (w : World) (c : Category) : Except Stop (Except Fault Value × World) :=
  (Machine.answer (.ofScripts (Script.evalBody 8)) ⟨0⟩ 0 false (.call false (.object ⟨0⟩) [])).result.run
    { w with active := [c] }

private def isTwo : Except Stop (Except Fault Value × World) → Bool
  | .ok (.ok (.int n), _) => n = 2
  | _ => false

private theorem eq_of_isTwo {out : Except Stop (Except Fault Value × World)} (h : isTwo out = true) :
    ∃ w', out = .ok (.ok (.int 2), w') := by
  unfold isTwo at h
  split at h
  · exact ⟨_, by rw [of_decide_eq_true h]⟩
  · cases h

/-- Whether the slot is filled, the category has an `m` for the object, and the call answers with it. -/
private def categoricalOverlays : Option Bool :=
  match (Script.performSteps 8 Script.categorical).run (initial {}) with
  | .ok (_, w) => (w.slot? ⟨0⟩ 0).bind fun slot =>
      (Assoc.get? w.scope.categories "K").map fun c =>
        decide (slot.site.tag = .dynamicMethod)
          && (c.find? w.lineage (.object ⟨0⟩) slot.name []).isSome
          && isTwo (answerCategorical w c)
  | .error _ => none

/-- The slot is filled, and yet the call runs the method of the category and leaves the slot alone. -/
theorem categories_overlay_dispatch_categorical : ∃ replies w slot c m w',
    (Script.performSteps 8 Script.categorical).run (initial {}) = .ok (replies, w)
      ∧ w.slot? ⟨0⟩ 0 = some slot ∧ slot.site.tag = .dynamicMethod
      ∧ Assoc.get? w.scope.categories "K" = some c
      ∧ Category.Prevails w.lineage [c] (.object ⟨0⟩) slot.name [] m
      ∧ ((planAt ⟨0⟩ slot (.call false (.object ⟨0⟩) [])).run { w with active := [c] }).1.plan
        = .invokeWith m (.object ⟨0⟩) []
      ∧ answerCategorical w c = .ok (.ok (.int 2), w') ∧ w'.slot? ⟨0⟩ 0 = some slot := by
  have hcheck : categoricalOverlays = some true := by decide +kernel
  unfold categoricalOverlays at hcheck
  rcases hrun : (Script.performSteps 8 Script.categorical).run (initial {}) with
    stop | ⟨replies, w⟩ <;> rw [hrun] at hcheck
  · cases hcheck
  · obtain ⟨slot, hs, hcheck⟩ := Option.bind_eq_some_iff.mp hcheck
    obtain ⟨c, hc, hcheck⟩ := Option.map_eq_some_iff.mp hcheck
    simp only [Bool.and_eq_true, decide_eq_true_eq] at hcheck
    obtain ⟨⟨htag, hfind⟩, htwo⟩ := hcheck
    obtain ⟨w', hanswer⟩ := eq_of_isTwo htwo
    have happlies : c.Applies w.lineage (.object ⟨0⟩) slot.name [] := by
      by_contra hnone
      rw [Category.find?_eq_none_iff.mpr hnone] at hfind
      cases hfind
    have hattained := (attained_of_session hrun).deed (.activate w [c])
    obtain ⟨hspares, hplans⟩ := (categories_overlay_dispatch hattained).1 (List.cons_ne_nil _ _)
    obtain ⟨m, hm, hplan⟩ := (hplans ⟨0⟩ 0 slot (.call false (.object ⟨0⟩) []) hs).1 (.object ⟨0⟩) []
      ⟨⟨false, rfl⟩, nofun, nofun⟩ ⟨c, List.mem_singleton_self c, happlies⟩
    exact ⟨replies, w, slot, c, m, w', rfl, hs, htag, hc, hm, hplan, hanswer,
      (hspares _ _ _ _ _ _ _ hanswer).2.slot _ _ _ hs⟩

end Scoped

end CachedDispatch
