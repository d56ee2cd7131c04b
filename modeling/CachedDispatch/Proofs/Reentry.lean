import CachedDispatch.Proofs.Changes
import CachedDispatch.Proofs.Course
import CachedDispatch.Proofs.Transparency

/-!
A dispatch resolves at most once and writes its slot at most once, and it ends where the code that it
invokes ends. What a site has served once it serves again, without a look at anything but its own
memory, as long as the classes that it depends on stay as they are.
-/
namespace CachedDispatch

open World

section Counting

variable {b b' : Books} {t : TableRef} {i : Nat} {slot : Slot}

/-- Only the slot itself is written. -/
private theorem Posting.tables (h : Posting b t i slot b') :
    ∃ f, b'.tables = (b.write t i f).tables := by
  cases h with
  | idle | slow | missed => exact ⟨id, (congrArg Books.tables (b.write_id t i).symm :)⟩
  | givenUp | installed => exact ⟨_, rfl⟩

/-- Resolutions are counted one by one, and a write counts as an install or as giving up. -/
private theorem Posting.counts (h : Posting b t i slot b') (rt : Nat) :
    (b'.account rt).stats.resolutions ≤ (b.account rt).stats.resolutions + 1
      ∧ (b'.account rt).stats.installs + (b'.account rt).stats.megamorphicTransitions
        ≤ (b.account rt).stats.installs + (b.account rt).stats.megamorphicTransitions + 1 := by
  have hcount (b : Books) (rt' : Nat) (f : Stats → Stats)
      (hf : ∀ s, (f s).resolutions ≤ s.resolutions + 1 ∧ (f s).installs + (f s).megamorphicTransitions
        ≤ s.installs + s.megamorphicTransitions + 1) :
      ((b.count rt' f).account rt).stats.resolutions ≤ (b.account rt).stats.resolutions + 1
        ∧ ((b.count rt' f).account rt).stats.installs
            + ((b.count rt' f).account rt).stats.megamorphicTransitions
          ≤ (b.account rt).stats.installs + (b.account rt).stats.megamorphicTransitions + 1 := by
    rw [Books.account_count]
    split
    · exact hf _
    · omega
  cases h with
  | idle => omega
  | slow => exact hcount b _ _ fun s => ⟨Nat.le_succ _, Nat.le_succ _⟩
  | givenUp => exact hcount _ _ _ fun s => ⟨Nat.le_succ _, Nat.le_refl _⟩
  | missed => exact hcount b _ _ fun s => ⟨Nat.le_refl _, Nat.le_succ _⟩
  | installed =>
    exact hcount _ _ _ fun s => ⟨Nat.le_refl _, Nat.le_of_eq (Nat.add_right_comm _ 1 _)⟩

end Counting

/-- The entry point that a request comes through. -/
def Request.kind : Request → SiteKind
  | .call false _ _ => .call
  | .call true _ _ => .callCurrent
  | .static _ _ => .callStatic
  | .construct _ _ => .callConstructor
  | .property _ => .getProperty

/-- Whether the site is for the receiver of the request. -/
def Site.admits (w : World) : Site → Request → Bool
  | .method guard _ _, .call _ receiver _ => guard.admits w receiver
  | .method guard _ _, .static t _ => guard.admits w (.classLiteral t)
  | .constructor type _, .construct t _ | .bean type _, .construct t _ => t = type
  | .property guard _ _ _, .property receiver => guard.admits w receiver
  | _, _ => false

/-- The class whose line the site depends on. -/
def Site.cls? : Site → Option ClassRef
  | .method _ target _ | .constructor _ target | .bean _ target => some target.cls
  | .property _ cls _ _ => some cls
  | _ => none

/-- No class in the line of `cls` has changed its members. -/
structure World.LineKept (w w' : World) (cls : ClassRef) : Prop where
  ancestors : (w'.cls cls).ancestors = (w.cls cls).ancestors
  stamps : ∀ r ∈ cls :: (w.cls cls).ancestors, (w'.cls r).stamp = (w.cls r).stamp

section Again

variable {w w' : World} {site : Site} {request request' : Request}

private theorem World.LineKept.version {cls : ClassRef} (h : w.LineKept w' cls) :
    w'.version cls = w.version cls := by
  have hsum (rs : List ClassRef) (hrs : ∀ r ∈ rs, (w'.cls r).stamp = (w.cls r).stamp) :
      (rs.map w'.cls).foldr (fun c n => c.stamp + n) 0
        = (rs.map w.cls).foldr (fun c n => c.stamp + n) 0 := by
    induction rs with
    | nil => rfl
    | cons r rs ih =>
      simp only [List.map_cons, List.foldr_cons, hrs r List.mem_cons_self,
        ih fun q hq => hrs q (List.mem_cons_of_mem _ hq)]
  unfold World.version Hierarchy.version Hierarchy.classes World.hierarchy
  rw [h.ancestors]
  exact hsum (cls :: (w.cls cls).ancestors) h.stamps

private theorem Target.Valid.again {target : Target} {args args' : List Value} (h : target.Valid w args)
    (hline : w.LineKept w' target.cls) (hshape : Shape.of w'.lineage args' = Shape.of w.lineage args)
    (hquiet : w'.hasActiveCategory = false) : target.Valid w' args' :=
  ⟨hline.version.trans h.version, h.shape.trans hshape.symm, hquiet⟩

/-- The shape of the arguments before a map. -/
private theorem shape_positional {lin lin' : Lineage} {args args' p p' : List Value}
    {es es' : List (String × Value)} (hb : beanSplit? args = some (p, es))
    (hb' : beanSplit? args' = some (p', es')) (h : Shape.of lin' args' = Shape.of lin args) :
    Shape.of lin' p' = Shape.of lin p := by
  obtain ⟨n, rfl⟩ := eq_append_of_beanSplit? hb
  obtain ⟨n', rfl⟩ := eq_append_of_beanSplit? hb'
  simp only [Shape.of, List.map_append] at h
  exact (List.append_inj' h rfl).1

/-- The site is asked what it has been asked before, as far as it looks at requests, and nothing that
it depends on has changed. -/
structure Site.Recurs (site : Site) (w : World) (request : Request) (w' : World)
    (request' : Request) : Prop where
  kind : request'.kind = request.kind
  admits : site.admits w' request' = true
  shape : Shape.of w'.lineage request'.args = Shape.of w.lineage request.args
  line : ∀ cls ∈ site.cls?, w.LineKept w' cls
  quiet : w'.hasActiveCategory = false

/-- A site that serves a request serves it when it recurs. -/
private theorem Site.Recurs.cached? (hrecurs : site.Recurs w request w' request') {plan : Plan}
    (h : site.cached? w request = some plan)
    (hbean : site.tag = .beanConstructor → (beanSplit? request'.args).isSome) :
    (site.cached? w' request').isSome := by
  obtain ⟨hkind, hadmits, hshape, hline, hquiet⟩ := hrecurs
  -- the site is for requests of this kind alone, so only one of the cases of the other request is left
  cases cached?_eq_some_iff.mp h with
  | @call guard target current receiver args _ hvalid =>
    cases request' with
    | call current' receiver' args' =>
      obtain rfl : current' = current := by
        cases current <;> cases current' <;> first | rfl | cases hkind
      exact (Serves.call hadmits (hvalid.again (hline _ rfl) hshape hquiet)).isSome_cached?
    | static | construct | property => cases current <;> cases hkind
  | static _ hvalid =>
    cases request' with
    | static t' args' =>
      exact (Serves.static hadmits (hvalid.again (hline _ rfl) hshape hquiet)).isSome_cached?
    | call current' => cases current' <;> cases hkind
    | construct | property => cases hkind
  | construct hvalid =>
    cases request' with
    | construct t' args' =>
      obtain rfl := of_decide_eq_true hadmits
      exact (Serves.construct (hvalid.again (hline _ rfl) hshape hquiet)).isSome_cached?
    | call current' => cases current' <;> cases hkind
    | static | property => cases hkind
  | bean hb hvalid =>
    -- the positional arguments of a bean have the shape that the site remembers
    cases request' with
    | construct t' args' =>
      obtain rfl := of_decide_eq_true hadmits
      obtain ⟨⟨p', es'⟩, hb'⟩ := Option.isSome_iff_exists.mp (hbean rfl)
      have hshape' := shape_positional hb hb' hshape
      exact (Serves.bean hb' (hvalid.again (hline _ rfl) hshape' hquiet)).isSome_cached?
    | call current' => cases current' <;> cases hkind
    | static | property => cases hkind
  | property =>
    cases request' with
    | property receiver' =>
      rw [← (hline _ rfl).version]
      exact (Serves.property hadmits hquiet).isSome_cached?
    | call current' => cases current' <;> cases hkind
    | static | construct => cases hkind

/-- A hit changes nothing. -/
private theorem planAt_of_hit {t : TableRef} {slot : Slot} {plan : Plan}
    (h : slot.site.cached? w request = some plan) :
    (planAt t slot request).run w = (⟨.memory, plan⟩, w) := by
  unfold planAt
  rw [Update.run_get_bind]
  dsimp only
  split
  · rename_i hsite
    rw [hsite] at h
    cases h
  · rw [h]
    rfl

end Again

section Dispatch

variable {run : Runner} {w w' : World} {t : TableRef} {i : Nat} {slot : Slot} {request : Request}

/-- The books stay as they are. -/
def World.SameBooks (w w' : World) : Prop := w'.books = w.books

private theorem allowsWork_sameBooks : AllowsWork SameBooks :=
  ⟨allowsLookups_books, fun _ _ => rfl, fun _ _ => rfl, fun _ _ _ _ => rfl⟩

/-- If the invoked code leaves the books alone, what remains is what the slot does. -/
private theorem posting_dispatch (hrun : run.Makes SameBooks) (hs : w.slot? t i = some slot)
    (hi : slot.header.index = i) {r : Except Fault Value}
    (h : (dispatch run t i request).result.run w = .ok (r, w')) :
    Posting w.books t i slot w'.books := by
  have hasked : (w.record (.asked t i request)).slot? t i = some slot := hs
  have hposting := (course_planAt hasked hi request).posting
  rcases hp : (planAt t slot request).run (w.record (.asked t i request)) with ⟨d, w₀⟩
  rw [hp] at hposting
  rw [result_dispatch, result_serve hasked hp] at h
  rcases hplan : (d.plan.run run (w₀.table t).runtime d.origin).result.run w₀ with
    s | ⟨f | v, w₁⟩ <;> rw [hplan] at h <;> cases h
  all_goals
    have hbooks : w₁.books = w₀.books := d.plan.makes_run allowsWork_sameBooks hrun _ _ hplan
    change Posting w.books t i slot w₁.books
    rw [hbooks]
    exact hposting

/-- A dispatch stops only where the code that its plan comes to run stops. -/
private theorem exists_invokes_of_dispatch_stops (hs : w.slot? t i = some slot) {s : Stop}
    (h : (dispatch run t i request).result.run w = .error s) :
    ∃ d w₀ code frame w₁,
      (planAt t slot request).run (w.record (.asked t i request)) = (d, w₀)
        ∧ d.plan.Invokes run (w₀.table t).runtime w₀ code frame w₁
        ∧ (run code frame).result.run w₁ = .error s := by
  rcases hp : (planAt t slot request).run (w.record (.asked t i request)) with ⟨d, w₀⟩
  have hasked : (w.record (.asked t i request)).slot? t i = some slot := hs
  rw [result_dispatch, result_serve hasked hp] at h
  rcases hrun : (d.plan.run run (w₀.table t).runtime d.origin).result.run w₀ with
    s' | ⟨f | v, w₁⟩ <;> rw [hrun] at h <;> cases h
  obtain ⟨code, frame, w₁, hi, hstop⟩ := Plan.exists_invokes_of_stops hrun
  exact ⟨d, w₀, code, frame, w₁, rfl, hi, hstop⟩

end Dispatch

/-- Apart from what the invoked code does, a dispatch resolves at most once and writes no slot but its
own, and that at most once. A fresh site serves the request that it was made for, so nothing depends on
what would be done otherwise; and a dispatch stops only where invoked code stops. What a site has
served it serves again without any change, if the request recurs and, for a bean, ends in a map. -/
theorem dispatch_resolves_once_and_recalls {w : World} (hr : w.Reachable) {t : TableRef} {i : Nat}
    {slot : Slot} (hs : w.slot? t i = some slot) (request : Request) :
    (∀ run, run.Makes SameBooks → ∀ r w',
      (dispatch run t i request).result.run w = .ok (r, w') →
        (∃ f, w'.tables = (w.updateSlot t i f).tables)
        ∧ ∀ rt, (w'.runtime rt).stats.resolutions ≤ (w.runtime rt).stats.resolutions + 1
          ∧ (w'.runtime rt).stats.installs + (w'.runtime rt).stats.megamorphicTransitions
            ≤ (w.runtime rt).stats.installs + (w.runtime rt).stats.megamorphicTransitions + 1)
    ∧ (∀ site w₁, (resolve (w.siteContext t slot) request).run w = (some site, w₁) →
      (site.cached? (w₁.installed t i (w.table t).runtime site) request).isSome)
    ∧ (slot.site.tag ≠ .megamorphic → ∀ again again',
      (planWith t slot.header (w.siteContext t slot) request again).run w
        = (planWith t slot.header (w.siteContext t slot) request again').run w)
    ∧ (∀ run s, (dispatch run t i request).result.run w = .error s →
      ∃ d w₀ code frame w₁, (planAt t slot request).run (w.record (.asked t i request)) = (d, w₀)
        ∧ d.plan.Invokes run (w₀.table t).runtime w₀ code frame w₁
        ∧ (run code frame).result.run w₁ = .error s)
    ∧ ∀ plan w₁ served, (planAt t slot request).run w = (⟨.memory, plan⟩, w₁) →
      w₁.slot? t i = some served →
      ∀ w₂ t' slot' request', slot'.site = served.site →
        served.site.Recurs w₁ request w₂ request' →
        (served.site.tag = .beanConstructor → (beanSplit? request'.args).isSome) →
          ∃ plan', (planAt t' slot' request').run w₂ = (⟨.memory, plan'⟩, w₂) := by
  have hi := hr.header_index hs
  refine ⟨fun run hrun r w' h => ?_, fun site w₁ h => ?_, fun hm => planWith_again hs hi hm request,
    fun run s => exists_invokes_of_dispatch_stops hs, fun plan w₁ served hp hserved => ?_⟩
  · have hposting := posting_dispatch hrun hs hi h
    obtain ⟨f, hf⟩ := hposting.tables
    refine ⟨⟨f, hf⟩, fun rt => ?_⟩
    simpa only [account_books] using hposting.counts rt
  · have hsome := isSome_cached?_of_resolve h
    rw [← hsome]
    exact congrArg Option.isSome (Site.cached?_congr rfl rfl rfl site request)
  · intro w₂ t' slot' request' hsite hrecurs hbean
    have hcourse := course_planAt hs hi request
    rw [hp] at hcourse
    have hit : served.site.cached? w₁ request = some plan := hcourse.served hs rfl hserved
    obtain ⟨plan', hit'⟩ := Option.isSome_iff_exists.mp (hrecurs.cached? hit hbean)
    rw [← hsite] at hit'
    exact ⟨plan', planAt_of_hit hit'⟩

/-- A session that makes an object of `A` from an empty map. -/
def Script.beans : List Script.Step := [
  .defineClass ⟨⟨"A", none, [], [], [
    { name := "<init>", params := [], body := .seq [], isInitializer := true }], none⟩, "A", false⟩,
  .newTable "t" (.named "A") [("<init>", .callConstructor)],
  .call "t" 0 .callConstructor (.classLiteral (.named "A")) [.map []] none]

/-- The world after that session. -/
def World.beans : World :=
  match (Script.performSteps 8 Script.beans).run (.initial {}) with
  | .ok (_, w) => w
  | .error _ => .initial {}

private theorem World.reachable_beans : beans.Reachable := by
  unfold beans
  split
  · rename_i hrun
    exact reachable_of_session hrun
  · exact ⟨{}, {}, .refl⟩

/-- A call of the constructor with one argument. -/
def Request.bean (v : Value) : Request := .construct ⟨64⟩ [v]

/-- The site recalls the call with a map, and the call with `v` recurs to it. -/
private theorem recurs_bean {slot : Slot} {v : Value}
    (h : (slot.site.admits beans (.bean v) = true
      ∧ Shape.of beans.lineage [v] = Shape.of beans.lineage [.map 0 []]
      ∧ beans.hasActiveCategory = false)) :
    slot.site.Recurs beans (.bean (.map 0 [])) beans (.bean v) :=
  ⟨rfl, h.1, h.2.1, fun _ _ => ⟨rfl, fun _ _ => rfl⟩, h.2.2⟩

/-- The site made for one map serves others. -/
theorem dispatch_resolves_once_and_recalls_bean : ∃ slot plan plan',
    beans.slot? ⟨0⟩ 0 = some slot
      ∧ (planAt ⟨0⟩ slot (.bean (.map 0 []))).run beans = (⟨.memory, plan⟩, beans)
      ∧ (planAt ⟨0⟩ slot (.bean (.map 1 [("x", .null)]))).run beans = (⟨.memory, plan'⟩, beans) := by
  have hcheck : ((beans.slot? ⟨0⟩ 0).map fun slot : Slot =>
      decide ((slot.site.cached? beans (.bean (.map 0 []))).isSome = true
        ∧ slot.site.admits beans (.bean (.map 1 [("x", .null)])) = true
        ∧ Shape.of beans.lineage [.map 1 [("x", .null)]] = Shape.of beans.lineage [.map 0 []]
        ∧ beans.hasActiveCategory = false)) = some true := by decide +kernel
  obtain ⟨slot, hslot, hcheck⟩ := Option.map_eq_some_iff.mp hcheck
  obtain ⟨hsome, hrecurs⟩ := of_decide_eq_true hcheck
  obtain ⟨plan, hit⟩ := Option.isSome_iff_exists.mp hsome
  obtain ⟨-, -, -, -, hrecalls⟩ :=
    dispatch_resolves_once_and_recalls reachable_beans hslot (.bean (.map 0 []))
  obtain ⟨plan', hplan'⟩ := hrecalls plan beans slot (planAt_of_hit hit) hslot beans ⟨0⟩ slot _ rfl
    (recurs_bean hrecurs) fun _ => rfl
  exact ⟨slot, plan, plan', hslot, planAt_of_hit hit, hplan'⟩

/-- For a host object of the type of maps it resolves again, though the request recurs. -/
theorem bean_not_recalled_for_host : ∃ slot plan, beans.slot? ⟨0⟩ 0 = some slot
    ∧ (planAt ⟨0⟩ slot (.bean (.map 0 []))).run beans = (⟨.memory, plan⟩, beans)
    ∧ slot.site.Recurs beans (.bean (.map 0 [])) beans (.bean (.host 0 .map "x"))
    ∧ (((planAt ⟨0⟩ slot (.bean (.host 0 .map "x"))).run beans).2.runtime 0).stats.resolutions
      = (beans.runtime 0).stats.resolutions + 1 := by
  have hcheck : ((beans.slot? ⟨0⟩ 0).map fun slot : Slot =>
      decide ((slot.site.cached? beans (.bean (.map 0 []))).isSome = true
        ∧ (slot.site.admits beans (.bean (.host 0 .map "x")) = true
          ∧ Shape.of beans.lineage [.host 0 .map "x"] = Shape.of beans.lineage [.map 0 []]
          ∧ beans.hasActiveCategory = false)
        ∧ (((planAt ⟨0⟩ slot (.bean (.host 0 .map "x"))).run beans).2.runtime 0).stats.resolutions
          = (beans.runtime 0).stats.resolutions + 1)) = some true := by decide +kernel
  obtain ⟨slot, hslot, hcheck⟩ := Option.map_eq_some_iff.mp hcheck
  obtain ⟨hsome, hrecurs, hresolved⟩ := of_decide_eq_true hcheck
  obtain ⟨plan, hit⟩ := Option.isSome_iff_exists.mp hsome
  exact ⟨slot, plan, hslot, planAt_of_hit hit, recurs_bean hrecurs, hresolved⟩

end CachedDispatch
