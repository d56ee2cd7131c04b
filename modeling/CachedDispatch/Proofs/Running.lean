import CachedDispatch.Machine
import CachedDispatch.Proofs.Invocation
import CachedDispatch.Proofs.Slots

/-!
Dispatch behaves alike in worlds that differ only in what slots hold, provided that the code it runs
does. So does the stack machine, which changes the world by dispatch and allocation alone.
-/
namespace CachedDispatch

open World

variable {α β ε : Type} {P : Lasting}

private theorem Exec.run_adapt (g : ε → ε) (x : Exec ε α) :
    (ExceptT.adapt g x).run = x.run >>= fun r => Pure.pure (r.mapError g) := by
  change Except.mapError g <$> x.run = _
  rw [map_eq_pure_bind]

private theorem Exec.adapt_id (x : Exec ε α) : ExceptT.adapt id x = x := by
  refine ExceptT.ext ?_
  rw [Exec.run_adapt]
  have hid : (fun r : Except ε α => (Pure.pure (r.mapError id) : Act _)) = Pure.pure :=
    funext fun r => by cases r <;> rfl
  rw [hid, bind_pure]

/-- An execution that behaves alike in both worlds, and answers or fails the same. -/
abbrev Exec.Steady (P : Lasting) (Q : α → Lasting) (x : Exec ε α) : Prop :=
  CachedDispatch.Steady P (.ofResult Q) x.run

namespace Exec.Steady

variable {Q : α → Lasting} {R : β → Lasting}

theorem bind {x : Exec ε α} {f : α → Exec ε β} (h : Exec.Steady P Q x)
    (hf : ∀ a, Exec.Steady ((Q a).and P) R (f a)) : Exec.Steady P R (x >>= f) := by
  refine CachedDispatch.Steady.bind h fun result => ?_
  cases result with
  | ok a => exact hf a
  | error e => exact CachedDispatch.Steady.pure _ (Lasting.entails_none _)

theorem pure (a : α) (hq : P.Entails (Q a)) : Exec.Steady P Q (Pure.pure a : Exec ε α) :=
  CachedDispatch.Steady.pure _ hq

theorem throw (e : ε) : Exec.Steady P Q (throw e : Exec ε α) :=
  CachedDispatch.Steady.pure _ (Lasting.entails_none _)

theorem lift {x : Act α} (h : CachedDispatch.Steady P Q x) :
    Exec.Steady P Q (ExceptT.lift x : Exec ε α) := by
  have heq : (ExceptT.lift x : Exec ε α).run = x >>= fun a => Pure.pure (.ok a) := by
    rw [ExceptT.run_lift, map_eq_pure_bind]
  unfold Exec.Steady
  rw [heq]
  exact h.bind fun a => CachedDispatch.Steady.pure _ (Lasting.entails_self _).left

theorem ofUpdate {u : Update α} (h : CachedDispatch.Steady P Q (Act.ofUpdate u)) :
    Exec.Steady P Q (Exec.ofUpdate u : Exec ε α) := lift h

theorem look {k : World → Exec ε β}
    (hφ : ∀ w₁ w₂, w₁.Matched w₂ → P.holds w₁ → P.holds w₂ → k w₁ = k w₂)
    (hk : ∀ w, Exec.Steady P R (k w)) : Exec.Steady P R (get >>= k) :=
  CachedDispatch.Steady.look (fun w => (k w).run) (fun w₁ w₂ hm h₁ h₂ => by rw [hφ w₁ w₂ hm h₁ h₂]) hk

private theorem change {f : World → World} {Q : Unit → Lasting}
    (hm : ∀ w, w.Reachable → P.holds w → Moves w (f w) ∧ (Q ()).holds (f w))
    (hf : ∀ w₁ w₂, w₁.Matched w₂ → P.holds w₁ → P.holds w₂ → (f w₁).Same (f w₂)) :
    Exec.Steady P Q (modify f : Exec ε Unit) :=
  lift (.act (fun w => ((), f w)) hm fun w₁ w₂ h h₁ h₂ => ⟨rfl, hf w₁ w₂ h h₁ h₂⟩)

private theorem adapt {x : Exec ε α} (h : Exec.Steady P Q x) (g : ε → ε) :
    Exec.Steady P Q (ExceptT.adapt g x) := by
  unfold Exec.Steady
  rw [Exec.run_adapt]
  refine CachedDispatch.Steady.bind h fun result => ?_
  cases result with
  | ok a => exact CachedDispatch.Steady.pure _ (Lasting.entails_self _).left
  | error f => exact CachedDispatch.Steady.pure _ (Lasting.entails_none _)

private theorem record (e : Event) :
    Exec.Steady P (fun _ => .none) (modify (·.record e) : Exec ε Unit) :=
  change (fun w _ _ => ⟨.single (.record w e), trivial⟩) fun _ _ hm _ _ => hm.same.record e

theorem setField (o : ObjectRef) (name : String) (v : Value) :
    Exec.Steady P (fun _ => .none) (modify (·.setField o name v) : Exec ε Unit) :=
  change (fun w _ _ => ⟨.single (.setField w o name v), trivial⟩) fun _ _ hm _ _ =>
    hm.same.setField o name v

end Exec.Steady

/-- Executions that behave alike, and answer the same or fail the same up to layers. -/
private abbrev Exec.Alike (P : Lasting) (Q : α → Lasting) (x y : Exec Fault α) : Prop :=
  CachedDispatch.Alike P (Except.mapError Fault.bare) (.ofResult Q) x.run y.run

namespace Exec.Alike

variable {Q : α → Lasting} {R : β → Lasting}

/-- Layers on the failures of one execution. -/
private theorem adapt {x : Exec Fault α} (h : Exec.Steady P Q x) {g g' : Fault → Fault}
    (hg : ∀ f, (g f).bare = (g' f).bare) :
    Exec.Alike P Q (ExceptT.adapt g x) (ExceptT.adapt g' x) := by
  unfold Exec.Alike
  rw [Exec.run_adapt, Exec.run_adapt]
  refine CachedDispatch.Alike.bind h fun r r' hr => ?_
  obtain rfl : r = r' := hr
  cases r with
  | ok a => exact CachedDispatch.Alike.pure rfl (Lasting.entails_self _).left
  | error f => exact CachedDispatch.Alike.pure (congrArg Except.error (hg f)) (Lasting.entails_none _)

private theorem of_steady {x : Exec Fault α} (h : Exec.Steady P Q x) : Exec.Alike P Q x x := by
  have hid : Exec.Alike P Q (ExceptT.adapt id x) (ExceptT.adapt id x) := adapt h fun _ => rfl
  rwa [Exec.adapt_id] at hid

private theorem bind {x y : Exec Fault α} {f g : α → Exec Fault β} (h : Exec.Alike P Q x y)
    (hf : ∀ a, Exec.Alike ((Q a).and P) R (f a) (g a)) : Exec.Alike P R (x >>= f) (y >>= g) := by
  refine CachedDispatch.Alike.bind h fun r r' hr => ?_
  cases r with
  | ok a =>
    cases r' with
    | ok b =>
      obtain rfl : a = b := Except.ok.inj hr
      exact hf a
    | error e => cases hr
  | error e =>
    cases r' with
    | ok b => cases hr
    | error e' =>
      exact CachedDispatch.Alike.pure (congrArg Except.error (Except.error.inj hr))
        (Lasting.entails_none _)

/-- Without the layers they are the same. -/
private theorem stripped {x y : Exec Fault α} (h : Exec.Alike P Q x y) :
    CachedDispatch.Alike P id (.ofResult Q) (stripped x).run (stripped y).run := by
  unfold CachedDispatch.stripped
  rw [Exec.run_adapt, Exec.run_adapt]
  refine CachedDispatch.Alike.bind h fun r r' hr => ?_
  refine CachedDispatch.Alike.pure hr ?_
  cases r with
  | ok a => exact (Lasting.entails_self _).left
  | error f => exact Lasting.entails_none _

end Exec.Alike

/-- A runner whose code behaves alike, whatever it may rely on. -/
def Runner.Steady (run : Runner) : Prop :=
  ∀ P code frame, Exec.Steady P (fun _ => .none) (run code frame)

variable {run : Runner}

theorem Steady.newObject {r : ClassRef} (h : P.Entails (.has r)) :
    Steady P (fun _ => .none) (modifyGet (·.newObject r)) :=
  act _ (fun w _ hp => ⟨.single (.newObject (h w hp)), trivial⟩) fun w₁ w₂ hm h₁ h₂ =>
    hm.newObject (h w₁ h₁ hm.tame₁.toLone).toPlaced (h w₂ h₂ hm.tame₂.toLone).toPlaced

theorem Method.steady_invoke (hrun : run.Steady) (m : Method) (receiver : Value) (args : List Value) :
    Exec.Steady P (fun _ => .none) (m.invoke run receiver args) := by
  unfold Method.invoke
  split
  · exact hrun P _ _
  · split
    · exact (hrun P _ _).bind fun _ => .pure _ (Lasting.entails_none _)
    · refine .look (fun w₁ w₂ hm _ _ => ?_) fun _ => .throw _
      simp only [World.typeName, hm.same.naming]

private theorem Method.steady_construct (hrun : run.Steady) {cls : ClassRef} (h : P.Entails (.has cls))
    (m : Method) (args : List Value) :
    Exec.Steady P (fun _ => .none) (m.construct run cls args) := by
  unfold Method.construct
  split
  · exact .look (fun w₁ w₂ hm _ _ => by simp only [hm.same.id]) fun _ => hrun P _ _
  · refine (Exec.Steady.ofUpdate (Steady.ofUpdate_modifyGet (.newObject h))).bind fun o => ?_
    exact (hrun _ _ _).bind fun _ => .pure _ (Lasting.entails_none _)

private theorem steady_runPrimitive (p : Primitive) (frame : Frame) :
    Exec.Steady P (fun _ => .none) (runPrimitive p frame) := by
  unfold runPrimitive
  refine (Exec.Steady.ofUpdate (Steady.ofUpdate_modifyGet .allocate)).bind fun n => ?_
  refine .look (fun w₁ w₂ hm _ _ => by simp only [hm.same.naming]) fun w => ?_
  split
  · exact .pure _ (Lasting.entails_none _)
  · exact .throw _

theorem Runner.steady_ofScripts {script : Script.Body → Frame → Exec Fault Value}
    (h : ∀ P body frame, Exec.Steady P (fun _ => .none) (script body frame)) :
    (Runner.ofScripts script).Steady := by
  intro P code frame
  refine (Exec.Steady.record _).bind fun _ => ?_
  cases code with
  | primitive p => exact steady_runPrimitive p frame
  | script body => exact h _ body frame

private theorem steady_setProperties (hrun : run.Steady) {rt : Nat} (hrt : P.Entails (.hosts rt))
    (target : Value) (entries : List (String × Value)) :
    Exec.Steady P (fun _ => .none) (setProperties run rt target entries) := by
  induction entries generalizing P with
  | nil => exact .pure _ (Lasting.entails_none _)
  | cons e entries ih =>
    obtain ⟨name, v⟩ := e
    unfold setProperties
    refine (Exec.Steady.ofUpdate (.planSetProperty hrt target name v)).bind fun plan => ?_
    have hrest {Q : Lasting} (hq : Q.Entails (.hosts rt)) := ih hq
    cases plan with
    | setField o field v =>
      exact (Exec.Steady.setField o field v).bind fun _ => hrest hrt.right.right
    | invoke m receiver args =>
      exact ((m.steady_invoke hrun receiver args).adapt _).bind fun _ => hrest hrt.right.right
    | fail f => exact (Exec.Steady.throw f).bind (Q := fun _ => .none) fun _ => hrest hrt.right.right
    | _ => exact hrest hrt.right

/-- A plan does the same, wherever it comes from. -/
private theorem Plan.alike_run (hrun : run.Steady) {rt : Nat} (hrt : P.Entails (.hosts rt))
    {plan : Plan} (h : P.Entails plan.classes) (o₁ o₂ : Origin) :
    Exec.Alike P (fun _ => .none) (plan.run run rt o₁) (plan.run run rt o₂) := by
  have hpass (f : Fault) : (o₁.pass f).bare = (o₂.pass f).bare := by rw [o₁.bare_pass, o₂.bare_pass]
  cases plan with
  | invoke m receiver args => exact .adapt (m.steady_invoke hrun receiver args) hpass
  | hook body receiver name args => exact .adapt (hrun P _ _) hpass
  | construct cls m args => exact .adapt (m.steady_construct hrun h args) hpass
  | bean cls m args entries =>
    refine .bind (.adapt (m.steady_construct hrun h args) hpass) fun target => ?_
    have hset := steady_setProperties hrun (hrt.right (p := .none)) target entries
    have hrest (g g' : Fault → Fault) (hg : ∀ f, (g f).bare = (g' f).bare) :=
      Exec.Alike.bind (Exec.Alike.adapt hset hg) fun _ =>
        .of_steady (.pure target (Q := fun _ => .none) (Lasting.entails_none _))
    cases o₁ <;> cases o₂
    · simpa only [Exec.adapt_id] using hrest id id fun _ => rfl
    · simpa only [Exec.adapt_id, stripped] using hrest id Fault.bare fun f => f.bare_bare.symm
    · simpa only [Exec.adapt_id, stripped] using hrest Fault.bare id Fault.bare_bare
    · exact hrest Fault.bare Fault.bare fun _ => rfl
  | answer v => exact .of_steady (.pure _ (Lasting.entails_none _))
  | setField o name v =>
    exact .of_steady ((Exec.Steady.setField o name v).bind fun _ => .pure _ (Lasting.entails_none _))
  | fail f => exact .of_steady (.throw f)

private theorem Exec.ofUpdate_bind (u : Update α) (f : α → Update β) :
    (Exec.ofUpdate (u >>= f) : Exec ε β) = Exec.ofUpdate u >>= fun a => Exec.ofUpdate (f a) := rfl

private theorem Exec.run_ofUpdate_bind (u : Update α) (f : α → Exec ε β) :
    (Exec.ofUpdate u >>= f).run = Act.ofUpdate u >>= fun a => (f a).run := rfl

theorem Exec.ofUpdate_pure (a : α) : (Exec.ofUpdate (pure a) : Exec ε α) = pure a := rfl

private theorem Exec.ofUpdate_get : (Exec.ofUpdate get : Exec ε World) = get := rfl

/-- A request is served by planning first and running the plan then. -/
private theorem serve_eq (run : Runner) (t : TableRef) (i : Nat) (request : Request) :
    serve run t i request = (do
      match ← Exec.ofUpdate (planSlot t i request) with
      | none => throw (.invalidSlot i)
      | some decision => do
        decision.plan.run run ((← get).table t).runtime decision.origin : Exec Fault Value) := by
  unfold serve planSlot
  rw [Exec.ofUpdate_bind, Exec.ofUpdate_get, bind_assoc]
  refine bind_congr fun w => ?_
  rcases w.slot? t i with _ | s
  · simp only [Exec.ofUpdate_pure, pure_bind]
  · simp only [Exec.ofUpdate_bind, Exec.ofUpdate_pure, bind_assoc, pure_bind]

private theorem alike_serve (hrun : run.Steady) {t : TableRef} {i : Nat} {request : Request}
    (h : P.Entails (.asked t i request)) :
    Exec.Alike P (fun _ => .none) (serve run t i request) (serve run t i request) := by
  rw [serve_eq]
  unfold Exec.Alike
  rw [Exec.run_ofUpdate_bind]
  -- the slots may come by their plans in different ways, but the plans are the same
  refine Alike.bind (Alike.planSlot h) fun found found' hfound => ?_
  cases found with
  | none =>
    cases found' with
    | none => exact Exec.Alike.of_steady (.throw _)
    | some d' => cases hfound
  | some d =>
    obtain ⟨d', rfl, hplan⟩ : ∃ d', found' = some d' ∧ d.plan = d'.plan := by
      cases found' with
      | none => cases hfound
      | some d' => exact ⟨d', rfl, Option.some.inj hfound⟩
    refine Alike.read (Q := .hosts) id (fun w => (w.table t).runtime)
      (fun rt => (d.plan.run run rt d.origin).run) (fun rt => (d'.plan.run run rt d'.origin).run)
      (fun w hr _ hone => (hr.housed hone).tables t) (fun w₁ w₂ hm _ _ => hm.same.tableRuntime t)
      fun rt rt' hrt => ?_
    obtain rfl : rt = rt' := hrt
    rw [← hplan]
    exact d.plan.alike_run hrun (Lasting.entails_self _).left
      (Lasting.entails_self d.plan.classes).left.right d.origin d'.origin

/-- Dispatch behaves alike, if the code that it runs does. -/
theorem steady_dispatch (hrun : run.Steady) (t : TableRef) (i : Nat) (request : Request) :
    Exec.Steady P (fun _ => .none) (dispatch run t i request) := by
  have hask : Exec.Steady P (fun _ => .asked t i request)
      (modify (·.record (.asked t i request)) : Exec Fault Unit) :=
    .change (fun w _ _ => ⟨.single (.record w _), List.mem_cons_self⟩) fun _ _ hm _ _ =>
      hm.same.record _
  refine hask.bind fun _ => ?_
  have ha := (Lasting.entails_self (.asked t i request)).left (q := P)
  have hserve := (alike_serve hrun ha).stripped
  refine (Exec.Steady.lift hserve).bind fun answer => (Exec.Steady.record _).bind fun _ => ?_
  cases answer with
  | ok v => exact .pure v (Lasting.entails_none _)
  | error f => exact .throw f

theorem steady_dispatchSafe (hrun : run.Steady) (t : TableRef) (i : Nat) (request : Request) :
    Exec.Steady P (fun _ => .none) (dispatchSafe run t i request) := by
  unfold dispatchSafe
  split
  · exact .pure _ (Lasting.entails_none _)
  · exact steady_dispatch hrun t i request

namespace Machine

private theorem steady_build (m : Machine) (make : Nat → Value) :
    Steady P (fun _ => .none) (Act.ofUpdate (m.build make)) :=
  (Steady.ofUpdate_modifyGet .allocate).ofUpdate_bind fun _ =>
    .ofUpdate_pure _ (Lasting.entails_none _)

/-- An instruction looks at the machine only, and at most allocates. -/
private theorem steady_exec (u : LoadedUnit) (m : Machine) (i : Instr) :
    Steady P (fun _ => .none) (Act.ofUpdate (exec u m i)) := by
  have hpure (e : Effect) : Steady P (fun _ => .none) (Act.ofUpdate (pure e)) :=
    .ofUpdate_pure e (Lasting.entails_none _)
  cases i with
  | newList n =>
    simp only [exec]
    split
    · exact steady_build _ _
    · exact hpure _
  | newMap n =>
    simp only [exec]
    split
    · exact hpure _
    · split
      · exact steady_build _ _
      · exact hpure _
  | newRange =>
    simp only [exec]
    split
    · exact hpure _
    · exact steady_build _ _
    · exact hpure _
    · exact hpure _
  | wrap i =>
    simp only [exec]
    split
    · exact hpure _
    · exact hpure _
    · exact steady_build _ _
  | stloc i =>
    simp only [exec]
    split
    · exact hpure _
    · split <;> exact hpure _
  | nop | ldnull | ldthis | br | brfalse | not | invoke => exact hpure _
  | ret | ldc | ldloc | ldclass | pop | dup | getProp =>
    simp only [exec]
    split <;> exact hpure _

private theorem steady_step (hrun : run.Steady) (u : LoadedUnit) (m : Machine) :
    Steady P (fun _ => .none) (step run u m) := by
  unfold step
  split
  · exact Steady.pure _ (Lasting.entails_none _)
  · refine (steady_exec u _ _).bind fun effect => ?_
    cases effect with
    | next m => exact Steady.pure _ (Lasting.entails_none _)
    | done v => exact Steady.pure _ (Lasting.entails_none _)
    | fail e => exact Steady.pure _ (Lasting.entails_none _)
    | dispatch slot safe request m' =>
      have hanswer (P : Lasting) : Exec.Steady P (fun _ => .none)
          (answer run u.table slot safe request) := by
        unfold answer
        split
        · exact steady_dispatchSafe hrun _ _ _
        · exact steady_dispatch hrun _ _ _
      refine Steady.bind (hanswer _) fun result => ?_
      cases result with
      | ok v => exact Steady.pure _ (Lasting.entails_none _)
      | error f => exact Steady.pure _ (Lasting.entails_none _)

/-- A run of a unit behaves alike, if the code of the methods it calls does. -/
theorem steady_run (hrun : run.Steady) (u : LoadedUnit) (fuel : Nat) (m : Machine) :
    Steady P (fun _ => .none) (Machine.run run u fuel m) := by
  induction fuel generalizing P m with
  | zero => exact Alike.stop _ _
  | succ fuel ih =>
    unfold Machine.run
    refine (steady_step hrun u m).bind fun status => ?_
    cases status with
    | running m => exact ih m
    | ended result m => exact Steady.pure _ (Lasting.entails_none _)

end Machine

theorem Steady.defineClass {rt : Nat} (h : P.Entails (.hosts rt)) {parent : Option ClassRef}
    (hp : ∀ p ∈ parent, P.Entails (.has p)) (members : ClassMembers) :
    Steady P (fun made => .has made.2) (modifyGet fun w =>
      let (id, r, w) := w.defineClass rt parent members
      ((id, r), w)) := by
  refine act _ (fun w hr hw => ⟨.single (.defineClass (h w hw) (fun p hm => hp p hm w hw) members), ?_⟩)
    fun w₁ w₂ hm h₁ h₂ => ?_
  · intro hs
    have hone := hr.lone_of_moves
      (.single (.defineClass (h w hw) (fun p hm => hp p hm w hw) members)) hs
    obtain rfl := h w hw hone
    have hbegun := hs.supplied
    have hlt : 0 < w.runtimes.size := Nat.lt_of_lt_of_eq Nat.one_pos hone.single.symm
    dsimp only at hbegun
    rw [begun_defineClass, if_pos ⟨rfl, hlt⟩] at hbegun
    exact (hr.orderly hone).entered_defineClass hbegun (fun p hm => (hp p hm w hw hone).toPlaced) members
  · obtain rfl := h w₂ h₂ hm.tame₂.toLone
    obtain ⟨hid, hr, hs⟩ := hm.defineClass
      (fun p hmem => (hp p hmem w₁ h₁ hm.tame₁.toLone).toPlaced)
      (fun p hmem => (hp p hmem w₂ h₂ hm.tame₂.toLone).toPlaced) members
    exact ⟨Prod.ext hid hr, hs⟩

theorem Steady.draftClass {rt : Nat} (h : P.Entails (.hosts rt)) (key name : String) (isHost : Bool) :
    Steady P (fun _ => .none) (modifyGet (·.draftClass key rt name isHost)) := by
  refine act _ (fun w _ hw => ⟨.single (.draftClass (h w hw) key name isHost), trivial⟩)
    fun w₁ w₂ hm _ h₂ => ?_
  obtain rfl := h w₂ h₂ hm.tame₂.toLone
  exact hm.draftClass key name isHost

/-- The same drafts are kept in both worlds, so both build a class or neither does. -/
theorem Steady.buildDraft {parent : Option ClassRef} (hp : ∀ p ∈ parent, P.Entails (.has p))
    (key : String) (members : ClassMembers) :
    Steady P (.ofOption fun made => .has made.2) (modifyGet (·.buildDraft key parent members)) := by
  refine act _ (fun w hr hw => ?_) fun w₁ w₂ hm h₁ h₂ => ?_
  · unfold World.buildDraft
    split
    · rename_i d hd
      have hmove : Moves w (w.finishClass key d parent members).2 :=
        .single (.finishClass hd (fun p hmem => hp p hmem w hw) members)
      refine ⟨hmove, fun hs => ?_⟩
      have hone := hr.lone_of_moves hmove hs
      exact (hr.orderly hone).entered_finishClass hd (fun p hmem => (hp p hmem w hw hone).toPlaced) members
    · exact ⟨.refl, trivial⟩
  · unfold World.buildDraft
    rw [hm.same.drafts]
    split
    · rename_i d hd
      obtain ⟨hr, hs⟩ := hm.finishClass hd
        (fun p hmem => (hp p hmem w₁ h₁ hm.tame₁.toLone).toPlaced)
        (fun p hmem => (hp p hmem w₂ h₂ hm.tame₂.toLone).toPlaced) members
      exact ⟨congrArg (fun r => some (d.id, r)) hr, hs⟩
    · exact ⟨rfl, hm.same⟩

theorem Steady.addTable {rt : Nat} (h : P.Entails (.hosts rt)) (owner : TypeId)
    (sites : List (String × SiteKind)) :
    Steady P (fun _ => .none) (modifyGet (·.addTable (.ofSites owner rt sites))) :=
  act _ (fun w _ hw => ⟨.single (.addTable (h w hw) owner sites), trivial⟩) fun _ _ hm _ _ =>
    hm.same.addTable _

theorem steady_load {rt : Nat} (h : P.Entails (.hosts rt)) (p : Program) :
    Steady P (fun _ => .none) (Act.ofUpdate (load rt p)) := by
  have hnone {R : ClassRef → Prop} : ∀ q ∈ (none : Option ClassRef), R q :=
    fun _ hn => (Option.not_mem_none _ hn).elim
  unfold load
  refine (Steady.ofUpdate_modifyGet (Q := fun _ => .none)
    (.act _ (fun w _ hw => ?_) fun w₁ w₂ hm _ h₂ => ?_)).ofUpdate_bind fun owner => ?_
  · rcases (w.registry rt).lookup? p.manifest.owner with _ | t <;> dsimp only
    · exact ⟨.single (.defineClass (h w hw) hnone _), trivial⟩
    · exact ⟨.refl, trivial⟩
  · obtain rfl := h w₂ h₂ hm.tame₂.toLone
    rcases hl : (w₂.registry 0).lookup? p.manifest.owner with _ | t <;>
      simp only [hm.same.names, hl]
    · exact (hm.defineClass hnone hnone _).imp_right And.right
    · exact ⟨trivial, hm.same⟩
  refine .ofUpdate_look _ (fun w₁ w₂ hm h₁ _ => ?_) fun w => ?_
  · obtain rfl := h w₁ h₁.2 hm.tame₁.toLone
    simp only [hm.same.names]
  · dsimp only
    split
    · exact .ofUpdate_pure _ (Lasting.entails_none _)
    · exact (Steady.ofUpdate_modifyGet (.addTable h.right owner _)).ofUpdate_bind fun _ =>
        .ofUpdate_pure _ (Lasting.entails_none _)

end CachedDispatch
