import CachedDispatch.Machine
import CachedDispatch.Proofs.Inspection
import CachedDispatch.Proofs.Invocation

/-!
What computations do to the world. A relation between worlds that lets pass what lookups do and what
the language does to objects bounds what a dispatch does, if it bounds what slots do and what the
invoked code does; and so for the machine.
-/
namespace CachedDispatch

variable {α β ε : Type} {R : World → World → Prop}

namespace World

/-- The relation lets pass whatever carrying out a plan does by itself. -/
structure AllowsWork (R : World → World → Prop) : Prop where
  lookups : ∀ rt, AllowsLookups rt R
  record : ∀ (w : World) (e : Event), R w (w.record e)
  newObject : ∀ (w : World) (r : ClassRef), R w (w.newObject r).2
  setField : ∀ (w : World) (o : ObjectRef) (name : String) (v : Value), R w (w.setField o name v)

namespace AllowsWork

theorem refl (hR : AllowsWork R) (w : World) : R w w := (hR.lookups 0).refl w

theorem trans (hR : AllowsWork R) {w₁ w₂ w₃ : World} (h₁ : R w₁ w₂) (h₂ : R w₂ w₃) : R w₁ w₃ :=
  (hR.lookups 0).trans h₁ h₂

theorem allocate (hR : AllowsWork R) (w : World) : R w w.allocate.2 := (hR.lookups 0).allocate w

theorem search (hR : AllowsWork R) (rt : Nat) : AllowsSearch rt R := (hR.lookups rt).toAllowsSearch

end AllowsWork

end World

open World

/-- The computation changes the world only as the relation allows. -/
def Act.Makes (R : World → World → Prop) (x : Act α) : Prop :=
  ∀ ⦃w a w'⦄, x.run w = .ok (a, w') → R w w'

namespace Act.Makes

theorem pure (hR : AllowsWork R) (a : α) : Act.Makes R (Pure.pure a) := by
  rintro w b w' ⟨⟩
  exact hR.refl w

theorem stop (s : Stop) : Act.Makes R (Act.stop s : Act α) := nofun

theorem bind {x : Act α} {f : α → Act β} (hx : Act.Makes R x) (hR : AllowsWork R)
    (hf : ∀ a, Act.Makes R (f a)) : Act.Makes R (x >>= f) := by
  intro w b w' h
  obtain ⟨a, w₁, hrun, h⟩ := Act.bind_eq_ok h
  exact hR.trans (hx hrun) (hf a h)

theorem look {k : World → Act β} (hk : ∀ w, Act.Makes R (k w)) : Act.Makes R (get >>= k) :=
  fun w _ _ h => hk w h

theorem act {f : World → α × World} (hf : ∀ w, R w (f w).2) :
    Act.Makes R (modifyGet f : Act α) := by
  intro w a w' h
  obtain rfl : (f w).2 = w' := congrArg Prod.snd (Except.ok.inj h)
  exact hf w

theorem change {f : World → World} (hf : ∀ w, R w (f w)) : Act.Makes R (modify f : Act Unit) :=
  act hf

theorem ofUpdate {u : Update α} (hu : Update.Makes R u) : Act.Makes R (Act.ofUpdate u) := by
  intro w a w' h
  obtain rfl : (u.run w).2 = w' := congrArg Prod.snd (Except.ok.inj h)
  exact hu w

theorem ofUpdate_bind {u : Update α} {f : α → Update β} (hu : Act.Makes R (Act.ofUpdate u))
    (hR : AllowsWork R) (hf : ∀ a, Act.Makes R (Act.ofUpdate (f a))) :
    Act.Makes R (Act.ofUpdate (u >>= f)) :=
  bind hu hR hf

theorem mapM (hR : AllowsWork R) {f : α → Act β} (hf : ∀ a, Act.Makes R (f a)) (as : List α) :
    Act.Makes R (as.mapM f) := by
  induction as with
  | nil => exact pure hR _
  | cons a as ih =>
    rw [List.mapM_cons]
    exact (hf a).bind hR fun _ => ih.bind hR fun _ => pure hR _

theorem forM (hR : AllowsWork R) {f : α → Act PUnit} (hf : ∀ a, Act.Makes R (f a)) (as : List α) :
    Act.Makes R (as.forM f) := by
  induction as with
  | nil => exact pure hR _
  | cons a as ih => exact (hf a).bind hR fun _ => ih

end Act.Makes

/-- The execution changes the world only as the relation allows, also when it fails. -/
abbrev Exec.Makes (R : World → World → Prop) (x : Exec ε α) : Prop := Act.Makes R x.run

namespace Exec.Makes

theorem pure (hR : AllowsWork R) (a : α) : Exec.Makes R (Pure.pure a : Exec ε α) :=
  Act.Makes.pure hR _

theorem throw (hR : AllowsWork R) (e : ε) : Exec.Makes R (throw e : Exec ε α) := Act.Makes.pure hR _

theorem bind {x : Exec ε α} {f : α → Exec ε β} (hx : Exec.Makes R x) (hR : AllowsWork R)
    (hf : ∀ a, Exec.Makes R (f a)) : Exec.Makes R (x >>= f) := by
  refine Act.Makes.bind hx hR fun result => ?_
  cases result with
  | ok a => exact hf a
  | error e => exact Act.Makes.pure hR _

theorem look {k : World → Exec ε β} (hk : ∀ w, Exec.Makes R (k w)) : Exec.Makes R (get >>= k) :=
  fun w _ _ h => hk w h

theorem lift (hR : AllowsWork R) {x : Act α} (hx : Act.Makes R x) :
    Exec.Makes R (ExceptT.lift x : Exec ε α) :=
  Act.Makes.bind hx hR fun _ => Act.Makes.pure hR _

private theorem change {f : World → World} (hf : ∀ w, R w (f w)) :
    Exec.Makes R (modify f : Exec ε Unit) := by
  rintro w a w' ⟨⟩
  exact hf w

private theorem record (hR : AllowsWork R) (e : Event) :
    Exec.Makes R (modify (·.record e) : Exec ε Unit) :=
  change fun w => hR.record w e

theorem setField (hR : AllowsWork R) (o : ObjectRef) (name : String) (v : Value) :
    Exec.Makes R (modify (·.setField o name v) : Exec ε Unit) := change fun w => hR.setField w o name v

private theorem ofUpdate (hR : AllowsWork R) {u : Update α} (hu : Update.Makes R u) :
    Exec.Makes R (Exec.ofUpdate u : Exec ε α) := lift hR (.ofUpdate hu)

private theorem adapt {x : Exec ε α} (hx : Exec.Makes R x) (hR : AllowsWork R) (g : ε → ε) :
    Exec.Makes R (ExceptT.adapt g x) :=
  Act.Makes.bind hx hR fun _ => Act.Makes.pure hR _

theorem mapM (hR : AllowsWork R) {f : α → Exec ε β} (hf : ∀ a, Exec.Makes R (f a)) (as : List α) :
    Exec.Makes R (as.mapM f) := by
  induction as with
  | nil => exact pure hR _
  | cons a as ih =>
    rw [List.mapM_cons]
    exact (hf a).bind hR fun _ => ih.bind hR fun _ => pure hR _

end Exec.Makes

/-- Whatever code is run, it changes the world only as the relation allows. -/
def Runner.Makes (R : World → World → Prop) (run : Runner) : Prop :=
  ∀ code frame, Exec.Makes R (run code frame)

section Invoked

variable {run : Runner}

theorem Method.makes_invoke (hR : AllowsWork R) (hrun : run.Makes R) (m : Method) (receiver : Value)
    (args : List Value) : Exec.Makes R (m.invoke run receiver args) := by
  unfold Method.invoke
  split
  · exact hrun _ _
  split
  · exact (hrun _ _).bind hR fun _ => .pure hR _
  · exact .look fun _ => .throw hR _

private theorem Method.makes_construct (hR : AllowsWork R) (hrun : run.Makes R) (cls : ClassRef)
    (m : Method) (args : List Value) : Exec.Makes R (m.construct run cls args) := by
  unfold Method.construct
  split
  · exact .look fun _ => hrun _ _
  · refine Exec.Makes.bind (.ofUpdate hR fun w => hR.newObject w cls) hR fun o => ?_
    exact (hrun _ _).bind hR fun _ => .pure hR _

private theorem makes_runPrimitive (hR : AllowsWork R) (p : Primitive) (frame : Frame) :
    Exec.Makes R (runPrimitive p frame) := by
  unfold runPrimitive
  refine Exec.Makes.bind (.ofUpdate hR hR.allocate) hR fun n => .look fun w => ?_
  split
  · exact .pure hR _
  · exact .throw hR _

theorem Runner.makes_ofScripts (hR : AllowsWork R) {script : Script.Body → Frame → Exec Fault Value}
    (h : ∀ body frame, Exec.Makes R (script body frame)) : (Runner.ofScripts script).Makes R := by
  intro code frame
  refine (Exec.Makes.record hR _).bind hR fun _ => ?_
  cases code with
  | primitive p => exact makes_runPrimitive hR p frame
  | script body => exact h body frame

private theorem makes_setProperties (hR : AllowsWork R) (hrun : run.Makes R) (rt : Nat) (target : Value)
    (entries : List (String × Value)) : Exec.Makes R (setProperties run rt target entries) := by
  induction entries with
  | nil => exact .pure hR _
  | cons e entries ih =>
    obtain ⟨name, v⟩ := e
    unfold setProperties
    refine (Exec.Makes.ofUpdate hR (makes_planSetProperty (hR.search rt) target name v)).bind hR
      fun plan => ?_
    cases plan with
    | setField o field v => exact (Exec.Makes.setField hR o field v).bind hR fun _ => ih
    | invoke m receiver args =>
      exact ((m.makes_invoke hR hrun receiver args).adapt hR _).bind hR fun _ => ih
    | fail f => exact (Exec.Makes.throw hR f).bind hR fun _ => ih
    | _ => exact ih

theorem Plan.makes_run (hR : AllowsWork R) (hrun : run.Makes R) (rt : Nat) (origin : Origin)
    (plan : Plan) : Exec.Makes R (plan.run run rt origin) := by
  cases plan with
  | invoke m receiver args => exact (m.makes_invoke hR hrun receiver args).adapt hR _
  | hook body receiver name args => exact (hrun _ _).adapt hR _
  | construct cls m args => exact (m.makes_construct hR hrun cls args).adapt hR _
  | bean cls m args entries =>
    refine ((m.makes_construct hR hrun cls args).adapt hR _).bind hR fun target => ?_
    have hset := makes_setProperties hR hrun rt target entries
    cases origin with
    | lookup => exact hset.bind hR fun _ => .pure hR _
    | memory => exact (hset.adapt hR _).bind hR fun _ => .pure hR _
  | answer v => exact .pure hR _
  | setField o name v => exact (Exec.Makes.setField hR o name v).bind hR fun _ => .pure hR _
  | fail f => exact .throw hR f

/-- The relation lets pass what slots do for the requests that are made of them. -/
def World.AllowsPlans (R : World → World → Prop) : Prop :=
  ∀ {w : World} {t : TableRef} {i : Nat} {slot : Slot} {request : Request},
    w.slot? t i = some slot → .asked t i request ∈ w.history →
      R w ((planAt t slot request).run w).2

private theorem makes_serve (hR : AllowsWork R) (hplans : AllowsPlans R) (hrun : run.Makes R)
    {t : TableRef} {i : Nat} {request : Request} {w w' : World} (ha : .asked t i request ∈ w.history)
    {a : Except Fault Value} (h : (serve run t i request).result.run w = .ok (a, w')) : R w w' := by
  rcases hs : w.slot? t i with _ | slot
  · have hthrow : (serve run t i request).result.run w = .ok (.error (.invalidSlot i), w) := by
      rw [serve, Exec.result_get_bind, hs]
      rfl
    cases hthrow.symm.trans h
    exact hR.refl w
  · rcases hp : (planAt t slot request).run w with ⟨d, w₀⟩
    have hserve : (d.plan.run run (w₀.table t).runtime d.origin).run.run w₀ = .ok (a, w') :=
      (result_serve hs hp).symm.trans h
    have hplan : R w w₀ := by simpa only [hp] using hplans hs ha
    exact hR.trans hplan (d.plan.makes_run hR hrun _ _ hserve)

theorem makes_dispatch (hR : AllowsWork R) (hplans : AllowsPlans R) (hrun : run.Makes R) (t : TableRef)
    (i : Nat) (request : Request) : Exec.Makes R (dispatch run t i request) := by
  intro w a w' h
  have hasked := hR.record w (.asked t i request)
  have h : (dispatch run t i request).result.run w = .ok (a, w') := h
  rw [result_dispatch] at h
  rcases hserve : (serve run t i request).result.run (w.record (.asked t i request)) with
    s | ⟨f | v, w₁⟩ <;> rw [hserve] at h <;> cases h
  all_goals
    have hserved := makes_serve hR hplans hrun List.mem_cons_self hserve
    exact hR.trans (hR.trans hasked hserved) (hR.record w₁ _)

theorem makes_dispatchSafe (hR : AllowsWork R) (hplans : AllowsPlans R) (hrun : run.Makes R)
    (t : TableRef) (i : Nat) (request : Request) :
    Exec.Makes R (dispatchSafe run t i request) := by
  unfold dispatchSafe
  split
  · exact .pure hR _
  · exact makes_dispatch hR hplans hrun t i request

namespace Machine

private theorem makes_exec (hR : AllowsWork R) (u : LoadedUnit) (m : Machine) (i : Instr) :
    Update.Makes R (exec u m i) := by
  have hpure (effect : Effect) : Update.Makes R (pure effect) := .pure (hR.search 0) effect
  have hbuild (m : Machine) (make : Nat → Value) : Update.Makes R (m.build make) := hR.allocate
  cases i with
  | newList n | wrap n =>
    simp only [exec]
    split <;> first | exact hbuild _ _ | exact hpure _
  | newRange =>
    simp only [exec]
    split <;> first | exact hbuild _ _ | exact hpure _
  | newMap n =>
    simp only [exec]
    split
    · exact hpure _
    · split
      · exact hbuild _ _
      · exact hpure _
  | stloc n =>
    simp only [exec]
    split
    · exact hpure _
    · split <;> exact hpure _
  | nop | ldnull | ldthis | br | brfalse | not | invoke => exact hpure _
  | _ =>
    simp only [exec]
    split <;> exact hpure _

private theorem makes_step (hR : AllowsWork R) (hplans : AllowsPlans R) (hrun : run.Makes R)
    (u : LoadedUnit) (m : Machine) : Act.Makes R (step run u m) := by
  unfold step
  split
  · exact .pure hR _
  refine (Act.Makes.ofUpdate (makes_exec hR u _ _)).bind hR fun effect => ?_
  cases effect with
  | next | done | fail => exact .pure hR _
  | dispatch slot safe request m' =>
    have hanswer : Exec.Makes R (answer run u.table slot safe request) := by
      unfold answer
      split
      · exact makes_dispatchSafe hR hplans hrun _ _ _
      · exact makes_dispatch hR hplans hrun _ _ _
    refine Act.Makes.bind hanswer hR fun result => ?_
    cases result <;> exact .pure hR _

theorem makes_run (hR : AllowsWork R) (hplans : AllowsPlans R) (hrun : run.Makes R) (u : LoadedUnit)
    (fuel : Nat) (m : Machine) : Act.Makes R (Machine.run run u fuel m) := by
  induction fuel generalizing m with
  | zero => exact .stop _
  | succ fuel ih =>
    unfold Machine.run
    refine (makes_step hR hplans hrun u m).bind hR fun status => ?_
    cases status with
    | running m => exact ih m
    | ended result m => exact .pure hR _

end Machine

end Invoked

end CachedDispatch
