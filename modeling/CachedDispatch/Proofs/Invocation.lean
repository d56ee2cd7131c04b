import CachedDispatch.Dispatch

/-!
What becomes of the code that a dispatch invokes. A failure of invoked code comes out of the plan
that invoked it, in whatever layers, and a plan stops only where invoked code stops.
-/
namespace CachedDispatch

namespace Act

variable {α β : Type}

theorem bind_eq_ok {x : Act α} {f : α → Act β} {w w'' : World} {b : β}
    (h : (x >>= f).run w = .ok (b, w'')) :
    ∃ a w', x.run w = .ok (a, w') ∧ (f a).run w' = .ok (b, w'') := by
  rcases hx : x.run w with e | ⟨a, w'⟩
  · rw [StateT.run_bind, hx] at h
    cases h
  · rw [StateT.run_bind, hx] at h
    exact ⟨a, w', rfl, h⟩

theorem bind_ok {x : Act α} {f : α → Act β} {w w' : World} {a : α} (h : x.run w = .ok (a, w')) :
    (x >>= f).run w = (f a).run w' := by
  rw [StateT.run_bind, h]
  rfl

end Act

namespace Exec

variable {ε ε' α β : Type}

theorem result_bind (x : Exec ε α) (f : α → Exec ε β) (w : World) :
    (x >>= f).result.run w =
      match x.result.run w with
      | .ok (.ok a, w') => (f a).result.run w'
      | .ok (.error e, w') => .ok (.error e, w')
      | .error s => .error s := by
  simp only [Exec.result, ExceptT.run_bind, StateT.run_bind]
  rcases (ExceptT.run x).run w with s | ⟨e | a, w'⟩ <;> rfl

theorem bind_eq_ok {x : Exec ε α} {f : α → Exec ε β} {w w'' : World} {b : β}
    (h : (x >>= f).result.run w = .ok (.ok b, w'')) :
    ∃ a w', x.result.run w = .ok (.ok a, w') ∧ (f a).result.run w' = .ok (.ok b, w'') := by
  rw [result_bind] at h
  rcases hx : x.result.run w with s | ⟨e | a, w'⟩ <;> rw [hx] at h
  · cases h
  · cases h
  · exact ⟨a, w', rfl, h⟩

theorem result_adapt (f : ε → ε') (x : Exec ε α) (w : World) :
    (Exec.result (ExceptT.adapt f x)).run w =
      match x.result.run w with
      | .ok (.ok a, w') => .ok (.ok a, w')
      | .ok (.error e, w') => .ok (.error (f e), w')
      | .error s => .error s := by
  change (Except.mapError f <$> x.result).run w = _
  rw [StateT.run_map]
  rcases x.result.run w with s | ⟨e | a, w'⟩ <;> rfl

theorem result_ofUpdate_bind (u : Update α) (f : α → Exec ε β) (w : World) :
    (Exec.ofUpdate u >>= f).result.run w = (f (u.run w).1).result.run (u.run w).2 := rfl

theorem result_ofUpdate_modifyGet_bind (g : World → α × World) (f : α → Exec ε β) (w : World) :
    (Exec.ofUpdate (modifyGet g) >>= f).result.run w = (f (g w).1).result.run (g w).2 := rfl

theorem result_get_bind (f : World → Exec ε β) (w : World) :
    (get >>= f : Exec ε β).result.run w = (f w).result.run w := rfl

theorem result_modify_bind (g : World → World) (f : Unit → Exec ε β) (w : World) :
    (modify g >>= f : Exec ε β).result.run w = (f ()).result.run (g w) := rfl

theorem result_lift_bind (x : Act α) (f : α → Exec ε β) (w : World) :
    (ExceptT.lift x >>= f : Exec ε β).result.run w = (x >>= fun a => (f a).result).run w := by
  change ((x >>= fun a => pure (.ok a)) >>= ExceptT.bindCont f : Act (Except ε β)).run w = _
  simp only [bind_assoc, pure_bind]
  rfl

end Exec

namespace Fault

@[simp] theorem bare_bare (f : Fault) : f.bare.bare = f.bare := by
  induction f with
  | invocation inner ih => exact ih
  | _ => rfl

@[simp] theorem bare_carried (f : Fault) : f.carried.bare = f.bare := by cases f <;> rfl

theorem bare_ne_invocation (f g : Fault) : f.bare ≠ .invocation g := by
  induction f with
  | invocation inner ih => exact ih
  | _ => nofun

theorem bare_of_ne_invocation {f : Fault} (h : ∀ g, f ≠ .invocation g) : f.bare = f := by
  cases f with
  | invocation inner => exact absurd rfl (h inner)
  | _ => rfl

end Fault

@[simp] theorem Origin.bare_pass (origin : Origin) (f : Fault) : (origin.pass f).bare = f.bare := by
  cases origin with
  | lookup => exact f.bare_carried
  | memory => exact f.bare_bare

variable {run : Runner} {w w₁ w₂ : World} {code : Code} {frame : Frame}

namespace Method

/-- Initializers are invoked on objects only. -/
def InvocableOn (m : Method) (receiver : Value) : Prop :=
  m.kind = .native ∨ ∃ o, receiver = .object o

/-- The frame on which the code of a constructor is run, and the world then. -/
def entry (m : Method) (cls : ClassRef) (args : List Value) (w : World) : Frame × World :=
  match m.kind with
  | .native => ({ receiver := .classLiteral (w.cls cls).id, args }, w)
  | .initializer => ({ receiver := .object (w.newObject cls).1, args }, (w.newObject cls).2)

variable {m : Method} {receiver : Value}

private theorem result_invoke (h : m.InvocableOn receiver) (run : Runner) (args : List Value)
    (w : World) : (m.invoke run receiver args).result.run w =
      match (run m.code { receiver, args }).result.run w with
      | .ok (.ok v, w') => .ok (.ok (if m.kind = .native then v else receiver), w')
      | .ok (.error f, w') => .ok (.error f, w')
      | .error s => .error s := by
  unfold invoke
  rcases hk : m.kind with _ | _
  · dsimp only
    rcases (run m.code { receiver, args }).result.run w with s | ⟨f | v, w'⟩ <;> rfl
  · obtain ⟨o, rfl⟩ : ∃ o, receiver = .object o := h.resolve_left (by rw [hk]; nofun)
    dsimp only
    rw [Exec.result_bind]
    rcases (run m.code { receiver := .object o, args }).result.run w with s | ⟨f | v, w'⟩ <;> rfl

private theorem result_invoke_of_not_invocableOn (h : ¬ m.InvocableOn receiver) (run : Runner)
    (args : List Value) (w : World) :
    (m.invoke run receiver args).result.run w
      = .ok (.error (.coercion "object" (w.typeName receiver)), w) := by
  obtain ⟨hk, ho⟩ := not_or.mp h
  unfold invoke
  rcases hkind : m.kind with _ | _
  · exact absurd hkind hk
  · cases receiver with
    | object o => exact absurd ⟨o, rfl⟩ ho
    | _ => rfl

theorem result_construct (run : Runner) (cls : ClassRef) (m : Method) (args : List Value) (w : World) :
    (m.construct run cls args).result.run w =
      match (run m.code (m.entry cls args w).1).result.run (m.entry cls args w).2 with
      | .ok (.ok v, w') => .ok (.ok (if m.kind = .native then v else (m.entry cls args w).1.receiver), w')
      | .ok (.error f, w') => .ok (.error f, w')
      | .error s => .error s := by
  unfold construct entry
  rcases m.kind with _ | _
  · dsimp only
    rw [Exec.result_get_bind]
    rcases (run m.code _).result.run w with s | ⟨f | v, w'⟩ <;> rfl
  · dsimp only
    rw [Exec.result_ofUpdate_modifyGet_bind, Exec.result_bind]
    rcases (run m.code { receiver := .object (w.newObject cls).1, args }).result.run
      (w.newObject cls).2 with s | ⟨f | v, w'⟩ <;> rfl

end Method

/-- Setting the properties comes to run the code of a setter. -/
inductive Sets (run : Runner) (rt : Nat) (target : Value) :
    List (String × Value) → World → Code → Frame → World → Prop
  | here {name : String} {v : Value} {entries : List (String × Value)} {w w₁ : World} {m : Method}
      {receiver : Value} {args : List Value}
      (hp : (planSetProperty rt target name v).run w = (.invoke m receiver args, w₁))
      (hm : m.InvocableOn receiver) :
      Sets run rt target ((name, v) :: entries) w m.code { receiver, args } w₁
  | later {e : String × Value} {entries : List (String × Value)} {w w₁ w₂ : World} {code : Code}
      {frame : Frame} (he : (setProperties run rt target [e]).result.run w = .ok (.ok (), w₁))
      (h : Sets run rt target entries w₁ code frame w₂) :
      Sets run rt target (e :: entries) w code frame w₂

/-- Carrying out the plan comes to run the code, with the frame and in the world that follow. -/
inductive Plan.Invokes (run : Runner) (rt : Nat) : Plan → World → Code → Frame → World → Prop
  | method {m : Method} {receiver : Value} {args : List Value} {w : World}
      (h : m.InvocableOn receiver) :
      Invokes run rt (.invoke m receiver args) w m.code { receiver, args } w
  | hook {body : Script.Body} {receiver : Value} {name : String} {args : List Value} {w : World} :
      Invokes run rt (.hook body receiver name args) w (.script body)
        { receiver, args, calledName := some name } w
  | constructor {cls : ClassRef} {m : Method} {args : List Value} {w : World} :
      Invokes run rt (.construct cls m args) w m.code (m.entry cls args w).1 (m.entry cls args w).2
  | beanConstructor {cls : ClassRef} {m : Method} {args : List Value}
      {entries : List (String × Value)} {w : World} :
      Invokes run rt (.bean cls m args entries) w m.code (m.entry cls args w).1 (m.entry cls args w).2
  | beanSetter {cls : ClassRef} {m : Method} {args : List Value} {entries : List (String × Value)}
      {w w₁ w₂ : World} {target : Value} {code : Code} {frame : Frame}
      (hc : (m.construct run cls args).result.run w = .ok (.ok target, w₁))
      (h : Sets run rt target entries w₁ code frame w₂) :
      Invokes run rt (.bean cls m args entries) w code frame w₂

section Outcomes

variable {rt : Nat} {target : Value} {entries : List (String × Value)} {f : Fault} {s : Stop}

theorem setProperties_cons (run : Runner) (rt : Nat) (target : Value) (e : String × Value)
    (entries : List (String × Value)) :
    setProperties run rt target (e :: entries)
      = setProperties run rt target [e] >>= fun _ => setProperties run rt target entries := by
  obtain ⟨name, v⟩ := e
  simp only [setProperties, bind_assoc]
  refine bind_congr fun plan => ?_
  cases plan <;> simp only [bind_assoc, pure_bind]

private theorem Sets.fails (h : Sets run rt target entries w code frame w₁)
    (hf : (run code frame).result.run w₁ = .ok (.error f, w₂)) :
    ∃ g, (setProperties run rt target entries).result.run w = .ok (.error g, w₂)
      ∧ g.bare = f.bare := by
  induction h with
  | @here name v entries w w₁ m receiver args hp hm =>
    refine ⟨f.carried, ?_, f.bare_carried⟩
    rw [setProperties_cons, Exec.result_bind, setProperties, Exec.result_ofUpdate_bind, hp]
    dsimp only
    rw [Exec.result_bind, Exec.result_adapt, Method.result_invoke hm, hf]
  | later he _ ih =>
    rw [setProperties_cons, Exec.result_bind, he]
    exact ih hf

private theorem Sets.exists_of_stops
    (h : (setProperties run rt target entries).result.run w = .error s) :
    ∃ code frame w₁, Sets run rt target entries w code frame w₁
      ∧ (run code frame).result.run w₁ = .error s := by
  induction entries generalizing w with
  | nil => cases h
  | cons e entries ih =>
    rw [setProperties_cons, Exec.result_bind] at h
    rcases he : (setProperties run rt target [e]).result.run w with s' | ⟨f | ⟨⟩, w₁⟩ <;>
      rw [he] at h <;> dsimp only at h
    · -- the stop is in the code of the setter for this entry
      obtain ⟨name, v⟩ := e
      rw [setProperties, Exec.result_ofUpdate_bind] at he
      rcases hp : (planSetProperty rt target name v).run w with ⟨plan, w₁⟩
      rw [hp] at he
      cases plan with
      | invoke m receiver args =>
        dsimp only at he
        rw [Exec.result_bind, Exec.result_adapt] at he
        by_cases hm : m.InvocableOn receiver
        · rw [Method.result_invoke hm] at he
          rcases hc : (run m.code { receiver, args }).result.run w₁ with s'' | ⟨f | v, w₂⟩ <;>
            rw [hc] at he <;> cases he
          cases h
          exact ⟨m.code, { receiver, args }, w₁, .here hp hm, hc⟩
        · rw [Method.result_invoke_of_not_invocableOn hm] at he
          cases he
      | _ => cases he
    · cases h
    · obtain ⟨code, frame, w₂, hset, hc⟩ := ih h
      exact ⟨code, frame, w₂, .later he hset, hc⟩

namespace Plan

variable {plan : Plan}

/-- A failure of the code that a plan comes to run comes out of the plan. -/
theorem Invokes.fails (h : plan.Invokes run rt w code frame w₁)
    (hf : (run code frame).result.run w₁ = .ok (.error f, w₂)) (origin : Origin) :
    ∃ g, (plan.run run rt origin).result.run w = .ok (.error g, w₂) ∧ g.bare = f.bare := by
  cases h with
  | method hm =>
    refine ⟨origin.pass f, ?_, origin.bare_pass f⟩
    rw [Plan.run, Exec.result_adapt, Method.result_invoke hm, hf]
  | hook =>
    refine ⟨origin.pass f, ?_, origin.bare_pass f⟩
    rw [Plan.run, Exec.result_adapt, hf]
  | constructor =>
    refine ⟨origin.pass f, ?_, origin.bare_pass f⟩
    rw [Plan.run, Exec.result_adapt, Method.result_construct, hf]
  | beanConstructor =>
    refine ⟨origin.pass f, ?_, origin.bare_pass f⟩
    rw [Plan.run, Exec.result_bind, Exec.result_adapt, Method.result_construct, hf]
  | beanSetter hc hset =>
    obtain ⟨g, hg, hbare⟩ := hset.fails hf
    rw [Plan.run, Exec.result_bind, Exec.result_adapt, hc]
    cases origin with
    | lookup => exact ⟨g, by dsimp only; rw [Exec.result_bind, hg], hbare⟩
    | memory =>
      refine ⟨g.bare, ?_, by rw [Fault.bare_bare, hbare]⟩
      dsimp only
      rw [Exec.result_bind, stripped, Exec.result_adapt, hg]

/-- A plan stops only where the code that it comes to run stops. -/
theorem exists_invokes_of_stops {origin : Origin}
    (h : (plan.run run rt origin).result.run w = .error s) :
    ∃ code frame w₁, plan.Invokes run rt w code frame w₁
      ∧ (run code frame).result.run w₁ = .error s := by
  cases plan with
  | invoke m receiver args =>
    rw [Plan.run, Exec.result_adapt] at h
    by_cases hm : m.InvocableOn receiver
    · rw [Method.result_invoke hm] at h
      rcases hc : (run m.code { receiver, args }).result.run w with s' | ⟨f | v, w₂⟩ <;>
        rw [hc] at h <;> cases h
      exact ⟨_, _, w, .method hm, hc⟩
    · rw [Method.result_invoke_of_not_invocableOn hm] at h
      cases h
  | hook body receiver name args =>
    rw [Plan.run, Exec.result_adapt] at h
    rcases hc : (run (.script body) { receiver, args, calledName := some name }).result.run w with
      s' | ⟨f | v, w₂⟩ <;> rw [hc] at h <;> cases h
    exact ⟨_, _, w, .hook, hc⟩
  | construct cls m args =>
    rw [Plan.run, Exec.result_adapt, Method.result_construct] at h
    rcases hc : (run m.code (m.entry cls args w).1).result.run (m.entry cls args w).2 with
      s' | ⟨f | v, w₂⟩ <;> rw [hc] at h <;> cases h
    exact ⟨_, _, _, .constructor, hc⟩
  | bean cls m args entries =>
    rw [Plan.run, Exec.result_bind, Exec.result_adapt, Method.result_construct] at h
    rcases hc : (run m.code (m.entry cls args w).1).result.run (m.entry cls args w).2 with
      s' | ⟨f | v, w₁⟩ <;> rw [hc] at h
    · cases h
      exact ⟨_, _, _, .beanConstructor, hc⟩
    · cases h
    · have hmade := m.result_construct run cls args w
      rw [hc] at hmade
      dsimp only at h hmade
      generalize (if m.kind = .native then v else (m.entry cls args w).1.receiver) = target at h hmade
      have hstop : (setProperties run rt target entries).result.run w₁ = .error s := by
        cases origin with
        | lookup =>
          dsimp only at h
          rw [Exec.result_bind] at h
          rcases hset : (setProperties run rt target entries).result.run w₁ with s' | ⟨f | ⟨⟩, w₂⟩ <;>
            rw [hset] at h <;> cases h
          rfl
        | memory =>
          dsimp only at h
          rw [Exec.result_bind, stripped, Exec.result_adapt] at h
          rcases hset : (setProperties run rt target entries).result.run w₁ with s' | ⟨f | ⟨⟩, w₂⟩ <;>
            rw [hset] at h <;> cases h
          rfl
      obtain ⟨code, frame, w₂, hset, hcode⟩ := Sets.exists_of_stops hstop
      exact ⟨code, frame, w₂, .beanSetter hmade hset, hcode⟩
  | answer | setField | fail => cases h

end Plan

end Outcomes

variable {t : TableRef} {i : Nat} {request : Request}

theorem result_serve {slot : Slot} (hs : w.slot? t i = some slot) {d : Decision}
    (hp : (planAt t slot request).run w = (d, w₁)) :
    (serve run t i request).result.run w
      = (d.plan.run run (w₁.table t).runtime d.origin).result.run w₁ := by
  rw [serve, Exec.result_get_bind, hs]
  dsimp only
  rw [Exec.result_ofUpdate_bind, hp, Exec.result_get_bind]

/-- A dispatch keeps a record of what is asked and answered. -/
theorem result_dispatch (run : Runner) (t : TableRef) (i : Nat) (request : Request) (w : World) :
    (dispatch run t i request).result.run w =
      match (serve run t i request).result.run (w.record (.asked t i request)) with
      | .ok (.ok v, w') => .ok (.ok v, w'.record (.answered (.ok v)))
      | .ok (.error f, w') => .ok (.error f.bare, w'.record (.answered (.error f.bare)))
      | .error s => .error s := by
  rw [dispatch, Exec.result_modify_bind, Exec.result_lift_bind, StateT.run_bind, stripped,
    Exec.result_adapt]
  rcases (serve run t i request).result.run (w.record (.asked t i request)) with s | ⟨f | v, w'⟩ <;> rfl

end CachedDispatch
