import CachedDispatch.Proofs.Evaluation
import CachedDispatch.Proofs.Invocation

/-!
Machines step by step. A machine performs a computation if its steps lead where the computation does:
to its answer, to its failure, or to its stop, through sound instructions only.
-/
namespace CachedDispatch

/-- What instructions of a well-formed unit may come to. -/
def Effect.Allowed (u : LoadedUnit) : Effect → Prop
  | .next _ | .done _ => True
  | .fail e => e = .typeMismatch "int" ∨ e = .typeMismatch "bool"
  | .dispatch slot _ _ _ => slot < u.program.manifest.size

namespace Machine

/-- The next instruction can be read and does what it may; a return leaves nothing behind. -/
def Sound (u : LoadedUnit) (m : Machine) : Prop :=
  ∃ i, Instr.decodeAt u.program.code m.ip = .ok i ∧ (i = .ret → m.stack.length = 1)
    ∧ ∀ w, ((exec u { m with ip := m.ip + i.size } i).run w).1.Allowed u

/-- One step after another, `k` of them. -/
inductive Steps (runner : Runner) (u : LoadedUnit) : Nat → Machine → World → Machine → World → Prop
  | refl : Steps runner u 0 m w m w
  | step (h : (step runner u m).run w = .ok (.running m', w')) (hs : Steps runner u k m' w' m'' w'') :
      Steps runner u (k + 1) m w m'' w''

/-- Steps all of which start from sound machines. -/
inductive SoundSteps (runner : Runner) (u : LoadedUnit) :
    Nat → Machine → World → Machine → World → Prop
  | refl : SoundSteps runner u 0 m w m w
  | step (hm : m.Sound u) (h : (step runner u m).run w = .ok (.running m', w'))
      (hs : SoundSteps runner u k m' w' m'' w'') : SoundSteps runner u (k + 1) m w m'' w''

/-- The machine comes to an end with these local variables. -/
def Finishes (runner : Runner) (u : LoadedUnit) (m : Machine) (w : World)
    (out : Except MachineError Value) (locals : Array Value) (w' : World) : Prop :=
  ∃ k m₁ w₁ m₂, SoundSteps runner u k m w m₁ w₁ ∧ m₁.Sound u
    ∧ (step runner u m₁).run w₁ = .ok (.ended out m₂, w') ∧ m₂.locals = locals

/-- The machine is stopped by a dispatch. -/
def Stops (runner : Runner) (u : LoadedUnit) (m : Machine) (w : World) (s : Stop) : Prop :=
  ∃ k m₁ w₁, SoundSteps runner u k m w m₁ w₁ ∧ m₁.Sound u ∧ (step runner u m₁).run w₁ = .error s

variable {runner : Runner} {u : LoadedUnit} {m m' m'' : Machine} {w w' w'' : World} {j k : Nat}
  {out : Except MachineError Value} {locals : Array Value} {s : Stop}

namespace SoundSteps

theorem trans (h : SoundSteps runner u j m w m' w') (h' : SoundSteps runner u k m' w' m'' w'') :
    SoundSteps runner u (j + k) m w m'' w'' := by
  induction h with
  | refl => rwa [Nat.zero_add]
  | step hm hstep _ ih =>
    rw [Nat.add_right_comm]
    exact .step hm hstep (ih h')

theorem finishes (h : SoundSteps runner u k m w m' w') (h' : Finishes runner u m' w' out locals w'') :
    Finishes runner u m w out locals w'' := by
  obtain ⟨j, m₁, w₁, m₂, hs, hend⟩ := h'
  exact ⟨k + j, m₁, w₁, m₂, h.trans hs, hend⟩

theorem stops (h : SoundSteps runner u k m w m' w') (h' : Stops runner u m' w' s) :
    Stops runner u m w s := by
  obtain ⟨j, m₁, w₁, hs, hstop⟩ := h'
  exact ⟨k + j, m₁, w₁, h.trans hs, hstop⟩

/-- The first of many steps. -/
private theorem take (h : SoundSteps runner u (j + k) m w m' w') :
    ∃ m₁ w₁, SoundSteps runner u j m w m₁ w₁ := by
  induction j generalizing m w with
  | zero => exact ⟨m, w, .refl⟩
  | succ j ih =>
    rw [Nat.add_right_comm] at h
    cases h with
    | step hm hstep hs =>
      obtain ⟨m₁, w₁, hs₁⟩ := ih hs
      exact ⟨m₁, w₁, .step hm hstep hs₁⟩

/-- Other steps reach a sound machine on the way, or go on behind the last. -/
private theorem sound_or_steps (h : SoundSteps runner u k m w m' w')
    (hs : Steps runner u j m w m'' w'') :
    m''.Sound u ∨ ∃ i, j = k + i ∧ Steps runner u i m' w' m'' w'' := by
  induction h generalizing j with
  | refl => exact .inr ⟨j, (Nat.zero_add j).symm, hs⟩
  | step hm hstep _ ih =>
    cases hs with
    | refl => exact .inl hm
    | step hstep' hs' =>
      rw [hstep] at hstep'
      obtain ⟨rfl, rfl⟩ : _ ∧ _ := by simpa using hstep'
      refine (ih hs').imp_right fun ⟨i, hi, hsteps⟩ => ⟨i, ?_, hsteps⟩
      rw [hi, Nat.add_right_comm]

theorem sound (h : SoundSteps runner u k m w m' w') (hs : Steps runner u j m w m'' w'') (hj : j < k) :
    m''.Sound u := by
  rcases h.sound_or_steps hs with hsound | ⟨i, rfl, -⟩
  · exact hsound
  · exact absurd hj (Nat.not_lt.mpr (Nat.le_add_right k i))

/-- Where there is no step from the last machine, all machines on the way are sound. -/
private theorem sound_of_last (h : SoundSteps runner u k m w m' w') (hm' : m'.Sound u)
    (hlast : ∀ m₁ w₁, (Machine.step runner u m').run w' ≠ .ok (.running m₁, w₁))
    (hs : Steps runner u j m w m'' w'') : m''.Sound u := by
  rcases h.sound_or_steps hs with hsound | ⟨i, -, hsteps⟩
  · exact hsound
  · cases hsteps with
    | refl => exact hm'
    | step hstep _ => exact absurd hstep (hlast _ _)

end SoundSteps

theorem Finishes.sound (h : Finishes runner u m w out locals w') (hs : Steps runner u j m w m'' w'') :
    m''.Sound u := by
  obtain ⟨k, m₁, w₁, m₂, hsound, hm₁, hend, -⟩ := h
  exact hsound.sound_of_last hm₁ (fun m₃ w₃ => by simp [hend]) hs

theorem Stops.sound (h : Stops runner u m w s) (hs : Steps runner u j m w m'' w'') : m''.Sound u := by
  obtain ⟨k, m₁, w₁, hsound, hm₁, hstop⟩ := h
  exact hsound.sound_of_last hm₁ (fun m₃ w₃ => by simp [hstop]) hs

theorem run_step {i : Instr} (hd : Instr.decodeAt u.program.code m.ip = .ok i) (w : World) :
    (step runner u m).run w =
      match (exec u { m with ip := m.ip + i.size } i).run w with
      | (.next m', w') => .ok (.running m', w')
      | (.done v, w') => .ok (.ended (.ok v) m, w')
      | (.fail e, w') => .ok (.ended (.error e) m, w')
      | (.dispatch slot safe request m', w') =>
        match (answer runner u.table slot safe request).result.run w' with
        | .ok (.ok v, w'') => .ok (.running (m'.push v), w'')
        | .ok (.error f, w'') => .ok (.ended (.error (.dispatch f)) m, w'')
        | .error s => .error s := by
  simp only [step, hd]
  generalize exec u { m with ip := m.ip + i.size } i = x
  rcases hx : x.run w with ⟨effect, w'⟩
  have hact : (Act.ofUpdate x).run w = .ok (effect, w') := congrArg Except.ok hx
  rw [Act.bind_ok hact]
  cases effect with
  | next | done | fail => rfl
  | dispatch slot safe request m' =>
    dsimp only
    rw [StateT.run_bind]
    rcases (answer runner u.table slot safe request).result.run w' with s | ⟨f | v, w''⟩ <;> rfl

/-- A sound machine fails for the type of an operand or with the fault of a dispatch. -/
theorem Sound.error_of_ended (h : m.Sound u) {e : MachineError}
    (hstep : (step runner u m).run w = .ok (.ended (.error e) m', w')) :
    e = .typeMismatch "int" ∨ e = .typeMismatch "bool" ∨ ∃ f, e = .dispatch f := by
  obtain ⟨i, hd, -, hallowed⟩ := h
  have hallowed := hallowed w
  rw [run_step hd] at hstep
  rcases hexec : (exec u { m with ip := m.ip + i.size } i).run w with
    ⟨m₁ | v | e' | ⟨slot, safe, request, m₁⟩, w₁⟩ <;> rw [hexec] at hstep hallowed <;>
    dsimp only at hstep
  · cases hstep
  · cases hstep
  · cases hstep
    exact hallowed.imp_right .inl
  · rcases hanswer : (answer runner u.table slot safe request).result.run w₁ with s | ⟨f | v, w₂⟩ <;>
      rw [hanswer] at hstep <;> cases hstep
    exact .inr (.inr ⟨f, rfl⟩)

theorem run_succ (fuel : Nat) (m : Machine) (w : World) :
    (run runner u (fuel + 1) m).run w =
      match (step runner u m).run w with
      | .ok (.running m', w') => (run runner u fuel m').run w'
      | .ok (.ended out m', w') => .ok ((out, m'), w')
      | .error s => .error s := by
  rw [run]
  rcases h : (step runner u m).run w with s | ⟨status, w'⟩
  · simp only [StateT.run_bind, h]; rfl
  · cases status <;> simp only [StateT.run_bind, h] <;> rfl

/-- A run that comes to its end makes steps to a machine that ends. -/
theorem exists_steps_of_run {fuel : Nat} (h : (run runner u fuel m).run w = .ok ((out, m'), w')) :
    ∃ k m₁ w₁, Steps runner u k m w m₁ w₁ ∧ (step runner u m₁).run w₁ = .ok (.ended out m', w') := by
  induction fuel generalizing m w with
  | zero => cases h
  | succ fuel ih =>
    rw [run_succ] at h
    rcases hstep : (step runner u m).run w with s | ⟨_ | _, w₁⟩ <;> rw [hstep] at h
    · cases h
    · obtain ⟨k, m₂, w₂, hs, hend⟩ := ih h
      exact ⟨k + 1, m₂, w₂, .step hstep hs, hend⟩
    · cases h
      exact ⟨0, m, w, .refl, hstep⟩

private theorem SoundSteps.run_eq (h : SoundSteps runner u k m w m' w') (fuel : Nat) :
    (run runner u (fuel + k) m).run w = (run runner u fuel m').run w' := by
  induction h with
  | refl => rfl
  | step _ hstep _ ih => rw [← Nat.add_assoc, run_succ, hstep, ← ih]

/-- A run that comes to its end has the fuel for all its steps. -/
theorem SoundSteps.le_of_run (h : SoundSteps runner u k m w m' w') {fuel : Nat}
    {r : (Except MachineError Value × Machine) × World}
    (hrun : (run runner u fuel m).run w = .ok r) : k ≤ fuel := by
  by_contra hlt
  obtain ⟨d, rfl⟩ := Nat.exists_eq_add_of_le (Nat.le_of_not_le hlt)
  obtain ⟨m₁, w₁, hs⟩ := h.take
  have hzero := hs.run_eq 0
  rw [Nat.zero_add, hrun] at hzero
  cases hzero

theorem Finishes.run_eq (h : Finishes runner u m w out locals w') :
    ∃ fuel m', (run runner u fuel m).run w = .ok ((out, m'), w') ∧ m'.locals = locals := by
  obtain ⟨k, m₁, w₁, m₂, hs, -, hend, hl⟩ := h
  exact ⟨1 + k, m₂, by rw [hs.run_eq 1, run_succ, hend], hl⟩

/-- There is no other end. -/
theorem Finishes.of_run (h : Finishes runner u m w out locals w') {fuel : Nat}
    {out' : Except MachineError Value} (hrun : (run runner u fuel m).run w = .ok ((out', m'), w'')) :
    out' = out ∧ m'.locals = locals ∧ w'' = w' := by
  obtain ⟨k, m₁, w₁, m₂, hs, -, hend, rfl⟩ := h
  obtain ⟨d, rfl⟩ := Nat.exists_eq_add_of_le' (hs.le_of_run hrun)
  rw [hs.run_eq] at hrun
  cases d with
  | zero => cases hrun
  | succ d =>
    rw [run_succ, hend] at hrun
    obtain ⟨⟨rfl, rfl⟩, rfl⟩ : (_ ∧ _) ∧ _ := by simpa using hrun
    exact ⟨rfl, rfl, rfl⟩

theorem Stops.run_ne (h : Stops runner u m w s) (fuel : Nat)
    (r : (Except MachineError Value × Machine) × World) : (run runner u fuel m).run w ≠ .ok r := by
  intro hrun
  obtain ⟨k, m₁, w₁, hs, -, hstop⟩ := h
  obtain ⟨d, rfl⟩ := Nat.exists_eq_add_of_le' (hs.le_of_run hrun)
  rw [hs.run_eq] at hrun
  cases d with
  | zero => cases hrun
  | succ d =>
    rw [run_succ, hstop] at hrun
    cases hrun

/-- From `m` the machine does what `x` does, and stands at `k a` when `x` has answered `a`. -/
def Performs (runner : Runner) (u : LoadedUnit) (locals : Array Value) {α : Type} (m : Machine)
    (x : Exec MachineError α) (k : α → Machine) : Prop :=
  ∀ w, match x.result.run w with
    | .ok (.ok a, w') => ∃ j, SoundSteps runner u j m w (k a) w'
    | .ok (.error e, w') => Finishes runner u m w (.error e) locals w'
    | .error s => Stops runner u m w s

namespace Performs

variable {α β : Type}

theorem pure {a : α} {k : α → Machine} (hm : m = k a) : Performs runner u locals m (pure a) k :=
  fun _ => ⟨0, hm ▸ .refl⟩

/-- What follows may rely on what the answer is known to satisfy. -/
theorem bind_of {x : Exec MachineError α} {f : α → Exec MachineError β} {k : α → Machine}
    {k' : β → Machine} {Q : α → Prop} (hx : Performs runner u locals m x k)
    (hQ : ∀ {w a w'}, x.result.run w = .ok (.ok a, w') → Q a)
    (hf : ∀ a, Q a → Performs runner u locals (k a) (f a) k') :
    Performs runner u locals m (x >>= f) k' := by
  intro w
  rw [Exec.result_bind]
  have hx := hx w
  rcases hrun : x.result.run w with s | ⟨e | a, w'⟩ <;> rw [hrun] at hx <;> dsimp only at hx ⊢
  · exact hx
  · exact hx
  · obtain ⟨j, hs⟩ := hx
    have hf := hf a (hQ hrun) w'
    rcases hrun' : (f a).result.run w' with s | ⟨e | b, w''⟩ <;> rw [hrun'] at hf <;> dsimp only at hf ⊢
    · exact hs.stops hf
    · exact hs.finishes hf
    · obtain ⟨j', hs'⟩ := hf
      exact ⟨j + j', hs.trans hs'⟩

theorem bind {x : Exec MachineError α} {f : α → Exec MachineError β} {k : α → Machine}
    {k' : β → Machine} (hx : Performs runner u locals m x k)
    (hf : ∀ a, Performs runner u locals (k a) (f a) k') : Performs runner u locals m (x >>= f) k' :=
  hx.bind_of (Q := fun _ => True) (fun _ => trivial) fun a _ => hf a

/-- A machine that has pushed a value goes on from there. -/
theorem trans {a : α} {x : Exec MachineError β} {k : α → Machine} {k' : β → Machine}
    (h : Performs runner u locals m (Pure.pure a) k) (hx : Performs runner u locals (k a) x k') :
    Performs runner u locals m x k' := by
  have hbind : Performs runner u locals m (Pure.pure a >>= fun _ => x) k' :=
    h.bind_of (Q := (· = a)) (fun h => by cases h; rfl) fun _ ha => ha ▸ hx
  exact hbind

end Performs

section Instructions

variable {α : Type} {i : Instr} (hd : Instr.decodeAt u.program.code m.ip = .ok i) (hi : i ≠ .ret)
include hd hi

private theorem sound_of_effect {x : Update Effect}
    (he : exec u { m with ip := m.ip + i.size } i = x) (ha : ∀ w, (x.run w).1.Allowed u) : m.Sound u :=
  ⟨i, hd, fun h => absurd h hi, fun w => by rw [he]; exact ha w⟩

theorem soundSteps_one (he : exec u { m with ip := m.ip + i.size } i = pure (.next m')) (w : World) :
    SoundSteps runner u 1 m w m' w := by
  refine .step (sound_of_effect hd hi he fun _ => trivial) ?_ .refl
  rw [run_step hd, he]
  rfl

theorem Performs.next (he : exec u { m with ip := m.ip + i.size } i = Pure.pure (.next m'))
    {x : Exec MachineError α} {k : α → Machine} (h : Performs runner u locals m' x k) :
    Performs runner u locals m x k := by
  have hone : Performs runner u locals m (Pure.pure ()) fun _ => m' :=
    fun w => ⟨1, soundSteps_one hd hi he w⟩
  exact hone.bind fun _ => h

theorem Performs.fail {e : MachineError}
    (he : exec u { m with ip := m.ip + i.size } i = Pure.pure (.fail e))
    (ha : e = .typeMismatch "int" ∨ e = .typeMismatch "bool") (k : α → Machine) :
    Performs runner u m.locals m (throw e) k := by
  intro w
  refine ⟨0, m, w, m, .refl, sound_of_effect hd hi he fun _ => ha, ?_, rfl⟩
  rw [run_step hd, he]
  rfl

theorem Performs.build {make : Nat → Value}
    (he : exec u { m with ip := m.ip + i.size } i = m'.build make) :
    Performs runner u locals m (Lang.fresh make) m'.push := by
  intro w
  refine ⟨1, .step (sound_of_effect hd hi he fun _ => trivial) ?_ .refl⟩
  rw [run_step hd, he]
  rfl

theorem Performs.ask {slot : Nat} {safe : Bool} {request : Request}
    (he : exec u { m with ip := m.ip + i.size } i = Pure.pure (.dispatch slot safe request m'))
    (ha : slot < u.program.manifest.size) :
    Performs runner u m.locals m (ExceptT.adapt .dispatch (answer runner u.table slot safe request))
      m'.push := by
  have hsound : m.Sound u := sound_of_effect hd hi he fun _ => ha
  intro w
  have hstep : (step runner u m).run w =
      match (answer runner u.table slot safe request).result.run w with
      | .ok (.ok v, w') => .ok (.running (m'.push v), w')
      | .ok (.error f, w') => .ok (.ended (.error (.dispatch f)) m, w')
      | .error s => .error s := by
    rw [run_step hd, he]
    rfl
  rw [Exec.result_adapt]
  rcases hrun : (answer runner u.table slot safe request).result.run w with s | ⟨f | v, w'⟩ <;>
    rw [hrun] at hstep <;> dsimp only at hstep ⊢
  · exact ⟨0, m, w, .refl, hsound, hstep⟩
  · exact ⟨0, m, w, m, .refl, hsound, hstep, rfl⟩
  · exact ⟨1, .step hsound hstep .refl⟩

end Instructions

end Machine

end CachedDispatch
