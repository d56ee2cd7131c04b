import CachedDispatch.Proofs.Stepping

/-!
Machines that run again. A machine starts over with an empty stack, but with the local variables that
its last run left it. It goes the way of a new machine exactly if it holds null wherever it looks
before it has written.
-/
namespace CachedDispatch

namespace Instr

/-- The instruction is no return, no branch and not about local variables. -/
def isPlain : Instr → Bool
  | ret | ldloc _ | stloc _ | br _ | brfalse _ => false
  | _ => true

/-- Where a machine can stand after the instruction at `pos`. -/
def LeadsTo (pos : Nat) : Instr → Nat → Prop
  | ret, _ => False
  | br target, next => next = target.toNat
  | i@(brfalse target), next => next = target.toNat ∨ next = pos + i.size
  | i, next => next = pos + i.size

/-- The local variables after the instruction. -/
def store (stack : List Value) (locals : Array Value) : Instr → Array Value
  | stloc i => locals.setIfInBounds i.toNat (stack.headD .null)
  | _ => locals

private theorem store_of_isPlain {i : Instr} (hi : i.isPlain = true) (stack : List Value)
    (locals : Array Value) : i.store stack locals = locals := by
  cases i with
  | ret | ldloc | stloc | br | brfalse => cases hi
  | _ => rfl

theorem leadsTo_iff_of_isPlain {i : Instr} (hi : i.isPlain = true) (pos next : Nat) :
    i.LeadsTo pos next ↔ next = pos + i.size := by
  cases i with
  | ret | ldloc | stloc | br | brfalse => cases hi
  | _ => exact .rfl

end Instr

namespace Effect

/-- The machine that goes on, at once or with the answer. -/
private def machine? : Effect → Option Machine
  | next m | dispatch _ _ _ m => some m
  | _ => none

private def map (f : Machine → Machine) : Effect → Effect
  | next m => next (f m)
  | done v => done v
  | fail e => fail e
  | dispatch slot safe request m => dispatch slot safe request (f m)

private theorem machine?_map (f : Machine → Machine) (e : Effect) :
    (e.map f).machine? = e.machine?.map f := by
  cases e <;> rfl

private theorem map_map (f g : Machine → Machine) (e : Effect) : (e.map g).map f = e.map (f ∘ g) := by
  cases e <;> rfl

end Effect

namespace Machine

variable {runner : Runner} {u : LoadedUnit} {m m' : Machine} {w w' : World} {l : Array Value}

def withLocals (m : Machine) (locals : Array Value) : Machine := { m with locals }

/-- A plain instruction looks at nothing but the stack and `this`, and changes nothing but the stack. -/
private theorem exec_of_isPlain {i : Instr} (hi : i.isPlain = true) (w : World) :
    (exec u m i).run w =
      (((exec u { m with ip := 0, locals := #[] } i).run w).1.map fun m' => { m with stack := m'.stack },
        ((exec u { m with ip := 0, locals := #[] } i).run w).2) := by
  obtain ⟨ip, stack, locals, this⟩ := m
  cases i with
  | ret | ldloc | stloc | br | brfalse => cases hi
  | nop | ldnull | ldthis => rfl
  | pop | dup | getProp => cases stack <;> rfl
  | ldc i =>
    simp only [exec]
    cases u.program.constants[i.toNat]? <;> rfl
  | ldclass i =>
    simp only [exec]
    cases u.classes[i.toNat]? <;> rfl
  | not =>
    simp only [exec, withCondition]
    cases stack with
    | nil => rfl
    | cons v stack => cases hv : v.asCondition? <;> simp only [hv] <;> rfl
  | newList n =>
    simp only [exec, popMany?]
    by_cases hn : n.toNat ≤ stack.length <;> simp only [hn, if_true, if_false] <;> rfl
  | newMap n =>
    simp only [exec, popMany?]
    by_cases hn : 2 * n.toNat ≤ stack.length <;> simp only [hn, if_true, if_false]
    · cases pairEntries? (stack.take (2 * n.toNat)).reverse <;> rfl
    · rfl
  | newRange =>
    simp only [exec]
    split <;> rfl
  | wrap i =>
    simp only [exec]
    cases u.classes[i.toNat]? <;> cases stack <;> rfl
  | invoke op slot argc =>
    simp only [exec, invocation, popMany?]
    by_cases hn : argc.toNat ≤ stack.length <;> simp only [hn, if_true, if_false]
    · cases stack.drop argc.toNat with
      | nil => rfl
      | cons receiver rest =>
        cases hr : requestFor op receiver (stack.take argc.toNat).reverse <;> simp only [hr] <;> rfl
    · rfl

private theorem jump_withLocals (target : Nat) :
    (m.withLocals l).jump u target = (m.jump u target).map (·.withLocals l) := by
  unfold jump
  split <;> rfl

private theorem exec_leads_of_isPlain {i : Instr} {pos : Nat} (hi : i.isPlain = true)
    (h : ((exec u { m with ip := pos + i.size } i).run w).1.machine? = some m') :
    i.LeadsTo pos m'.ip ∧ m'.this = m.this ∧ m'.locals = i.store m.stack m.locals := by
  rw [exec_of_isPlain hi, Effect.machine?_map] at h
  obtain ⟨m₀, -, rfl⟩ := Option.map_eq_some_iff.mp h
  exact ⟨(Instr.leadsTo_iff_of_isPlain hi _ _).mpr rfl, rfl, (Instr.store_of_isPlain hi _ _).symm⟩

/-- A machine that goes on after an instruction is where that leads, and differs in its stack and in
what was stored. -/
private theorem exec_leads {i : Instr} {pos : Nat}
    (h : ((exec u { m with ip := pos + i.size } i).run w).1.machine? = some m') :
    i.LeadsTo pos m'.ip ∧ m'.this = m.this ∧ m'.locals = i.store m.stack m.locals := by
  obtain ⟨ip, stack, locals, this⟩ := m
  have hjump {ip target : Nat} {stack : List Value} {m : Machine}
      (h : (jump u ⟨ip, stack, locals, this⟩ target).machine? = some m) :
      m.ip = target ∧ m.this = this ∧ m.locals = locals := by
    unfold jump at h
    split at h <;> cases h
    exact ⟨rfl, rfl, rfl⟩
  cases i with
  | ret => cases stack <;> cases h
  | ldloc k =>
    simp only [exec] at h
    split at h <;> cases h
    exact ⟨rfl, rfl, rfl⟩
  | stloc k =>
    cases stack with
    | nil => cases h
    | cons v stack =>
      simp only [exec] at h
      split at h <;> cases h
      exact ⟨rfl, rfl, rfl⟩
  | br target => exact hjump h
  | brfalse target =>
    simp only [exec, withCondition] at h
    cases stack with
    | nil => cases h
    | cons v stack =>
      dsimp only at h
      split at h
      · rename_i b _
        cases b with
        | true =>
          cases h
          exact ⟨.inr rfl, rfl, rfl⟩
        | false => exact (hjump h).imp_left .inl
      · cases h
  | _ => exact exec_leads_of_isPlain rfl h

/-- An instruction finds the same with other local variables, unless it loads one that differs. -/
private theorem exec_withLocals {i : Instr} (hsize : l.size = m.locals.size)
    (hload : ∀ k, i = .ldloc k → l[k.toNat]? = m.locals[k.toNat]?) (w : World) :
    (exec u (m.withLocals l) i).run w =
      (((exec u m i).run w).1.map (·.withLocals (i.store m.stack l)), ((exec u m i).run w).2) := by
  cases i with
  | ret =>
    obtain ⟨ip, stack, locals, this⟩ := m
    cases stack <;> rfl
  | ldloc k =>
    simp only [exec, withLocals, hload k rfl]
    cases m.locals[k.toNat]? <;> rfl
  | stloc k =>
    obtain ⟨ip, stack, locals, this⟩ := m
    cases stack with
    | nil => rfl
    | cons v stack =>
      simp only [exec, withLocals, hsize]
      split <;> rfl
  | br target =>
    exact congrArg (·, w) (jump_withLocals target.toNat)
  | brfalse target =>
    obtain ⟨ip, stack, locals, this⟩ := m
    simp only [exec, withLocals, withCondition]
    cases stack with
    | nil => rfl
    | cons v stack =>
      dsimp only
      rcases v.asCondition? with _ | _ | _
      · rfl
      · have hjump := jump_withLocals (u := u) (m := ⟨ip, stack, locals, this⟩) (l := l) target.toNat
        exact congrArg (·, w) hjump
      · rfl
  | _ =>
    rw [exec_of_isPlain rfl, exec_of_isPlain rfl (m := m), Effect.map_map, Instr.store_of_isPlain rfl]
    rfl

/-- The next instruction loads local variable `i`. -/
def Loads (u : LoadedUnit) (m : Machine) (i : Nat) : Prop :=
  ∃ k : UInt8, Instr.decodeAt u.program.code m.ip = .ok (.ldloc k) ∧ k.toNat = i

/-- The next instruction stores local variable `i`. -/
def Stores (u : LoadedUnit) (m : Machine) (i : Nat) : Prop :=
  ∃ k : UInt8, Instr.decodeAt u.program.code m.ip = .ok (.stloc k) ∧ k.toNat = i

/-- What the next instruction makes of local variables. -/
def stored (u : LoadedUnit) (m : Machine) (locals : Array Value) : Array Value :=
  match Instr.decodeAt u.program.code m.ip with
  | .ok i => i.store m.stack locals
  | .error _ => locals

@[simp] theorem size_stored (u : LoadedUnit) (m : Machine) (l : Array Value) :
    (m.stored u l).size = l.size := by
  unfold stored Instr.store
  split
  · split <;> simp
  · rfl

private theorem getElem?_stored_of_not {i : Nat} (h : ¬ m.Stores u i) (l : Array Value) :
    (m.stored u l)[i]? = l[i]? := by
  unfold stored Instr.store
  split
  · split
    · rename_i k hd
      rw [Array.getElem?_setIfInBounds_ne fun hk => h ⟨k, hd, hk⟩]
    · rfl
  · rfl

private theorem getElem?_stored {i : Nat} (h : m.Stores u i) {l l' : Array Value}
    (hsize : l.size = l'.size) : (m.stored u l)[i]? = (m.stored u l')[i]? := by
  obtain ⟨k, hd, rfl⟩ := h
  simp only [stored, hd, Instr.store, Array.getElem?_setIfInBounds_self, hsize]

theorem step_leads (h : (step runner u m).run w = .ok (.running m', w')) :
    (∃ i, Instr.decodeAt u.program.code m.ip = .ok i ∧ i.LeadsTo m.ip m'.ip)
      ∧ m'.this = m.this ∧ m'.locals = m.stored u m.locals := by
  rcases hd : Instr.decodeAt u.program.code m.ip with e | i
  · simp only [step, hd] at h
    cases h
  rw [run_step hd] at h
  rcases hexec : (exec u { m with ip := m.ip + i.size } i).run w with
    ⟨m₁ | v | e | ⟨slot, safe, request, m₁⟩, w₁⟩ <;> rw [hexec] at h <;> dsimp only at h
  · cases h
    obtain ⟨hip, hrest⟩ := exec_leads (m := m) (congrArg (·.1.machine?) hexec)
    exact ⟨⟨i, rfl, hip⟩, by rwa [stored, hd]⟩
  · cases h
  · cases h
  · obtain ⟨hip, hrest⟩ := exec_leads (m := m) (congrArg (·.1.machine?) hexec)
    split at h <;> cases h
    exact ⟨⟨i, rfl, hip⟩, by rwa [stored, hd]⟩

private theorem eq_of_ended {out : Except MachineError Value}
    (h : (step runner u m).run w = .ok (.ended out m', w')) : m' = m := by
  rcases hd : Instr.decodeAt u.program.code m.ip with e | i
  · simp only [step, hd] at h
    cases h
    rfl
  rw [run_step hd] at h
  split at h
  · cases h
  · cases h
    rfl
  · cases h
    rfl
  · split at h <;> cases h
    rfl

/-- A step is the same with other local variables, unless it loads one that differs. -/
private theorem step_withLocals (hsize : l.size = m.locals.size)
    (hload : ∀ i, m.Loads u i → l[i]? = m.locals[i]?) (w : World) :
    (step runner u (m.withLocals l)).run w =
      match (step runner u m).run w with
      | .ok (.running m', w') => .ok (.running (m'.withLocals (m.stored u l)), w')
      | .ok (.ended out m', w') => .ok (.ended out (m'.withLocals l), w')
      | .error s => .error s := by
  rcases hd : Instr.decodeAt u.program.code m.ip with e | i
  · have hd' : Instr.decodeAt u.program.code (m.withLocals l).ip = .error e := hd
    simp only [step, hd, hd']
    rfl
  have hd' : Instr.decodeAt u.program.code (m.withLocals l).ip = .ok i := hd
  have hexec : (exec u { m.withLocals l with ip := (m.withLocals l).ip + i.size } i).run w =
      (((exec u { m with ip := m.ip + i.size } i).run w).1.map (·.withLocals (m.stored u l)),
        ((exec u { m with ip := m.ip + i.size } i).run w).2) := by
    rw [stored, hd]
    exact exec_withLocals (m := { m with ip := m.ip + i.size }) hsize
      (fun k hk => hload _ ⟨k, hk ▸ hd, rfl⟩) w
  rw [run_step hd, run_step hd', hexec]
  rcases (exec u { m with ip := m.ip + i.size } i).run w with
    ⟨m₁ | v | e | ⟨slot, safe, request, m₁⟩, w₁⟩
  · rfl
  · rfl
  · rfl
  · dsimp only [Effect.map]
    rcases (answer runner u.table slot safe request).result.run w₁ with s | ⟨f | v, w₂⟩ <;> rfl

/-- The machine comes to look at local variable `i` before it writes it. -/
inductive ReadsFirst (runner : Runner) (u : LoadedUnit) (i : Nat) : Machine → World → Prop
  | now {m : Machine} {w : World} (h : m.Loads u i) : ReadsFirst runner u i m w
  | later {m m' : Machine} {w w' : World} (h : ¬ m.Stores u i)
      (hstep : (step runner u m).run w = .ok (.running m', w')) (hs : ReadsFirst runner u i m' w') :
      ReadsFirst runner u i m w

/-- The other machine makes every step of the first, in the same worlds, and is then the same machine
but for its local variables. -/
def SameCourse (runner : Runner) (u : LoadedUnit) (m m' : Machine) (w : World) : Prop :=
  ∀ k m₁ w₁, Steps runner u k m w m₁ w₁ → ∃ l, Steps runner u k m' w (m₁.withLocals l) w₁

/-- What a run comes to, and the world that it leaves, with the dispatches in its history. -/
def outcome (runner : Runner) (u : LoadedUnit) (fuel : Nat) (m : Machine) (w : World) :
    Except Stop (Except MachineError Value × World) :=
  ((run runner u fuel m).run w).map fun r => (r.1.1, r.2)

/-- Other local variables for a machine, alike where it looks before it writes. -/
private structure Agrees (runner : Runner) (u : LoadedUnit) (m : Machine) (w : World)
    (l : Array Value) : Prop where
  size : l.size = m.locals.size
  reads : ∀ i, ReadsFirst runner u i m w → l[i]? = m.locals[i]?

private theorem Agrees.step_eq (h : Agrees runner u m w l) :
    (step runner u (m.withLocals l)).run w =
      match (step runner u m).run w with
      | .ok (.running m', w') => .ok (.running (m'.withLocals (m.stored u l)), w')
      | .ok (.ended out m', w') => .ok (.ended out (m'.withLocals l), w')
      | .error s => .error s :=
  step_withLocals h.size (fun i hi => h.reads i (.now hi)) w

private theorem Agrees.next (h : Agrees runner u m w l)
    (hstep : (step runner u m).run w = .ok (.running m', w')) :
    Agrees runner u m' w' (m.stored u l) := by
  have hlocals := (step_leads hstep).2.2
  refine ⟨by rw [hlocals, size_stored, size_stored, h.size], fun i hi => ?_⟩
  rw [hlocals]
  by_cases hw : m.Stores u i
  · exact getElem?_stored hw h.size
  · rw [getElem?_stored_of_not hw, getElem?_stored_of_not hw]
    exact h.reads i (.later hw hstep hi)

private theorem Agrees.sameCourse (h : Agrees runner u m w l) :
    SameCourse runner u m (m.withLocals l) w := by
  intro k m₁ w₁ hs
  induction hs generalizing l with
  | refl => exact ⟨l, .refl⟩
  | step hstep _ ih =>
    obtain ⟨l', hs'⟩ := ih (h.next hstep)
    exact ⟨l', .step (by rw [h.step_eq, hstep]) hs'⟩

private theorem Agrees.outcome_eq (h : Agrees runner u m w l) (fuel : Nat) :
    outcome runner u fuel (m.withLocals l) w = outcome runner u fuel m w := by
  induction fuel generalizing m w l with
  | zero => rfl
  | succ fuel ih =>
    have hstep_eq := h.step_eq
    unfold outcome
    rw [run_succ, run_succ, hstep_eq]
    rcases hstep : (step runner u m).run w with s | ⟨m' | ⟨out, m'⟩, w'⟩
    · rfl
    · exact ih (h.next hstep)
    · rfl

/-- Machines of one course stay so after a step. -/
private theorem SameCourse.next {m₁ m₁' : Machine} {w₁ : World} (h : SameCourse runner u m m' w)
    (hstep : (step runner u m).run w = .ok (.running m₁, w₁))
    (hstep' : (step runner u m').run w = .ok (.running m₁', w₁)) : SameCourse runner u m₁ m₁' w₁ := by
  intro k m₂ w₂ hs
  obtain ⟨l, hs'⟩ := h (k + 1) m₂ w₂ (.step hstep hs)
  cases hs' with
  | step hfirst hrest =>
    rw [hstep'] at hfirst
    cases hfirst
    exact ⟨l, hrest⟩

private theorem SameCourse.step_eq {m₁ : Machine} {w₁ : World} (h : SameCourse runner u m m' w)
    (hstep : (step runner u m).run w = .ok (.running m₁, w₁)) :
    ∃ l, (step runner u m').run w = .ok (.running (m₁.withLocals l), w₁) := by
  obtain ⟨l, hs⟩ := h 1 m₁ w₁ (.step hstep .refl)
  cases hs with
  | step hfirst hrest =>
    cases hrest
    exact ⟨l, hfirst⟩

private theorem step_of_loads {k : UInt8} {v : Value}
    (hd : Instr.decodeAt u.program.code m.ip = .ok (.ldloc k)) (hv : m.locals[k.toNat]? = some v)
    (w : World) :
    (step runner u m).run w = .ok (.running { m with ip := m.ip + 2, stack := v :: m.stack }, w) := by
  rw [run_step hd]
  simp only [exec, hv]
  rfl

private theorem SameCourse.agrees (h : SameCourse runner u m (m.withLocals l) w)
    (hsize : l.size = m.locals.size) : Agrees runner u m w l := by
  refine ⟨hsize, fun i hi => ?_⟩
  induction hi generalizing l with
  | @now m w hload =>
    obtain ⟨k, hd, rfl⟩ := hload
    rcases hv : m.locals[k.toNat]? with _ | v
    · rw [Array.getElem?_eq_none_iff] at hv ⊢
      rwa [hsize]
    obtain ⟨v', hv'⟩ : ∃ v', l[k.toNat]? = some v' := by
      have hlt := (Array.getElem?_eq_some_iff.mp hv).1
      exact ⟨_, Array.getElem?_eq_getElem (hsize ▸ hlt)⟩
    -- What is loaded is on top of the stack, where both machines have the same.
    obtain ⟨l', hstep⟩ := h.step_eq (step_of_loads hd hv w)
    rw [step_of_loads (m := m.withLocals l) hd hv' w] at hstep
    obtain ⟨rfl, -⟩ : v' = v ∧ _ := by simpa [withLocals] using hstep
    exact hv'
  | @later m m' w w' hw hstep _ ih =>
    obtain ⟨l', hstep'⟩ := h.step_eq hstep
    have hlocals : m'.locals = m.stored u m.locals := (step_leads hstep).2.2
    have hl' : l' = m.stored u l := (step_leads hstep').2.2
    have hread := ih (h.next hstep hstep') (by rw [hl', hlocals, size_stored, size_stored, hsize])
    rwa [hl', hlocals, getElem?_stored_of_not hw, getElem?_stored_of_not hw] at hread

/-- Machines that differ in their local variables go the same course exactly if these are alike where
the machine looks before it writes. -/
private theorem sameCourse_iff (hsize : l.size = m.locals.size) :
    SameCourse runner u m (m.withLocals l) w
      ↔ ∀ i, ReadsFirst runner u i m w → l[i]? = m.locals[i]? :=
  ⟨fun h => (h.agrees hsize).reads, fun h => Agrees.sameCourse ⟨hsize, h⟩⟩

/-- Machines for a unit: new ones, and those that ran before, each time to a result, whatever became
of the world in between. -/
inductive Used (u : LoadedUnit) (this : Value) : Machine → Prop
  | new : Used u this (start u this)
  | again {runner : Runner} {fuel : Nat} {m m' : Machine} {w w' : World}
      {out : Except MachineError Value} (h : Used u this m)
      (hrun : (run runner u fuel m.restart).run w = .ok ((out, m'), w')) : Used u this m'

private theorem Steps.keeps {k : Nat} (h : Steps runner u k m w m' w') :
    m'.this = m.this ∧ m'.locals.size = m.locals.size := by
  induction h with
  | refl => exact ⟨rfl, rfl⟩
  | step hstep _ ih =>
    obtain ⟨-, hthis, hlocals⟩ := step_leads hstep
    exact ⟨ih.1.trans hthis, by rw [ih.2, hlocals, size_stored]⟩

theorem Used.keeps {this : Value} (h : Used u this m) :
    m.this = this ∧ m.locals.size = u.program.locals := by
  induction h with
  | new => exact ⟨rfl, Array.size_replicate⟩
  | again _ hrun ih =>
    obtain ⟨k, m₁, w₁, hs, hend⟩ := exists_steps_of_run hrun
    obtain rfl := eq_of_ended hend
    exact ⟨hs.keeps.1.trans ih.1, hs.keeps.2.trans ih.2⟩

private theorem Used.size_eq {this : Value} (h : Used u this m) :
    m.locals.size = (start u this).locals.size :=
  h.keeps.2.trans Array.size_replicate.symm

/-- A used machine that starts again is a new one but for its local variables. -/
private theorem Used.restart_eq {this : Value} (h : Used u this m) :
    m.restart = (start u this).withLocals m.locals := by
  obtain ⟨rfl, -⟩ := h.keeps
  rfl

/-- A used machine goes the course of a new one exactly if it holds null where the new one looks before
it writes. -/
theorem Used.sameCourse_iff {this : Value} (h : Used u this m) :
    SameCourse runner u (start u this) m.restart w
      ↔ ∀ i v, ReadsFirst runner u i (start u this) w → m.locals[i]? = some v → v = .null := by
  rw [h.restart_eq, Machine.sameCourse_iff h.size_eq]
  refine forall_congr' fun i => ⟨fun hi v hread hv => ?_, fun hi hread => ?_⟩
  · have hnull := (hi hread).symm.trans hv
    exact (Array.eq_of_mem_replicate (Array.mem_of_getElem? hnull))
  · rcases hv : m.locals[i]? with _ | v
    · rw [Array.getElem?_eq_none_iff, h.size_eq] at hv
      exact (Array.getElem?_eq_none_iff.mpr hv).symm
    · have hlt := (Array.getElem?_eq_some_iff.mp hv).1
      rw [hi v hread hv, start, Array.getElem?_replicate, if_pos (h.keeps.2 ▸ hlt)]

theorem Used.outcome_eq {this : Value} (h : Used u this m)
    (hs : SameCourse runner u (start u this) m.restart w) (fuel : Nat) :
    outcome runner u fuel m.restart w = outcome runner u fuel (start u this) w := by
  rw [h.restart_eq] at hs ⊢
  exact (hs.agrees h.size_eq).outcome_eq fuel

end Machine
end CachedDispatch
