import CachedDispatch.Machine
import CachedDispatch.Proofs.Invocation

/-!
Failures of invoked code reach the caller of a dispatch as the code raised them. On the way they may
be put into layers, depending on how the slot came to its plan, but every entry point takes the layers
off again; so no layer comes out of a run of the machine either.
-/
namespace CachedDispatch

/-- The failure in `n` layers. -/
def Fault.layered : Nat → Fault → Fault
  | 0, f => f
  | n + 1, f => .invocation (f.layered n)

private theorem Fault.bare_layered (n : Nat) (f : Fault) : (f.layered n).bare = f.bare := by
  induction n with
  | zero => rfl
  | succ n ih => exact ih

variable {run : Runner} {w w' w₀ w₁ w₂ : World} {t : TableRef} {i : Nat} {request : Request}
  {code : Code} {frame : Frame} {f : Fault}

/-- Dispatch itself gives its failures no layers. -/
private theorem dispatch_ne_invocation
    (h : (dispatch run t i request).result.run w = .ok (.error f, w')) (g : Fault) :
    f ≠ .invocation g := by
  rw [result_dispatch] at h
  rcases hserve : (serve run t i request).result.run (w.record (.asked t i request)) with
    s | ⟨e | v, w₁⟩ <;> rw [hserve] at h <;> cases h
  exact e.bare_ne_invocation g

private theorem answer_ne_invocation {safe : Bool}
    (h : (Machine.answer run t i safe request).result.run w = .ok (.error f, w')) (g : Fault) :
    f ≠ .invocation g := by
  unfold Machine.answer dispatchSafe at h
  split at h
  · split at h
    · cases h
    · exact dispatch_ne_invocation h g
  · exact dispatch_ne_invocation h g

/-- The failure of the code that a plan comes to run is the failure of the dispatch. -/
private theorem dispatch_fails {slot : Slot} (hs : w.slot? t i = some slot) {d : Decision}
    (hp : (planAt t slot request).run (w.record (.asked t i request)) = (d, w₀))
    (hi : d.plan.Invokes run (w₀.table t).runtime w₀ code frame w₁)
    (hf : (run code frame).result.run w₁ = .ok (.error f, w₂)) :
    (dispatch run t i request).result.run w
      = .ok (.error f.bare, w₂.record (.answered (.error f.bare))) := by
  obtain ⟨g, hg, hbare⟩ := hi.fails hf d.origin
  have hasked : (w.record (.asked t i request)).slot? t i = some slot := hs
  rw [result_dispatch, result_serve hasked hp, hg]
  dsimp only
  rw [hbare]

namespace Machine

variable {u : LoadedUnit} {m m' : Machine}

/-- Instructions themselves do not fail as dispatch does. -/
private theorem exec_ne_dispatch (u : LoadedUnit) (m : Machine) (i : Instr) (w : World) (f : Fault) :
    ((exec u m i).run w).1 ≠ .fail (.dispatch f) := by
  have hjump (m : Machine) (n : Nat) : m.jump u n ≠ .fail (.dispatch f) := by
    intro h
    unfold jump at h
    split at h <;> cases h
  have hcond (k : Bool → Machine → Effect) (hk : ∀ b m, k b m ≠ .fail (.dispatch f)) :
      m.withCondition k ≠ .fail (.dispatch f) := by
    intro h
    unfold withCondition at h
    split at h
    · cases h
    · split at h
      · exact hk _ _ h
      · cases h
  intro h
  cases i with
  | br n => exact hjump m n.toNat h
  | brfalse n =>
    refine hcond (fun b m => if b then .next m else m.jump u n.toNat) (fun b m h => ?_) h
    split at h
    · cases h
    · exact hjump m n.toNat h
  | not =>
    refine hcond (fun b m => .next (m.push (.bool !b))) (fun b m h => ?_) h
    cases h
  | newMap n =>
    simp only [exec] at h
    split at h
    · cases h
    · split at h <;> cases h
  | stloc n =>
    simp only [exec] at h
    split at h
    · cases h
    · split at h <;> cases h
  | invoke op slot argc =>
    replace h : m.invocation op slot.toNat argc.toNat = .fail (.dispatch f) := h
    unfold invocation at h
    split at h
    · cases h
    split at h
    · cases h
    split at h
    · cases h
    · rename_i e he
      unfold requestFor at he
      split at he <;> cases he
      cases h
  | nop | ldnull | ldthis => cases h
  | _ =>
    simp only [exec] at h
    split at h <;> cases h

private theorem step_ne_invocation
    (h : (step run u m).run w = .ok (.ended (.error (.dispatch f)) m', w')) (g : Fault) :
    f ≠ .invocation g := by
  unfold step at h
  split at h
  · rename_i e _
    cases e <;> cases h
  obtain ⟨effect, w₁, he, h⟩ := Act.bind_eq_ok h
  cases effect with
  | next | done => cases h
  | fail e =>
    cases h
    exact absurd (congrArg Prod.fst (Except.ok.inj he)) (exec_ne_dispatch u _ _ w f)
  | dispatch slot safe request m₁ =>
    obtain ⟨result, w₂, ha, h⟩ := Act.bind_eq_ok h
    cases result with
    | ok v => cases h
    | error e =>
      cases h
      exact answer_ne_invocation ha g

/-- No run of the machine comes out with a layer. -/
private theorem run_ne_invocation {fuel : Nat}
    (h : (Machine.run run u fuel m).run w = .ok ((.error (.dispatch f), m'), w')) (g : Fault) :
    f ≠ .invocation g := by
  induction fuel generalizing m w with
  | zero => cases h
  | succ fuel ih =>
    obtain ⟨status, w₁, hstep, h⟩ := Act.bind_eq_ok h
    cases status with
    | running m₁ => exact ih h
    | ended result m₁ =>
      cases h
      exact step_ne_invocation hstep g

end Machine

/-- A dispatch fails in no layer. If the code that its plan comes to run fails, in any number of layers,
the dispatch fails with what is in them, wherever the plan came from. So a run of the machine fails in
no layer either. -/
theorem dispatch_fails_as_invoked_code (run : Runner) (w : World) :
    (∀ t i safe request f w',
      (Machine.answer run t i safe request).result.run w = .ok (.error f, w') →
        ∀ g, f ≠ .invocation g)
    ∧ (∀ t i slot safe request d w₀ code frame w₁ n f w₂,
      w.slot? t i = some slot → (safe && request.onNull) = false →
      (planAt t slot request).run (w.record (.asked t i request)) = (d, w₀) →
      d.plan.Invokes run (w₀.table t).runtime w₀ code frame w₁ →
      (run code frame).result.run w₁ = .ok (.error (f.layered n), w₂) →
      (∀ g, f ≠ .invocation g) →
        (Machine.answer run t i safe request).result.run w
          = .ok (.error f, w₂.record (.answered (.error f))))
    ∧ ∀ u fuel m f m' w',
      (Machine.run run u fuel m).run w = .ok ((.error (.dispatch f), m'), w') →
        ∀ g, f ≠ .invocation g := by
  refine ⟨fun t i safe request f w' h => answer_ne_invocation h, ?_,
    fun u fuel m f m' w' h => Machine.run_ne_invocation h⟩
  intro t i slot safe request d w₀ code frame w₁ n f w₂ hs hsafe hp hi hf hne
  have hanswer : Machine.answer run t i safe request = dispatch run t i request := by
    unfold Machine.answer dispatchSafe
    cases safe with
    | false => rfl
    | true => rw [if_pos rfl, if_neg (by simpa using hsafe)]
  rw [hanswer, dispatch_fails hs hp hi hf, f.bare_layered, Fault.bare_of_ne_invocation hne]

/-- A runtime that gives caching up at once, with a slot for sums. -/
def World.adding : World :=
  ((World.initial ⟨true, 0⟩).addTable (.ofSites .object 0 [("plus", .call)])).2

/-- Two layers come off where the slot becomes megamorphic. -/
theorem dispatch_fails_as_invoked_code_sum : ∃ w',
    (dispatch (fun _ _ => throw (Fault.layered 2 (.thrown "Error" "no sums"))) ⟨0⟩ 0
        (.call false (.int 1) [.int 2])).result.run World.adding
      = .ok (.error (.thrown "Error" "no sums"), w') := by
  obtain ⟨-, hexact, -⟩ := dispatch_fails_as_invoked_code
    (fun _ _ => throw (Fault.layered 2 (.thrown "Error" "no sums"))) World.adding
  have hslot : World.adding.slot? ⟨0⟩ 0 = some { header := ⟨0, "plus"⟩, kind := .call } := rfl
  have hnative : (match ((planAt ⟨0⟩ { header := ⟨0, "plus"⟩, kind := .call }
      (.call false (.int 1) [.int 2])).run
        (World.adding.record (.asked ⟨0⟩ 0 (.call false (.int 1) [.int 2])))).1.plan with
      | .invoke m _ _ => decide (m.kind = .native)
      | _ => false) = true := by decide +kernel
  rcases hp : (planAt ⟨0⟩ { header := ⟨0, "plus"⟩, kind := .call }
    (.call false (.int 1) [.int 2])).run
      (World.adding.record (.asked ⟨0⟩ 0 (.call false (.int 1) [.int 2]))) with ⟨⟨origin, plan⟩, w₀⟩
  rw [hp] at hnative
  cases plan with
  | invoke m receiver args =>
    exact ⟨_, hexact ⟨0⟩ 0 _ false _ _ _ _ _ _ 2 (.thrown "Error" "no sums") _ hslot rfl hp
      (.method (Or.inl (of_decide_eq_true hnative))) rfl nofun⟩
  | _ => cases hnative

end CachedDispatch
