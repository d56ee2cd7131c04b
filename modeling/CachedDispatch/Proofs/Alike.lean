import CachedDispatch.Proofs.Invocation
import CachedDispatch.Proofs.Matched

/-!
Computations that behave alike in worlds that lookups cannot tell apart. The judgement speaks of two
computations, and of what each may rely on: facts that no move undoes.
-/
namespace CachedDispatch

open World

/-- A fact that no move undoes. -/
structure Lasting where
  holds : World → Prop
  stable : ∀ {w w' : World}, w.Reachable → Moves w w' → holds w → holds w'

namespace Lasting

def none : Lasting := ⟨fun _ => True, fun _ _ _ => trivial⟩

def and (p q : Lasting) : Lasting :=
  ⟨fun w => p.holds w ∧ q.holds w, fun hr hm h => ⟨p.stable hr hm h.1, q.stable hr hm h.2⟩⟩

/-- The class stands for its type. -/
def has (r : ClassRef) : Lasting :=
  ⟨(·.Has r), fun hr hm h hs => (hr.grows hm hs).entered (h (hr.lone_of_moves hm hs))⟩

/-- The class is there. -/
def placed (r : ClassRef) : Lasting :=
  ⟨fun w => w.Lone → w.Placed r, fun hr hm h hs =>
    (hr.grows hm hs).placed (h (hr.lone_of_moves hm hs))⟩

def hosts (rt : Nat) : Lasting :=
  ⟨(·.Hosts rt), fun hr hm h hs => h (hr.lone_of_moves hm hs)⟩

/-- A fact that has nothing to do with worlds. -/
private def fact (p : Prop) : Lasting := ⟨fun _ => p, fun _ _ h => h⟩

/-- A fact about an answer that may be missing. -/
def ofOption {α : Type} (q : α → Lasting) : Option α → Lasting
  | some a => q a
  | .none => none

/-- A fact about an answer that may be a failure. -/
def ofResult {ε α : Type} (q : α → Lasting) : Except ε α → Lasting
  | .ok a => q a
  | .error _ => none

def Entails (p q : Lasting) : Prop := ∀ w, p.holds w → q.holds w

theorem entails_self (p : Lasting) : p.Entails p := fun _ h => h

theorem Entails.left {p q r : Lasting} (h : p.Entails r) : (p.and q).Entails r := fun w hw => h w hw.1

theorem Entails.right {p q r : Lasting} (h : q.Entails r) : (p.and q).Entails r := fun w hw => h w hw.2

theorem entails_none (p : Lasting) : p.Entails none := fun _ _ => trivial

theorem has_entails_placed (r : ClassRef) : (has r).Entails (placed r) :=
  fun _ h hs => (h hs).toPlaced

end Lasting

/-- What a computation does to the world is made of moves. -/
def Steps {α : Type} (P : Lasting) (Q : α → Lasting) (x : Act α) : Prop :=
  ∀ ⦃w a w'⦄, w.Reachable → P.holds w → x.run w = .ok (a, w') → Moves w w' ∧ (Q a).holds w'

/-- If `y` ends in a disciplined world, then `x` ends in one that cannot be told apart from it, with
an answer that looks the same. -/
structure Alike {α β : Type} (P : Lasting) (view : α → β) (Q : β → Lasting) (x y : Act α) :
    Prop where
  left : Steps P (fun a => Q (view a)) x
  right : Steps P (fun a => Q (view a)) y
  same : ∀ ⦃w₁ w₂ b w₂'⦄, w₁.Reachable → w₂.Reachable → w₁.Same w₂ → P.holds w₁ → P.holds w₂ →
    y.run w₂ = .ok (b, w₂') → w₂'.Disciplined →
      ∃ a w₁', x.run w₁ = .ok (a, w₁') ∧ view a = view b ∧ w₁'.Same w₂'

/-- A computation that behaves alike in both worlds, and answers the same. -/
abbrev Steady {α : Type} (P : Lasting) (Q : α → Lasting) (x : Act α) : Prop := Alike P id Q x x

private theorem Steps.bind {α β : Type} {P : Lasting} {Q : α → Lasting} {R : β → Lasting} {x : Act α}
    {f : α → Act β} (hx : Steps P Q x) (hf : ∀ a, Steps ((Q a).and P) R (f a)) :
    Steps P R (x >>= f) := by
  intro w b w'' hr hp hrun
  obtain ⟨a, w', hx', hf'⟩ := Act.bind_eq_ok hrun
  obtain ⟨hm, hq⟩ := hx hr hp hx'
  obtain ⟨hm', hq'⟩ := hf a (hr.moves hm) ⟨hq, P.stable hr hm hp⟩ hf'
  exact ⟨hm.trans hm', hq'⟩

namespace Alike

variable {α β γ δ : Type} {P : Lasting} {view : α → β} {Q : β → Lasting}

theorem bind {x y : Act α} {f g : α → Act γ} {view' : γ → δ} {R : δ → Lasting}
    (h : Alike P view Q x y)
    (hf : ∀ a b, view a = view b → Alike ((Q (view a)).and P) view' R (f a) (g b)) :
    Alike P view' R (x >>= f) (y >>= g) := by
  refine ⟨h.left.bind fun a => (hf a a rfl).left, h.right.bind fun b => (hf b b rfl).right, ?_⟩
  intro w₁ w₂ c w₂'' hr₁ hr₂ hs hp₁ hp₂ hrun hd
  obtain ⟨b, w₂', hy, hg⟩ := Act.bind_eq_ok hrun
  obtain ⟨hm₂, hq₂⟩ := h.right hr₂ hp₂ hy
  have hp₂' := P.stable hr₂ hm₂ hp₂
  have hr₂' := hr₂.moves hm₂
  obtain ⟨hm₂', -⟩ := (hf b b rfl).right hr₂' ⟨hq₂, hp₂'⟩ hg
  obtain ⟨a, w₁', hx, hv, hs'⟩ := h.same hr₁ hr₂ hs hp₁ hp₂ hy (hr₂'.disciplined hm₂' hd)
  obtain ⟨hm₁, hq₁⟩ := h.left hr₁ hp₁ hx
  obtain ⟨d, w₁'', hf', hv', hs''⟩ := (hf a b hv).same (hr₁.moves hm₁) hr₂' hs'
    ⟨hq₁, P.stable hr₁ hm₁ hp₁⟩ ⟨hv ▸ hq₂, hp₂'⟩ hg hd
  exact ⟨d, w₁'', by rw [Act.bind_ok hx, hf'], hv', hs''⟩

theorem pure {a b : α} (h : view a = view b) (hq : P.Entails (Q (view a))) :
    Alike P view Q (pure a) (pure b) := by
  refine ⟨?_, ?_, ?_⟩
  · rintro w _ _ - hp ⟨⟩
    exact ⟨.refl, hq w hp⟩
  · rintro w _ _ - hp ⟨⟩
    exact ⟨.refl, (h ▸ hq w hp : (Q (view b)).holds w)⟩
  · rintro w₁ w₂ _ _ - - hs - - ⟨⟩ -
    exact ⟨a, w₁, rfl, h, hs⟩

theorem stop (s s' : Stop) : Alike P view Q (Act.stop s) (Act.stop s') := by
  refine ⟨?_, ?_, ?_⟩
  · intro _ _ _ _ _ h
    cases h
  · intro _ _ _ _ _ h
    cases h
  · intro _ _ _ _ _ _ _ _ _ h
    cases h

/-- More may be relied on before, and less afterwards. -/
theorem weaken {P' : Lasting} {Q' : β → Lasting} {x y : Act α} (h : Alike P view Q x y)
    (hp : P'.Entails P) (hq : ∀ b, (Q b).Entails (Q' b)) : Alike P' view Q' x y where
  left _ _ _ hr hp' hx := (h.left hr (hp _ hp') hx).imp_right (hq _ _)
  right _ _ _ hr hp' hx := (h.right hr (hp _ hp') hx).imp_right (hq _ _)
  same _ _ _ _ hr₁ hr₂ hs hp₁ hp₂ := h.same hr₁ hr₂ hs (hp _ hp₁) (hp _ hp₂)

private theorem of_fact {p : Prop} {x y : Act α} (h : p → Alike P view Q x y) :
    Alike ((Lasting.fact p).and P) view Q x y where
  left _ _ _ hr hp := (h hp.1).left hr hp.2
  right _ _ _ hr hp := (h hp.1).right hr hp.2
  same _ _ _ _ hr₁ hr₂ hs hp₁ hp₂ := (h hp₁.1).same hr₁ hr₂ hs hp₁.2 hp₂.2

/-- A look at the world, at something that looks the same in both. -/
theorem ask (φ : World → α) (hq : ∀ w, w.Reachable → P.holds w → (Q (view (φ w))).holds w)
    (hφ : ∀ w₁ w₂, w₁.Matched w₂ → P.holds w₁ → P.holds w₂ → view (φ w₁) = view (φ w₂)) :
    Alike P view Q (do let w ← get; Pure.pure (φ w)) (do let w ← get; Pure.pure (φ w)) := by
  have steps : Steps P (fun a => Q (view a)) (do let w ← get; Pure.pure (φ w) : Act α) := by
    rintro w _ _ hr hp ⟨⟩
    exact ⟨.refl, hq w hr hp⟩
  refine ⟨steps, steps, ?_⟩
  rintro w₁ w₂ _ _ hr₁ hr₂ hs hp₁ hp₂ ⟨⟩ hd
  exact ⟨φ w₁, w₁, rfl, hφ w₁ w₂ (hr₁.matched hr₂ hs hd.toTame) hp₁ hp₂, hs⟩

theorem read (view : α → β) {view' : γ → δ} {R : δ → Lasting} (φ : World → α) (k k' : α → Act γ)
    (hq : ∀ w, w.Reachable → P.holds w → (Q (view (φ w))).holds w)
    (hφ : ∀ w₁ w₂, w₁.Matched w₂ → P.holds w₁ → P.holds w₂ → view (φ w₁) = view (φ w₂))
    (hk : ∀ a b, view a = view b → Alike ((Q (view a)).and P) view' R (k a) (k' b)) :
    Alike P view' R (get >>= fun w => k (φ w)) (get >>= fun w => k' (φ w)) :=
  (ask φ hq hφ).bind hk

end Alike

namespace Steady

variable {α β γ : Type} {P : Lasting} {Q : α → Lasting}

theorem bind {view : β → γ} {R : γ → Lasting} {x : Act α} {f : α → Act β} (h : Steady P Q x)
    (hf : ∀ a, Alike ((Q a).and P) view R (f a) (f a)) : Alike P view R (x >>= f) (x >>= f) :=
  Alike.bind h fun a b hab => by
    obtain rfl : a = b := hab
    exact hf a

theorem pure (a : α) (hq : P.Entails (Q a)) : Steady P Q (pure a) := Alike.pure rfl hq

theorem read {view : β → γ} {R : γ → Lasting} (φ : World → α) (k : α → Act β)
    (hq : ∀ w, w.Reachable → P.holds w → (Q (φ w)).holds w)
    (hφ : ∀ w₁ w₂, w₁.Matched w₂ → P.holds w₁ → P.holds w₂ → φ w₁ = φ w₂)
    (hk : ∀ a, Alike ((Q a).and P) view R (k a) (k a)) :
    Alike P view R (get >>= fun w => k (φ w)) (get >>= fun w => k (φ w)) :=
  Alike.read id φ k k hq hφ fun a b hab => by
    obtain rfl : a = b := hab
    exact hk a

/-- What is done next depends only on what both worlds agree on. -/
theorem look {view : β → γ} {R : γ → Lasting} (k : World → Act β)
    (hφ : ∀ w₁ w₂, w₁.Matched w₂ → P.holds w₁ → P.holds w₂ → k w₁ = k w₂)
    (hk : ∀ w, Alike P view R (k w) (k w)) : Alike P view R (get >>= k) (get >>= k) := by
  refine read (Q := fun x => .fact (∃ w, x = k w)) k (fun x => x) (fun w _ _ => ⟨w, rfl⟩) hφ fun x => ?_
  refine Alike.of_fact ?_
  rintro ⟨w, rfl⟩
  exact hk w

/-- A change of the world that keeps matched worlds the same. -/
theorem act (f : World → α × World)
    (hm : ∀ w, w.Reachable → P.holds w → Moves w (f w).2 ∧ (Q (f w).1).holds (f w).2)
    (hf : ∀ w₁ w₂, w₁.Matched w₂ → P.holds w₁ → P.holds w₂ →
      (f w₁).1 = (f w₂).1 ∧ (f w₁).2.Same (f w₂).2) :
    Steady P Q (modifyGet f) := by
  have steps : Steps P Q (modifyGet f : Act α) := by
    intro w a w' hr hp h
    have hfw : f w = (a, w') := Except.ok.inj h
    simpa only [hfw] using hm w hr hp
  refine ⟨steps, steps, ?_⟩
  intro w₁ w₂ b w₂' hr₁ hr₂ hs hp₁ hp₂ h hd
  have hfw : f w₂ = (b, w₂') := Except.ok.inj h
  have ht := (hr₂.disciplined (steps hr₂ hp₂ h).1 hd).toTame
  have hsame := hf w₁ w₂ (hr₁.matched hr₂ hs ht) hp₁ hp₂
  rw [hfw] at hsame
  exact ⟨_, _, rfl, hsame⟩

end Steady

end CachedDispatch
