import CachedDispatch.Proofs.Alike
import CachedDispatch.Proofs.Inspection

/-!
Full lookups behave alike in worlds that differ only in what dispatch keeps to itself.
-/
namespace CachedDispatch

open World

variable {α β : Type} {P : Lasting}

namespace Steady

theorem ofUpdate_bind {Q : α → Lasting} {R : β → Lasting} {u : Update α} {f : α → Update β}
    (h : Steady P Q (Act.ofUpdate u)) (hf : ∀ a, Steady ((Q a).and P) R (Act.ofUpdate (f a))) :
    Steady P R (Act.ofUpdate (u >>= f)) := Steady.bind h hf

theorem ofUpdate_pure {Q : α → Lasting} (a : α) (hq : P.Entails (Q a)) :
    Steady P Q (Act.ofUpdate (Pure.pure a)) := Steady.pure a hq

theorem ofUpdate_look {R : β → Lasting} (k : World → Update β)
    (hφ : ∀ w₁ w₂, w₁.Matched w₂ → P.holds w₁ → P.holds w₂ → k w₁ = k w₂)
    (hk : ∀ w, Steady P R (Act.ofUpdate (k w))) : Steady P R (Act.ofUpdate (get >>= k)) :=
  look (fun w => Act.ofUpdate (k w)) (fun w₁ w₂ hm h₁ h₂ => by rw [hφ w₁ w₂ hm h₁ h₂]) hk

theorem ofUpdate_modifyGet {Q : α → Lasting} {f : World → α × World} (h : Steady P Q (modifyGet f)) :
    Steady P Q (Act.ofUpdate (modifyGet f)) := h

/-- A change that dispatch keeps to itself. -/
private theorem hidden {f : World → World} (hm : ∀ w, Moves w (f w)) (hf : ∀ w : World, w.Same (f w)) :
    Steady P (fun _ => .none) (Act.ofUpdate (modify f)) :=
  act (fun w => ((), f w)) (fun w _ _ => ⟨hm w, trivial⟩) fun w₁ w₂ h _ _ =>
    ⟨rfl, (hf w₁).symm.trans (h.same.trans (hf w₂))⟩

theorem allocate : Steady P (fun _ => .none) (modifyGet World.allocate) :=
  act _ (fun w _ _ => ⟨.single (.allocate w), trivial⟩) fun _ _ h _ _ => ⟨h.same.fresh, h.same.allocate⟩

private theorem recordSlowPath (rt : Nat) :
    Steady P (fun _ => .none) (Act.ofUpdate (recordSlowPath rt)) :=
  hidden (fun w => .single (.count w rt _)) fun w => .updateStats w rt _

end Steady

private theorem World.Reachable.placed_classOfObject {w : World} (h : w.Reachable) (o : ObjectRef) :
    (Lasting.placed (w.classOfObject o)).holds w := fun hs => (h.housed hs).objects o

/-- A class that a lookup found stands for its type. -/
private theorem has_findClass {w : World} (hr : w.Reachable) {rt : Nat} (hrt : w.Hosts rt)
    (t : TypeId) : (Lasting.ofOption .has (w.findClass rt t).1).holds (w.findClass rt t).2 := by
  rcases hf : w.findClass rt t with ⟨_ | r, w'⟩
  · trivial
  · intro hs
    have hone := hr.lone_of_moves (.single (.findClass hrt t)) (hf ▸ hs)
    obtain rfl := hrt hone
    have ho := ((hr.orderly hone).findClass t).1
    rw [hf] at ho
    exact ho.entered_of_standsFor (standsFor_findClass hf hs.single)

theorem Steady.findClass {rt : Nat} (h : P.Entails (.hosts rt)) (t : TypeId) :
    Steady P (.ofOption .has) (modifyGet (·.findClass rt t)) := by
  refine act _ (fun w hr hp => ⟨.single (.findClass (h w hp) t), has_findClass hr (h w hp) t⟩) ?_
  intro w₁ w₂ hm _ hp₂
  obtain rfl := h w₂ hp₂ hm.tame₂.toLone
  exact ⟨hm.findClass_fst t, (hm.findClass t).same⟩

theorem Steady.rootClass {rt : Nat} (h : P.Entails (.hosts rt)) {b : BuiltinType}
    (hb : b.isRoot = true) : Steady P .has (modifyGet (·.rootClass rt b)) := by
  refine act _ (fun w hr hp => ?_) ?_
  · have hmove := Move.findClass (h w hp) b.id
    have hhas := has_findClass hr (h w hp) b.id
    rw [w.rootClass_eq_findClass rt hb] at hmove hhas
    exact ⟨.single hmove, hhas⟩
  · intro w₁ w₂ hm _ hp₂
    obtain rfl := h w₂ hp₂ hm.tame₂.toLone
    have hfst := hm.findClass_fst b.id
    rw [w₁.rootClass_eq_findClass 0 hb, w₂.rootClass_eq_findClass 0 hb] at hfst
    exact ⟨Option.some.inj hfst, (hm.rootClass hb).same⟩

private theorem Steady.typeOrFault {rt : Nat} (h : P.Entails (.hosts rt)) (t : TypeId) :
    Steady P (.ofResult .has) (Act.ofUpdate (typeOrFault rt t)) := by
  unfold CachedDispatch.typeOrFault
  refine ofUpdate_bind (ofUpdate_modifyGet (findClass h t)) fun found => ?_
  cases found with
  | some r => exact ofUpdate_pure _ (Lasting.entails_self _).left
  | none => exact ofUpdate_pure _ (Lasting.entails_none _)

theorem Steady.classOrFault {rt : Nat} (h : P.Entails (.hosts rt)) (v : Value) :
    Steady P (.ofResult .placed) (Act.ofUpdate (classOrFault rt v)) := by
  have hclass : Steady P (.ofOption .placed) (modifyGet (·.classOf rt v)) := by
    rcases World.classOf_cases v with ⟨o, rfl⟩ | ⟨t, -, hof⟩
    · exact act _ (fun w hr _ => ⟨.refl, hr.placed_classOfObject o⟩) fun w₁ w₂ hm _ _ =>
        ⟨congrArg some (hm.same.classOfObject o), hm.same⟩
    · simp only [hof]
      refine (findClass h t).weaken P.entails_self fun found => ?_
      cases found with
      | some r => exact Lasting.has_entails_placed r
      | none => exact Lasting.entails_none _
  unfold CachedDispatch.classOrFault
  refine ofUpdate_bind (ofUpdate_modifyGet hclass) fun found => ?_
  cases found with
  | some r => exact ofUpdate_pure _ (Lasting.entails_self _).left
  | none =>
    refine ofUpdate_look _ (fun w₁ w₂ hm _ _ => by rw [hm.lineage]) fun w => ?_
    exact ofUpdate_pure _ (Lasting.entails_none _)

/-- The classes that a plan refers to. -/
def Plan.classes : Plan → Lasting
  | .construct cls _ _ | .bean cls _ _ _ => .has cls
  | _ => .none

/-- What a lookup in a class sees of the world. -/
theorem World.Matched.lookup {w₁ w₂ : World} (hm : w₁.Matched w₂) {r : ClassRef}
    (h : P.Entails (.placed r)) (h₁ : P.holds w₁) (h₂ : P.holds w₂) :
    w₁.hierarchy r = w₂.hierarchy r ∧ w₁.lineage = w₂.lineage ∧ typeNames w₁ = typeNames w₂ := by
  have hname : w₁.typeName = w₂.typeName := by
    funext v
    unfold World.typeName
    rw [hm.same.naming]
  refine ⟨hm.hierarchy (h w₁ h₁ hm.tame₁.toLone) (h w₂ h₂ hm.tame₂.toLone), hm.lineage, ?_⟩
  unfold typeNames
  rw [hname]

namespace Steady

variable {c : Site.Context}

private theorem planNullCall (h : P.Entails (.hosts c.runtime)) (args : List Value) :
    Steady P Plan.classes (Act.ofUpdate (planNullCall c args)) := by
  unfold CachedDispatch.planNullCall
  refine ofUpdate_bind (ofUpdate_modifyGet (rootClass h rfl)) fun r => ?_
  have hr := (Lasting.has_entails_placed r).left (q := P)
  refine ofUpdate_look _ (fun w₁ w₂ hm h₁ h₂ => ?_) fun w => ?_
  · obtain ⟨hh, hl, -⟩ := hm.lookup hr h₁ h₂
    simp only [hh, hl]
  · dsimp only
    split <;> exact ofUpdate_pure _ (Lasting.entails_none _)

theorem planNullProperty (h : P.Entails (.hosts c.runtime)) :
    Steady P Plan.classes (Act.ofUpdate (planNullProperty c)) := by
  unfold CachedDispatch.planNullProperty
  refine ofUpdate_bind (ofUpdate_modifyGet (rootClass h rfl)) fun r => ?_
  have hr := (Lasting.has_entails_placed r).left (q := P)
  refine ofUpdate_look _ (fun w₁ w₂ hm h₁ h₂ => ?_) fun w => ?_
  · obtain ⟨hh, hl, -⟩ := hm.lookup hr h₁ h₂
    simp only [hh, hl]
  · split <;> exact ofUpdate_pure _ (Lasting.entails_none _)

private theorem planMissingMethod {r : ClassRef} (hr : P.Entails (.placed r)) (receiver : Value)
    (args : List Value) :
    Steady P Plan.classes (Act.ofUpdate (planMissingMethod c r receiver args)) := by
  unfold CachedDispatch.planMissingMethod
  refine ofUpdate_bind (ofUpdate_modifyGet allocate) fun n => ?_
  refine ofUpdate_look _ (fun w₁ w₂ hm h₁ h₂ => ?_) fun w => ?_
  · obtain ⟨hh, hl, hn⟩ := hm.lookup hr.right h₁ h₂
    simp only [hh, hl, hn]
  · dsimp only
    split <;> exact ofUpdate_pure _ (Lasting.entails_none _)

private theorem planStatic (h : P.Entails (.hosts c.runtime)) (t : TypeId) (args : List Value) :
    Steady P Plan.classes (Act.ofUpdate (planStatic c t args)) := by
  unfold CachedDispatch.planStatic
  refine ofUpdate_bind (recordSlowPath c.runtime) fun _ => ?_
  refine ofUpdate_bind (typeOrFault h.right t) fun found => ?_
  cases found with
  | error f => exact ofUpdate_pure _ (Lasting.entails_none _)
  | ok r =>
    refine ofUpdate_look _ (fun w₁ w₂ hm h₁ h₂ => ?_) fun w => ?_
    · obtain ⟨hh, hl, hn⟩ := hm.lookup (Lasting.has_entails_placed r).left h₁ h₂
      simp only [hh, hl, hn]
    · dsimp only
      split <;> exact ofUpdate_pure _ (Lasting.entails_none _)

private theorem planInstanceCall (h : P.Entails (.hosts c.runtime)) (current : Bool)
    (receiver : Value) (args : List Value) :
    Steady P Plan.classes (Act.ofUpdate (planInstanceCall c current receiver args)) := by
  unfold CachedDispatch.planInstanceCall
  refine ofUpdate_bind (recordSlowPath c.runtime) fun _ => ?_
  refine ofUpdate_look _ (fun w₁ w₂ hm _ _ => by simp only [hm.lineage, hm.same.active]) fun w => ?_
  split
  · exact ofUpdate_pure _ (Lasting.entails_none _)
  refine ofUpdate_bind (classOrFault h.right receiver) fun found => ?_
  cases found with
  | error f => exact ofUpdate_pure _ (Lasting.entails_none _)
  | ok r =>
    have hr := (Lasting.entails_self (.placed r)).left (q := Lasting.none.and P)
    refine ofUpdate_look _ (fun w₁ w₂ hm h₁ h₂ => ?_) fun w => ?_
    · obtain ⟨hh, hl, -⟩ := hm.lookup hr h₁ h₂
      simp only [hh, hl]
    · dsimp only
      split
      · exact ofUpdate_pure _ (Lasting.entails_none _)
      split
      · exact ofUpdate_pure _ (Lasting.entails_none _)
      · exact planMissingMethod hr receiver _

private theorem planConstruct (h : P.Entails (.hosts c.runtime)) (t : TypeId) (args : List Value) :
    Steady P Plan.classes (Act.ofUpdate (planConstruct c t args)) := by
  unfold CachedDispatch.planConstruct
  refine ofUpdate_bind (recordSlowPath c.runtime) fun _ => ?_
  refine ofUpdate_bind (typeOrFault h.right t) fun found => ?_
  cases found with
  | error f => exact ofUpdate_pure _ (Lasting.entails_none _)
  | ok r =>
    refine ofUpdate_look _ (fun w₁ w₂ hm h₁ h₂ => ?_) fun w => ?_
    · obtain ⟨hh, hl, hn⟩ := hm.lookup (Lasting.has_entails_placed r).left h₁ h₂
      simp only [hh, hl, hn]
    · dsimp only
      split
      · exact ofUpdate_pure _ (Lasting.entails_self _).left
      split
      · exact ofUpdate_pure _ (Lasting.entails_none _)
      split
      · exact ofUpdate_pure _ (Lasting.entails_self _).left
      · exact ofUpdate_pure _ (Lasting.entails_none _)

private theorem planClassProperty (h : P.Entails (.hosts c.runtime)) (t : TypeId) :
    Steady P Plan.classes (Act.ofUpdate (planClassProperty c t)) := by
  unfold CachedDispatch.planClassProperty
  refine ofUpdate_bind (typeOrFault h t) fun found => ?_
  cases found with
  | error f => exact ofUpdate_pure _ (Lasting.entails_none _)
  | ok r =>
    refine ofUpdate_look _ (fun w₁ w₂ hm h₁ h₂ => ?_) fun w => ?_
    · obtain ⟨hh, hl, -⟩ := hm.lookup (Lasting.has_entails_placed r).left h₁ h₂
      simp only [hh, hl]
    · dsimp only
      split <;> exact ofUpdate_pure _ (Lasting.entails_none _)

private theorem planMissingProperty {r : ClassRef} (hr : P.Entails (.placed r)) (receiver : Value) :
    Steady P Plan.classes (Act.ofUpdate (planMissingProperty c r receiver)) := by
  unfold CachedDispatch.planMissingProperty
  refine ofUpdate_look _ (fun w₁ w₂ hm h₁ h₂ => ?_) fun w => ?_
  · obtain ⟨hh, hl, -⟩ := hm.lookup hr h₁ h₂
    simp only [hh, hl]
  · dsimp only
    split <;> exact ofUpdate_pure _ (Lasting.entails_none _)

private theorem planInstanceProperty (h : P.Entails (.hosts c.runtime)) (receiver : Value) :
    Steady P Plan.classes (Act.ofUpdate (planInstanceProperty c receiver)) := by
  unfold CachedDispatch.planInstanceProperty
  refine ofUpdate_bind (classOrFault h receiver) fun found => ?_
  cases found with
  | error f => exact ofUpdate_pure _ (Lasting.entails_none _)
  | ok r =>
    have hr := (Lasting.entails_self (.placed r)).left (q := P)
    refine ofUpdate_look _ (fun w₁ w₂ hm h₁ h₂ => ?_) fun w => ?_
    · obtain ⟨hh, hl, -⟩ := hm.lookup hr h₁ h₂
      simp only [hh, hl, hm.same.field?]
    · dsimp only
      split
      · split <;> exact ofUpdate_pure _ (Lasting.entails_none _)
      · exact ofUpdate_pure _ (Lasting.entails_none _)
      · exact planMissingProperty hr receiver

private theorem planProperty (h : P.Entails (.hosts c.runtime)) (receiver : Value) :
    Steady P Plan.classes (Act.ofUpdate (planProperty c receiver)) := by
  unfold CachedDispatch.planProperty
  refine ofUpdate_bind (recordSlowPath c.runtime) fun _ => ?_
  split
  · exact planNullProperty h.right
  · exact ofUpdate_pure _ (Lasting.entails_none _)
  · exact planClassProperty h.right _
  · exact planInstanceProperty h.right _

theorem planFully (h : P.Entails (.hosts c.runtime)) (request : Request) :
    Steady P Plan.classes (Act.ofUpdate (planFully c request)) := by
  cases request with
  | call current receiver args =>
    cases receiver with
    | classLiteral t => exact planStatic h t args
    | null => exact planNullCall h args
    | _ => exact planInstanceCall h current _ args
  | static t args => exact planStatic h t args
  | construct t args => exact planConstruct h t args
  | property receiver => exact planProperty h receiver

theorem planSetProperty {rt : Nat} (h : P.Entails (.hosts rt)) (target : Value) (name : String)
    (v : Value) : Steady P Plan.classes (Act.ofUpdate (planSetProperty rt target name v)) := by
  unfold CachedDispatch.planSetProperty
  refine ofUpdate_bind (classOrFault h target) fun found => ?_
  cases found with
  | error f => exact ofUpdate_pure _ (Lasting.entails_none _)
  | ok r =>
    refine ofUpdate_look _ (fun w₁ w₂ hm h₁ h₂ => ?_) fun w => ?_
    · obtain ⟨hh, hl, -⟩ := hm.lookup (Lasting.entails_self (.placed r)).left h₁ h₂
      simp only [hh, hl, hm.same.field?]
    · dsimp only
      split
      · split
        · split <;> exact ofUpdate_pure _ (Lasting.entails_none _)
        · exact ofUpdate_pure _ (Lasting.entails_none _)
      · exact ofUpdate_pure _ (Lasting.entails_none _)
      · exact ofUpdate_pure _ (Lasting.entails_none _)

end Steady

end CachedDispatch
