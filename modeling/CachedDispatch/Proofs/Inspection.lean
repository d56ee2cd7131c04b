import CachedDispatch.Proofs.Orderly

/-!
What lookups do to the world. They enter builtin classes, number what they allocate and count
themselves; a relation between worlds that lets this pass bounds whatever they do.
-/
namespace CachedDispatch

variable {α β : Type} {R : World → World → Prop} {rt : Nat}

/-- The computation changes the world only as the relation allows. -/
def Update.Makes (R : World → World → Prop) (u : Update α) : Prop := ∀ w : World, R w (u.run w).2

namespace World

/-- The relation lets pass what a search in the runtime does. -/
structure AllowsSearch (rt : Nat) (R : World → World → Prop) : Prop where
  refl : ∀ w, R w w
  trans : ∀ {w₁ w₂ w₃}, R w₁ w₂ → R w₂ w₃ → R w₁ w₃
  findClass : ∀ (w : World) (t : TypeId), R w (w.findClass rt t).2

/-- The relation lets pass what a lookup in the runtime does before it is counted. -/
structure AllowsLookups (rt : Nat) (R : World → World → Prop) : Prop extends AllowsSearch rt R where
  allocate : ∀ w : World, R w w.allocate.2

theorem rootClass_eq_findClass (w : World) (rt : Nat) {b : BuiltinType} (hb : b.isRoot = true) :
    w.findClass rt b.id = (some (w.rootClass rt b).1, (w.rootClass rt b).2) := by
  unfold World.findClass World.rootClass
  rcases Assoc.get? (w.registry rt).entries b.id with _ | r
  · simp only [b.isBuiltin_id, b.ofId?_id, hb]
    rfl
  · rfl

end World

open World

namespace Update.Makes

theorem pure (hR : AllowsSearch rt R) (a : α) : Update.Makes R (Pure.pure a : Update α) := hR.refl

theorem bind {u : Update α} {f : α → Update β} (hu : Update.Makes R u) (hR : AllowsSearch rt R)
    (hf : ∀ a, Update.Makes R (f a)) : Update.Makes R (u >>= f) :=
  fun w => hR.trans (hu w) (hf _ _)

theorem look {k : World → Update β} (hk : ∀ w, Update.Makes R (k w)) : Update.Makes R (get >>= k) :=
  fun w => hk w w

end Update.Makes

section Search

variable (hR : AllowsSearch rt R)
include hR

private theorem makes_findClass (t : TypeId) : Update.Makes R (modifyGet (·.findClass rt t)) :=
  fun w => hR.findClass w t

private theorem makes_classOf (v : Value) : Update.Makes R (modifyGet (·.classOf rt v)) := by
  rcases classOf_cases v with ⟨o, rfl⟩ | ⟨t, -, hof⟩
  · exact hR.refl
  · simp only [hof]
    exact makes_findClass hR t

theorem makes_rootClass {b : BuiltinType} (hb : b.isRoot = true) :
    Update.Makes R (modifyGet (·.rootClass rt b)) := by
  intro w
  have h := hR.findClass w b.id
  rw [w.rootClass_eq_findClass rt hb] at h
  exact h

theorem makes_classOrFault (v : Value) : Update.Makes R (classOrFault rt v) := by
  refine (makes_classOf hR v).bind hR fun found => ?_
  cases found with
  | some r => exact .pure hR _
  | none => exact .look fun _ => .pure hR _

theorem makes_typeOrFault (t : TypeId) : Update.Makes R (typeOrFault rt t) := by
  refine (makes_findClass hR t).bind hR fun found => ?_
  cases found with
  | some r => exact .pure hR _
  | none => exact .pure hR _

theorem makes_planSetProperty (target : Value) (name : String) (v : Value) :
    Update.Makes R (planSetProperty rt target name v) := by
  refine (makes_classOrFault hR target).bind hR fun found => ?_
  cases found with
  | error f => exact .pure hR _
  | ok r =>
    refine .look fun w => ?_
    dsimp only
    split
    · split <;> exact .pure hR _
    · exact .pure hR _
    · exact .pure hR _

private theorem makes_guardFor (rc : ReceiverClass) : Update.Makes R (guardFor rt rc) := by
  cases rc with
  | literal t => exact (makes_findClass hR t).bind hR fun _ => .pure hR _
  | object o => exact .look fun _ => .pure hR _
  | other v => exact .look fun _ => (makes_classOf hR v).bind hR fun _ => .pure hR _

end Search

section Context

variable {c : Site.Context}

private theorem makes_planNullCall (hR : AllowsSearch c.runtime R) (args : List Value) :
    Update.Makes R (planNullCall c args) := by
  refine (makes_rootClass hR rfl).bind hR fun null => .look fun w => ?_
  dsimp only
  split <;> exact .pure hR _

private theorem makes_planNullProperty (hR : AllowsSearch c.runtime R) :
    Update.Makes R (planNullProperty c) := by
  refine (makes_rootClass hR rfl).bind hR fun null => .look fun w => ?_
  split <;> exact .pure hR _

theorem makes_planOnNull (hR : AllowsSearch c.runtime R) {request : Request}
    (h : request.onNull = true) : Update.Makes R (planOnNull c request) := by
  cases request with
  | call current receiver args => exact makes_planNullCall hR args
  | property receiver => exact makes_planNullProperty hR
  | static | construct => cases h

private theorem makes_resolveStatic (hR : AllowsSearch c.runtime R) (t : TypeId) (args : List Value)
    (current : Bool) : Update.Makes R (resolveStatic c t args current) := by
  refine (makes_findClass hR t).bind hR fun found => ?_
  cases found with
  | none => exact .pure hR _
  | some r =>
    refine .look fun w => ?_
    split <;> exact .pure hR _

private theorem makes_resolveCall (hR : AllowsSearch c.runtime R) (current : Bool) (receiver : Value)
    (args : List Value) : Update.Makes R (resolveCall c current receiver args) := by
  unfold resolveCall
  split
  · exact .pure hR _
  · exact makes_resolveStatic hR _ args current
  · refine (makes_guardFor hR _).bind hR fun found => ?_
    cases found with
    | none => exact .pure hR _
    | some found =>
      refine .look fun w => ?_
      dsimp only
      split
      · exact .pure hR _
      · split <;> exact .pure hR _

private theorem makes_resolveConstruct (hR : AllowsSearch c.runtime R) (t : TypeId)
    (args : List Value) : Update.Makes R (resolveConstruct c t args) := by
  refine (makes_findClass hR t).bind hR fun found => ?_
  cases found with
  | none => exact .pure hR _
  | some r =>
    refine .look fun w => ?_
    dsimp only
    split
    · exact .pure hR _
    split
    · exact .pure hR _
    split <;> exact .pure hR _

private theorem makes_resolveProperty (hR : AllowsSearch c.runtime R) (receiver : Value) :
    Update.Makes R (resolveProperty c receiver) := by
  unfold resolveProperty
  split
  · exact .pure hR _
  · refine (makes_guardFor hR _).bind hR fun found => ?_
    cases found with
    | none => exact .pure hR _
    | some found =>
      refine .look fun w => ?_
      split <;> exact .pure hR _

end Context

def Stats.resolved (s : Stats) : Stats := { s with resolutions := s.resolutions + 1 }

def Stats.installed (s : Stats) : Stats := { s with installs := s.installs + 1 }

def Stats.slow (s : Stats) : Stats := { s with slowPathCalls := s.slowPathCalls + 1 }

def Stats.givenUp (s : Stats) : Stats :=
  { s with megamorphicTransitions := s.megamorphicTransitions + 1 }

section Counted

variable {c : Site.Context}

/-- Every resolution is counted, and then it searches. -/
theorem makes_resolve (hR : AllowsSearch c.runtime R) (request : Request) (w : World) :
    R (w.updateStats c.runtime Stats.resolved) ((resolve c request).run w).2 := by
  unfold resolve
  rw [Update.run_modify_bind, Update.run_get_bind]
  split
  · exact hR.refl _
  cases request with
  | call current receiver args => exact makes_resolveCall hR current receiver args _
  | static t args => exact makes_resolveStatic hR t args false _
  | construct t args => exact makes_resolveConstruct hR t args _
  | property receiver => exact makes_resolveProperty hR receiver _

/-- The relation bounds what the lookup does after its count. -/
private theorem makes_slowPath {u : Update α} (hu : Update.Makes R u) (w : World) :
    R (w.updateStats c.runtime Stats.slow) ((do recordSlowPath c.runtime; u : Update α).run w).2 :=
  hu _

/-- The world in which a full lookup for the request has been counted; one for a call on null is not. -/
def World.charged (w : World) (rt : Nat) : Request → World
  | .call _ .null _ => w
  | _ => w.updateStats rt Stats.slow

variable (hR : AllowsLookups c.runtime R)
include hR

private theorem makes_planMissingMethod (cls : ClassRef) (receiver : Value) (args : List Value) :
    Update.Makes R (planMissingMethod c cls receiver args) := by
  have hsearch := hR.toAllowsSearch
  have halloc : Update.Makes R (modifyGet World.allocate) := hR.allocate
  refine halloc.bind hsearch fun alloc => .look fun w => ?_
  dsimp only
  split <;> exact .pure hsearch _

private theorem makes_planStatic (t : TypeId) (args : List Value) (w : World) :
    R (w.updateStats c.runtime Stats.slow) ((planStatic c t args).run w).2 := by
  have hsearch := hR.toAllowsSearch
  refine makes_slowPath ((makes_typeOrFault hsearch t).bind hsearch fun found => ?_) w
  cases found with
  | error f => exact .pure hsearch _
  | ok r =>
    refine .look fun w => ?_
    dsimp only
    split <;> exact .pure hsearch _

private theorem makes_planInstanceCall (current : Bool) (receiver : Value) (args : List Value)
    (w : World) :
    R (w.updateStats c.runtime Stats.slow) ((planInstanceCall c current receiver args).run w).2 := by
  have hsearch := hR.toAllowsSearch
  refine makes_slowPath (.look fun w => ?_) w
  split
  · exact .pure hsearch _
  refine (makes_classOrFault hsearch receiver).bind hsearch fun found => ?_
  cases found with
  | error f => exact .pure hsearch _
  | ok r =>
    refine .look fun w => ?_
    dsimp only
    split
    · exact .pure hsearch _
    split
    · exact .pure hsearch _
    · exact makes_planMissingMethod hR r receiver _

private theorem makes_planConstruct (t : TypeId) (args : List Value) (w : World) :
    R (w.updateStats c.runtime Stats.slow) ((planConstruct c t args).run w).2 := by
  have hsearch := hR.toAllowsSearch
  refine makes_slowPath ((makes_typeOrFault hsearch t).bind hsearch fun found => ?_) w
  cases found with
  | error f => exact .pure hsearch _
  | ok r =>
    refine .look fun w => ?_
    dsimp only
    split
    · exact .pure hsearch _
    split
    · exact .pure hsearch _
    split <;> exact .pure hsearch _

private theorem makes_planMissingProperty (cls : ClassRef) (receiver : Value) :
    Update.Makes R (planMissingProperty c cls receiver) := by
  have hsearch := hR.toAllowsSearch
  refine .look fun w => ?_
  dsimp only
  split <;> exact .pure hsearch _

private theorem makes_planProperty (receiver : Value) (w : World) :
    R (w.updateStats c.runtime Stats.slow) ((planProperty c receiver).run w).2 := by
  have hsearch := hR.toAllowsSearch
  refine makes_slowPath ?_ w
  split
  · exact makes_planNullProperty hsearch
  · exact .pure hsearch _
  · refine (makes_typeOrFault hsearch _).bind hsearch fun found => ?_
    cases found with
    | error f => exact .pure hsearch _
    | ok r =>
      refine .look fun w => ?_
      dsimp only
      split <;> exact .pure hsearch _
  · refine (makes_classOrFault hsearch _).bind hsearch fun found => ?_
    cases found with
    | error f => exact .pure hsearch _
    | ok r =>
      refine .look fun w => ?_
      dsimp only
      split
      · split <;> exact .pure hsearch _
      · exact .pure hsearch _
      · exact makes_planMissingProperty hR r _

/-- A full lookup is counted first, and then it looks up. -/
theorem makes_planFully (request : Request) (w : World) :
    R (w.charged c.runtime request) ((planFully c request).run w).2 := by
  cases request with
  | call current receiver args =>
    cases receiver with
    | null => exact makes_planNullCall hR.toAllowsSearch args w
    | classLiteral t => exact makes_planStatic hR t args w
    | _ => exact makes_planInstanceCall hR current _ args w
  | static t args => exact makes_planStatic hR t args w
  | construct t args => exact makes_planConstruct hR t args w
  | property receiver => exact makes_planProperty hR receiver w

end Counted

/-- The relation lets pass whatever a slot does to come to its plan. -/
structure World.AllowsSlots (R : World → World → Prop) : Prop where
  lookups : ∀ rt, AllowsLookups rt R
  count : ∀ (w : World) (rt : Nat) (f : Stats → Stats), R w (w.updateStats rt f)
  write : ∀ (w : World) (t : TableRef) (i : Nat) (f : Slot → Slot), R w (w.updateSlot t i f)

section Slots

variable (hR : AllowsSlots R) (t : TableRef) (header : SiteHeader) (c : Site.Context)
  (request : Request)
include hR

private theorem makes_charged (w : World) (rt : Nat) : R w (w.charged rt request) := by
  unfold World.charged
  split
  · exact (hR.lookups rt).refl w
  · exact hR.count w rt _

private theorem makes_lookedUp : Update.Makes R (lookedUp (planFully c request)) := fun w =>
  (hR.lookups c.runtime).trans (makes_charged hR request w c.runtime)
    (makes_planFully (hR.lookups c.runtime) request w)

theorem makes_specialize : Update.Makes R (specialize t header c request) := by
  have hS := (hR.lookups c.runtime).toAllowsSearch
  have hcount (f : Stats → Stats) : Update.Makes R (modify (·.updateStats c.runtime f)) :=
    fun w => hR.count w c.runtime f
  have hwrite (f : Slot → Slot) : Update.Makes R (modify (·.updateSlot t header.index f)) :=
    fun w => hR.write w t header.index f
  refine .look fun w => ?_
  dsimp only
  split
  · exact .pure hS _
  split
  · have hgiveUp : Update.Makes R (giveUp t header c.runtime) := by
      refine .look fun w => ?_
      split
      · exact .pure hS _
      split
      · exact (hwrite _).bind hS fun _ => hcount _
      · exact .pure hS _
    exact hgiveUp.bind hS fun _ => .pure hS _
  · have hresolve : Update.Makes R (resolve c request) := fun w =>
      hS.trans (hR.count w c.runtime _) (makes_resolve hS request w)
    refine hresolve.bind hS fun found => ?_
    cases found with
    | none => exact .pure hS _
    | some site => exact ((hwrite _).bind hS fun _ => hcount _).bind hS fun _ => .pure hS _

private theorem makes_planWith {again : Update Decision} (hagain : Update.Makes R again) :
    Update.Makes R (planWith t header c request again) := by
  have hS := (hR.lookups c.runtime).toAllowsSearch
  unfold planWith
  split
  · rename_i hnull
    exact (makes_planOnNull hS hnull).bind hS fun _ => .pure hS _
  · refine (makes_specialize hR t header c request).bind hS fun found => ?_
    cases found with
    | none => exact makes_lookedUp hR c request
    | some site =>
      refine .look fun w => ?_
      split
      · exact .pure hS _
      · exact hagain

theorem makes_planAt (slot : Slot) : Update.Makes R (planAt t slot request) := by
  have hagain (c : Site.Context) (attempts : Nat) :
      Update.Makes R (planGenerically t slot.header c request attempts) := by
    induction attempts with
    | zero => exact makes_planWith hR t slot.header c request (makes_lookedUp hR c request)
    | succ attempts ih => exact makes_planWith hR t slot.header c request ih
  refine .look fun w => ?_
  dsimp only
  split
  · exact makes_lookedUp hR _ request
  · split
    · exact .pure (hR.lookups 0).toAllowsSearch _
    · exact hagain _ _

end Slots

end CachedDispatch
