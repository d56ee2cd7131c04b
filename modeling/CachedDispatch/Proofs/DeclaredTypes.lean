import CachedDispatch.Proofs.Lines
import CachedDispatch.Proofs.Overloads
import CachedDispatch.Proofs.Tiers

/-!
Code gets arguments of the types that it declares. A candidate that is picked for an argument list gets
each argument as it is, or the float of an integer where it declares a float, and by then its parameters
take all of them untouched.
-/
namespace CachedDispatch

namespace World

/-- A class of this kind is there. -/
def IsDefined (w : World) (r : ClassRef) (kind : ClassKind) : Prop :=
  r.idx < w.classes.size ∧ (w.cls r).kind = kind

/-- Objects are of defined classes of the language, and host objects of defined host types. -/
def Proper (w : World) : Value → Prop
  | .object o => w.IsDefined (w.classOfObject o) .dynamic
  | .host _ t _ => ∃ r, w.IsDefined r .host ∧ (w.cls r).id = t
  | _ => True

variable {w : World}

/-- Objects and host objects have no builtin types. -/
private theorem Attained.not_object_of_isBuiltin (hw : w.Attained) (ha : w.Ample) {v : Value}
    (h : w.Proper v) (hb : (v.typeId w.lineage).isBuiltin = true) :
    (∀ o, v ≠ .object o) ∧ ∀ alloc t label, v ≠ .host alloc t label := by
  have hne {r : ClassRef} (hr : r.idx < w.classes.size)
      (hk : (w.cls r).kind = .dynamic ∨ (w.cls r).kind = .host) : (w.cls r).id.isBuiltin ≠ true := by
    have hdefined : ¬ (w.cls r).Native := fun hn => hk.elim hn.1 hn.2
    rw [(hw.setApart ha).classes r hr hdefined]
    decide
  constructor
  · rintro o rfl
    exact hne h.1 (Or.inl h.2) hb
  · rintro alloc t label rfl
    obtain ⟨r, hr, rfl⟩ := h
    exact hne hr.1 (Or.inr hr.2) hb

end World

/-- What an argument becomes on its way: the float of an integer where a float is declared, and otherwise
itself. -/
inductive Passes : ParamType → Value → Value → Prop
  | converted (n : Int64) : Passes (.exact .float) (.int n) (.float (.ofInt n))
  | unchanged {p : ParamType} {v : Value} (h : p = .exact .float → ∀ n, v ≠ .int n) : Passes p v v

section Argument

variable {w : World} {lin : Lineage} {p : ParamType} {target : TypeId} {v : Value}

private theorem passes_coerceArg (p : ParamType) (v : Value) : Passes p v (coerceArg p v) := by
  by_cases h : p = .exact .float → ∀ n, v ≠ .int n
  · have hnone : coerce? p v = none := by
      unfold coerce?
      split
      · rename_i t n
        rw [if_neg]
        rintro rfl
        exact h rfl n rfl
      · rfl
    rw [coerceArg, hnone]
    exact .unchanged h
  · push Not at h
    obtain ⟨rfl, n, rfl⟩ := h
    exact .converted n

/-- The ways in which a value can be passed at all. -/
private theorem isSome_distance_cases (h : (paramDistance lin (.exact target) v).isSome = true) :
    target = .object ∨ v.effectiveType lin = target ∨ v.effectiveType lin = .null
      ∨ (v.depthTo? lin target).isSome = true ∨ target = .float ∧ v.effectiveType lin = .int := by
  by_contra hnone
  simp only [not_or, not_and, Bool.not_eq_true, Option.isSome_eq_false_iff, Option.isNone_iff_eq_none]
    at hnone
  obtain ⟨hobject, htype, hnull, hdepth, hcoerced⟩ := hnone
  have hnot : coercible target (v.effectiveType lin) = false := by
    simpa [coercible] using hcoerced
  simp [paramDistance, hobject, htype, hnull, hdepth, hnot] at h

/-- A value is taken where its own type is declared. -/
private theorem directlyAssignable_typeId (hv : v.isWrapper = false) (hline : ∀ o, lin o ≠ []) :
    directlyAssignable lin (.exact (v.typeId lin)) v = true := by
  cases v with
  | wrapper => cases hv
  | null => simp [directlyAssignable]
  | object o =>
    obtain ⟨t, ts, hlin⟩ := List.exists_cons_of_ne_nil (hline o)
    simp [directlyAssignable, Value.typeId, hlin]
  | _ => simp [directlyAssignable]

private theorem directlyAssignable_of_isOpen (hv : v.isWrapper = false) (hp : p.isOpen = true) :
    directlyAssignable lin p v = true := by
  have hp : p = .any ∨ p = .exact .object := by simpa [ParamType.isOpen] using hp
  cases v with
  | wrapper => cases hv
  | _ => rcases hp with rfl | rfl <;> rfl

/-- What can be passed at all is taken untouched, unless it is an integer passed as a float. -/
private theorem directlyAssignable_of_isSome_distance (hw : w.Attained) (ha : w.Ample)
    (hv : v.isWrapper = false) (hproper : w.Proper v) (h : (paramDistance w.lineage p v).isSome = true)
    (hfloat : p = .exact .float → ∀ n, v ≠ .int n) : directlyAssignable w.lineage p v = true := by
  cases p with
  | any => exact directlyAssignable_of_isOpen hv rfl
  | exact target =>
    have heffective : v.effectiveType w.lineage = v.typeId w.lineage := by
      cases v with
      | wrapper => cases hv
      | _ => rfl
    have hways := isSome_distance_cases h
    rw [heffective] at hways
    rcases hways with rfl | rfl | hnull | hdepth | ⟨rfl, hint⟩
    · exact directlyAssignable_of_isOpen hv rfl
    · exact directlyAssignable_typeId hv fun o => List.cons_ne_nil _ _
    · obtain ⟨hobject, hhost⟩ := hw.not_object_of_isBuiltin ha hproper (by rw [hnull]; rfl)
      cases v with
      | null => simp [directlyAssignable]
      | object o => exact absurd rfl (hobject o)
      | host => exact absurd rfl (hhost _ _ _)
      | _ => cases congrArg TypeId.val hnull
    · cases v with
      | object o =>
        obtain ⟨depth, hdepth⟩ := Option.isSome_iff_exists.mp hdepth
        have hmem : target ∈ w.lineage o := List.isSome_idxOf?.mp (by
          rw [show (w.lineage o).idxOf? target = some depth from hdepth]
          rfl)
        simp [directlyAssignable, hmem]
      | wrapper => cases hv
      | _ => cases hdepth
    · obtain ⟨hobject, hhost⟩ := hw.not_object_of_isBuiltin ha hproper (by rw [hint]; rfl)
      cases v with
      | int n => exact absurd rfl (hfloat rfl n)
      | object o => exact absurd rfl (hobject o)
      | host => exact absurd rfl (hhost _ _ _)
      | _ => cases congrArg TypeId.val hint

end Argument

/-- Each argument becomes what its parameter gets, in order, and the parameter takes it untouched. -/
inductive Delivers (lin : Lineage) : List ParamType → List Value → List Value → Prop
  | nil : Delivers lin [] [] []
  | cons {p : ParamType} {v u : Value} {ps : List ParamType} {vs us : List Value} (h : Passes p v u)
      (hu : directlyAssignable lin p u = true) (hrest : Delivers lin ps vs us) :
      Delivers lin (p :: ps) (v :: vs) (u :: us)

section Arguments

variable {w : World} {m : Method} {args : List Value}

private theorem zipWith_coerceArg_of_none {ps : List ParamType} (hlen : ps.length = args.length)
    (h : ∀ e ∈ ps.zip args, coerce? e.1 e.2 = none) : ps.zipWith coerceArg args = args := by
  induction ps generalizing args with
  | nil => exact (List.length_eq_zero_iff.mp hlen.symm).symm
  | cons p ps ih =>
    rcases args with _ | ⟨v, vs⟩
    · cases hlen
    have hv : coerceArg p v = v := by
      rw [coerceArg, h (p, v) List.mem_cons_self]
      rfl
    rw [List.zipWith_cons_cons, hv, ih (Nat.succ.inj hlen) fun e he => h e (List.mem_cons_of_mem _ he)]

/-- As many arguments as parameters are converted one by one. -/
private theorem coerceArgs_eq_zipWith {ps : List ParamType} (hlen : ps.length = args.length) :
    coerceArgs ps args = ps.zipWith coerceArg args := by
  rw [coerceArgs]
  split
  · rfl
  · rename_i hnone
    refine (zipWith_coerceArg_of_none hlen ?_).symm
    simpa using hnone

private theorem delivers_zipWith (hw : w.Attained) (ha : w.Ample)
    (hargs : ∀ v ∈ args, v.isWrapper = false ∧ w.Proper v)
    {ps : List ParamType} (hlen : ps.length = args.length)
    (h : ∀ e ∈ ps.zip args, (paramDistance w.lineage e.1 e.2).isSome = true) :
    Delivers w.lineage ps args (ps.zipWith coerceArg args) := by
  induction ps generalizing args with
  | nil =>
    obtain rfl := List.length_eq_zero_iff.mp hlen.symm
    exact .nil
  | cons p ps ih =>
    rcases args with _ | ⟨v, vs⟩
    · cases hlen
    rw [List.forall_mem_cons] at hargs
    rw [List.zip_cons_cons, List.forall_mem_cons] at h
    have hpasses := passes_coerceArg p v
    refine .cons hpasses ?_ (ih hargs.2 (Nat.succ.inj hlen) h.2)
    generalize coerceArg p v = u at hpasses
    cases hpasses with
    | converted n => rfl
    | unchanged hfloat =>
      exact directlyAssignable_of_isSome_distance hw ha hargs.1.1 hargs.1.2 h.1 hfloat

end Arguments

/-- Whatever is picked for arguments without wrappers gets them in order, at the tier that is chosen for
them and without a cache: integers where it declares floats become floats, nothing else is changed, and
every parameter takes what it gets untouched. -/
theorem picked_gets_declared_types {w : World} (hw : w.Attained) (ha : w.Ample)
    {candidates : List Method} {args : List Value} {m : Method} (hm : pick w.lineage candidates args = some m)
    (hargs : ∀ v ∈ args, v.isWrapper = false ∧ w.Proper v) :
    (∀ tier, tier = selectTier w.lineage m args ∨ tier = .baseline →
      Delivers w.lineage m.params args (prepare m args tier))
    ∧ ∀ cls receiver, ∃ got,
      (Target.make w cls m args).invoke w receiver args
          = .invoke m (receiverFor (w.cls cls).id m receiver) got
        ∧ Plan.invokeWith m receiver args = .invoke m receiver got
        ∧ Delivers w.lineage m.params args got := by
  obtain ⟨d, hd, -⟩ := firstLeast_of_pickBy hm
  obtain ⟨⟨hlen, haccepts⟩, -⟩ := Method.rank?_eq_some_iff.mp hd
  have hunwrapped : unwrapArgs args = args := by
    refine unwrapArgs_of_unwrapped ((noWrappers_iff w.lineage args).mp ?_)
    simpa [noWrappers] using fun v hv => (hargs v hv).1
  have hbaseline : prepare m args .baseline = m.params.zipWith coerceArg args := by
    rw [prepare, hunwrapped, coerceArgs_eq_zipWith hlen]
  have hchosen : prepare m args (selectTier w.lineage m args) = prepare m args .baseline :=
    prepare_of_fits (selectTier_fits m fun o _ hf => hw.type_ne_int_of_float ha hf)
  have hdelivers : Delivers w.lineage m.params args (prepare m args .baseline) :=
    hbaseline ▸ delivers_zipWith hw ha hargs hlen haccepts
  refine ⟨fun tier htier => ?_, fun cls receiver => ⟨_, congrArg (Plan.invoke m _) hchosen, rfl, hdelivers⟩⟩
  rcases htier with rfl | rfl
  · exact hchosen ▸ hdelivers
  · exact hdelivers

open World in
theorem picked_gets_declared_types_priced :
    pick priced.lineage [discount] [.object ⟨1⟩, .int 7, .text "b"] = some discount
      ∧ priced.Ample ∧ priced.Proper (.object ⟨1⟩)
      ∧ Delivers priced.lineage discount.params [.object ⟨1⟩, .int 7, .text "b"]
        (prepare discount [.object ⟨1⟩, .int 7, .text "b"] .baseline) := by
  have hsome : (pick priced.lineage [discount] [.object ⟨1⟩, .int 7, .text "b"]).isSome = true := by
    decide +kernel
  obtain ⟨m, hm⟩ := Option.isSome_iff_exists.mp hsome
  obtain rfl := List.mem_singleton.mp (mem_of_pickBy hm)
  have hobject : priced.Proper (.object ⟨1⟩) := by
    constructor <;> decide +kernel
  have hargs : ∀ v ∈ [Value.object ⟨1⟩, .int 7, .text "b"], v.isWrapper = false ∧ priced.Proper v := by
    simpa [Value.isWrapper, Proper] using hobject
  have hample : priced.Ample := by decide +kernel
  exact ⟨hm, hample, hobject,
    (picked_gets_declared_types attained_priced hample hm hargs).1 _ (Or.inr rfl)⟩

end CachedDispatch
