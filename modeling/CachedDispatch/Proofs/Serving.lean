import CachedDispatch.Dispatch.Cached

/-!
When a site serves a request from what it remembers: one case for each kind of site and of request that go
together, with everything that is checked before the plan is made.
-/
namespace CachedDispatch

variable {w : World}

/-- All that the remembered method depends on is as it was. -/
structure Target.Valid (w : World) (target : Target) (args : List Value) : Prop where
  version : w.version target.cls = target.version
  shape : target.shape = Shape.of w.lineage args
  quiet : w.hasActiveCategory = false

private theorem Target.isValid_iff {target : Target} {args : List Value} :
    target.isValid w args = true ↔ target.Valid w args := by
  simp only [isValid, Bool.and_eq_true, decide_eq_true_eq, Bool.not_eq_true']
  exact ⟨fun h => ⟨h.1.1, h.1.2, h.2⟩, fun h => ⟨⟨h.version, h.shape⟩, h.quiet⟩⟩

namespace Site

/-- The plans that sites make from what they remember. -/
inductive Serves (w : World) : Site → Request → Plan → Prop
  | call {guard : Guard} {target : Target} {current : Bool} {receiver : Value} {args : List Value}
      (ha : guard.admits w receiver = true) (hv : target.Valid w args) :
      Serves w (.method guard target current) (.call current receiver args)
        (target.invoke w receiver args)
  | static {guard : Guard} {target : Target} {current : Bool} {t : TypeId} {args : List Value}
      (ha : guard.admits w (.classLiteral t) = true) (hv : target.Valid w args) :
      Serves w (.method guard target current) (.static t args) (target.invoke w (.classLiteral t) args)
  | construct {t : TypeId} {target : Target} {args : List Value} (hv : target.Valid w args) :
      Serves w (.constructor t target) (.construct t args)
        (.construct target.cls target.method (prepare target.method args target.tier))
  | bean {t : TypeId} {target : Target} {args positional : List Value} {entries : List (String × Value)}
      (hb : beanSplit? args = some (positional, entries)) (hv : target.Valid w positional) :
      Serves w (.bean t target) (.construct t args)
        (.bean target.cls target.method (prepare target.method positional target.tier) entries)
  | property {guard : Guard} {cls : ClassRef} {access : Access} {receiver : Value}
      (ha : guard.admits w receiver = true) (hq : w.hasActiveCategory = false) :
      Serves w (.property guard cls (w.version cls) access) (.property receiver)
        (access.read w cls receiver)

variable {site : Site} {request : Request} {plan : Plan}

theorem cached?_eq_some_iff : site.cached? w request = some plan ↔ site.Serves w request plan := by
  constructor
  · intro h
    unfold cached? at h
    split at h
    · simp only [Option.ite_none_right_eq_some, Bool.and_eq_true, decide_eq_true_eq,
        Target.isValid_iff, Option.some.injEq] at h
      obtain ⟨⟨⟨rfl, ha⟩, hv⟩, rfl⟩ := h
      exact .call ha hv
    · simp only [Option.ite_none_right_eq_some, Bool.and_eq_true, Target.isValid_iff,
        Option.some.injEq] at h
      obtain ⟨⟨ha, hv⟩, rfl⟩ := h
      exact .static ha hv
    · simp only [Option.ite_none_right_eq_some, Bool.and_eq_true, decide_eq_true_eq,
        Target.isValid_iff, Option.some.injEq] at h
      obtain ⟨⟨rfl, hv⟩, rfl⟩ := h
      exact .construct hv
    · split at h
      · rename_i hb
        simp only [Option.ite_none_right_eq_some, Bool.and_eq_true, decide_eq_true_eq,
          Target.isValid_iff, Option.some.injEq] at h
        obtain ⟨⟨rfl, hv⟩, rfl⟩ := h
        exact .bean hb hv
      · cases h
    · simp only [Option.ite_none_right_eq_some, Bool.and_eq_true, decide_eq_true_eq,
        Bool.not_eq_true', Option.some.injEq] at h
      obtain ⟨⟨⟨ha, rfl⟩, hq⟩, rfl⟩ := h
      exact .property ha hq
    · cases h
  · intro h
    cases h with
    | call ha hv | static ha hv => simp [cached?, ha, Target.isValid_iff.mpr hv]
    | construct hv => simp [cached?, Target.isValid_iff.mpr hv]
    | bean hb hv => simp [cached?, hb, Target.isValid_iff.mpr hv]
    | property ha hq => simp [cached?, ha, hq]

theorem Serves.isSome_cached? (h : site.Serves w request plan) : (site.cached? w request).isSome := by
  rw [cached?_eq_some_iff.mpr h]
  rfl

end Site

end CachedDispatch
