import CachedDispatch.Arguments

/-!
Preparation of arguments. A tier leaves out steps that are idle for the argument list it was chosen
for; it fits a shape if they are idle for every argument list of that shape.
-/
namespace CachedDispatch

/-- The steps that the tier leaves out are idle for arguments of this shape. -/
def Tier.Fits (m : Method) (shape : Shape) : Tier → Prop
  | .baseline => True
  | .noUnwrap => ∀ k ∈ shape, k.wrapped = false
  | .noUnwrapNoCoerce =>
    (∀ k ∈ shape, k.wrapped = false) ∧
      ∀ e ∈ m.params.zip shape, e.1 = .exact .float → e.2.type ≠ .int

theorem unwrapArgs_of_unwrapped {lin : Lineage} {args : List Value}
    (h : ∀ k ∈ Shape.of lin args, k.wrapped = false) : unwrapArgs args = args := by
  induction args with
  | nil => rfl
  | cons v vs ih =>
    have hv := h (ShapeKey.of lin v) (by simp [Shape.of])
    have hvs := ih fun k hk => h k (by simp [Shape.of] at hk ⊢; exact Or.inr hk)
    have hu : v.unwrap = v := by cases v <;> simp_all [ShapeKey.of, Value.unwrap]
    simp only [unwrapArgs, List.map_cons] at hvs ⊢
    rw [hu, hvs]

private theorem coerce?_of_ne {lin : Lineage} {p : ParamType} {v : Value}
    (h : p = .exact .float → (ShapeKey.of lin v).type ≠ .int) : coerce? p v = none := by
  unfold coerce?
  split
  · rename_i t n
    have ht : t ≠ .float := by
      rintro rfl
      exact h rfl rfl
    rw [if_neg ht]
  · rfl

theorem coerceArgs_of_ne {lin : Lineage} (ps : List ParamType) (args : List Value)
    (h : ∀ e ∈ ps.zip (Shape.of lin args), e.1 = .exact .float → e.2.type ≠ .int) :
    coerceArgs ps args = args := by
  have hnone : ∀ e ∈ ps.zip args, coerce? e.1 e.2 = none := by
    rintro ⟨p, v⟩ he
    refine coerce?_of_ne (h (p, ShapeKey.of lin v) ?_)
    rw [Shape.of, List.zip_map_right]
    exact List.mem_map_of_mem he
  rw [coerceArgs, if_neg]
  simpa using fun p v he => hnone (p, v) he

/-- Arguments of the shape that a tier fits are prepared as if nothing had been left out. -/
theorem prepare_of_fits {lin : Lineage} {m : Method} {args : List Value} {tier : Tier}
    (h : tier.Fits m (Shape.of lin args)) : prepare m args tier = prepare m args .baseline := by
  cases tier with
  | baseline => rfl
  | noUnwrap => rw [prepare, prepare, unwrapArgs_of_unwrapped h]
  | noUnwrapNoCoerce =>
    rw [prepare, prepare, unwrapArgs_of_unwrapped h.1, coerceArgs_of_ne m.params args h.2]

@[simp] theorem prepare_nil (m : Method) (tier : Tier) : prepare m [] tier = [] := by
  cases hp : m.params <;> cases tier <;> simp [prepare, coerceArgs, unwrapArgs, hp]

theorem noWrappers_iff (lin : Lineage) (args : List Value) :
    noWrappers args = true ↔ ∀ k ∈ Shape.of lin args, k.wrapped = false := by
  have hk (v : Value) : (ShapeKey.of lin v).wrapped = v.isWrapper := by cases v <;> rfl
  simp [noWrappers, Shape.of, hk]

/-- What a float parameter takes as it is does not have the type of integers, unless objects have it
that are floats as well. -/
private theorem directlyAssignable_float {lin : Lineage} {v : Value}
    (hv : ∀ o, v = .object o → .float ∈ lin o → (lin o).headD .object ≠ .int)
    (h : directlyAssignable lin (.exact .float) v = true) : (ShapeKey.of lin v).type ≠ .int := by
  cases v with
  | int | wrapper => cases h
  | object o => exact hv o rfl (List.contains_iff_mem.mp h)
  | host n t label =>
    obtain rfl : t = .float := of_decide_eq_true h
    exact nofun
  | _ => exact nofun

/-- The tier that is selected for an argument list fits its shape. -/
theorem selectTier_fits {lin : Lineage} (m : Method) {args : List Value}
    (hv : ∀ o, .object o ∈ args → .float ∈ lin o → (lin o).headD .object ≠ .int) :
    (selectTier lin m args).Fits m (Shape.of lin args) := by
  unfold selectTier
  split
  · trivial
  rename_i hw
  have hu := (noWrappers_iff lin args).mp (by simpa using hw)
  split
  · rename_i hc
    refine ⟨hu, ?_⟩
    rintro ⟨p, k⟩ he hp
    obtain rfl : p = .exact .float := hp
    rw [Shape.of, List.zip_map_right] at he
    obtain ⟨⟨q, v⟩, hq, heq⟩ := List.mem_map.mp he
    obtain ⟨rfl, rfl⟩ := Prod.mk.inj heq
    have hd := List.all_eq_true.mp hc (_, v) hq
    exact directlyAssignable_float (fun o ho => hv o (ho ▸ (List.of_mem_zip hq).2)) hd
  · exact hu

end CachedDispatch
