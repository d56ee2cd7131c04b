import CachedDispatch.Arguments

/-!
What the shape of an argument list decides. Arguments that are ranked by their keys are told apart
by no candidate, and the preparation chosen for one argument list serves every other of its shape.
-/
namespace CachedDispatch

namespace ShapeKey

/-- The cost of passing an argument with this key, `line` giving the types above a type. -/
def distance (line : TypeId → List TypeId) (p : ParamType) (k : ShapeKey) : Option Nat :=
  match p with
  | .any => some objectDistance
  | .exact target =>
    if target = .object then some objectDistance
    else if k.type = target then some 0
    else if k.type = .null then some nullDistance
    else
      match if k.wrapped then none else (line k.type).idxOf? target with
      | some depth => some depth
      | none => if coercible target k.type then some coercionDistance else none

theorem of_type (lin : Lineage) (v : Value) : (ShapeKey.of lin v).type = v.effectiveType lin := by
  cases v <;> rfl

theorem of_wrapped (lin : Lineage) (v : Value) : (ShapeKey.of lin v).wrapped = v.isWrapper := by
  cases v <;> rfl

theorem of_unwrapped {v : Value} (hv : v.isWrapper = false) (lin : Lineage) :
    ShapeKey.of lin v = ⟨v.typeId lin, false⟩ := by
  cases v with
  | wrapper => cases hv
  | _ => rfl

end ShapeKey

/-- Whether nothing but its key decides what the argument can be passed to. -/
def Value.RankedByKey (lin : Lineage) (line : TypeId → List TypeId) (v : Value) : Prop :=
  ∀ target, target ≠ .object → v.effectiveType lin ≠ target → v.effectiveType lin ≠ .null →
    v.depthTo? lin target = if v.isWrapper then none else (line (v.effectiveType lin)).idxOf? target

private theorem paramDistance_eq_distance {lin : Lineage} {line : TypeId → List TypeId} {v : Value}
    (h : v.RankedByKey lin line) (p : ParamType) :
    paramDistance lin p v = (ShapeKey.of lin v).distance line p := by
  cases p with
  | any => rfl
  | exact target =>
    simp only [paramDistance, ShapeKey.distance, ShapeKey.of_type, ShapeKey.of_wrapped]
    by_cases ho : target = .object
    · simp [ho]
    by_cases ht : v.effectiveType lin = target
    · simp [ho, ht]
    by_cases hn : v.effectiveType lin = .null
    · simp [ho, hn]
    rewrite [if_neg ho, if_neg ht, if_neg hn, if_neg ho, if_neg ht, if_neg hn, h target ho ht hn]
    rfl

/-- The total cost that the keys give. -/
def shapeDistance (line : TypeId → List TypeId) : List ParamType → Shape → Option Nat
  | [], [] => some 0
  | p :: ps, k :: ks => do
    let d ← k.distance line p
    let rest ← shapeDistance line ps ks
    pure (d + rest)
  | _, _ => none

private theorem totalDistance_eq_shapeDistance {lin : Lineage} {line : TypeId → List TypeId}
    (ps : List ParamType) (args : List Value) (h : ∀ v ∈ args, v.RankedByKey lin line) :
    totalDistance lin ps args = shapeDistance line ps (Shape.of lin args) := by
  induction ps generalizing args with
  | nil => cases args <;> rfl
  | cons p ps ih =>
    cases args with
    | nil => rfl
    | cons v vs =>
      have hv := paramDistance_eq_distance (h v (by simp)) p
      have hvs := ih vs fun u hu => h u (by simp [hu])
      simp only [totalDistance, Shape.of, List.map_cons, shapeDistance, hv]
      rw [hvs]
      rfl

/-- The candidate that the keys pick. -/
def pickByShape (line : TypeId → List TypeId) (candidates : List Method) (shape : Shape) :
    Option Method :=
  pickBy (fun m => shapeDistance line m.params shape) candidates

theorem pick_eq_pickByShape {lin : Lineage} {line : TypeId → List TypeId} {args : List Value}
    (h : ∀ v ∈ args, v.RankedByKey lin line) (candidates : List Method) :
    pick lin candidates args = pickByShape line candidates (Shape.of lin args) := by
  unfold pick pickByShape
  congr 1
  funext m
  exact totalDistance_eq_shapeDistance m.params args h

/-- Only the lines of the types in the shape matter. -/
private theorem shapeDistance_congr {line line' : TypeId → List TypeId} (ps : List ParamType)
    (shape : Shape) (h : ∀ k ∈ shape, k.wrapped = false → line k.type = line' k.type) :
    shapeDistance line ps shape = shapeDistance line' ps shape := by
  induction ps generalizing shape with
  | nil => cases shape <;> rfl
  | cons p ps ih =>
    cases shape with
    | nil => rfl
    | cons k ks =>
      have hk : k.distance line p = k.distance line' p := by
        cases hw : k.wrapped with
        | true => simp [ShapeKey.distance, hw]
        | false => simp only [ShapeKey.distance, hw, h k (by simp) hw]
      have hks := ih ks fun j hj => h j (by simp [hj])
      simp only [shapeDistance, hk, hks]

theorem pickByShape_congr {line line' : TypeId → List TypeId} (candidates : List Method)
    {shape : Shape} (h : ∀ k ∈ shape, k.wrapped = false → line k.type = line' k.type) :
    pickByShape line candidates shape = pickByShape line' candidates shape := by
  unfold pickByShape
  congr 1
  funext m
  exact shapeDistance_congr m.params shape h

/-- Without arguments no line matters. -/
theorem pick_nil (lin lin' : Lineage) (candidates : List Method) :
    pick lin candidates [] = pick lin' candidates [] := by
  unfold pick
  congr 1
  funext m
  unfold Method.rank?
  cases m.params <;> rfl

/-- What a map holds does not matter. -/
theorem pick_append_map (lin : Lineage) (candidates : List Method) (args : List Value) (n : Nat)
    (entries : List (String × Value)) :
    pick lin candidates (args ++ [.map n entries]) = pick lin candidates (args ++ [.map 0 []]) := by
  have hparam (p : ParamType) :
      paramDistance lin p (.map n entries) = paramDistance lin p (.map 0 []) := by cases p <;> rfl
  have htotal (ps : List ParamType) :
      totalDistance lin ps (args ++ [.map n entries]) = totalDistance lin ps (args ++ [.map 0 []]) := by
    induction args generalizing ps with
    | nil => cases ps <;> simp [totalDistance, hparam]
    | cons v vs ih => cases ps <;> simp [totalDistance, ih]
  unfold pick
  congr 1
  funext m
  exact htotal m.params

theorem rank?_singleton {m : Method} {p : ParamType} (hm : m.params = [p]) (lin : Lineage) (v : Value) :
    m.rank? lin [v] = paramDistance lin p v := by
  rw [Method.rank?, hm, totalDistance]
  rcases paramDistance lin p v with _ | d <;> rfl

/-- A method that asks for exactly the types of the arguments costs nothing. -/
theorem rank?_of_types {lin : Lineage} {m : Method} {args : List Value}
    (hm : m.params = (Shape.of lin args).map fun k => .exact k.type)
    (hk : ∀ k ∈ Shape.of lin args, k.type ≠ .object) : m.rank? lin args = some 0 := by
  rw [Method.rank?, hm]
  clear hm
  induction args with
  | nil => rfl
  | cons v vs ih =>
    have hv : paramDistance lin (.exact (ShapeKey.of lin v).type) v = some 0 := by
      rw [paramDistance, if_neg (hk _ List.mem_cons_self), if_pos (ShapeKey.of_type lin v).symm]
    have hvs := ih fun k hmem => hk k (List.mem_cons_of_mem _ hmem)
    rw [Shape.of] at hvs
    rw [Shape.of, List.map_cons, List.map_cons, totalDistance, hv, hvs]
    rfl

/-- Of the candidates seen none has a rank, or the first of least rank is the best so far. -/
def FirstLeast (rank : Method → Option Nat) (seen : List Method) : Option (Nat × Method) → Prop
  | none => ∀ n ∈ seen, rank n = none
  | some (d, m) => rank m = some d ∧ ∃ before after, seen = before ++ m :: after
      ∧ (∀ n ∈ before, ∀ e, rank n = some e → d < e) ∧ ∀ n ∈ after, ∀ e, rank n = some e → d ≤ e

section Picked

variable {rank : Method → Option Nat} {seen candidates : List Method} {best : Option (Nat × Method)}

private theorem FirstLeast.better (h : FirstLeast rank seen best) (x : Method) :
    FirstLeast rank (seen ++ [x]) (better rank best x) := by
  have hnone (k : Nat) (n : Method) (hn : n ∈ ([] : List Method)) (e : Nat) (_ : rank n = some e) : k ≤ e :=
    absurd hn List.not_mem_nil
  unfold CachedDispatch.better
  rcases hx : rank x with _ | d <;> rcases best with _ | ⟨e, m⟩ <;> dsimp only
  · intro n hn
    rcases List.mem_append.mp hn with hn | hn
    · exact h n hn
    · rw [List.mem_singleton.mp hn, hx]
  · obtain ⟨hm, before, after, rfl, hb, ha⟩ := h
    refine ⟨hm, before, after ++ [x], by simp, hb, fun n hn k hk => ?_⟩
    rcases List.mem_append.mp hn with hn | hn
    · exact ha n hn k hk
    · rw [List.mem_singleton.mp hn, hx] at hk
      cases hk
  · refine ⟨hx, seen, [], rfl, fun n hn k hk => ?_, hnone d⟩
    rw [h n hn] at hk
    cases hk
  · obtain ⟨hm, before, after, rfl, hb, ha⟩ := h
    split
    · refine ⟨hx, before ++ m :: after, [], rfl, fun n hn k hk => ?_, hnone d⟩
      rcases List.mem_append.mp hn with hn | hn
      · exact Nat.lt_trans ‹d < e› (hb n hn k hk)
      rcases List.mem_cons.mp hn with rfl | hn
      · obtain rfl : e = k := Option.some.inj (hm.symm.trans hk)
        exact ‹d < e›
      · exact Nat.lt_of_lt_of_le ‹d < e› (ha n hn k hk)
    · refine ⟨hm, before, after ++ [x], by simp, hb, fun n hn k hk => ?_⟩
      rcases List.mem_append.mp hn with hn | hn
      · exact ha n hn k hk
      · rw [List.mem_singleton.mp hn, hx] at hk
        obtain rfl := Option.some.inj hk
        exact Nat.le_of_not_lt ‹_›

private theorem FirstLeast.foldl (h : FirstLeast rank seen best) (candidates : List Method) :
    FirstLeast rank (seen ++ candidates) (candidates.foldl (CachedDispatch.better rank) best) := by
  induction candidates generalizing seen best with
  | nil => simpa using h
  | cons x candidates ih => simpa using ih (h.better x)

private theorem firstLeast_pickBy (rank : Method → Option Nat) (candidates : List Method) :
    FirstLeast rank candidates (candidates.foldl (CachedDispatch.better rank) none) :=
  have hnone : FirstLeast rank [] none := fun _ h => absurd h List.not_mem_nil
  hnone.foldl candidates

theorem pickBy_eq_none_iff : pickBy rank candidates = none ↔ ∀ n ∈ candidates, rank n = none := by
  have h := firstLeast_pickBy rank candidates
  unfold pickBy
  generalize candidates.foldl (better rank) none = best at h ⊢
  rcases best with _ | ⟨d, m⟩
  · exact ⟨fun _ => h, fun _ => rfl⟩
  · obtain ⟨hm, before, after, rfl, -⟩ := h
    refine ⟨nofun, fun hnone => ?_⟩
    rw [hnone m (by simp)] at hm
    cases hm

/-- What is picked comes before all others of its rank, and none has a lesser rank. -/
theorem firstLeast_of_pickBy {m : Method} (h : pickBy rank candidates = some m) :
    ∃ d, FirstLeast rank candidates (some (d, m)) := by
  obtain ⟨⟨d, n⟩, hf, rfl⟩ := Option.map_eq_some_iff.mp h
  exact ⟨d, hf ▸ firstLeast_pickBy rank candidates⟩

/-- A first candidate is picked if no other costs less. -/
theorem pickBy_cons {m : Method} {ms : List Method} {d : Nat} (h : rank m = some d)
    (hle : ∀ n ∈ ms, ∀ e, rank n = some e → d ≤ e) : pickBy rank (m :: ms) = some m := by
  rcases hn : pickBy rank (m :: ms) with _ | n
  · rw [pickBy_eq_none_iff.mp hn m List.mem_cons_self] at h
    cases h
  · obtain ⟨e, he, before, after, heq, hbefore, -⟩ := firstLeast_of_pickBy hn
    rcases before with _ | ⟨x, before⟩
    · rw [(List.cons.inj heq).1]
    · -- one that comes later would cost less
      obtain ⟨rfl, rfl⟩ := List.cons.inj heq
      have hlt := hbefore m List.mem_cons_self d h
      have hge := hle n (by simp) e he
      omega

/-- What is picked is a candidate. -/
theorem mem_of_pickBy {m : Method} (h : pickBy rank candidates = some m) : m ∈ candidates := by
  obtain ⟨d, -, before, after, rfl, -⟩ := firstLeast_of_pickBy h
  simp

end Picked

end CachedDispatch
