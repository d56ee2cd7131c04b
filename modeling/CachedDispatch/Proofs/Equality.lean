import CachedDispatch.Value.Display

/-!
Equality and identity of values. Two values without floats are equal exactly if they have the same content,
which is what is left when the numbers of allocations are forgotten but for host objects. So equality is an
equivalence. Identity is finer: it compares allocations, of which a heap says what they hold. Values that are
equal have the same text, and so the same hash.
-/
namespace CachedDispatch

namespace Value

mutual

/-- No float occurs in the value, at any depth. -/
def floatFree : Value → Bool
  | float _ => false
  | list _ items => floatFreeItems items
  | map _ entries => floatFreeEntries entries
  | wrapper _ v _ => floatFree v
  | _ => true

def floatFreeItems : List Value → Bool
  | [] => true
  | v :: vs => floatFree v && floatFreeItems vs

def floatFreeEntries : List (String × Value) → Bool
  | [] => true
  | (_, v) :: es => floatFree v && floatFreeEntries es

end

mutual

/-- What equality looks at. Of a host object that is only which one it is. -/
def content : Value → Value
  | list _ items => list 0 (contentItems items)
  | map _ entries => map 0 (contentEntries entries)
  | host alloc _ _ => host alloc .object ""
  | wrapper _ v declared => wrapper 0 (content v) declared
  | v => v

def contentItems : List Value → List Value
  | [] => []
  | v :: vs => content v :: contentItems vs

def contentEntries : List (String × Value) → List (String × Value)
  | [] => []
  | (k, v) :: es => (k, content v) :: contentEntries es

end

mutual

private theorem equal_iff_content : (u v : Value) → u.floatFree = true → v.floatFree = true →
    (u.equal v = true ↔ u.content = v.content)
  | list a xs, v, hu, hv => by
    cases v with
    | list b ys =>
      simp only [equal, content, list.injEq, true_and]
      exact equalLists_iff_content xs ys (by simpa [floatFree] using hu) (by simpa [floatFree] using hv)
    | _ => simp [equal, content]
  | map a xs, v, hu, hv => by
    cases v with
    | map b ys =>
      simp only [equal, content, map.injEq, true_and]
      exact equalEntries_iff_content xs ys (by simpa [floatFree] using hu) (by simpa [floatFree] using hv)
    | _ => simp [equal, content]
  | wrapper a u t, v, hu, hv => by
    cases v with
    | wrapper b v t' =>
      simp only [equal, content, wrapper.injEq, true_and, Bool.and_eq_true, beq_iff_eq]
      rw [equal_iff_content u v (by simpa [floatFree] using hu) (by simpa [floatFree] using hv)]
    | _ => simp [equal, content]
  | null, v, hu, hv => by cases v <;> simp [equal, content]
  | bool b, v, hu, hv => by cases v <;> simp [equal, content]
  | int n, v, hu, hv => by cases v <;> simp_all [equal, content, floatFree]
  | float x, v, hu, hv => by simp [floatFree] at hu
  | text s, v, hu, hv => by cases v <;> simp [equal, content]
  | classLiteral t, v, hu, hv => by cases v <;> simp [equal, content]
  | object o, v, hu, hv => by cases v <;> simp [equal, content]
  | host a t l, v, hu, hv => by cases v <;> simp [equal, content]

private theorem equalLists_iff_content : (xs ys : List Value) → floatFreeItems xs = true →
    floatFreeItems ys = true → (equalLists xs ys = true ↔ contentItems xs = contentItems ys)
  | [], ys, _, _ => by cases ys <;> simp [equalLists, contentItems]
  | x :: xs, [], _, _ => by simp [equalLists, contentItems]
  | x :: xs, y :: ys, hu, hv => by
    simp only [floatFreeItems, Bool.and_eq_true] at hu hv
    simp only [equalLists, contentItems, Bool.and_eq_true, List.cons.injEq]
    rw [equal_iff_content x y hu.1 hv.1, equalLists_iff_content xs ys hu.2 hv.2]

private theorem equalEntries_iff_content :
    (xs ys : List (String × Value)) → floatFreeEntries xs = true →
    floatFreeEntries ys = true → (equalEntries xs ys = true ↔ contentEntries xs = contentEntries ys)
  | [], ys, _, _ => by cases ys <;> simp [equalEntries, contentEntries]
  | x :: xs, [], _, _ => by simp [equalEntries, contentEntries]
  | (k, x) :: xs, (j, y) :: ys, hu, hv => by
    simp only [floatFreeEntries, Bool.and_eq_true] at hu hv
    simp only [equalEntries, contentEntries, Bool.and_eq_true, List.cons.injEq, Prod.mk.injEq, beq_iff_eq]
    rw [equal_iff_content x y hu.1 hv.1, equalEntries_iff_content xs ys hu.2 hv.2]

end

section Equality

variable {u v w : Value} (hu : u.floatFree = true) (hv : v.floatFree = true) (hw : w.floatFree = true)
include hu

theorem equal_refl : u.equal u = true := (equal_iff_content u u hu hu).mpr rfl

include hv

theorem equal_symm (h : u.equal v = true) : v.equal u = true :=
  (equal_iff_content v u hv hu).mpr ((equal_iff_content u v hu hv).mp h).symm

include hw

theorem equal_trans (h : u.equal v = true) (h' : v.equal w = true) : u.equal w = true :=
  (equal_iff_content u w hu hw).mpr
    (((equal_iff_content u v hu hv).mp h).trans ((equal_iff_content v w hv hw).mp h'))

end Equality

/-- What identity looks at. -/
private def identity : Value → Value
  | list alloc _ => list alloc []
  | map alloc _ => map alloc []
  | host alloc _ _ => host alloc .object ""
  | wrapper alloc _ _ => wrapper alloc null .object
  | v => v

section Identity

variable {u v w : Value} (hu : u.floatFree = true) (hv : v.floatFree = true) (hw : w.floatFree = true)
include hu

private theorem same_iff_identity (hv : v.floatFree = true) :
    u.same v = true ↔ u.identity = v.identity := by
  cases u with
  | float => cases hu
  | _ =>
    cases v with
    | float => cases hv
    | _ => simp [same, equal, identity]

theorem same_refl : u.same u = true := (same_iff_identity hu hu).mpr rfl

include hv

theorem same_symm (h : u.same v = true) : v.same u = true :=
  (same_iff_identity hv hu).mpr ((same_iff_identity hu hv).mp h).symm

include hw

theorem same_trans (h : u.same v = true) (h' : v.same w = true) : u.same w = true :=
  (same_iff_identity hu hw).mpr
    (((same_iff_identity hu hv).mp h).trans ((same_iff_identity hv hw).mp h'))

end Identity

/-- What allocations hold. -/
abbrev Heap := Nat → Option Value

mutual

/-- Every allocation that the value is made of holds what the heap says. -/
def InHeap (heap : Heap) : Value → Prop
  | list alloc items => heap alloc = some (list alloc items) ∧ ItemsInHeap heap items
  | map alloc entries => heap alloc = some (map alloc entries) ∧ EntriesInHeap heap entries
  | host alloc type label => heap alloc = some (host alloc type label)
  | wrapper alloc v declared => heap alloc = some (wrapper alloc v declared) ∧ InHeap heap v
  | _ => True

def ItemsInHeap (heap : Heap) : List Value → Prop
  | [] => True
  | v :: vs => InHeap heap v ∧ ItemsInHeap heap vs

def EntriesInHeap (heap : Heap) : List (String × Value) → Prop
  | [] => True
  | (_, v) :: es => InHeap heap v ∧ EntriesInHeap heap es

end

variable {heap : Heap}

/-- Values of one heap that are the same are equal: an allocation holds one value. -/
theorem equal_of_same {u v : Value} (hu : u.InHeap heap) (hv : v.InHeap heap)
    (hfree : u.floatFree = true)
    (h : u.same v = true) : u.equal v = true := by
  have hone {a b : Nat} {x y : Value} (hab : (a == b) = true) (hx : heap a = some x)
      (hy : heap b = some y) : x = y := by
    rw [← beq_iff_eq.mp hab, hx] at hy
    exact Option.some.inj hy
  cases u with
  | list a xs =>
    cases v with
    | list b ys => exact hone h hu.1 hv.1 ▸ equal_refl hfree
    | _ => exact h
  | map a xs =>
    cases v with
    | map b ys => exact hone h hu.1 hv.1 ▸ equal_refl hfree
    | _ => exact h
  | wrapper a u t =>
    cases v with
    | wrapper b v t' => exact hone h hu.1 hv.1 ▸ equal_refl hfree
    | _ => exact h
  | _ => cases v <;> exact h

mutual

/-- Values of one heap that are equal have the same text. -/
theorem display_eq_of_equal (names : Naming) : (u v : Value) → u.InHeap heap → v.InHeap heap →
    u.floatFree = true → v.floatFree = true → u.equal v = true → u.display names = v.display names
  | list a xs, v, hu, hv, hfu, hfv, h => by
    cases v with
    | list b ys => rw [display, display, displayItems_eq_of_equal names xs ys hu.2 hv.2 hfu hfv h]
    | _ => cases h
  | map a xs, v, hu, hv, hfu, hfv, h => by
    cases v with
    | map b ys =>
      have htexts := displayEntries_eq_of_equal names xs ys hu.2 hv.2 hfu hfv h
      rcases xs with _ | ⟨⟨k, x⟩, xs⟩ <;> rcases ys with _ | ⟨⟨j, y⟩, ys⟩
      · rfl
      · cases h
      · cases h
      · rw [display, display, htexts] <;> exact List.cons_ne_nil _ _
    | _ => cases h
  | wrapper a u t, v, hu, hv, hfu, hfv, h => by
    cases v with
    | wrapper b v t' =>
      rw [display, display]
      exact display_eq_of_equal names u v hu.2 hv.2 hfu hfv (Bool.and_eq_true_iff.mp h).1
    | _ => cases h
  | host a t l, v, hu, hv, hfu, hfv, h => by
    cases v with
    | host b t' l' =>
      have hsame : heap b = some (host a t l) := beq_iff_eq.mp h ▸ hu
      cases hsame.symm.trans hv
      rfl
    | _ => cases h
  | float x, v, hu, hv, hfu, hfv, h => by cases hfu
  -- all others are their own content
  | null, v, _, _, hfu, hfv, h | bool b, v, _, _, hfu, hfv, h | int n, v, _, _, hfu, hfv, h
  | text s, v, _, _, hfu, hfv, h | classLiteral t, v, _, _, hfu, hfv, h
  | object o, v, _, _, hfu, hfv, h => by
    have hcontent := (equal_iff_content _ v hfu hfv).mp h
    cases v <;> cases hcontent
    rfl

private theorem displayItems_eq_of_equal (names : Naming) : (xs ys : List Value) → ItemsInHeap heap xs →
    ItemsInHeap heap ys → floatFreeItems xs = true → floatFreeItems ys = true → equalLists xs ys = true →
    displayItems names xs = displayItems names ys
  | [], ys, _, _, _, _, h => by
    cases ys with
    | nil => rfl
    | cons => cases h
  | x :: xs, [], _, _, _, _, h => by cases h
  | x :: xs, y :: ys, hu, hv, hfu, hfv, h => by
    simp only [floatFreeItems, equalLists, Bool.and_eq_true] at hfu hfv h
    rw [displayItems, displayItems, display_eq_of_equal names x y hu.1 hv.1 hfu.1 hfv.1 h.1,
      displayItems_eq_of_equal names xs ys hu.2 hv.2 hfu.2 hfv.2 h.2]

private theorem displayEntries_eq_of_equal (names : Naming) : (xs ys : List (String × Value)) →
    EntriesInHeap heap xs → EntriesInHeap heap ys → floatFreeEntries xs = true →
    floatFreeEntries ys = true → equalEntries xs ys = true →
    displayEntries names xs = displayEntries names ys
  | [], ys, _, _, _, _, h => by
    cases ys with
    | nil => rfl
    | cons => cases h
  | x :: xs, [], _, _, _, _, h => by cases h
  | (k, x) :: xs, (j, y) :: ys, hu, hv, hfu, hfv, h => by
    simp only [floatFreeEntries, equalEntries, Bool.and_eq_true, beq_iff_eq] at hfu hfv h
    rw [displayEntries, displayEntries, h.1.1, display_eq_of_equal names x y hu.1 hv.1 hfu.1 hfv.1 h.1.2,
      displayEntries_eq_of_equal names xs ys hu.2 hv.2 hfu.2 hfv.2 h.2]

end

theorem hashCode_eq_of_equal (names : Naming) {u v : Value} (hu : u.InHeap heap) (hv : v.InHeap heap)
    (hfu : u.floatFree = true) (hfv : v.floatFree = true) (h : u.equal v = true) :
    u.hashCode names = v.hashCode names := by
  have htext := display_eq_of_equal names u v hu hv hfu hfv h
  have hcontent := (equal_iff_content u v hfu hfv).mp h
  -- null and the objects do not hash by their text, but nothing else has their content
  have hback {x y : Value} (hy : y = null ∨ ∃ o, y = object o) (hx : x.content = y) : x = y := by
    rcases hy with rfl | ⟨o, rfl⟩ <;> cases x <;> simp_all [content]
  have hhash {x : Value} (hx : ¬ (x = null ∨ ∃ o, x = object o)) :
      x.hashCode names = Text.hash (x.display names) := by
    cases x with
    | null => exact absurd (Or.inl rfl) hx
    | object o => exact absurd (Or.inr ⟨o, rfl⟩) hx
    | _ => rfl
  have hself {x : Value} (hx : x = null ∨ ∃ o, x = object o) : x.content = x := by
    rcases hx with rfl | ⟨o, rfl⟩ <;> rfl
  by_cases hu : u = null ∨ ∃ o, u = object o
  · rw [hback hu (hcontent.symm.trans (hself hu))]
  · have hv : ¬ (v = null ∨ ∃ o, v = object o) := fun hv => by
      rw [hback hv (hcontent.trans (hself hv))] at hu
      exact hu hv
    rw [hhash hu, hhash hv, htext]

end Value

end CachedDispatch
