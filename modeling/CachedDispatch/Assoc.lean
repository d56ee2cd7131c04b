/-!
Lists of keyed values in insertion order. The first entry of a key is the one that counts, and
`set` writes it where it stands or appends a new one.
-/
namespace CachedDispatch.Assoc

variable {κ α : Type} [DecidableEq κ]

def get? (m : List (κ × α)) (k : κ) : Option α :=
  (m.find? fun e => e.1 = k).map Prod.snd

def contains (m : List (κ × α)) (k : κ) : Bool :=
  m.any fun e => e.1 = k

def set : List (κ × α) → κ → α → List (κ × α)
  | [], k, v => [(k, v)]
  | e :: m, k, v => if e.1 = k then (e.1, v) :: m else e :: set m k v

def erase (m : List (κ × α)) (k : κ) : List (κ × α) :=
  m.filter fun e => e.1 ≠ k

@[simp] theorem get?_nil (k : κ) : get? ([] : List (κ × α)) k = none := rfl

theorem get?_cons (e : κ × α) (m : List (κ × α)) (k : κ) :
    get? (e :: m) k = if e.1 = k then some e.2 else get? m k := by
  by_cases h : e.1 = k <;> simp [get?, h]

@[simp] theorem get?_set_self (m : List (κ × α)) (k : κ) (v : α) : get? (set m k v) k = some v := by
  induction m with
  | nil => simp [set, get?_cons]
  | cons e m ih => by_cases h : e.1 = k <;> simp [set, get?_cons, h, ih]

theorem get?_set_of_ne (m : List (κ × α)) {k j : κ} (v : α) (h : j ≠ k) :
    get? (set m k v) j = get? m j := by
  induction m with
  | nil => simp [set, get?_cons, Ne.symm h]
  | cons e m ih =>
    by_cases hk : e.1 = k
    · simp [set, get?_cons, hk, Ne.symm h]
    · simp [set, get?_cons, hk, ih]

theorem get?_set (m : List (κ × α)) (k j : κ) (v : α) :
    get? (set m k v) j = if j = k then some v else get? m j := by
  split
  · rename_i h
    rw [h, get?_set_self]
  · rename_i h
    exact get?_set_of_ne m v h

/-- What is found after a write has been written, or was there before. -/
theorem eq_or_of_get?_set {m : List (κ × α)} {k j : κ} {v a : α} (h : get? (set m k v) j = some a) :
    j = k ∧ v = a ∨ get? m j = some a := by
  rw [get?_set] at h
  split at h
  · rename_i hj
    exact Or.inl ⟨hj, Option.some.inj h⟩
  · exact Or.inr h

theorem get?_erase (m : List (κ × α)) (k j : κ) :
    get? (erase m k) j = if j = k then none else get? m j := by
  induction m with
  | nil => split <;> rfl
  | cons e m ih =>
    by_cases he : e.1 = k
    · have hskip : erase (e :: m) k = erase m k := List.filter_cons_of_neg (by simpa using he)
      rw [hskip, ih, get?_cons]
      split
      · rfl
      · rename_i hj
        rw [if_neg fun h => hj (h.symm.trans he)]
    · have hkeep : erase (e :: m) k = e :: erase m k := List.filter_cons_of_pos (by simpa using he)
      rw [hkeep, get?_cons, get?_cons, ih]
      by_cases hj : j = k
      · rw [if_pos hj, if_pos hj, if_neg fun h => he (h.trans hj)]
      · rw [if_neg hj, if_neg hj]

theorem contains_eq_isSome (m : List (κ × α)) (k : κ) : contains m k = (get? m k).isSome := by
  induction m with
  | nil => rfl
  | cons e m ih =>
    have hc : contains (e :: m) k = (decide (e.1 = k) || contains m k) := rfl
    by_cases h : e.1 = k <;> simp [hc, get?_cons, h, ih]

end CachedDispatch.Assoc
