import CachedDispatch.Proofs.Demands
import Mathlib.Data.List.Forall2
import Mathlib.Data.List.Induction

/-!
The constant pool. Equal numbers and equal texts have one entry, where floating point numbers are
equal if they have the same bits; every truth value has an entry for itself. The code loads the
literals of the program in the order of its text, keys of maps among them, and no other entry exists.
-/
namespace CachedDispatch.Lang

section Places

variable {pool : List Const} {c : Const} {cs : List Const}

private theorem prefix_pooled (pool : List Const) (c : Const) : pool <+: pooled pool c := by
  rw [pooled]
  split
  · exact List.prefix_rfl
  · exact List.prefix_append _ _

private theorem prefix_foldl_pooled (pool cs : List Const) : pool <+: cs.foldl pooled pool := by
  induction cs generalizing pool with
  | nil => exact List.prefix_rfl
  | cons c cs ih => exact (prefix_pooled pool c).trans (ih _)

private theorem getElem?_of_prefix_pool {xs ys : List Const} (h : xs <+: ys) {i : Nat}
    (hi : xs[i]? = some c) : ys[i]? = some c := by
  obtain ⟨more, rfl⟩ := h
  rw [List.getElem?_append_left (List.getElem?_eq_some_iff.mp hi).1, hi]

/-- A literal is found in the pool or put behind it. -/
private theorem pooled_cases (pool : List Const) (c : Const) :
    (c.isShared = true ∧ c ∈ pool ∧ pooled pool c = pool)
      ∨ (¬(c.isShared = true ∧ c ∈ pool) ∧ pooled pool c = pool ++ [c] ∧ place pool c = pool.length) := by
  by_cases hfound : c.isShared = true ∧ c ∈ pool
  · exact .inl ⟨hfound.1, hfound.2, if_pos hfound⟩
  · refine .inr ⟨hfound, if_neg hfound, ?_⟩
    rw [place]
    split
    · rename_i hshared
      exact List.idxOf_eq_length fun hmem => hfound ⟨hshared, hmem⟩
    · rfl

/-- A literal is at its place from then on. -/
private theorem getElem?_place (pool : List Const) (c : Const) :
    (pooled pool c)[place pool c]? = some c := by
  obtain ⟨hshared, hmem, hsame⟩ | ⟨-, hgrown, hplace⟩ := pooled_cases pool c
  · rw [hsame, place, if_pos hshared]
    exact List.getElem?_idxOf hmem
  · rw [hgrown, hplace]
    exact List.getElem?_concat_length

private theorem place_lt (pool : List Const) (c : Const) : place pool c < (pooled pool c).length :=
  (List.getElem?_eq_some_iff.mp (getElem?_place pool c)).1

private theorem forall₂_placesAfter (pool cs : List Const) :
    List.Forall₂ (fun i c => (cs.foldl pooled pool)[i]? = some c) (placesAfter pool cs) cs := by
  induction cs generalizing pool with
  | nil => exact .nil
  | cons c cs ih =>
    refine .cons ?_ (ih _)
    exact getElem?_of_prefix_pool (prefix_foldl_pooled (pooled pool c) cs) (getElem?_place pool c)

/-- Every entry that is new is the place of a literal. -/
private theorem mem_placesAfter {i : Nat} (h : i < (cs.foldl pooled pool).length) :
    i < pool.length ∨ i ∈ placesAfter pool cs := by
  induction cs generalizing pool with
  | nil => exact .inl h
  | cons c cs ih =>
    rw [placesAfter, List.mem_cons]
    rcases ih h with hlt | hmem
    · obtain ⟨-, -, hsame⟩ | ⟨-, hgrown, hplace⟩ := pooled_cases pool c
      · rw [hsame] at hlt
        exact .inl hlt
      · rw [hgrown, List.length_append, List.length_singleton] at hlt
        rw [hplace]
        omega
    · exact .inr (.inr hmem)

private theorem getElem?_snoc_cases {xs : List Const} {x : Const} {i : Nat}
    (h : (xs ++ [x])[i]? = some c) : xs[i]? = some c ∨ (i = xs.length ∧ c = x) := by
  have hlt := (List.getElem?_eq_some_iff.mp h).1
  rw [List.length_append, List.length_singleton] at hlt
  rcases Nat.lt_or_ge i xs.length with hold | hnew
  · rw [List.getElem?_append_left hold] at h
    exact .inl h
  · obtain rfl : i = xs.length := by omega
    rw [List.getElem?_concat_length] at h
    exact .inr ⟨rfl, (Option.some.inj h).symm⟩

/-- Numbers and texts are in the pool once. -/
private theorem poolOf_inj (hshared : c.isShared = true) {i j : Nat} (hi : (poolOf cs)[i]? = some c)
    (hj : (poolOf cs)[j]? = some c) : i = j := by
  induction cs using List.reverseRecOn generalizing i j with
  | nil => cases hi
  | append_singleton cs x ih =>
    rw [poolOf_snoc] at hi hj
    obtain ⟨-, -, hsame⟩ | ⟨hnew, hgrown, -⟩ := pooled_cases (poolOf cs) x
    · rw [hsame] at hi hj
      exact ih hi hj
    · rw [hgrown] at hi hj
      have hmem {k : Nat} (hk : (poolOf cs)[k]? = some c) (hc : c = x) : False :=
        hnew ⟨hc ▸ hshared, hc ▸ List.mem_of_getElem? hk⟩
      rcases getElem?_snoc_cases hi with hi | ⟨rfl, hx⟩ <;>
        rcases getElem?_snoc_cases hj with hj | ⟨rfl, hx'⟩
      · exact ih hi hj
      · exact (hmem hi hx').elim
      · exact (hmem hj hx).elim
      · rfl

/-- The entry of a truth value serves no later literal. -/
private theorem not_mem_placesAfter_of_bool {b : Bool} {i : Nat} (h : pool[i]? = some (.bool b)) :
    i ∉ placesAfter pool cs := by
  induction cs generalizing pool with
  | nil => exact List.not_mem_nil
  | cons c cs ih =>
    have hkept := getElem?_of_prefix_pool (prefix_pooled pool c) h
    rw [placesAfter, List.mem_cons, not_or]
    refine ⟨fun hi => ?_, ih hkept⟩
    have hplace := getElem?_place pool c
    rw [← hi, hkept] at hplace
    obtain rfl := Option.some.inj hplace
    -- A truth value never takes an entry that is there already.
    have hlt := (List.getElem?_eq_some_iff.mp h).1
    rw [hi, place] at hlt
    exact Nat.lt_irrefl _ hlt

private theorem length_le_of_bool {b : Bool} {i j : Nat} (hi : (placesAfter pool cs)[j]? = some i)
    (hb : cs[j]? = some (.bool b)) : pool.length ≤ i := by
  induction cs generalizing pool j with
  | nil => cases hb
  | cons c cs ih =>
    rw [placesAfter] at hi
    cases j with
    | zero =>
      obtain rfl := Option.some.inj hb
      obtain rfl := Option.some.inj hi
      exact Nat.le_refl _
    | succ j => exact Nat.le_trans (prefix_pooled pool c).length_le (ih hi hb)

private theorem eq_of_bool {b : Bool} {i j k : Nat} (hj : (placesAfter pool cs)[j]? = some i)
    (hk : (placesAfter pool cs)[k]? = some i) (hb : cs[j]? = some (.bool b)) : j = k := by
  induction cs generalizing pool j k with
  | nil => cases hb
  | cons c cs ih =>
    rw [placesAfter] at hj hk
    cases j with
    | zero =>
      cases k with
      | zero => rfl
      | succ k =>
        obtain rfl := Option.some.inj hb
        obtain rfl := Option.some.inj hj
        rw [List.getElem?_cons_succ] at hk
        exact absurd (List.mem_of_getElem? hk) (not_mem_placesAfter_of_bool (getElem?_place pool _))
    | succ j =>
      cases k with
      | zero =>
        obtain rfl := Option.some.inj hk
        have hle := length_le_of_bool hj hb
        have hlt := place_lt pool c
        omega
      | succ k => rw [ih hj hk hb]

end Places

private theorem toValue_injective : Function.Injective Const.toValue := by
  intro c c' h
  cases c <;> cases c' <;> simp_all [Const.toValue]

/-- The pool of a compiled program has no number and no text twice. Its code loads the literals of
the program one after another, each from an entry that holds exactly this literal; all entries are
loaded, and the entry of a truth value is loaded once. -/
theorem pool_interns_literals {owner : String} {stmts : List Stmt} {p : Program}
    (h : compile owner stmts = .ok p) :
    (∀ (i j : Nat) n, p.constants[i]? = some (.int n) → p.constants[j]? = some (.int n) → i = j)
      ∧ (∀ (i j : Nat) x y, p.constants[i]? = some (.float x) → p.constants[j]? = some (.float y) →
        x.bits = y.bits → i = j)
      ∧ (∀ (i j : Nat) s, p.constants[i]? = some (.text s) → p.constants[j]? = some (.text s) → i = j)
      ∧ ∃ lines, listing p.code = .ok lines
        ∧ List.Forall₂ (fun i c => p.constants[i]? = some c.toValue) (loads (lines.map Prod.snd))
          (literals (blockDemands stmts))
        ∧ (∀ i < p.constants.size, i ∈ loads (lines.map Prod.snd))
        ∧ ∀ (j k i : Nat) b, (loads (lines.map Prod.snd))[j]? = some i →
          (loads (lines.map Prod.snd))[k]? = some i →
          (literals (blockDemands stmts))[j]? = some (.bool b) → j = k := by
  obtain ⟨-, hsupplies⟩ := compile_eq_ok h
  obtain ⟨is, hlisting, hloads⟩ := hsupplies.code
  have hentry (i : Nat) (c : Const) : p.constants[i]? = some c.toValue
      ↔ (poolOf (literals (blockDemands stmts)))[i]? = some c := by
    rw [← Array.getElem?_toList, hsupplies.constants, List.getElem?_map, ← Option.map_some]
    exact (Option.map_injective toValue_injective).eq_iff
  have honce {c : Const} (hshared : c.isShared = true) {i j : Nat}
      (hi : p.constants[i]? = some c.toValue) (hj : p.constants[j]? = some c.toValue) : i = j :=
    poolOf_inj hshared ((hentry i c).mp hi) ((hentry j c).mp hj)
  refine ⟨fun i j n => honce (c := .int n) rfl, ?_, fun i j s => honce (c := .text s) rfl,
    _, hlisting, ?_, ?_, ?_⟩
  · rintro i j ⟨x⟩ ⟨y⟩ hi hj rfl
    exact honce (c := .float ⟨x⟩) rfl hi hj
  · rw [map_snd_placed, hloads]
    exact (forall₂_placesAfter [] _).imp fun i c hi => (hentry i c).mpr hi
  · intro i hi
    rw [map_snd_placed, hloads]
    rw [← Array.length_toList, hsupplies.constants, List.length_map] at hi
    exact (mem_placesAfter hi).resolve_left (Nat.not_lt_zero i)
  · intro j k i b
    rw [map_snd_placed, hloads]
    exact eq_of_bool

/-- An integer beside the floating point number of its value, both zeros, and a text that is also the
key of a map. -/
def motley : List Stmt :=
  [.declare "xs" (.list [.int 1, .float ⟨0x3ff0000000000000⟩, .float ⟨0⟩, .float ⟨0x8000000000000000⟩]),
    .cond (.bool true) [.expr (.map [("a", .bool true), ("a", .int 1)])] [],
    .ret (.list [.text "a", .float ⟨0⟩, .bool true])]

theorem pool_interns_literals_motley : ∃ p, compile "Main" motley = .ok p
    ∧ (p.constants[0]? = some (.int 1) ∧ ∀ i : Nat, p.constants[i]? = some (.int 1) → i = 0)
    ∧ ∃ lines, listing p.code = .ok lines
      ∧ loads (lines.map Prod.snd) = [0, 1, 2, 3, 4, 5, 6, 5, 0, 5, 2, 7]
      ∧ ∀ i < p.constants.size, i ∈ loads (lines.map Prod.snd) := by
  obtain ⟨p, hp⟩ := (@exists_compile_eq_ok_iff "Main" motley).mpr (by decide +kernel)
  obtain ⟨hint, -, -, lines, hlines, -, hall, -⟩ := pool_interns_literals hp
  obtain ⟨-, hsupplies⟩ := compile_eq_ok hp
  obtain ⟨is, hlisting, hloads⟩ := hsupplies.code
  have hfirst : p.constants[0]? = some (.int 1) := by
    rw [← Array.getElem?_toList, hsupplies.constants]
    rfl
  refine ⟨p, hp, ⟨hfirst, fun i hi => hint i 0 1 hi hfirst⟩, lines, hlines, ?_, hall⟩
  rw [← Except.ok.inj (hlisting.symm.trans hlines), map_snd_placed, hloads]
  decide +kernel

end CachedDispatch.Lang
