import CachedDispatch.Proofs.Overloads
import CachedDispatch.World
import Mathlib.Data.List.Forall2

/-!
Parameters that take every value are the last resort, as far as their fixed price goes. A candidate loses
to one with more specific parameters while the arguments are nearer to these than the price of an open
parameter; an object that is further below them is passed openly.
-/
namespace CachedDispatch

namespace ParamType

variable {lin : Lineage} {p q : ParamType} {v : Value}

/-- The same parameter, or a specific one instead of one that takes every value. -/
def Narrows (p q : ParamType) : Prop := p = q ∨ p.isOpen = false ∧ q.isOpen = true

private theorem distance_of_isOpen (h : p.isOpen = true) :
    paramDistance lin p v = some objectDistance := by
  cases p with
  | any => rfl
  | exact t =>
    have ht : t = .object := by simpa [isOpen] using h
    simp [paramDistance, ht]

private theorem Narrows.isSome_distance (h : p.Narrows q) (hp : (paramDistance lin p v).isSome = true) :
    (paramDistance lin q v).isSome = true := by
  rcases h with rfl | ⟨-, hq⟩
  · exact hp
  · rw [distance_of_isOpen hq]
    rfl

/-- At a specific parameter only the depth of an object can cost as much as an open one. -/
private theorem distance_lt_of_near {bound d : Nat} (hbound : objectDistance ≤ bound)
    (hp : p.isOpen = false)
    (hd : paramDistance lin p v = some d)
    (hnear : ∀ t depth, p = .exact t → v.depthTo? lin t = some depth → depth < bound) : d < bound := by
  cases p with
  | any => cases hp
  | exact t =>
    have ht : t ≠ .object := by simpa [isOpen] using hp
    simp only [paramDistance, if_neg ht] at hd
    split at hd
    · cases hd
      exact Nat.lt_of_lt_of_le (by decide) hbound
    split at hd
    · cases hd
      exact Nat.lt_of_lt_of_le (by decide) hbound
    rcases hdepth : v.depthTo? lin t with _ | depth <;> rw [hdepth] at hd <;> dsimp only at hd
    · rw [Option.ite_none_right_eq_some] at hd
      cases hd.2
      exact Nat.lt_of_lt_of_le (by decide) hbound
    · cases hd
      exact hnear t d rfl hdepth

/-- The depth of an object below a type is a place in its line. -/
private theorem distance_le {bound d : Nat} (hbound : objectDistance ≤ bound)
    (hlin : ∀ o, (lin o).length ≤ bound) (hd : paramDistance lin p v = some d) : d ≤ bound := by
  cases hopen : p.isOpen with
  | true =>
    rw [distance_of_isOpen hopen] at hd
    cases hd
    exact hbound
  | false =>
    refine Nat.le_of_lt (distance_lt_of_near hbound hopen hd fun t depth _ hdepth => ?_)
    unfold Value.depthTo? at hdepth
    split at hdepth
    · rename_i o _
      obtain ⟨hlt, -⟩ := List.idxOf?_eq_some_iff.mp hdepth
      exact Nat.lt_of_lt_of_le hlt (hlin o)
    · cases hdepth

end ParamType

namespace Method

/-- The parameters of `a` are those of `b`, or specific ones where `b` takes every value. -/
def Narrows (a b : Method) : Prop := List.Forall₂ ParamType.Narrows a.params b.params

/-- The parameters in `ps` that are not those in `qs`, each with its argument. -/
def narrowedIn : List ParamType → List ParamType → List Value → List (ParamType × Value)
  | p :: ps, q :: qs, v :: vs =>
    if p = q then narrowedIn ps qs vs else (p, v) :: narrowedIn ps qs vs
  | _, _, _ => []

/-- The parameters in which `a` narrows `b`, each with its argument. -/
def narrowed (a b : Method) (args : List Value) : List (ParamType × Value) :=
  narrowedIn a.params b.params args

/-- The distances of arguments to parameters together. -/
def spent (lin : Lineage) (es : List (ParamType × Value)) : Nat :=
  es.foldr (fun e n => (paramDistance lin e.1 e.2).getD 0 + n) 0

variable {lin : Lineage} {a b : Method} {args : List Value} {ps qs : List ParamType}

/-- An open parameter accepts what a specific one accepts. -/
private theorem Narrows.accepts (hn : a.Narrows b) (ha : a.Accepts lin args) : b.Accepts lin args := by
  have hall {ps qs : List ParamType} {args : List Value} (hn : List.Forall₂ ParamType.Narrows ps qs)
      (hps : ∀ e ∈ ps.zip args, (paramDistance lin e.1 e.2).isSome = true) :
      ∀ e ∈ qs.zip args, (paramDistance lin e.1 e.2).isSome = true := by
    induction hn generalizing args with
    | nil => exact hps
    | cons hpq _ ih =>
      rcases args with _ | ⟨v, vs⟩
      · exact hps
      rw [List.zip_cons_cons, List.forall_mem_cons] at hps ⊢
      exact ⟨hpq.isSome_distance hps.1, ih hps.2⟩
  exact ⟨(List.Forall₂.length_eq hn).symm.trans ha.1, hall hn ha.2⟩

/-- Both lists cost the same but for the narrowed parameters, which have the fixed price in `qs`. -/
private theorem spent_add_of_narrows (hn : List.Forall₂ ParamType.Narrows ps qs)
    (hlen : ps.length = args.length) :
    spent lin (ps.zip args) + objectDistance * (narrowedIn ps qs args).length
      = spent lin (qs.zip args) + spent lin (narrowedIn ps qs args) := by
  induction hn generalizing args with
  | nil => rfl
  | @cons p q ps qs hpq _ ih =>
    rcases args with _ | ⟨v, vs⟩
    · cases hlen
    have hrest := ih (Nat.succ.inj hlen)
    have hcons (e : ParamType × Value) (es : List (ParamType × Value)) :
        spent lin (e :: es) = (paramDistance lin e.1 e.2).getD 0 + spent lin es := rfl
    rcases hpq with rfl | ⟨hp, hq⟩
    · simp only [narrowedIn, if_true, List.zip_cons_cons, hcons]
      omega
    · have hne : p ≠ q := by
        rintro rfl
        cases hp.symm.trans hq
      simp only [narrowedIn, if_neg hne, List.zip_cons_cons, hcons, List.length_cons,
        ParamType.distance_of_isOpen hq, Option.getD_some, Nat.mul_succ]
      omega

private theorem cost_add_of_narrows (hn : a.Narrows b) (ha : a.Accepts lin args) :
    a.cost lin args + objectDistance * (a.narrowed b args).length
      = b.cost lin args + spent lin (a.narrowed b args) :=
  spent_add_of_narrows hn ha.1

/-- Narrowed parameters are specific, and take their arguments where the list does. -/
private theorem mem_narrowedIn (hn : List.Forall₂ ParamType.Narrows ps qs) {e : ParamType × Value}
    (he : e ∈ narrowedIn ps qs args) : e.1.isOpen = false ∧ e ∈ ps.zip args := by
  induction hn generalizing args with
  | nil => cases he
  | @cons p q ps qs hpq _ ih =>
    rcases args with _ | ⟨v, vs⟩
    · cases he
    rw [narrowedIn] at he
    split at he
    · exact (ih he).imp_right (List.mem_cons_of_mem _)
    · rename_i hne
      rcases List.mem_cons.mp he with rfl | he
      · exact ⟨(hpq.resolve_left hne).1, List.mem_cons_self⟩
      · exact (ih he).imp_right (List.mem_cons_of_mem _)

private theorem narrowedIn_ne_nil (hne : ps ≠ qs) (hn : List.Forall₂ ParamType.Narrows ps qs)
    (hlen : ps.length = args.length) : narrowedIn ps qs args ≠ [] := by
  induction hn generalizing args with
  | nil => exact absurd rfl hne
  | @cons p q ps qs hpq _ ih =>
    rcases args with _ | ⟨v, vs⟩
    · cases hlen
    rw [narrowedIn]
    split
    · rename_i heq
      exact ih (fun hrest => hne (by rw [heq, hrest])) (Nat.succ.inj hlen)
    · exact List.cons_ne_nil _ _

private theorem spent_le {bound : Nat} (es : List (ParamType × Value))
    (h : ∀ e ∈ es, (paramDistance lin e.1 e.2).getD 0 ≤ bound) : spent lin es ≤ bound * es.length := by
  induction es with
  | nil => exact Nat.le_refl _
  | cons e es ih =>
    have hrest := ih fun f hf => h f (List.mem_cons_of_mem e hf)
    have hfirst := h e List.mem_cons_self
    change _ + spent lin es ≤ bound * (es.length + 1)
    rw [Nat.mul_succ]
    omega

private theorem spent_lt {es : List (ParamType × Value)} (hne : es ≠ [])
    (h : ∀ e ∈ es, (paramDistance lin e.1 e.2).getD 0 < objectDistance) :
    spent lin es < objectDistance * es.length := by
  rcases es with _ | ⟨e, es⟩
  · exact absurd rfl hne
  have hrest := spent_le es fun f hf => Nat.le_of_lt (h f (List.mem_cons_of_mem e hf))
  have hfirst := h e List.mem_cons_self
  change _ + spent lin es < objectDistance * (es.length + 1)
  rw [Nat.mul_succ]
  omega

/-- A candidate costs at most as much as arguments that are all as far away as can be. -/
private theorem cost_le {bound : Nat} (hbound : objectDistance ≤ bound)
    (hlin : ∀ o, (lin o).length ≤ bound)
    (ha : a.Accepts lin args) : a.cost lin args ≤ bound * args.length := by
  have hzip : (a.params.zip args).length = args.length := by
    rw [List.length_zip, ← ha.1]
    exact Nat.min_self _
  rw [← hzip]
  refine spent_le _ fun e he => ?_
  obtain ⟨d, hd⟩ := Option.isSome_iff_exists.mp (ha.2 e he)
  rw [hd]
  exact ParamType.distance_le hbound hlin hd

/-- No object is as far below a narrowed parameter as an open one costs. -/
def Near (lin : Lineage) (a b : Method) (args : List Value) : Prop :=
  ∀ e ∈ a.narrowed b args, ∀ t depth, e.1 = .exact t → e.2.depthTo? lin t = some depth →
    depth < objectDistance

private theorem Near.spent_lt (h : a.Near lin b args) (hn : a.Narrows b) (hne : a.params ≠ b.params)
    (ha : a.Accepts lin args) :
    spent lin (a.narrowed b args) < objectDistance * (a.narrowed b args).length := by
  refine Method.spent_lt (narrowedIn_ne_nil hne hn ha.1) fun e he => ?_
  obtain ⟨hspecific, hmem⟩ := mem_narrowedIn hn he
  obtain ⟨d, hd⟩ := Option.isSome_iff_exists.mp (ha.2 e hmem)
  rw [hd]
  exact ParamType.distance_lt_of_near (Nat.le_refl _) hspecific hd (h e he)

end Method

section Picked

variable {lin : Lineage} {a b : Method} {args : List Value} {candidates : List Method}

/-- Nothing dearer than a candidate is picked. -/
private theorem pick_ne_of_cost_lt (ha : a.Accepts lin args) (hmem : a ∈ candidates)
    (hlt : a.cost lin args < b.cost lin args) : pick lin candidates args ≠ some b := by
  intro hpick
  obtain ⟨d, hb, before, after, rfl, hbefore, hafter⟩ := firstLeast_of_pickBy hpick
  obtain ⟨-, rfl⟩ := Method.rank?_eq_some_iff.mp hb
  have hrank := Method.rank?_eq_some_iff.mpr ⟨ha, rfl⟩
  rcases List.mem_append.mp hmem with hmem | hmem
  · exact Nat.lt_asymm hlt (hbefore a hmem _ hrank)
  rcases List.mem_cons.mp hmem with rfl | hmem
  · exact Nat.lt_irrefl _ hlt
  · exact Nat.not_lt.mpr (hafter a hmem _ hrank) hlt

/-- The first of two candidates is picked unless the second is cheaper. -/
private theorem pick_pair_of_cost_le (ha : a.Accepts lin args) (hb : b.Accepts lin args)
    (hle : b.cost lin args ≤ a.cost lin args) : pick lin [b, a] args = some b := by
  have hra := Method.rank?_eq_some_iff.mpr ⟨ha, rfl⟩
  have hrb := Method.rank?_eq_some_iff.mpr ⟨hb, rfl⟩
  simp [pick, pickBy, better, hra, hrb, Nat.not_lt.mpr hle]

end Picked

/-- A candidate with more specific parameters keeps `b` from being picked, whatever the other candidates
are, exactly if its arguments together are nearer to the narrowed parameters than the price of as many
open ones. They are if each of them is nearer than the price of one. The totals compared fit into 32 bits
as long as the price and the lengths of all lines, taken once for each argument, do. -/
theorem open_picked_as_last_resort_iff (lin : Lineage) {a b : Method} {args : List Value}
    (hn : a.Narrows b) (hne : a.params ≠ b.params) (ha : a.Accepts lin args) :
    ((∀ candidates, a ∈ candidates → pick lin candidates args ≠ some b) ↔
      Method.spent lin (a.narrowed b args) < objectDistance * (a.narrowed b args).length)
    ∧ (a.Near lin b args → ∀ candidates, a ∈ candidates → pick lin candidates args ≠ some b)
    ∧ ∀ bound, objectDistance ≤ bound → (∀ o, (lin o).length ≤ bound) → bound * args.length < UInt32.size →
        a.cost lin args < UInt32.size ∧ b.cost lin args < UInt32.size := by
  have hcost := Method.cost_add_of_narrows hn ha
  have hcheap (hlt : Method.spent lin (a.narrowed b args)
      < objectDistance * (a.narrowed b args).length) (candidates : List Method)
      (hmem : a ∈ candidates) : pick lin candidates args ≠ some b :=
    pick_ne_of_cost_lt ha hmem (by omega)
  refine ⟨⟨fun hnever => ?_, hcheap⟩, fun hnear => hcheap (hnear.spent_lt hn hne ha),
    fun bound hbound hlin hfits => ?_⟩
  · by_contra hdear
    have hpair := pick_pair_of_cost_le ha (hn.accepts ha) (by omega)
    exact hnever [b, a] (List.mem_cons_of_mem b List.mem_cons_self) hpair
  · have hcosta := Method.cost_le hbound hlin ha
    have hcostb := Method.cost_le hbound hlin (hn.accepts ha)
    omega

namespace Descent

/-- A world of classes that extend each other, `n` below the first, with an object of the last. -/
def world (n : Nat) : World :=
  let root := ((World.initial {}).defineClass 0 none { name := "K" }).2
  let last := (List.range n).foldl
    (fun e _ => (e.2.defineClass 0 (some e.1) { name := "K" }).2) root
  (last.2.newObject last.1).2

/-- Takes instances of the first class, and any value beside them. -/
def typed : Method := { name := "m", params := [.exact ⟨64⟩, .any], code := .script (.seq []) }

def untyped : Method := { name := "m", params := [.any, .any], code := .script (.seq []) }

def args : List Value := [.object ⟨0⟩, .int 1]

private theorem typed_narrows_untyped : typed.Narrows untyped :=
  .cons (Or.inr ⟨rfl, rfl⟩) (.cons (Or.inl rfl) .nil)

end Descent

open Descent in
theorem open_picked_as_last_resort_iff_descent :
    typed.Accepts (world 15).lineage args
      ∧ Method.spent (world 15).lineage (typed.narrowed untyped args) = 15
      ∧ ∀ candidates, typed ∈ candidates → pick (world 15).lineage candidates args ≠ some untyped := by
  have ha : typed.Accepts (world 15).lineage args := by
    constructor <;> decide +kernel
  have hspent : Method.spent (world 15).lineage (typed.narrowed untyped args) = 15 := by decide +kernel
  have hall := open_picked_as_last_resort_iff (world 15).lineage typed_narrows_untyped (by decide) ha
  exact ⟨ha, hspent, hall.1.mpr (by rw [hspent]; decide)⟩

open Descent in
/-- An object far enough below the specific parameter is passed openly. -/
theorem open_picked_before_specific :
    typed.Narrows untyped ∧ typed.params ≠ untyped.params ∧ typed.Accepts (world 17).lineage args
      ∧ pick (world 17).lineage [typed, untyped] args = some untyped := by
  have ha : typed.Accepts (world 17).lineage args := by
    constructor <;> decide +kernel
  have hb := typed_narrows_untyped.accepts ha
  refine ⟨typed_narrows_untyped, by decide, ha, ?_⟩
  have hlt : untyped.cost (world 17).lineage args < typed.cost (world 17).lineage args := by decide +kernel
  have hra := Method.rank?_eq_some_iff.mpr ⟨ha, rfl⟩
  have hrb := Method.rank?_eq_some_iff.mpr ⟨hb, rfl⟩
  simp [pick, pickBy, better, hra, hrb, hlt]

end CachedDispatch
