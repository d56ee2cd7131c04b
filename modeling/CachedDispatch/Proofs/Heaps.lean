import CachedDispatch.Arguments
import CachedDispatch.Primitive.Apply
import CachedDispatch.Proofs.Equality

/-!
Heaps that grow. What a heap has is never taken away, so values stay in it. The values that code gets are
parts of others or prepared from them, and an operation answers with one that was there or with a new
allocation made of such.
-/
namespace CachedDispatch

/-- An entry of a map that was written is one of before or the one that was written. -/
theorem Assoc.mem_of_mem_set {κ α : Type} [DecidableEq κ] {m : List (κ × α)} {k : κ} {v : α} {e : κ × α}
    (h : e ∈ Assoc.set m k v) : e ∈ m ∨ e = (k, v) := by
  induction m with
  | nil => exact .inr (List.mem_singleton.mp h)
  | cons e' m ih =>
    unfold Assoc.set at h
    split at h
    · rename_i hk
      rcases List.mem_cons.mp h with rfl | h
      · exact .inr (by rw [hk])
      · exact .inl (List.mem_cons_of_mem _ h)
    · rcases List.mem_cons.mp h with rfl | h
      · exact .inl List.mem_cons_self
      · exact (ih h).imp_left (List.mem_cons_of_mem _)

namespace Value

/-- Allocations hold what they held. -/
def Heap.Grows (heap heap' : Heap) : Prop := ∀ a v, heap a = some v → heap' a = some v

/-- One more allocation. -/
def Heap.put (heap : Heap) (alloc : Nat) (v : Value) :
    Heap := fun a => if a = alloc then some v else heap a

namespace Heap

variable {heap heap' heap'' : Heap}

theorem Grows.refl (heap : Heap) : heap.Grows heap := fun _ _ h => h

theorem Grows.trans (h : heap.Grows heap') (h' : heap'.Grows heap'') : heap.Grows heap'' :=
  fun a v ha => h' a v (h a v ha)

private theorem put_self (heap : Heap) (alloc : Nat) (v : Value) :
    heap.put alloc v alloc = some v := if_pos rfl

theorem grows_put {alloc : Nat} (h : heap alloc = none) (v : Value) :
    heap.Grows (heap.put alloc v) := by
  intro a u ha
  have hne : a ≠ alloc := by
    rintro rfl
    cases h.symm.trans ha
  exact (if_neg hne).trans ha

end Heap

variable {heap heap' : Heap}

mutual

theorem InHeap.mono (hg : heap.Grows heap') : {v : Value} → v.InHeap heap → v.InHeap heap'
  | list _ _, h => ⟨hg _ _ h.1, ItemsInHeap.mono hg h.2⟩
  | map _ _, h => ⟨hg _ _ h.1, EntriesInHeap.mono hg h.2⟩
  | host .., h => hg _ _ h
  | wrapper .., h => ⟨hg _ _ h.1, InHeap.mono hg h.2⟩
  | null, _ | bool _, _ | int _, _ | float _, _ | text _, _ | classLiteral _, _ | object _, _ => trivial

theorem ItemsInHeap.mono (hg : heap.Grows heap') : {vs : List Value} → ItemsInHeap heap vs →
    ItemsInHeap heap' vs
  | [], _ => trivial
  | _ :: _, h => ⟨InHeap.mono hg h.1, ItemsInHeap.mono hg h.2⟩

theorem EntriesInHeap.mono (hg : heap.Grows heap') : {es : List (String × Value)} →
    EntriesInHeap heap es → EntriesInHeap heap' es
  | [], _ => trivial
  | _ :: _, h => ⟨InHeap.mono hg h.1, EntriesInHeap.mono hg h.2⟩

end

theorem itemsInHeap_iff {vs : List Value} : ItemsInHeap heap vs ↔ ∀ v ∈ vs, v.InHeap heap := by
  induction vs with
  | nil => simp [ItemsInHeap]
  | cons v vs ih => simp [ItemsInHeap, ih]

theorem entriesInHeap_iff {es : List (String × Value)} :
    EntriesInHeap heap es ↔ ∀ e ∈ es, e.2.InHeap heap := by
  induction es with
  | nil => simp [EntriesInHeap]
  | cons e es ih => simp [EntriesInHeap, ih]

private theorem ItemsInHeap.append {us vs : List Value} (hu : ItemsInHeap heap us)
    (hv : ItemsInHeap heap vs) : ItemsInHeap heap (us ++ vs) := by
  rw [itemsInHeap_iff] at hu hv ⊢
  exact fun v h => (List.mem_append.mp h).elim (hu v) (hv v)

theorem inHeap_getD {v? : Option Value} (h : ∀ v, v? = some v → v.InHeap heap) :
    (v?.getD null).InHeap heap := by
  cases v? with
  | none => trivial
  | some v => exact h v rfl

theorem ItemsInHeap.getElem? {vs : List Value} (h : ItemsInHeap heap vs) {i : Nat} {v : Value}
    (hv : vs[i]? = some v) : v.InHeap heap :=
  itemsInHeap_iff.mp h v (List.mem_of_getElem? hv)

private theorem inHeap_firstArg {args : List Value} (h : ItemsInHeap heap args) :
    (firstArg args).InHeap heap := by
  cases args with
  | nil => trivial
  | cons v vs => exact h.1

theorem EntriesInHeap.get? {es : List (String × Value)} (h : EntriesInHeap heap es) {key : String}
    {v : Value} (hv : Assoc.get? es key = some v) : v.InHeap heap := by
  obtain ⟨e, he, rfl⟩ := Option.map_eq_some_iff.mp hv
  exact entriesInHeap_iff.mp h e (List.mem_of_find?_eq_some he)

theorem EntriesInHeap.set {es : List (String × Value)} (h : EntriesInHeap heap es) (key : String)
    {v : Value} (hv : v.InHeap heap) : EntriesInHeap heap (Assoc.set es key v) := by
  refine entriesInHeap_iff.mpr fun e he => ?_
  rcases Assoc.mem_of_mem_set he with he | rfl
  · exact entriesInHeap_iff.mp h e he
  · exact hv

theorem InHeap.entry? {v u : Value} (h : v.InHeap heap) {key : String} (hu : v.entry? key = some u) :
    u.InHeap heap := by
  cases v with
  | map a es => exact EntriesInHeap.get? h.2 hu
  | _ => cases hu

private theorem InHeap.unwrap {v : Value} (h : v.InHeap heap) : v.unwrap.InHeap heap := by
  cases v with
  | wrapper a v t => exact h.2
  | _ => exact h

private theorem EntriesInHeap.merge {a b : List (String × Value)} (ha : EntriesInHeap heap a)
    (hb : EntriesInHeap heap b) : EntriesInHeap heap (mergeEntries a b) := by
  unfold mergeEntries
  induction b generalizing a with
  | nil => exact ha
  | cons e b ih => exact ih (ha.set e.1 hb.1) hb.2

end Value

open Value

variable {heap : Heap}

theorem itemsInHeap_unwrapArgs {args : List Value} (h : ItemsInHeap heap args) :
    ItemsInHeap heap (unwrapArgs args) := by
  rw [itemsInHeap_iff] at h ⊢
  intro v hv
  obtain ⟨u, hu, rfl⟩ := List.mem_map.mp hv
  exact (h u hu).unwrap

theorem itemsInHeap_coerceArgs (params : List ParamType) {args : List Value}
    (h : ItemsInHeap heap args) :
    ItemsInHeap heap (coerceArgs params args) := by
  have hone (p : ParamType) (v : Value) (hv : v.InHeap heap) : (coerceArg p v).InHeap heap := by
    unfold coerceArg coerce?
    split
    · split
      · trivial
      · exact hv
    · exact hv
  have hall (params : List ParamType) : ItemsInHeap heap (params.zipWith coerceArg args) := by
    induction params generalizing args with
    | nil => exact trivial
    | cons p params ih =>
      cases args with
      | nil => exact trivial
      | cons v vs => exact ⟨hone p v h.1, ih h.2⟩
  unfold coerceArgs
  split
  · exact hall params
  · exact h

theorem itemsInHeap_prepare (m : Method) (tier : Tier) {args : List Value} (h : ItemsInHeap heap args) :
    ItemsInHeap heap (prepare m args tier) := by
  cases tier with
  | noUnwrapNoCoerce => exact h
  | noUnwrap => exact itemsInHeap_coerceArgs _ h
  | baseline => exact itemsInHeap_coerceArgs _ (itemsInHeap_unwrapArgs h)

/-- Whatever comes out without a failure satisfies the predicate. -/
def Gives {ε α : Type} (P : α → Prop) (x : Except ε α) : Prop := ∀ a, x = .ok a → P a

namespace Gives

variable {ε α β : Type} {P : α → Prop} {Q : β → Prop}

theorem pure {a : α} (h : P a) : Gives P (Pure.pure a : Except ε α) := by
  rintro _ ⟨⟩
  exact h

theorem throw (e : ε) : Gives P (throw e : Except ε α) := by
  rintro _ ⟨⟩

private theorem bind {x : Except ε α} {f : α → Except ε β} (hx : Gives P x)
    (hf : ∀ a, P a → Gives Q (f a)) : Gives Q (x >>= f) := by
  cases x with
  | error e => rintro _ ⟨⟩
  | ok a => exact hf a (hx a rfl)

/-- What is bound does not matter. -/
private theorem after {x : Except ε α} {f : α → Except ε β} (hf : ∀ a, Gives Q (f a)) :
    Gives Q (x >>= f) := by
  cases x with
  | error e => rintro _ ⟨⟩
  | ok a => exact hf a

private theorem imp {P Q : α → Prop} {x : Except ε α} (h : Gives P x) (hPQ : ∀ a, P a → Q a) :
    Gives Q x := fun a ha => hPQ a (h a ha)

end Gives

section Operations

variable {names : Naming} {alloc : Nat} {receiver : Value} {args : List Value}

private theorem inHeap_orderingValue (o : Option Ordering) : (orderingValue o).InHeap heap := by
  unfold orderingValue
  split <;> trivial

private theorem gives_needList (h : receiver.InHeap heap) :
    Gives (ItemsInHeap heap) (receiver.needList names) := by
  cases receiver with
  | list a xs => exact .pure h.2
  | _ => exact .throw _

private theorem gives_needMap (h : receiver.InHeap heap) :
    Gives (EntriesInHeap heap) (receiver.needMap names) := by
  cases receiver with
  | map a es => exact .pure h.2
  | _ => exact .throw _

private theorem ObjectOp.inHeap_apply (op : ObjectOp) : (op.apply names receiver args).InHeap heap := by
  cases op <;> trivial

private theorem NullOp.inHeap_apply (op : NullOp) : Gives (InHeap heap) (op.apply names args) := by
  cases op with
  | plus => exact .after fun _ => .pure trivial
  | _ => exact .pure trivial

private theorem BooleanOp.inHeap_apply (op : BooleanOp) (h : receiver.InHeap heap) :
    Gives (InHeap heap) (op.apply names receiver args) := by
  cases op with
  | asBoolean => exact .pure h
  | compareTo => exact .after fun _ => .after fun _ => .pure (inHeap_orderingValue _)

private theorem IntegerOp.inHeap_apply (op : IntegerOp) :
    Gives (InHeap heap) (op.apply names receiver args) := by
  cases op with
  | negative | asBoolean => exact .after fun _ => .pure trivial
  | compareTo | compareToDouble => exact .after fun _ => .after fun _ => .pure (inHeap_orderingValue _)
  | div | intdiv | mod =>
    refine .after fun b => ?_
    split
    · exact .throw _
    · exact .after fun _ => .pure trivial
  | _ => exact .after fun _ => .after fun _ => .pure trivial

private theorem DoubleOp.inHeap_apply (op : DoubleOp) :
    Gives (InHeap heap) (op.apply names receiver args) := by
  cases op with
  | negative | asBoolean => exact .after fun _ => .pure trivial
  | compareTo => exact .after fun _ => .after fun _ => .pure (inHeap_orderingValue _)
  | _ => exact .after fun _ => .after fun _ => .pure trivial

private theorem StringOp.inHeap_apply (op : StringOp) :
    Gives (InHeap heap) (op.apply names receiver args) := by
  cases op with
  | multiply | contains => exact .after fun _ => .after fun _ => .pure trivial
  | compareTo => exact .after fun _ => .after fun _ => .pure (inHeap_orderingValue _)
  | getAt =>
    refine .after fun s => .after fun i => ?_
    split
    · exact .pure trivial
    · exact .throw _
  | _ => exact .after fun _ => .pure trivial

/-- A new list holds itself and what it is made of. -/
theorem inHeap_put_list (h : heap alloc = none) {items : List Value} (hitems : ItemsInHeap heap items) :
    (Value.list alloc items).InHeap (heap.put alloc (.list alloc items)) :=
  ⟨heap.put_self .., hitems.mono (Heap.grows_put h _)⟩

theorem inHeap_put_map (h : heap alloc = none) {entries : List (String × Value)}
    (hentries : EntriesInHeap heap entries) :
    (Value.map alloc entries).InHeap (heap.put alloc (.map alloc entries)) :=
  ⟨heap.put_self .., hentries.mono (Heap.grows_put h _)⟩

theorem inHeap_put_wrapper (h : heap alloc = none) {v : Value} (hv : v.InHeap heap) (t : TypeId) :
    (Value.wrapper alloc v t).InHeap (heap.put alloc (.wrapper alloc v t)) :=
  ⟨heap.put_self .., hv.mono (Heap.grows_put h _)⟩

theorem inHeap_put_host (t : TypeId) (label : String) :
    (Value.host alloc t label).InHeap (heap.put alloc (.host alloc t label)) := heap.put_self ..

section Allocating

variable (halloc : heap alloc = none) (hr : receiver.InHeap heap) (ha : ItemsInHeap heap args)
include halloc hr ha

private theorem ListOp.inHeap_apply (op : ListOp) :
    Gives (fun v => v.InHeap (heap.put alloc v)) (op.apply names alloc receiver args) := by
  have hold {v : Value} (h : v.InHeap heap) : v.InHeap (heap.put alloc v) := h.mono (Heap.grows_put halloc v)
  have hitems : Gives (ItemsInHeap heap) (receiver.needList names) := gives_needList hr
  cases op with
  | size | isEmpty | contains | asBoolean => exact .after fun _ => .pure trivial
  | getAt =>
    refine .bind hitems fun xs hxs => .after fun i => .pure (hold (inHeap_getD fun v hv => ?_))
    obtain ⟨k, -, hk⟩ := Option.bind_eq_some_iff.mp hv
    exact hxs.getElem? hk
  | get =>
    refine .bind hitems fun xs hxs => .after fun i => ?_
    split
    · rename_i v hv
      split at hv
      · cases hv
      · exact .pure (hold (hxs.getElem? hv))
    · exact .throw _
  | first =>
    refine .bind hitems fun xs hxs => ?_
    split
    · rename_i v hv
      exact .pure (hold (itemsInHeap_iff.mp hxs v (List.mem_of_mem_head? hv)))
    · exact .throw _
  | last =>
    refine .bind hitems fun xs hxs => ?_
    split
    · rename_i v hv
      exact .pure (hold (itemsInHeap_iff.mp hxs v (List.mem_of_getLast? hv)))
    · exact .throw _
  | plusList =>
    refine .bind hitems fun xs hxs => ?_
    exact .bind (gives_needList (inHeap_firstArg ha)) fun ys hys =>
      .pure (inHeap_put_list halloc (hxs.append hys))
  | plus =>
    refine .bind hitems fun xs hxs => ?_
    exact .pure (inHeap_put_list halloc (hxs.append ⟨inHeap_firstArg ha, trivial⟩))

private theorem MapOp.inHeap_apply (op : MapOp) :
    Gives (fun v => v.InHeap (heap.put alloc v)) (op.apply names alloc receiver args) := by
  have hold {v : Value} (h : v.InHeap heap) : v.InHeap (heap.put alloc v) := h.mono (Heap.grows_put halloc v)
  have hentries : Gives (EntriesInHeap heap) (receiver.needMap names) := gives_needMap hr
  cases op with
  | size | isEmpty | asBoolean => exact .after fun _ => .pure trivial
  | get | getAt =>
    refine .after fun key => .bind hentries fun es hes => ?_
    exact .pure (hold (inHeap_getD fun v hv => hes.get? hv))
  | containsKey => exact .after fun _ => .after fun _ => .pure trivial
  | plus =>
    refine .bind hentries fun a ha' => ?_
    exact .bind (gives_needMap (inHeap_firstArg ha)) fun b hb => .pure (inHeap_put_map halloc (ha'.merge hb))

/-- An operation answers with a value of the heap, or with a new allocation made of such values. -/
theorem Primitive.inHeap_apply (p : Primitive) :
    Gives (fun v => v.InHeap (heap.put alloc v)) (p.apply names alloc receiver args) := by
  have hold (v : Value) (h : v.InHeap heap) : v.InHeap (heap.put alloc v) := h.mono (Heap.grows_put halloc v)
  cases p with
  | object op => exact .pure (hold _ op.inHeap_apply)
  | nullObject op => exact op.inHeap_apply.imp hold
  | boolean op => exact (op.inHeap_apply hr).imp hold
  | integer op => exact op.inHeap_apply.imp hold
  | double op => exact op.inHeap_apply.imp hold
  | string op => exact op.inHeap_apply.imp hold
  | list op => exact op.inHeap_apply halloc hr ha
  | map op => exact op.inHeap_apply halloc hr ha

end Allocating

end Operations

end CachedDispatch
