import CachedDispatch.Proofs.Allocation

/-!
The values of the machine. Its stack, its local variables and the program's constants are in a heap, which
grows at most while it runs, and so is the value that it comes to.
-/
namespace CachedDispatch

open World Value

variable {heap : Heap}

def Machine.InHeap (heap : Heap) (m : Machine) : Prop :=
  ItemsInHeap heap m.stack ∧ ItemsInHeap heap m.locals.toList ∧ m.this.InHeap heap

theorem Machine.InHeap.mono {m : Machine} {heap' : Heap} (hg : heap.Grows heap') (h : m.InHeap heap) :
    m.InHeap heap' :=
  ⟨h.1.mono hg, h.2.1.mono hg, h.2.2.mono hg⟩

private def Effect.InHeap (heap : Heap) : Effect → Prop
  | .next m => m.InHeap heap
  | .done v => v.InHeap heap
  | .fail _ => True
  | .dispatch _ _ request m => request.InHeap heap ∧ m.InHeap heap

private def Machine.Status.InHeap (heap : Heap) : Machine.Status → Prop
  | .running m => m.InHeap heap
  | .ended result m => Gives (Value.InHeap heap) result ∧ m.InHeap heap

private theorem itemsInHeap_rangeValues (first last : Int64) :
    ItemsInHeap heap (rangeValues first last) := by
  refine itemsInHeap_iff.mpr fun v hv => ?_
  unfold rangeValues at hv
  dsimp only at hv
  split at hv <;> obtain ⟨n, -, rfl⟩ := List.mem_map.mp hv <;> trivial

private theorem inHeap_pairEntries :
    (vs : List Value) → ItemsInHeap heap vs → ∀ es, pairEntries? vs = some es → EntriesInHeap heap es
  | [], _, es, h => by
    cases h
    trivial
  | [v], _, es, h => by
    cases v <;> cases h <;> trivial
  | k :: v :: rest, hvs, es, h => by
    cases k with
    | text k =>
      obtain ⟨es', hes, rfl⟩ := Option.map_eq_some_iff.mp h
      exact ⟨hvs.2.1, inHeap_pairEntries rest hvs.2.2 es' hes⟩
    | _ => cases h

namespace Machine

variable {m : Machine} {u : LoadedUnit}

private theorem InHeap.push (hm : m.InHeap heap) {v : Value} (hv : v.InHeap heap) :
    (m.push v).InHeap heap :=
  ⟨⟨hv, hm.1⟩, hm.2⟩

private theorem InHeap.popMany? (hm : m.InHeap heap) {n : Nat} {vs : List Value} {m' : Machine}
    (h : m.popMany? n = some (vs, m')) : ItemsInHeap heap vs ∧ m'.InHeap heap := by
  unfold Machine.popMany? at h
  split at h <;> cases h
  have hstack := itemsInHeap_iff.mp hm.1
  refine ⟨itemsInHeap_iff.mpr fun v hv => hstack v (List.mem_of_mem_take (List.mem_reverse.mp hv)),
    itemsInHeap_iff.mpr fun v hv => hstack v (List.mem_of_mem_drop hv), hm.2⟩

private theorem InHeap.jump (hm : m.InHeap heap) (target : Nat) : (m.jump u target).InHeap heap := by
  unfold Machine.jump
  split
  · exact hm
  · trivial

private theorem InHeap.withCondition (hm : m.InHeap heap) {k : Bool → Machine → Effect}
    (hk : ∀ b m, m.InHeap heap → (k b m).InHeap heap) : (m.withCondition k).InHeap heap := by
  unfold Machine.withCondition
  split
  · trivial
  · rename_i v stack hstack
    have hrest : Machine.InHeap heap { m with stack } := ⟨(hstack ▸ hm.1).2, hm.2⟩
    split
    · exact hk _ _ hrest
    · trivial

private theorem InHeap.invocation (hm : m.InHeap heap) (op : InvokeOp) (slot argc : Nat) :
    (m.invocation op slot argc).InHeap heap := by
  unfold Machine.invocation
  split
  · trivial
  rename_i args m' hpop
  obtain ⟨hargs, hm'⟩ := hm.popMany? hpop
  split
  · trivial
  rename_i receiver stack hstack
  have hparts : ItemsInHeap heap (receiver :: stack) := hstack ▸ hm'.1
  split
  · rename_i request hrequest
    refine ⟨?_, hparts.2, hm'.2⟩
    unfold requestFor at hrequest
    split at hrequest <;> cases hrequest
    · exact ⟨hparts.1, hargs⟩
    · exact ⟨hparts.1, hargs⟩
    · exact ⟨hparts.1, hargs⟩
    · exact hargs
    · exact hargs
  · trivial

private theorem stocks_build (hm : m.InHeap heap) {make : Nat → Value}
    (hmake : ∀ n, heap n = none → (make n).InHeap (heap.put n (make n))) :
    Act.Stocks heap (Act.ofUpdate (m.build make)) Effect.InHeap := by
  have halloc : Act.Stocks heap (Act.ofUpdate (modifyGet (·.allocate))) fun heap' n =>
      (make n).InHeap heap' := .allocated hmake
  exact .ofUpdate_bind halloc fun heap' n hg hn => .pure ((hm.mono hg).push hn)

/-- An instruction on values of the heap leaves such values. -/
private theorem stocks_exec (hu : ItemsInHeap heap u.program.constants.toList) (hm : m.InHeap heap)
    (i : Instr) : Act.Stocks heap (Act.ofUpdate (exec u m i)) Effect.InHeap := by
  have hpop {v : Value} {stack : List Value} (h : m.stack = v :: stack) :
      v.InHeap heap ∧ Machine.InHeap heap { m with stack } := by
    have hparts : ItemsInHeap heap (v :: stack) := h ▸ hm.1
    exact ⟨hparts.1, hparts.2, hm.2⟩
  cases i with
  | nop => exact .pure hm
  | ret =>
    simp only [exec]
    split
    · exact .pure (hpop ‹_›).1
    · exact .pure trivial
  | ldc i =>
    simp only [exec]
    split
    · rename_i v hv
      exact .pure (hm.push (hu.getElem? ((Array.getElem?_toList ..).trans hv)))
    · exact .pure trivial
  | ldnull => exact .pure (hm.push trivial)
  | ldloc i =>
    simp only [exec]
    split
    · rename_i v hv
      exact .pure (hm.push (hm.2.1.getElem? ((Array.getElem?_toList ..).trans hv)))
    · exact .pure trivial
  | stloc i =>
    simp only [exec]
    split
    · exact .pure trivial
    rename_i v stack hstack
    split
    · refine .pure ⟨(hpop hstack).2.1, ?_, hm.2.2⟩
      rw [Array.toList_setIfInBounds]
      refine itemsInHeap_iff.mpr fun x hx => ?_
      rcases List.mem_or_eq_of_mem_set hx with hx | rfl
      · exact itemsInHeap_iff.mp hm.2.1 x hx
      · exact (hpop hstack).1
    · exact .pure trivial
  | ldthis => exact .pure (hm.push hm.2.2)
  | ldclass i =>
    simp only [exec]
    split
    · exact .pure (hm.push trivial)
    · exact .pure trivial
  | pop =>
    simp only [exec]
    split
    · exact .pure (hpop ‹_›).2
    · exact .pure trivial
  | dup =>
    simp only [exec]
    split
    · exact .pure (hm.push (hpop ‹_›).1)
    · exact .pure trivial
  | br target => exact .pure (hm.jump _)
  | brfalse target =>
    refine .pure (hm.withCondition fun b m' hm' => ?_)
    cases b with
    | true => exact hm'
    | false => exact hm'.jump _
  | not => exact .pure (hm.withCondition fun b m' hm' => hm'.push trivial)
  | newList n =>
    simp only [exec]
    split
    · rename_i items m' h
      obtain ⟨hitems, hm'⟩ := hm.popMany? h
      exact stocks_build hm' fun n hn => inHeap_put_list hn hitems
    · exact .pure trivial
  | newMap n =>
    simp only [exec]
    split
    · exact .pure trivial
    rename_i operands m' h
    obtain ⟨hoperands, hm'⟩ := hm.popMany? h
    split
    · rename_i entries he
      exact stocks_build hm' fun n hn => inHeap_put_map hn (inHeap_pairEntries operands hoperands entries he)
    · exact .pure trivial
  | newRange =>
    simp only [exec]
    split
    · exact .pure trivial
    · rename_i last first stack hstack
      have hparts : ItemsInHeap heap (.int last :: .int first :: stack) := hstack ▸ hm.1
      have hrest : Machine.InHeap heap { m with stack } := ⟨hparts.2.2, hm.2⟩
      exact stocks_build hrest fun n hn => inHeap_put_list hn (itemsInHeap_rangeValues first last)
    · exact .pure trivial
    · exact .pure trivial
  | wrap i =>
    simp only [exec]
    split
    · exact .pure trivial
    · exact .pure trivial
    · obtain ⟨hv, hrest⟩ := hpop ‹_›
      exact stocks_build hrest fun n hn => inHeap_put_wrapper hn hv _
  | invoke op slot argc => exact .pure (hm.invocation op _ _)
  | getProp safe slot =>
    simp only [exec]
    split
    · obtain ⟨hv, hrest⟩ := hpop ‹_›
      exact .pure ⟨hv, hrest⟩
    · exact .pure trivial

section Running

variable {run : Runner} (hrun : run.Stocks)
include hrun

private theorem stocks_step (hu : ItemsInHeap heap u.program.constants.toList) (hm : m.InHeap heap) :
    Act.Stocks heap (step run u m) Status.InHeap := by
  unfold step
  split
  · exact .pure ⟨.throw _, hm⟩
  · rename_i i _
    have hbehind : Machine.InHeap heap { m with ip := m.ip + i.size } := hm
    refine Act.Stocks.bind (stocks_exec hu hbehind i) fun heap₁ effect hg₁ h => ?_
    have hm₁ := hm.mono hg₁
    cases effect with
    | next m' => exact .pure h
    | done v => exact .pure ⟨.pure h, hm₁⟩
    | fail e => exact .pure ⟨.throw e, hm₁⟩
    | dispatch slot safe request m' =>
      have hanswer : Exec.Stocks heap₁ (answer run u.table slot safe request) Value.InHeap := by
        unfold answer
        split
        · exact stocks_dispatchSafe hrun _ _ h.1
        · exact stocks_dispatch hrun _ _ h.1
      refine Act.Stocks.bind hanswer fun heap₂ result hg₂ hv => ?_
      cases result with
      | ok v => exact .pure ((h.2.mono hg₂).push (hv v rfl))
      | error f => exact .pure ⟨.throw _, hm₁.mono hg₂⟩

/-- A run of the machine on values of the heap comes to such values, also in its local variables. -/
theorem stocks_run (hu : ItemsInHeap heap u.program.constants.toList) (hm : m.InHeap heap)
    (fuel : Nat) :
    Act.Stocks heap (Machine.run run u fuel m) fun heap' out =>
      Gives (Value.InHeap heap') out.1 ∧ out.2.InHeap heap' := by
  induction fuel generalizing heap m with
  | zero => exact .stop _
  | succ fuel ih =>
    unfold Machine.run
    refine (stocks_step hrun hu hm).bind fun heap' status hg h => ?_
    cases status with
    | running m' => exact ih (hu.mono hg) h
    | ended result m' => exact .pure h

end Running

end Machine

end CachedDispatch
