import CachedDispatch.Proofs.Deeds
import CachedDispatch.Proofs.Ledger

/-!
Sessions come through visited worlds only, because whatever they do to the books they do in turns.
-/
namespace CachedDispatch

open World

namespace World

/-- Every deed is a turn; most leave the books alone. -/
private theorem Deed.turn {w w' : World} (h : Deed w w') : Turn w w' := by
  cases h with
  | record | allocate | newObject | setField | activate => exact .idle rfl
  | findClass rt t => exact .idle (w.books_findClass rt t)
  | mutate r mu => exact .idle (w.books_updateClass r _)
  | replaceClass _ rt => exact .idle (w.books_replaceClass rt _)
  | defineClass rt parent members => exact .idle (w.books_defineClass rt parent members)
  | draftClass key rt name isHost => exact .idle (w.books_beginClass rt name isHost)
  | finishClass _ parent members => exact .idle (w.books_buildClass _ parent members)
  | newRuntime config => exact .newRuntime w config
  | addTable hrt owner sites => exact .addTable hrt owner sites
  | plan hs => exact .plan hs _
  | rescope hrt => exact .switch hrt rfl

theorem Deeds.turns {w w' : World} (h : Deeds w w') : Turns w w' :=
  Relation.ReflTransGen.mono (fun _ _ => Deed.turn) w w' h

theorem Attained.visited {w : World} (h : w.Attained) : w.Visited :=
  have ⟨config, embedding, hd⟩ := h
  ⟨config, embedding, Deeds.turns hd⟩

/-- Sessions come to visited worlds. -/
private theorem visited_of_session {fuel : Nat} {steps : List Script.Step} {config : Config}
    {embedding : Embedding} {replies : List Script.Reply} {w : World}
    (h : (Script.performSteps fuel steps).run (initial config embedding) = .ok (replies, w)) : w.Visited :=
  (attained_of_session h).visited

end World

/-- A slot is on a runtime that is there, and in the list for its account. -/
theorem World.Visited.slot_mem {w : World} (hw : w.Visited) {t : TableRef} {i : Nat}
    {slot : Slot} (hs : w.slot? t i = some slot) :
    (w.table t).runtime < w.runtimes.size ∧ slot ∈ w.books.slotsOf (w.table t).runtime := by
  obtain ⟨⟨before, after, hsplit, -⟩, -⟩ := Books.slotsOf_write (b := w.books) hs
  have hlt : (w.table t).runtime < w.books.accounts.size := by
    have hidx : t.idx < w.tables.size := Books.lt_of_slot (b := w.books) hs
    have htable : w.table t = w.tables[t.idx] := by simp [table, Array.getD, hidx]
    exact hw.balanced.runtimes _ (htable ▸ Array.mem_toList_iff.mpr (Array.getElem_mem hidx))
  refine ⟨by simpa [books] using hlt, ?_⟩
  have hmem : slot ∈ before ++ slot :: after := List.mem_append_right _ List.mem_cons_self
  exact hsplit ▸ hmem

/-- Tables keep the slots that they were made with, in number, kind and name. A slot is generic before
its first install, and megamorphic for good once it has come to the threshold. The counters of a runtime
agree with its slots, and with caching off nothing is ever counted or installed. -/
theorem slots_and_statistics_balance {w : World} (hw : w.Visited) :
    (∀ rt owner sites w', rt < w.runtimes.size →
      Turns (w.addTable (.ofSites owner rt sites)).2 w' →
        (w'.runtime rt).config = (w.runtime rt).config
        ∧ (w'.table ⟨w.tables.size⟩).runtime = rt
        ∧ (w'.table ⟨w.tables.size⟩).slots.size = sites.length
        ∧ ∀ i slot, w'.slot? ⟨w.tables.size⟩ i = some slot →
          slot.header.index = i ∧ sites[i]? = some (slot.header.name, slot.kind))
    ∧ (∀ t i slot, w.slot? t i = some slot →
      slot.Sound (w.runtime (w.table t).runtime).config.threshold
        ∧ (slot.site.tag = .megamorphic → ∀ w', Turns w w' → w'.slot? t i = some slot)
        ∧ ((w.runtime (w.table t).runtime).config.cacheEnabled = false → slot.site.tag = .generic))
    ∧ ∀ rt, rt < w.runtimes.size →
      (w.runtime rt).stats.installs = ((w.books.slotsOf rt).map (·.installs)).sum
        ∧ (w.runtime rt).stats.megamorphicTransitions
          = (w.books.slotsOf rt).countP (·.site.tag = .megamorphic)
        ∧ (w.runtime rt).stats.installs ≤ (w.runtime rt).stats.resolutions
        ∧ (w.runtime rt).stats.resolutions
          ≤ (w.runtime rt).stats.installs + (w.runtime rt).stats.slowPathCalls
        ∧ ((w.runtime rt).config.cacheEnabled = false → (w.runtime rt).stats.resolutions = 0
          ∧ (w.runtime rt).stats.installs = 0
          ∧ (w.runtime rt).stats.megamorphicTransitions = 0) := by
  have haccount (rt : Nat) (hrt : rt < w.runtimes.size) :
      (⟨(w.runtime rt).config, (w.runtime rt).stats⟩ : Account).Balanced (w.books.slotsOf rt) := by
    rw [← account_books]
    exact hw.balanced.accounts rt (by simpa [books] using hrt)
  refine ⟨fun rt owner sites w' hrt ht => ?_, fun t i slot hs => ?_, fun rt hrt => ?_⟩
  · have hadd : Turn w (w.addTable (.ofSites owner rt sites)).2 := .addTable hrt owner sites
    have hkept := (ht.balanced (hadd.balanced hw.balanced).1).2
    have hnew : (w.addTable (.ofSites owner rt sites)).2.table ⟨w.tables.size⟩
        = .ofSites owner rt sites := by rw [table_addTable, if_pos rfl]
    obtain ⟨-, hruntime, hsize⟩ := hkept.table ⟨w.tables.size⟩ (by simp [books, addTable])
    have hsize : (w'.table ⟨w.tables.size⟩).slots.size = sites.length := by
      refine hsize.trans ((congrArg (·.slots.size) hnew).trans ?_)
      simp [Table.ofSites]
    refine ⟨?_, hruntime.trans (congrArg (·.runtime) hnew), hsize, fun i slot hs => ?_⟩
    · have hconfig := hkept.config rt (by simpa [books, addTable] using hrt)
      rw [account_books, account_books] at hconfig
      exact hconfig
    · have hi : i < sites.length := by
        obtain ⟨hi, -⟩ := Array.getElem?_eq_some_iff.mp hs
        exact hsize ▸ hi
      have hmade : (w.addTable (.ofSites owner rt sites)).2.slot? ⟨w.tables.size⟩ i
          = some { header := ⟨i, sites[i].1⟩, kind := sites[i].2 } := by
        rw [slot?, hnew, slots_ofSites, List.getElem?_eq_getElem hi]
        rfl
      obtain ⟨slot', hs', hheader, hkind, -⟩ := hkept.slot _ i _ hmade
      obtain rfl : slot' = slot := Option.some.inj (hs'.symm.trans hs)
      rw [hheader, hkind, List.getElem?_eq_getElem hi]
      exact ⟨rfl, rfl⟩
  · obtain ⟨hrt, hmem⟩ := hw.slot_mem hs
    have hbalanced := haccount _ hrt
    refine ⟨hbalanced.sound slot hmem, fun hm w' ht => ?_, fun hoff => (hbalanced.uncached hoff).2 slot hmem⟩
    obtain ⟨slot', hs', -, -, hsame⟩ := (ht.balanced hw.balanced).2.slot t i slot hs
    rw [← hsame hm]
    exact hs'
  · have hbalanced := haccount rt hrt
    refine ⟨hbalanced.installs, hbalanced.megamorphic, hbalanced.installs_le,
      hbalanced.resolutions_le, fun hoff => ?_⟩
    obtain ⟨hzero, hgeneric⟩ := hbalanced.uncached hoff
    refine ⟨hzero, Nat.le_zero.mp (hzero ▸ hbalanced.installs_le), ?_⟩
    refine hbalanced.megamorphic.trans (List.countP_eq_zero.mpr fun s hs => ?_)
    simp [hgeneric s hs]

/-- A session that calls `m` on objects of two classes through one slot. -/
def Script.polymorphic : List Script.Step := [
  .defineClass ⟨⟨"A", none, [], [], [
    { name := "m", params := [], body := .const (.int 1) }], none⟩, "A", false⟩,
  .defineClass ⟨⟨"B", none, [], [], [
    { name := "m", params := [], body := .const (.int 2) }], none⟩, "B", false⟩,
  .newObject (.named "A") "a",
  .newObject (.named "B") "b",
  .newTable "t" (.named "A") [("m", .call)],
  .call "t" 0 .call (.stored "a") [] none,
  .call "t" 0 .call (.stored "b") [] none]

/-- Whether the slot is given up after its one install. -/
private def polymorphicGivesUp : Option Bool :=
  match (Script.performSteps 8 Script.polymorphic).run (initial ⟨true, 1⟩) with
  | .ok (_, w) => (w.slot? ⟨0⟩ 0).map fun slot : Slot =>
      decide (slot.site.tag = .megamorphic ∧ slot.installs = 1 ∧ 0 < w.runtimes.size)
  | .error _ => none

/-- With one install allowed the slot has given up in the end, and no turn brings it back. -/
theorem slots_and_statistics_balance_polymorphic : ∃ replies w slot,
    (Script.performSteps 8 Script.polymorphic).run (initial ⟨true, 1⟩) = .ok (replies, w)
      ∧ w.slot? ⟨0⟩ 0 = some slot ∧ slot.site.tag = .megamorphic ∧ slot.installs = 1
      ∧ (∀ w', Turns w w' → w'.slot? ⟨0⟩ 0 = some slot)
      ∧ (w.runtime 0).stats.megamorphicTransitions
        = (w.books.slotsOf 0).countP (·.site.tag = .megamorphic) := by
  have hcheck : polymorphicGivesUp = some true := by decide +kernel
  unfold polymorphicGivesUp at hcheck
  rcases hrun : (Script.performSteps 8 Script.polymorphic).run (initial ⟨true, 1⟩) with
    stop | ⟨replies, w⟩ <;> rw [hrun] at hcheck
  · cases hcheck
  · obtain ⟨slot, hs, hslot⟩ := Option.map_eq_some_iff.mp hcheck
    obtain ⟨hm, hone, hrt⟩ := of_decide_eq_true hslot
    obtain ⟨-, hslots, hstats⟩ := slots_and_statistics_balance (visited_of_session hrun)
    exact ⟨replies, w, slot, rfl, hs, hm, hone, (hslots _ _ _ hs).2.1 hm, (hstats 0 hrt).2.1⟩

end CachedDispatch
