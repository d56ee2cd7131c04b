import CachedDispatch.Proofs.Course
import Mathlib.Algebra.BigOperators.Group.List.Basic
import Mathlib.Algebra.GroupWithZero.Nat

/-!
The life of slots and the statistics about them. Whatever happens to a world happens in turns, of which
only a few change the books; each of them leaves every slot sound and every account balanced, and keeps
what tables were made with.
-/
namespace CachedDispatch

/-- How far a slot has come, where `threshold` installs are the most. -/
structure Slot.Sound (threshold : Nat) (s : Slot) : Prop where
  installs_le : s.installs ≤ threshold
  generic : s.site.tag = .generic → s.installs = 0
  specialized : s.site.tag.isSpecialized = true → 1 ≤ s.installs
  megamorphic : s.site.tag = .megamorphic → s.installs = threshold
  ne_null : s.site.tag ≠ .null

/-- The account tells what has happened to the slots. -/
structure Account.Balanced (a : Account) (slots : List Slot) : Prop where
  sound : ∀ s ∈ slots, s.Sound a.config.threshold
  installs : a.stats.installs = (slots.map (·.installs)).sum
  megamorphic : a.stats.megamorphicTransitions = slots.countP (·.site.tag = .megamorphic)
  installs_le : a.stats.installs ≤ a.stats.resolutions
  resolutions_le : a.stats.resolutions ≤ a.stats.installs + a.stats.slowPathCalls
  uncached : a.config.cacheEnabled = false →
    a.stats.resolutions = 0 ∧ ∀ s ∈ slots, s.site.tag = .generic

namespace Account.Balanced

variable {a : Account} {slots before after : List Slot} {slot : Slot}

private theorem new (config : Config) : (⟨config, {}⟩ : Account).Balanced [] where
  sound _ hs := absurd hs List.not_mem_nil
  installs := rfl
  megamorphic := rfl
  installs_le := Nat.le_refl 0
  resolutions_le := Nat.le_refl 0
  uncached _ := ⟨rfl, fun _ hs => absurd hs List.not_mem_nil⟩

/-- Slots that have not been used yet count for nothing. -/
private theorem append (h : a.Balanced slots) {fresh : List Slot}
    (hf : ∀ s ∈ fresh, s.site = .generic ∧ s.installs = 0) : a.Balanced (slots ++ fresh) where
  sound s hs := by
    rcases List.mem_append.mp hs with hs | hs
    · exact h.sound s hs
    · obtain ⟨hsite, hzero⟩ := hf s hs
      constructor <;> simp [hsite, hzero, Site.tag, SiteTag.isSpecialized]
  installs := by
    have hsum : (fresh.map (·.installs)).sum = 0 :=
      List.sum_eq_zero fun n hn => by
        obtain ⟨s, hs, rfl⟩ := List.mem_map.mp hn
        exact (hf s hs).2
    rw [List.map_append, List.sum_append, hsum, Nat.add_zero, h.installs]
  megamorphic := by
    have hcount : fresh.countP (·.site.tag = .megamorphic) = 0 :=
      List.countP_eq_zero.mpr fun s hs => by simp [(hf s hs).1, Site.tag]
    rw [List.countP_append, hcount, Nat.add_zero, h.megamorphic]
  installs_le := h.installs_le
  resolutions_le := h.resolutions_le
  uncached hoff := by
    obtain ⟨hzero, hgeneric⟩ := h.uncached hoff
    refine ⟨hzero, fun s hs => ?_⟩
    rcases List.mem_append.mp hs with hs | hs
    · exact hgeneric s hs
    · rw [(hf s hs).1]; rfl

private theorem slow (h : a.Balanced slots) : (⟨a.config, a.stats.slow⟩ : Account).Balanced slots :=
  ⟨h.sound, h.installs, h.megamorphic, h.installs_le, Nat.le_succ_of_le h.resolutions_le, h.uncached⟩

private theorem missed (h : a.Balanced slots) (hon : a.config.cacheEnabled = true) :
    (⟨a.config, a.stats.resolved.slow⟩ : Account).Balanced slots where
  sound := h.sound
  installs := h.installs
  megamorphic := h.megamorphic
  installs_le := Nat.le_succ_of_le h.installs_le
  resolutions_le := Nat.succ_le_succ h.resolutions_le
  uncached hoff := absurd (hon.symm.trans hoff) nofun

/-- One slot among the others changes. -/
private theorem sound_replace {new : Slot} {threshold : Nat}
    (h : ∀ s ∈ before ++ slot :: after, s.Sound threshold) (hnew : new.Sound threshold) :
    ∀ s ∈ before ++ new :: after, s.Sound threshold := by
  intro s hs
  rcases List.mem_append.mp hs with hs | hs
  · exact h s (List.mem_append_left _ hs)
  · rcases List.mem_cons.mp hs with rfl | hs
    · exact hnew
    · exact h s (List.mem_append_right _ (List.mem_cons_of_mem _ hs))

private theorem givenUp (h : a.Balanced (before ++ slot :: after)) (hon : a.config.cacheEnabled = true)
    (hm : slot.site.tag ≠ .megamorphic) (hT : a.config.threshold ≤ slot.installs) :
    (⟨a.config, a.stats.givenUp.slow⟩ : Account).Balanced
      (before ++ { slot with site := .megamorphic } :: after) where
  sound := by
    have hslot := h.sound slot (List.mem_append_right _ List.mem_cons_self)
    refine sound_replace h.sound ⟨hslot.installs_le, nofun, nofun, fun _ => ?_, nofun⟩
    exact Nat.le_antisymm hslot.installs_le hT
  installs := by
    have hsum := h.installs
    simp only [List.map_append, List.map_cons] at hsum ⊢
    exact hsum
  megamorphic := by
    have hcount := h.megamorphic
    rw [List.countP_append, List.countP_cons_of_neg (by simpa using hm)] at hcount
    rw [List.countP_append, List.countP_cons_of_pos rfl, ← Nat.add_assoc, ← hcount]
    rfl
  installs_le := h.installs_le
  resolutions_le := Nat.le_succ_of_le h.resolutions_le
  uncached hoff := absurd (hon.symm.trans hoff) nofun

private theorem installed (h : a.Balanced (before ++ slot :: after))
    (hon : a.config.cacheEnabled = true) (hm : slot.site.tag ≠ .megamorphic)
    (hT : slot.installs < a.config.threshold) {site : Site} (hsite : site.tag.isSpecialized = true) :
    (⟨a.config, a.stats.resolved.installed⟩ : Account).Balanced
      (before ++ { slot with site, installs := slot.installs + 1 } :: after) where
  sound := by
    have htag (tag : SiteTag) (htag : tag.isSpecialized = false) : site.tag ≠ tag := by
      rintro rfl
      exact absurd (hsite.symm.trans htag) nofun
    refine sound_replace h.sound ⟨hT, fun hg => absurd hg (htag _ rfl), fun _ => ?_,
      fun hg => absurd hg (htag _ rfl), htag _ rfl⟩
    exact Nat.succ_le_succ (Nat.zero_le _)
  installs := by
    have hsum := h.installs
    simp only [List.map_append, List.map_cons, List.sum_append, List.sum_cons] at hsum ⊢
    simp only [Stats.installed, Stats.resolved]
    omega
  megamorphic := by
    have hcount := h.megamorphic
    have hnew : site.tag ≠ .megamorphic := by
      intro heq
      rw [heq] at hsite
      cases hsite
    rw [List.countP_append, List.countP_cons_of_neg (by simpa using hm)] at hcount
    rw [List.countP_append, List.countP_cons_of_neg (by simpa using hnew), ← hcount]
    rfl
  installs_le := Nat.succ_le_succ h.installs_le
  resolutions_le := by
    have hle := h.resolutions_le
    simp only [Stats.installed, Stats.resolved]
    omega
  uncached hoff := absurd (hon.symm.trans hoff) nofun

end Account.Balanced

namespace Books

variable {b b' b'' : Books} {t : TableRef} {i : Nat} {slot : Slot}

/-- The slots of all tables of a runtime. -/
def slotsOf (b : Books) (rt : Nat) : List Slot :=
  (b.tables.toList.filter (·.runtime = rt)).flatMap (·.slots.toList)

structure Balanced (b : Books) : Prop where
  runtimes : ∀ table ∈ b.tables.toList, table.runtime < b.accounts.size
  current : b.current < b.accounts.size
  index : ∀ t i s, b.slot? t i = some s → s.header.index = i
  accounts : ∀ rt < b.accounts.size, (b.account rt).Balanced (b.slotsOf rt)

/-- Runtimes keep their settings, tables keep what they were made with, and slots that are megamorphic
stay as they are. -/
structure Kept (b b' : Books) : Prop where
  size_le : b.accounts.size ≤ b'.accounts.size
  config : ∀ rt < b.accounts.size, (b'.account rt).config = (b.account rt).config
  table : ∀ t : TableRef, t.idx < b.tables.size → t.idx < b'.tables.size
    ∧ (b'.table t).runtime = (b.table t).runtime
    ∧ (b'.table t).slots.size = (b.table t).slots.size
  slot : ∀ t i s, b.slot? t i = some s → ∃ s', b'.slot? t i = some s'
    ∧ s'.header = s.header ∧ s'.kind = s.kind ∧ (s.site.tag = .megamorphic → s' = s)

private theorem Kept.of_eq (ht : b'.tables = b.tables) (ha : b'.accounts = b.accounts) : b.Kept b' := by
  obtain ⟨tables, accounts, current⟩ := b
  subst ht ha
  exact ⟨Nat.le_refl _, fun _ _ => rfl, fun _ hlt => ⟨hlt, rfl, rfl⟩,
    fun _ _ s hs => ⟨s, hs, rfl, rfl, fun _ => rfl⟩⟩

private theorem Kept.refl (b : Books) : b.Kept b := .of_eq rfl rfl

private theorem Kept.trans (h : b.Kept b') (h' : b'.Kept b'') : b.Kept b'' where
  size_le := Nat.le_trans h.size_le h'.size_le
  config rt hrt := (h'.config rt (Nat.lt_of_lt_of_le hrt h.size_le)).trans (h.config rt hrt)
  table t ht := by
    obtain ⟨hlt, hrt, hsize⟩ := h.table t ht
    obtain ⟨hlt', hrt', hsize'⟩ := h'.table t hlt
    exact ⟨hlt', hrt'.trans hrt, hsize'.trans hsize⟩
  slot t i s hs := by
    obtain ⟨s', hs', hheader, hkind, hm⟩ := h.slot t i s hs
    obtain ⟨s'', hs'', hheader', hkind', hm'⟩ := h'.slot t i s' hs'
    refine ⟨s'', hs'', hheader'.trans hheader, hkind'.trans hkind, fun htag => ?_⟩
    obtain rfl := hm htag
    exact hm' htag

theorem lt_of_slot (hs : b.slot? t i = some slot) : t.idx < b.tables.size := by
  by_contra hout
  have hslots : (default : Table).slots = #[] := rfl
  simp [slot?, table, Array.getD, hout, hslots] at hs

private theorem table_write (b : Books) (t u : TableRef) (i : Nat) (f : Slot → Slot) :
    (b.write t i f).table u
      = if t = u ∧ u.idx < b.tables.size then { b.table u with slots := (b.table u).slots.modify i f }
        else b.table u := World.table_updateSlot { tables := b.tables } t u i f

private theorem slot?_write_self (hs : b.slot? t i = some slot) (f : Slot → Slot) :
    (b.write t i f).slot? t i = some (f slot) :=
  World.slot?_updateSlot_self (w := { tables := b.tables }) hs f

private theorem slot?_write_of_ne (b : Books) {u : TableRef} {j : Nat} (h : ¬ (t = u ∧ i = j))
    (f : Slot → Slot) : (b.write t i f).slot? u j = b.slot? u j :=
  World.slot?_updateSlot_of_ne { tables := b.tables } h f

private theorem exists_split_modify {α : Type} {xs : List α} {n : Nat} {x : α} (h : xs[n]? = some x) :
    ∃ before after, xs = before ++ x :: after ∧ ∀ f, xs.modify n f = before ++ f x :: after := by
  induction xs generalizing n with
  | nil => cases h
  | cons y xs ih =>
    cases n with
    | zero =>
      cases h
      exact ⟨[], xs, rfl, fun f => rfl⟩
    | succ n =>
      obtain ⟨before, after, rfl, hmodify⟩ := ih h
      refine ⟨y :: before, after, rfl, fun f => ?_⟩
      rw [List.modify_succ_cons, hmodify, List.cons_append]

/-- A write changes one slot in the list for its runtime, and no other list. -/
theorem slotsOf_write (hs : b.slot? t i = some slot) :
    (∃ before after, b.slotsOf (b.table t).runtime = before ++ slot :: after
      ∧ ∀ f, (b.write t i f).slotsOf (b.table t).runtime = before ++ f slot :: after)
    ∧ ∀ rt, rt ≠ (b.table t).runtime → ∀ f, (b.write t i f).slotsOf rt = b.slotsOf rt := by
  have htable : b.tables.toList[t.idx]? = some (b.table t) := by
    rw [Array.getElem?_toList, table, Array.getD_eq_getD_getElem?,
      Array.getElem?_eq_getElem (lt_of_slot hs)]
    rfl
  obtain ⟨before, after, hsplit, hmodify⟩ := exists_split_modify htable
  have hslot : (b.table t).slots.toList[i]? = some slot := by
    rw [Array.getElem?_toList]
    exact hs
  obtain ⟨before', after', hsplit', hmodify'⟩ := exists_split_modify hslot
  have hwrite (f : Slot → Slot) : (b.write t i f).tables.toList
      = before ++ { b.table t with slots := (b.table t).slots.modify i f } :: after := by
    rw [write, Array.toList_modify]
    exact hmodify _
  refine ⟨⟨(before.filter (·.runtime = (b.table t).runtime)).flatMap (·.slots.toList) ++ before',
    after' ++ (after.filter (·.runtime = (b.table t).runtime)).flatMap (·.slots.toList), ?_, ?_⟩, ?_⟩
  · rw [slotsOf, hsplit, List.filter_append, List.filter_cons_of_pos (by simp), List.flatMap_append,
      List.flatMap_cons, hsplit']
    simp only [List.append_assoc, List.cons_append]
  · intro f
    rw [slotsOf, hwrite, List.filter_append, List.filter_cons_of_pos (by simp), List.flatMap_append,
      List.flatMap_cons, Array.toList_modify, hmodify']
    simp only [List.append_assoc, List.cons_append]
  · intro rt hrt f
    rw [slotsOf, hwrite, slotsOf, hsplit, List.filter_append, List.filter_append,
      List.filter_cons_of_neg (by simpa using hrt.symm), List.filter_cons_of_neg (by simpa using hrt.symm)]

/-- What is asked of a write and a count, so that the books stay balanced and keep what they must. -/
private structure Admissible (a : Account) (slot : Slot) (f : Slot → Slot) (g : Stats → Stats) :
    Prop where
  header : (f slot).header = slot.header
  kind : (f slot).kind = slot.kind
  megamorphic : slot.site.tag = .megamorphic → f slot = slot
  balanced : ∀ before after, a.Balanced (before ++ slot :: after) →
    (⟨a.config, g a.stats⟩ : Account).Balanced (before ++ f slot :: after)

variable {f : Slot → Slot} {g : Stats → Stats}

private theorem Balanced.post (h : b.Balanced) (hs : b.slot? t i = some slot)
    (ha : Admissible (b.account (b.table t).runtime) slot f g) :
    ((b.write t i f).count (b.table t).runtime g).Balanced := by
  have hsize : ((b.write t i f).count (b.table t).runtime g).accounts.size = b.accounts.size := by
    simp [count, write]
  obtain ⟨⟨before, after, hsplit, hwrite⟩, hothers⟩ := slotsOf_write hs
  constructor
  · intro table hmem
    rw [hsize]
    obtain ⟨n, hn⟩ := List.mem_iff_getElem?.mp hmem
    simp only [tables_count, write, Array.getElem?_toList, Array.getElem?_modify] at hn
    split at hn
    · obtain ⟨old, hold, rfl⟩ := Option.map_eq_some_iff.mp hn
      exact h.runtimes old (Array.mem_toList_iff.mpr (Array.mem_of_getElem? hold))
    · exact h.runtimes table (Array.mem_toList_iff.mpr (Array.mem_of_getElem? hn))
  · rw [hsize]
    exact h.current
  · intro u j s hs'
    have hs' : (b.write t i f).slot? u j = some s := hs'
    by_cases hat : t = u ∧ i = j
    · obtain ⟨rfl, rfl⟩ := hat
      obtain rfl : f slot = s := Option.some.inj ((slot?_write_self hs f).symm.trans hs')
      rw [ha.header]
      exact h.index t i slot hs
    · rw [slot?_write_of_ne b hat] at hs'
      exact h.index u j s hs'
  · intro rt hrt
    rw [hsize] at hrt
    have haccount := h.accounts rt hrt
    rw [account_count]
    by_cases hat : (b.table t).runtime = rt
    · subst hat
      rw [if_pos ⟨rfl, hrt⟩]
      rw [hsplit] at haccount
      have hafter := ha.balanced before after haccount
      rw [← hwrite] at hafter
      exact hafter
    · rw [if_neg fun hand => hat hand.1, account_write]
      rw [← hothers rt (Ne.symm hat) f] at haccount
      exact haccount

private theorem Kept.post (hs : b.slot? t i = some slot)
    (ha : Admissible (b.account (b.table t).runtime) slot f g) :
    b.Kept ((b.write t i f).count (b.table t).runtime g) where
  size_le := by simp [count, write]
  config rt hrt := by rw [config_count, account_write]
  table u hu := by
    rw [tables_count, table_count, table_write]
    refine ⟨by simpa [write] using hu, ?_⟩
    split
    · exact ⟨rfl, by simp⟩
    · exact ⟨rfl, rfl⟩
  slot u j s hs' := by
    by_cases hat : t = u ∧ i = j
    · obtain ⟨rfl, rfl⟩ := hat
      obtain rfl : slot = s := Option.some.inj (hs.symm.trans hs')
      exact ⟨f slot, slot?_write_self hs f, ha.header, ha.kind, ha.megamorphic⟩
    · exact ⟨s, (slot?_write_of_ne b hat f).trans hs', rfl, rfl, fun _ => rfl⟩

end Books

/-- Whatever a slot does to the books is a write and a count that may be made. -/
private theorem Posting.exists_admissible {b b' : Books} {t : TableRef} {i : Nat} {slot : Slot}
    (h : Posting b t i slot b') :
    ∃ f g, b' = (b.write t i f).count (b.table t).runtime g
      ∧ Books.Admissible (b.account (b.table t).runtime) slot f g := by
  cases h with
  | idle =>
    refine ⟨id, id, ?_, rfl, rfl, fun _ => rfl, fun before after hb => hb⟩
    rw [Books.write_id, Books.count_id]
  | slow =>
    refine ⟨id, _, ?_, rfl, rfl, fun _ => rfl, fun before after hb => hb.slow⟩
    rw [Books.write_id]
  | missed hon =>
    refine ⟨id, fun s => s.resolved.slow, ?_, rfl, rfl, fun _ => rfl,
      fun before after hb => hb.missed hon⟩
    rw [Books.write_id]
  | givenUp hon hm hT =>
    exact ⟨_, _, rfl, rfl, rfl, fun htag => absurd htag hm, fun before after hb => hb.givenUp hon hm hT⟩
  | installed hon hm hT hsite =>
    exact ⟨_, _, rfl, rfl, rfl, fun htag => absurd htag hm,
      fun before after hb => hb.installed hon hm hT hsite⟩

namespace World

/-- What a run does to the books, one thing at a time. -/
inductive Turn : World → World → Prop
  /-- Anything that leaves the books alone. -/
  | idle {w w' : World} (h : w'.books = w.books) : Turn w w'
  | switch {w w' : World} {rt : Nat} (hrt : rt < w.runtimes.size)
      (h : w'.books = { w.books with current := rt }) : Turn w w'
  | newRuntime (w : World) (config : Config) : Turn w (w.newRuntime config).2
  | addTable {w : World} {rt : Nat} (hrt : rt < w.runtimes.size) (owner : TypeId)
      (sites : List (String × SiteKind)) : Turn w (w.addTable (.ofSites owner rt sites)).2
  /-- A slot makes its plan for a request. -/
  | plan {w : World} {t : TableRef} {i : Nat} {slot : Slot} (hs : w.slot? t i = some slot)
      (request : Request) : Turn w ((planAt t slot request).run w).2

abbrev Turns : World → World → Prop := Relation.ReflTransGen Turn

/-- The worlds that a run comes through, also in the middle of a method. -/
def Visited (w : World) : Prop := ∃ config embedding, Turns (initial config embedding) w

variable {w w' : World}

private theorem books_newRuntime (w : World) (config : Config) :
    (w.newRuntime config).2.books
      = { w.books with accounts := w.books.accounts.push ⟨config, {}⟩ } := by
  simp [books, newRuntime, Array.map_push]

private theorem balanced_newRuntime (h : w.books.Balanced) (config : Config) :
    (w.newRuntime config).2.books.Balanced ∧ w.books.Kept (w.newRuntime config).2.books := by
  rw [books_newRuntime]
  have haccount (rt : Nat) :
      ({ w.books with accounts := w.books.accounts.push ⟨config, {}⟩ } : Books).account rt
      = if rt = w.books.accounts.size then ⟨config, {}⟩ else w.books.account rt := getD_push ..
  refine ⟨⟨fun table ht => ?_, ?_, h.index, fun rt hrt => ?_⟩, ⟨?_, fun rt hrt => ?_, ?_, ?_⟩⟩
  · exact Nat.lt_of_lt_of_le (h.runtimes table ht) (by simp)
  · exact Nat.lt_of_lt_of_le h.current (by simp)
  · rw [haccount]
    split
    · rename_i hnew
      -- no table is on the runtime yet
      have hnone : Books.slotsOf w.books rt = [] := by
        rw [Books.slotsOf, List.filter_eq_nil_iff.mpr]
        · rfl
        · intro table ht heq
          exact absurd (h.runtimes table ht) (by simp_all)
      exact hnone ▸ Account.Balanced.new config
    · rename_i hold
      exact h.accounts rt (by simp at hrt; omega)
  · simp
  · rw [haccount, if_neg (Nat.ne_of_lt hrt)]
  · exact fun t ht => ⟨ht, rfl, rfl⟩
  · exact fun t i s hs => ⟨s, hs, rfl, rfl, fun _ => rfl⟩

private theorem books_addTable (w : World) (table : Table) :
    (w.addTable table).2.books = { w.books with tables := w.books.tables.push table } := rfl

/-- The slots of a new table, as they were asked for. -/
theorem slots_ofSites (owner : TypeId) (rt : Nat) (sites : List (String × SiteKind)) (i : Nat) :
    (Table.ofSites owner rt sites).slots[i]?
      = sites[i]?.map fun s => { header := ⟨i, s.1⟩, kind := s.2 } := by
  simp only [Table.ofSites, List.getElem?_toArray, List.getElem?_map, List.getElem?_zipIdx,
    Option.map_map, Nat.zero_add]
  rfl

private theorem balanced_addTable (h : w.books.Balanced) {rt : Nat} (hrt : rt < w.runtimes.size)
    (owner : TypeId) (sites : List (String × SiteKind)) :
    (w.addTable (.ofSites owner rt sites)).2.books.Balanced
      ∧ w.books.Kept (w.addTable (.ofSites owner rt sites)).2.books := by
  have htable (u : TableRef) : (w.addTable (.ofSites owner rt sites)).2.books.table u
      = if u.idx = w.books.tables.size then .ofSites owner rt sites else w.books.table u := getD_push ..
  have hold (u : TableRef) (hu : u.idx < w.books.tables.size) :
      (w.addTable (.ofSites owner rt sites)).2.books.table u = w.books.table u := by
    rw [htable, if_neg (Nat.ne_of_lt hu)]
  refine ⟨⟨fun table ht => ?_, h.current, fun t i s hs => ?_, fun rt' hrt' => ?_⟩,
    ⟨Nat.le_refl _, fun rt hrt => rfl, fun t ht => ?_, fun t i s hs => ?_⟩⟩
  · rw [books_addTable, Array.toList_push] at ht
    rcases List.mem_append.mp ht with ht | ht
    · exact h.runtimes table ht
    · rw [List.mem_singleton.mp ht]
      exact Nat.lt_of_lt_of_eq hrt (by simp [books, addTable])
  · rw [Books.slot?, htable] at hs
    split at hs
    · rw [slots_ofSites] at hs
      obtain ⟨site, -, rfl⟩ := Option.map_eq_some_iff.mp hs
      rfl
    · exact h.index t i s hs
  · have hslots : Books.slotsOf (w.addTable (.ofSites owner rt sites)).2.books rt'
        = w.books.slotsOf rt' ++ if rt = rt' then (Table.ofSites owner rt sites).slots.toList else [] := by
      rw [books_addTable, Books.slotsOf, Array.toList_push, List.filter_append, List.flatMap_append]
      congr 1
      by_cases hat : rt = rt' <;> simp [Table.ofSites, hat]
    rw [hslots]
    refine (h.accounts rt' hrt').append fun s hs => ?_
    split at hs
    · obtain ⟨i, hi⟩ := List.mem_iff_getElem?.mp hs
      rw [Array.getElem?_toList, slots_ofSites] at hi
      obtain ⟨site, -, rfl⟩ := Option.map_eq_some_iff.mp hi
      exact ⟨rfl, rfl⟩
    · cases hs
  · exact ⟨by rw [books_addTable]; simp; omega, by rw [hold t ht], by rw [hold t ht]⟩
  · have hslot : (w.addTable (.ofSites owner rt sites)).2.books.slot? t i = some s := by
      rw [Books.slot?, hold t (Books.lt_of_slot hs)]
      exact hs
    exact ⟨s, hslot, rfl, rfl, fun _ => rfl⟩

/-- A turn leaves the books balanced. -/
theorem Turn.balanced (h : Turn w w') (hb : w.books.Balanced) :
    w'.books.Balanced ∧ w.books.Kept w'.books := by
  cases h with
  | idle h =>
    rw [h]
    exact ⟨hb, .refl _⟩
  | @switch _ rt hrt h =>
    rw [h]
    have hrt : rt < w.books.accounts.size := by simpa [books] using hrt
    exact ⟨⟨hb.runtimes, hrt, hb.index, hb.accounts⟩, Books.Kept.of_eq rfl rfl⟩
  | newRuntime config => exact balanced_newRuntime hb config
  | addTable hrt owner sites => exact balanced_addTable hb hrt owner sites
  | plan hs request =>
    have hi := hb.index _ _ _ hs
    obtain ⟨f, g, heq, ha⟩ := (course_planAt hs hi request).posting.exists_admissible
    rw [heq]
    exact ⟨hb.post hs ha, .post hs ha⟩

theorem Turns.balanced (h : Turns w w') (hb : w.books.Balanced) :
    w'.books.Balanced ∧ w.books.Kept w'.books := by
  induction h with
  | refl => exact ⟨hb, .refl _⟩
  | tail _ hturn ih =>
    obtain ⟨hb', hk⟩ := hturn.balanced ih.1
    exact ⟨hb', ih.2.trans hk⟩

private theorem balanced_initial (config : Config) (embedding : Embedding) :
    (initial config embedding).books.Balanced := by
  have hbooks : (initial config embedding).books = ⟨#[], #[⟨config, {}⟩], 0⟩ := by
    rw [initial, books_newRuntime]
    simp [books]
  rw [hbooks]
  refine ⟨fun table ht => absurd ht List.not_mem_nil, Nat.zero_lt_one, fun t i s hs => ?_,
    fun rt hrt => ?_⟩
  · cases Books.lt_of_slot hs
  · obtain rfl : rt = 0 := Nat.lt_one_iff.mp hrt
    exact .new config

theorem Visited.balanced (h : w.Visited) : w.books.Balanced := by
  obtain ⟨config, embedding, ht⟩ := h
  exact (ht.balanced (balanced_initial config embedding)).1

end World

end CachedDispatch
