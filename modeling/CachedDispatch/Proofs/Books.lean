import CachedDispatch.Proofs.Inspection
import CachedDispatch.Proofs.Resolution

/-!
The books of a world: the tables with their slots, for each runtime its settings and counters, and the
runtime at work. Lookups leave the books alone but for the counts that they make.
-/
namespace CachedDispatch

structure Account where
  config : Config
  stats : Stats
deriving DecidableEq, Repr, Inhabited

structure Books where
  tables : Array Table
  accounts : Array Account
  /-- The runtime that steps work on. -/
  current : Nat

namespace Books

def account (b : Books) (rt : Nat) : Account := b.accounts.getD rt default

def table (b : Books) (t : TableRef) : Table := b.tables.getD t.idx default

def slot? (b : Books) (t : TableRef) (i : Nat) : Option Slot := (b.table t).slots[i]?

def count (b : Books) (rt : Nat) (f : Stats → Stats) : Books :=
  { b with accounts := b.accounts.modify rt fun a => { a with stats := f a.stats } }

def write (b : Books) (t : TableRef) (i : Nat) (f : Slot → Slot) : Books :=
  { b with tables := b.tables.modify t.idx fun table => { table with slots := table.slots.modify i f } }

theorem account_count (b : Books) (rt rt' : Nat) (f : Stats → Stats) :
    (b.count rt f).account rt'
      = if rt = rt' ∧ rt' < b.accounts.size then ⟨(b.account rt').config, f (b.account rt').stats⟩
        else b.account rt' := getD_modify ..

theorem count_count (b : Books) (rt : Nat) (f g : Stats → Stats) :
    (b.count rt f).count rt g = b.count rt fun s => g (f s) := by
  unfold count
  congr 1
  refine Array.ext_getElem? fun i => ?_
  simp only [Array.getElem?_modify]
  split
  · cases b.accounts[i]? <;> rfl
  · rfl

theorem count_id (b : Books) (rt : Nat) : b.count rt id = b := by
  have haccounts : (b.accounts.modify rt fun a => { a with stats := id a.stats }) = b.accounts :=
    Array.ext_getElem? fun i => by
      rw [Array.getElem?_modify]
      split
      · cases b.accounts[i]? <;> rfl
      · rfl
  rw [count, haccounts]

theorem write_id (b : Books) (t : TableRef) (i : Nat) : b.write t i id = b := by
  have hslots (slots : Array Slot) : slots.modify i id = slots :=
    Array.ext_getElem? fun j => by simp [Array.getElem?_modify]
  have htables : (b.tables.modify t.idx fun table => { table with slots := table.slots.modify i id })
      = b.tables :=
    Array.ext_getElem? fun n => by
      simp only [Array.getElem?_modify, hslots]
      split
      · cases b.tables[n]? <;> rfl
      · rfl
  rw [write, htables]

theorem write_count (b : Books) (rt : Nat) (f : Stats → Stats) (t : TableRef) (i : Nat)
    (g : Slot → Slot) : (b.count rt f).write t i g = (b.write t i g).count rt f := rfl

@[simp] theorem config_count (b : Books) (rt rt' : Nat) (f : Stats → Stats) :
    ((b.count rt f).account rt').config = (b.account rt').config := by
  rw [account_count]; split <;> rfl

@[simp] theorem tables_count (b : Books) (rt : Nat) (f : Stats → Stats) :
    (b.count rt f).tables = b.tables := rfl

@[simp] theorem table_count (b : Books) (rt : Nat) (f : Stats → Stats) (t : TableRef) :
    (b.count rt f).table t = b.table t := rfl

@[simp] theorem account_write (b : Books) (t : TableRef) (i : Nat) (f : Slot → Slot) (rt : Nat) :
    (b.write t i f).account rt = b.account rt := rfl

end Books

namespace World

def books (w : World) : Books :=
  ⟨w.tables, w.runtimes.map fun r => ⟨r.config, r.stats⟩, w.scope.runtime⟩

theorem account_books (w : World) (rt : Nat) :
    w.books.account rt = ⟨(w.runtime rt).config, (w.runtime rt).stats⟩ := by
  unfold Books.account books runtime
  rw [Array.getD_eq_getD_getElem?, Array.getD_eq_getD_getElem?, Array.getElem?_map]
  cases w.runtimes[rt]? <;> rfl

theorem books_updateStats (w : World) (rt : Nat) (f : Stats → Stats) :
    (w.updateStats rt f).books = w.books.count rt f := by
  unfold books Books.count updateStats
  congr 1
  refine Array.ext_getElem? fun i => ?_
  simp only [Array.getElem?_map, Array.getElem?_modify]
  split
  · cases w.runtimes[i]? <;> rfl
  · rfl

@[simp] theorem books_updateRegistry (w : World) (rt : Nat) (f : Registry → Registry) :
    (w.updateRegistry rt f).books = w.books := by
  unfold books updateRegistry
  congr 1
  refine Array.ext_getElem? fun i => ?_
  simp only [Array.getElem?_map, Array.getElem?_modify]
  split
  · cases w.runtimes[i]? <;> rfl
  · rfl

@[simp] theorem books_updateClass (w : World) (r : ClassRef) (f : Class → Class) :
    (w.updateClass r f).books = w.books := rfl

@[simp] theorem books_enterBuiltin (w : World) (rt : Nat) (b : BuiltinType) (rs : List ClassRef) :
    (w.enterBuiltin rt b rs).2.books = w.books :=
  books_updateRegistry (w.updateClass _ _) rt _

@[simp] theorem books_rootClass (w : World) (rt : Nat) (b : BuiltinType) :
    (w.rootClass rt b).2.books = w.books := by
  unfold rootClass; split <;> simp

@[simp] theorem books_findClass (w : World) (rt : Nat) (t : TypeId) :
    (w.findClass rt t).2.books = w.books := by
  generalize hfound : w.findClass rt t = found
  cases found_of_findClass hfound with
  | entered | undefined => rfl
  | spare | root => simp
  | below => simp [enterBelow]

@[simp] theorem books_register (w : World) (rt : Nat) (r : ClassRef) :
    (w.register rt r).books = w.books := w.books_updateRegistry rt _

@[simp] theorem books_replaceClass (w : World) (rt : Nat) (r : ClassRef) :
    (w.replaceClass rt r).2.books = w.books := by
  simp only [replaceClass]
  split
  · exact w.books_register rt r
  · exact w.books_register rt r

@[simp] theorem books_beginClass (w : World) (rt : Nat) (name : String) (isHost : Bool) :
    (w.beginClass rt name isHost).2.books = w.books := by
  simp only [beginClass, books_updateRegistry, books_rootClass]

@[simp] theorem books_buildClass (w : World) (d : Draft) (parent : Option ClassRef)
    (members : ClassMembers) : (w.buildClass d parent members).2.books = w.books := by
  have hadd (w : World) (c : Class) : (w.addClass c).2.books = w.books := rfl
  simp only [buildClass, books_register, hadd]

@[simp] theorem books_defineClass (w : World) (rt : Nat) (parent : Option ClassRef)
    (members : ClassMembers) : (w.defineClass rt parent members).2.2.books = w.books := by
  simp only [defineClass, books_buildClass, books_beginClass]

end World

namespace World

/-- Lookups leave the books alone but for the counts that they make. -/
theorem allowsLookups_books (rt : Nat) :
    AllowsLookups rt fun w w' : World => w'.books = w.books where
  refl _ := rfl
  trans h₁ h₂ := h₂.trans h₁
  findClass w t := w.books_findClass rt t
  allocate _ := rfl

end World

/-- Every resolution is counted. -/
theorem books_resolve (c : Site.Context) (request : Request) (w : World) :
    ((resolve c request).run w).2.books = w.books.count c.runtime Stats.resolved :=
  (makes_resolve (World.allowsLookups_books c.runtime).toAllowsSearch request w).trans
    (w.books_updateStats ..)

/-- A full lookup is counted, unless it is for a call on null. -/
theorem books_planFully (c : Site.Context) (request : Request) (w : World) :
    ((planFully c request).run w).2.books
      = match request with
        | .call _ .null _ => w.books
        | _ => w.books.count c.runtime Stats.slow := by
  refine (makes_planFully (World.allowsLookups_books c.runtime) request w).trans ?_
  cases request with
  | call current receiver args =>
    cases receiver with
    | null => rfl
    | _ => exact w.books_updateStats ..
  | _ => exact w.books_updateStats ..

end CachedDispatch
