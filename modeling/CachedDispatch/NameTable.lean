import Std.Data.TreeMap

/-!
Distinct names numbered in the order of their first use, with an index that finds the number of a
name.
-/
namespace CachedDispatch

structure NameTable where
  names : Array String := #[]
  index : Std.TreeMap String Nat := ∅
  /-- The index answers what a search from the front would. -/
  index_eq : ∀ s : String, index[s]? = names.toList.findIdx? (· == s) := by simp

namespace NameTable

def empty : NameTable := {}

instance : Inhabited NameTable := ⟨empty⟩

def size (t : NameTable) : Nat := t.names.size

def find? (t : NameTable) (s : String) : Option Nat := t.index[s]?

theorem find?_eq_findIdx? (t : NameTable) (s : String) :
    t.find? s = t.names.toList.findIdx? (· == s) := t.index_eq s

/-- Appends a name that is not in the table yet. -/
def push (t : NameTable) (s : String) (h : t.find? s = none) : NameTable :=
  let n := t.names.size
  { names := t.names.push s
    index := t.index.insert s n
    index_eq u := by
      have hs : t.names.toList.findIdx? (· == s) = none := (t.index_eq s).symm.trans h
      rw [Std.TreeMap.getElem?_insert, t.index_eq u, Array.toList_push, List.findIdx?_append]
      by_cases hu : s = u
      · subst hu
        simp [n, hs, List.findIdx?_cons]
      · simp [hu, List.findIdx?_cons] }

/-- The table with the name in it: appended if it is new. -/
def intern (t : NameTable) (s : String) : NameTable :=
  match h : t.find? s with
  | some _ => t
  | none => t.push s h

end NameTable

end CachedDispatch
