import CachedDispatch.Value
import Std.Data.TreeMap

/-!
The constants of a unit in the order of their first use. Equal numbers and texts share a constant, and
tables find the place of each of them.
-/
namespace CachedDispatch.Lang

inductive Const
  | bool (b : Bool)
  | int (n : Int64)
  | float (x : Double)
  | text (s : String)
deriving DecidableEq, Repr, Inhabited

namespace Const

def toValue : Const → Value
  | bool b => .bool b
  | int n => .int n
  | float x => .float x
  | text s => .text s

/-- Every boolean literal has a constant of its own. -/
def isShared : Const → Bool
  | bool _ => false
  | _ => true

end Const

/-- The places of the constants that can be shared. Floats are told apart by their bits. -/
structure ConstantIndex where
  ints : Std.TreeMap Int64 Nat := ∅
  floats : Std.TreeMap UInt64 Nat := ∅
  texts : Std.TreeMap String Nat := ∅

namespace ConstantIndex

def find? (t : ConstantIndex) : Const → Option Nat
  | .bool _ => none
  | .int n => t.ints[n]?
  | .float x => t.floats[x.bits]?
  | .text s => t.texts[s]?

def insert (t : ConstantIndex) (c : Const) (i : Nat) : ConstantIndex :=
  match c with
  | .bool _ => t
  | .int n => { t with ints := t.ints.insert n i }
  | .float x => { t with floats := t.floats.insert x.bits i }
  | .text s => { t with texts := t.texts.insert s i }

theorem find?_insert (t : ConstantIndex) (c d : Const) (i : Nat) :
    (t.insert c i).find? d = if c.isShared = true ∧ c = d then some i else t.find? d := by
  have hbits (x y : Double) : x.bits = y.bits ↔ x = y := by
    cases x
    cases y
    simp
  cases c with
  | bool b => rfl
  | int n => cases d <;> simp [insert, find?, Const.isShared, Std.TreeMap.getElem?_insert]
  | float x => cases d <;> simp [insert, find?, Const.isShared, Std.TreeMap.getElem?_insert, hbits]
  | text s => cases d <;> simp [insert, find?, Const.isShared, Std.TreeMap.getElem?_insert]

end ConstantIndex

structure ConstantPool where
  constants : Array Const := #[]
  index : ConstantIndex := {}
  /-- The tables answer what a search from the front would. -/
  index_eq : ∀ c : Const, index.find? c
    = if c.isShared then constants.toList.findIdx? (· = c) else none := by
      intro c
      cases c <;> simp [ConstantIndex.find?]

namespace ConstantPool

def empty : ConstantPool := {}

instance : Inhabited ConstantPool := ⟨empty⟩

def size (p : ConstantPool) : Nat := p.constants.size

/-- The place of a constant that can be shared. -/
def find? (p : ConstantPool) (c : Const) : Option Nat := p.index.find? c

theorem find?_eq (p : ConstantPool) (c : Const) :
    p.find? c = if c.isShared then p.constants.toList.findIdx? (· = c) else none := p.index_eq c

/-- Appends a constant that has no place to share. -/
def push (p : ConstantPool) (c : Const) (h : p.find? c = none) : ConstantPool where
  constants := p.constants.push c
  index := p.index.insert c p.constants.size
  index_eq d := by
    rw [ConstantIndex.find?_insert, p.index_eq d, Array.toList_push, List.findIdx?_append]
    by_cases hd : c.isShared = true ∧ c = d
    · obtain ⟨hshared, rfl⟩ := hd
      have hnone : p.constants.toList.findIdx? (· = c) = none := by
        rw [find?_eq, if_pos hshared] at h
        exact h
      simp [hshared, hnone, List.findIdx?_cons]
    · rw [if_neg hd]
      by_cases hshared : d.isShared = true
      · have hne : c ≠ d := fun heq => hd ⟨heq ▸ hshared, heq⟩
        simp [hshared, hne, List.findIdx?_cons]
      · simp [hshared]

end ConstantPool

end CachedDispatch.Lang
