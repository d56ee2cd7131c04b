import CachedDispatch.Dispatch
import CachedDispatch.Proofs.Store
import Mathlib.Logic.Relation

/-!
The moves that a world can make. Every operation on a world is one of them or made of them, so what
one move keeps, whole runs keep.
-/
namespace CachedDispatch

namespace World

/-- The class at this place is there, and its ancestors are known for good: only the two roots have
none. -/
structure Placed (w : World) (r : ClassRef) : Prop where
  lt : r.idx < w.classes.size
  settled : r.idx < 2 ∨ (w.cls r).ancestors ≠ []

/-- The class that the registry has for a type. -/
def StandsFor (w : World) (t : TypeId) (r : ClassRef) : Prop :=
  Assoc.get? (w.registry 0).entries t = some r

/-- The class stands for its type. -/
structure Entered (w : World) (r : ClassRef) : Prop extends Placed w r where
  stands : w.StandsFor (w.cls r).id r

/-- There is one runtime, and its identities have not come round. -/
structure Lone (w : World) : Prop where
  single : w.runtimes.size = 1
  supplied : (w.registry 0).begun ≤ TypeId.supply

/-- What a reference to a class means to callers. With several runtimes nothing is promised. -/
def Has (w : World) (r : ClassRef) : Prop := w.Lone → w.Entered r

/-- A runtime that callers can name. -/
def Hosts (w : World) (rt : Nat) : Prop := w.Lone → rt = 0

inductive Move : World → World → Prop
  | record (w : World) (e : Event) : Move w (w.record e)
  | allocate (w : World) : Move w w.allocate.2
  | count (w : World) (rt : Nat) (f : Stats → Stats) : Move w (w.updateStats rt f)
  | findClass {w : World} {rt : Nat} (h : w.Hosts rt) (t : TypeId) : Move w (w.findClass rt t).2
  | newObject {w : World} {r : ClassRef} (h : w.Has r) : Move w (w.newObject r).2
  | setField (w : World) (o : ObjectRef) (name : String) (v : Value) : Move w (w.setField o name v)
  | mutate {w : World} {r : ClassRef} (h : w.Has r) (mu : Mutation) :
      Move w (w.updateClass r mu.apply)
  | replaceClass {w : World} {rt : Nat} {r : ClassRef} (h : w.Hosts rt) (hr : w.Has r) :
      Move w (w.replaceClass rt r).2
  | defineClass {w : World} {rt : Nat} {parent : Option ClassRef} (h : w.Hosts rt)
      (hp : ∀ p ∈ parent, w.Has p) (members : ClassMembers) :
      Move w (w.defineClass rt parent members).2.2
  | draftClass {w : World} {rt : Nat} (h : w.Hosts rt) (key name : String) (isHost : Bool) :
      Move w (w.draftClass key rt name isHost).2
  | finishClass {w : World} {key : String} {d : Draft} {parent : Option ClassRef}
      (h : Assoc.get? w.drafts key = some d) (hp : ∀ p ∈ parent, w.Has p) (members : ClassMembers) :
      Move w (w.finishClass key d parent members).2
  | newRuntime (w : World) (config : Config) : Move w (w.newRuntime config).2
  | addTable {w : World} {rt : Nat} (h : w.Hosts rt) (owner : TypeId)
      (sites : List (String × SiteKind)) : Move w (w.addTable (.ofSites owner rt sites)).2
  /-- A site is installed in the slot that it was resolved for, by a request asked there. -/
  | install {w₀ w : World} {t : TableRef} {i : Nat} {slot : Slot} {request : Request} {site : Site}
      (hs : w.slot? t i = some slot) (ha : .asked t i request ∈ w.history)
      (hr : (resolve (w.siteContext t slot) request).run w₀ = (some site, w)) :
      Move w (w.updateSlot t i fun s => { s with site, installs := s.installs + 1 })
  | giveUp (w : World) (t : TableRef) (i : Nat) :
      Move w (w.updateSlot t i fun s => { s with site := .megamorphic })
  | activate (w : World) (active : List Category) : Move w { w with active }
  | rescope {w : World} {scope : Scope} (h : w.Hosts scope.runtime)
      (hl : ∀ name r, Assoc.get? scope.labels name = some r → w.Has r) : Move w { w with scope }

abbrev Moves : World → World → Prop := Relation.ReflTransGen Move

/-- The worlds that a run can come to, also in the middle of a dispatch. -/
def Reachable (w : World) : Prop := ∃ config embedding, Moves (initial config embedding) w

theorem Reachable.moves {w w' : World} (h : w.Reachable) (hm : Moves w w') : w'.Reachable := by
  obtain ⟨config, embedding, h⟩ := h
  exact ⟨config, embedding, h.trans hm⟩

end World

end CachedDispatch
