import CachedDispatch.Proofs.Preparation
import CachedDispatch.Proofs.Roots

/-!
Tiers of preparation. A tier is chosen for one argument list and serves every later one of its shape:
nothing that it leaves out would have changed the arguments.
-/
namespace CachedDispatch

namespace World

variable {w w' : World}

/-- Objects below the float type do not have the type of integers, as long as the identities last. -/
theorem Attained.type_ne_int_of_float (h : w.Attained) (ha : w.Ample) {o : ObjectRef}
    (hf : .float ∈ w.lineage o) : (w.lineage o).headD .object ≠ .int := by
  intro hid
  have hb : (w.cls (w.classOfObject o)).id = .int := hid
  rcases h.lineage_of_builtin ha (by rw [hb]; rfl) hf with heq | heq
  · rw [hb] at heq
    cases heq
  · cases heq

/-- Arguments of the shape that a tier was chosen for come to the code unwrapped and coerced, as in a
plan that is made without a cache, whatever has happened to the world since. No registry must have run
out of identities when the tier was chosen. -/
theorem prepared_as_uncached (hw : w.Attained) (ha : w.Ample) (m : Method) {args args' : List Value}
    (h : Shape.of w.lineage args = Shape.of w'.lineage args') :
    prepare m args' (selectTier w.lineage m args) = coerceArgs m.params (unwrapArgs args')
      ∧ ∀ cls receiver, (Target.make w cls m args).invoke w' receiver args'
        = .invokeWith m (receiverFor (w'.cls cls).id m receiver) args' := by
  have hfits : (selectTier w.lineage m args).Fits m (Shape.of w'.lineage args') :=
    h ▸ selectTier_fits m fun o _ hf => hw.type_ne_int_of_float ha hf
  have hprepare := prepare_of_fits hfits
  exact ⟨hprepare, fun cls receiver => congrArg (Plan.invoke m _) hprepare⟩

/-- A class below the float type, and two objects of it. -/
def priced : World :=
  let entered := (initial {}).findClass 0 .float
  let defined := entered.2.defineClass 0 entered.1 { name := "Price" }
  ((defined.2.2.newObject defined.2.1).2.newObject defined.2.1).2

theorem attained_priced : priced.Attained :=
  have h : (initial {}).Attained := ⟨{}, {}, .refl⟩
  (((h.deed (.findClass _ 0 .float)).deed (.defineClass _ 0 _ _)).deed (.newObject _ _)).deed
    (.newObject _ _)

def discount : Method where
  name := "discount"
  params := [.exact .float, .exact .float, .any]
  code := .script (.seq [])

/-- An object below the float type is passed on as it is, and the integer beside it still becomes a
float. -/
theorem prepared_as_uncached_priced :
    priced.Attained ∧ priced.Ample
      ∧ .float ∈ priced.lineage ⟨1⟩
      ∧ selectTier priced.lineage discount [.object ⟨0⟩, .int 3, .text "a"] = .noUnwrap
      ∧ prepare discount [.object ⟨1⟩, .int 7, .text "b"]
          (selectTier priced.lineage discount [.object ⟨0⟩, .int 3, .text "a"])
        = [.object ⟨1⟩, .float (.ofInt 7), .text "b"] :=
  have hshape : Shape.of priced.lineage [.object ⟨0⟩, .int 3, .text "a"]
      = Shape.of priced.lineage [.object ⟨1⟩, .int 7, .text "b"] := by decide +kernel
  have hample : priced.Ample := by decide +kernel
  ⟨attained_priced, hample, by decide +kernel, by decide +kernel,
    (prepared_as_uncached attained_priced hample discount hshape).1⟩

end World

end CachedDispatch
