import CachedDispatch.Method
import CachedDispatch.Value.Typing

/-!
Overload ranking. Each parameter costs a distance to its argument; of the candidates to which all
arguments can be passed, the one with the least total wins, and the first of equals.
-/
namespace CachedDispatch

/-- The cost of an integer where a float is expected. -/
def coercionDistance : Nat := 4

/-- The cost of null where a specific type is expected. -/
def nullDistance : Nat := 8

/-- The cost of any argument where every value is welcome. -/
def objectDistance : Nat := 16

/-- Only integers turn into something else: into floats. -/
def coercible (target found : TypeId) : Bool := target = .float && found = .int

/-- Whether a parameter takes every value. -/
def ParamType.isOpen (p : ParamType) : Bool := p = .any || p = .exact .object

/-- The cost of passing `v` as `p`; `none` when it cannot be passed at all. -/
def paramDistance (lin : Lineage) (p : ParamType) (v : Value) : Option Nat :=
  match p with
  | .any => some objectDistance
  | .exact target =>
    if target = .object then some objectDistance
    else if v.effectiveType lin = target then some 0
    else if v.effectiveType lin = .null then some nullDistance
    else
      match v.depthTo? lin target with
      | some depth => some depth
      | none => if coercible target (v.effectiveType lin) then some coercionDistance else none

/-- Whether `v` can be handed to `p` untouched: of the same type or a subtype, null, or anything
for a parameter that takes every value. Wrappers are never handed over. -/
def directlyAssignable (lin : Lineage) (p : ParamType) (v : Value) : Bool :=
  match p, v with
  | _, .wrapper .. => false
  | .any, _ => true
  | .exact target, v =>
    if target = .object then true
    else
      match v with
      | .null => true
      | .object o => (lin o).contains target
      | v => v.typeId lin = target

/-- The total cost of passing `args` to parameters of the same number. Totals are not cut off, so they
stand for those of 32-bit words as long as they are below `2 ^ 32`. -/
def totalDistance (lin : Lineage) : List ParamType → List Value → Option Nat
  | [], [] => some 0
  | p :: ps, v :: vs => do
    let d ← paramDistance lin p v
    let rest ← totalDistance lin ps vs
    pure (d + rest)
  | _, _ => none

def Method.rank? (lin : Lineage) (m : Method) (args : List Value) : Option Nat :=
  totalDistance lin m.params args

/-- The better of a choice made so far and one more candidate. -/
def better (rank : Method → Option Nat) (best : Option (Nat × Method)) (m : Method) :
    Option (Nat × Method) :=
  match rank m, best with
  | none, _ => best
  | some d, none => some (d, m)
  | some d, some (e, n) => if d < e then some (d, m) else some (e, n)

/-- The first candidate of least rank. -/
def pickBy (rank : Method → Option Nat) (candidates : List Method) : Option Method :=
  (candidates.foldl (better rank) none).map Prod.snd

/-- The first candidate of least total distance. -/
def pick (lin : Lineage) (candidates : List Method) (args : List Value) : Option Method :=
  pickBy (·.rank? lin args) candidates

end CachedDispatch
