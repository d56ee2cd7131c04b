/-!
The shortest decimal that rounds to a given binary number. A finite positive number is `m * 2 ^ q`;
the decimals that round to it form an interval around it, whose ends belong to it when `m` is even.
-/
namespace CachedDispatch

/-- A finite positive number `m * 2 ^ q`. `narrow` says that the next number below is only half as
far away as the next one above. -/
structure BinaryNumber where
  m : Nat
  q : Int
  narrow : Bool

/-- The decimal `digits * 10 ^ exp`. -/
structure Decimal where
  digits : Nat
  exp : Int
deriving DecidableEq, Repr

def digitCount (n : Nat) : Nat := (Nat.toDigits 10 n).length

/-- The exponent `e` with `10 ^ e ≤ x < 10 ^ (e + 1)`. -/
def BinaryNumber.magnitude (x : BinaryNumber) : Int :=
  let num := x.m * Nat.pow 2 x.q.toNat
  let den := Nat.pow 2 (-x.q).toNat
  if den ≤ num then (digitCount (num / den) : Int) - 1
  else -(digitCount ((den + num - 1) / num - 1) : Int)

/-- Quarter units of `x` measured on the grid of multiples of `10 ^ u`: a number of `n` quarter
units is `num n / den` grid steps. -/
structure Grid where
  num : Nat → Nat
  den : Nat

def BinaryNumber.grid (x : BinaryNumber) (u : Int) : Grid where
  num n := n * Nat.pow 2 (x.q - 2).toNat * Nat.pow 10 (-u).toNat
  den := Nat.pow 2 (2 - x.q).toNat * Nat.pow 10 u.toNat

/-- Whether the multiple `c` of the grid step rounds to `x`. -/
def BinaryNumber.covers (x : BinaryNumber) (g : Grid) (c : Nat) : Bool :=
  let low := g.num (if x.narrow then 4 * x.m - 1 else 4 * x.m - 2)
  let high := g.num (4 * x.m + 2)
  if x.m % 2 = 0 then low ≤ c * g.den && c * g.den ≤ high
  else low < c * g.den && c * g.den < high

/-- The grid neighbour of `x` that rounds to `x`; of two the nearer, and the upper one when both are
equally near. -/
def BinaryNumber.nearest? (x : BinaryNumber) (u : Int) : Option Nat :=
  let g := x.grid u
  let v := g.num (4 * x.m)
  let f := v / g.den
  match x.covers g f, x.covers g (f + 1) with
  | true, true => if v - f * g.den < (f + 1) * g.den - v then some f else some (f + 1)
  | true, false => some f
  | false, true => some (f + 1)
  | false, false => none

/-- Removes trailing zeros; `fuel` bounds their number. -/
def Decimal.trim : Nat → Decimal → Decimal
  | 0, d => d
  | fuel + 1, d =>
    if d.digits % 10 = 0 && d.digits ≠ 0 then trim fuel ⟨d.digits / 10, d.exp + 1⟩ else d

/-- Tries grids of 1, 2, … digits; 17 digits always suffice. -/
def BinaryNumber.shortest (x : BinaryNumber) : Decimal :=
  let e := x.magnitude
  let hit := (List.range 17).findSome? fun d : Nat =>
    (x.nearest? (e - d)).map fun c => Decimal.mk c (e - d)
  (hit.getD ⟨0, 0⟩).trim 18

end CachedDispatch
