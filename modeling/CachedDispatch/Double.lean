/-!
IEEE 754 numbers of 64 bits, kept as their bits: two constants are the same constant exactly when
their bits are, while the language itself compares them as numbers.
-/
namespace CachedDispatch

structure Double where
  bits : UInt64
deriving DecidableEq, Hashable, Repr, Inhabited

namespace Double

def toFloat (x : Double) : Float := Float.ofBits x.bits

def ofFloat (x : Float) : Double := ⟨x.toBits⟩

/-- The nearest number, ties to even. -/
def ofInt (n : Int64) : Double := ofFloat n.toFloat

def add (x y : Double) : Double := ofFloat (x.toFloat + y.toFloat)
def sub (x y : Double) : Double := ofFloat (x.toFloat - y.toFloat)
def mul (x y : Double) : Double := ofFloat (x.toFloat * y.toFloat)
def div (x y : Double) : Double := ofFloat (x.toFloat / y.toFloat)
def neg (x : Double) : Double := ofFloat (-x.toFloat)

def isNaN (x : Double) : Bool := x.toFloat.isNaN

/-- Equality of numbers: the two zeros are equal, and nothing equals a NaN. -/
def numEq (x y : Double) : Bool := x.toFloat == y.toFloat

/-- `none` when a NaN is involved. -/
def cmp? (x y : Double) : Option Ordering :=
  if x.toFloat < y.toFloat then some .lt
  else if y.toFloat < x.toFloat then some .gt
  else if x.numEq y then some .eq
  else none

def isZero (x : Double) : Bool := x.toFloat == 0.0

end Double

end CachedDispatch
