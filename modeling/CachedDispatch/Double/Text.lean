import CachedDispatch.Decimal.Shortest
import CachedDispatch.Double

/-!
The text of a number: the shortest digits that read back, positional with at least one digit after
the point from `1e-4` up to below `1e16`, and with an exponent outside that range.
-/
namespace CachedDispatch.Double

/-- The value of a finite nonzero number, without its sign. -/
def magnitude (x : Double) : BinaryNumber :=
  let frac := (x.bits &&& 0xfffffffffffff).toNat
  let e := ((x.bits >>> 52) &&& 0x7ff).toNat
  if e = 0 then ⟨frac, -1074, false⟩
  else ⟨frac + 0x10000000000000, (e : Int) - 1075, frac = 0 && e ≠ 1⟩

def isNegative (x : Double) : Bool := x.bits >>> 63 = 1

/-- Where positional notation begins and ends, as the exponent of the first digit. -/
def positionalRange : Int × Int := (-4, 15)

/-- `digits` with a point after the first `point` of them, padded with zeros where there are none. -/
def positional (digits : List Char) (point : Int) : String :=
  if point ≤ 0 then
    "0." ++ String.ofList (List.replicate (-point).toNat '0' ++ digits)
  else
    let n := point.toNat
    let whole := digits.take n ++ List.replicate (n - digits.length) '0'
    let rest := digits.drop n
    String.ofList whole ++ "." ++ (if rest.isEmpty then "0" else String.ofList rest)

def scientific (digits : List Char) (e : Int) : String :=
  let mantissa := match digits with
    | [] => "0"
    | [d] => String.ofList [d]
    | d :: rest => String.ofList (d :: '.' :: rest)
  mantissa ++ "e" ++ toString e

/-- The text of a finite number of this magnitude. -/
def unsignedText (x : Double) : String :=
  if x.isZero then "0.0"
  else
    let d := x.magnitude.shortest
    let digits := Nat.toDigits 10 d.digits
    let e := (digits.length : Int) - 1 + d.exp
    if positionalRange.1 ≤ e && e ≤ positionalRange.2 then positional digits (e + 1)
    else scientific digits e

def text (x : Double) : String :=
  if x.isNaN then "NaN"
  else
    let sign := if x.isNegative then "-" else ""
    if x.toFloat.isInf then sign ++ "inf" else sign ++ x.unsignedText

end CachedDispatch.Double
