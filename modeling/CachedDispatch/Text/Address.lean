/-!
Addresses inside text. An object shows as its class name, an `@` and its address; reports replace
eight or more hexadecimal digits behind an `@` by a fixed word.
-/
namespace CachedDispatch.Text

/-- A digit of a written address. -/
def isAddressDigit (c : Char) : Bool := c.isDigit || ('a' ≤ c && c ≤ 'f')

/-- Masks addresses in a text of which the first `skip` characters are already dealt with. -/
def maskFrom : Nat → List Char → List Char
  | _, [] => []
  | skip + 1, _ :: cs => maskFrom skip cs
  | 0, c :: cs =>
    if c = '@' then
      let digits := (cs.takeWhile isAddressDigit).length
      if 8 ≤ digits then "@ADDR".toList ++ maskFrom digits cs else c :: maskFrom 0 cs
    else c :: maskFrom 0 cs

def maskAddresses (s : String) : String := String.ofList (maskFrom 0 s.toList)

/-- An address as it is written. -/
def address (a : UInt64) : String := String.ofList (Nat.toDigits 16 a.toNat)

end CachedDispatch.Text
