/-!
A 64-bit hash of text and of words. The bytes of a text are folded two words at a time by multiplying
into 128 bits and adding the halves without carry. What is hashed is scrambled by multiplications and a
rotation.
-/
namespace CachedDispatch.Text

/-- The product of two words folded back into one. -/
def foldedProduct (x y : UInt64) : UInt64 :=
  let p := x.toNat * y.toNat
  p.toUInt64 ^^^ (p >>> 64).toUInt64

/-- A word from bytes, lowest first. -/
def littleEndian (bytes : List UInt8) : UInt64 :=
  bytes.foldr (fun b acc => (acc <<< 8) ||| b.toUInt64) 0

/-- Folds the first `count` blocks of sixteen bytes. -/
def foldBlocks : Nat → List UInt8 → UInt64 × UInt64 → UInt64 × UInt64
  | 0, _, s => s
  | count + 1, bytes, (s0, s1) =>
    let t := foldedProduct (s0 ^^^ littleEndian (bytes.take 8))
      (0xa4093822299f31d0 ^^^ littleEndian ((bytes.drop 8).take 8))
    foldBlocks count (bytes.drop 16) (s1, t)

/-- Long texts are folded up to the last sixteen bytes, which are always mixed in at the end. -/
def hashBytes (bytes : List UInt8) : UInt64 :=
  let n := bytes.length
  let s0 : UInt64 := 0x243f6a8885a308d3
  let s1 : UInt64 := 0x13198a2e03707344
  let (a, b) :=
    if n = 0 then (s0, s1)
    else if n < 4 then
      (s0 ^^^ (bytes.headD 0).toUInt64,
        s1 ^^^ (((bytes.getLastD 0).toUInt64 <<< 8) ||| (bytes.getD (n / 2) 0).toUInt64))
    else if n < 8 then
      (s0 ^^^ littleEndian (bytes.take 4), s1 ^^^ littleEndian (bytes.drop (n - 4)))
    else if n ≤ 16 then
      (s0 ^^^ littleEndian (bytes.take 8), s1 ^^^ littleEndian (bytes.drop (n - 8)))
    else
      let (t0, t1) := foldBlocks ((n - 1) / 16) bytes (s0, s1)
      let last := bytes.drop (n - 16)
      (t0 ^^^ littleEndian (last.take 8), t1 ^^^ littleEndian (last.drop 8))
  foldedProduct a b ^^^ n.toUInt64

def rotateLeft (x : UInt64) (k : UInt64) : UInt64 := (x <<< k) ||| (x >>> (64 - k))

def multiplier : UInt64 := 0xf1357aea2e62a9c5

/-- The hash of a text, read as a signed number. -/
def hash (s : String) : Int64 :=
  let h := hashBytes s.toUTF8.toList * multiplier
  (rotateLeft ((h + 0xff) * multiplier) 26).toInt64

/-- The hash of one word, read as a signed number. -/
def hashWord (x : UInt64) : Int64 := (rotateLeft (x * multiplier) 26).toInt64

end CachedDispatch.Text
