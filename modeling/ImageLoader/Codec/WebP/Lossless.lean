import ImageLoader.Codec.BitSource

/-!
# Lossless pictures

A lossless picture begins with a byte, its size and whether it has alpha.  Of the ways in which pixels may be written,
the plain one is read: no transform, no cache, and one group of prefix codes with at most two words each.

* `Lossless.readSize` — the size of a picture.
* `Lossless.decode` — the pixels, four bytes each.
-/

namespace ImageLoader.WebP.Lossless

/-- A prefix code with one word of no bits, or two words of one bit. -/
inductive SmallCode where
  | one (symbol : Nat)
  | two (first second : Nat)

namespace SmallCode

def readCode (bound : Nat) : BitReader SmallCode := do
  if (← BitSource.bit) = 0 then throw (.unsupported "pictures with larger prefix codes")
  let hasSecond ← BitSource.bit
  let isByte ← BitSource.bit
  let first ← BitSource.take (if isByte = 1 then 8 else 1)
  if bound ≤ first then throw (.damaged "a symbol is not in use")
  if hasSecond = 0 then return .one first
  let second ← BitSource.take 8
  if bound ≤ second then throw (.damaged "a symbol is not in use")
  return .two first second

def readSymbol : SmallCode → BitReader Nat
  | one symbol => return symbol
  | two first second => return if (← BitSource.bit) = 0 then first else second

end SmallCode

def signature : Nat := 0x2F

/-- What the first five bytes say: width, height, and whether there is alpha. -/
def readSize : BitReader (Nat × Nat × Bool) := do
  if (← BitSource.take 8) ≠ signature then throw (.damaged "the signature is wrong")
  let width ← BitSource.take 14
  let height ← BitSource.take 14
  let alpha ← BitSource.bit
  if (← BitSource.take 3) ≠ 0 then throw (.damaged "the version is not known")
  return (width + 1, height + 1, alpha = 1)

structure Codes where
  green : SmallCode
  red : SmallCode
  blue : SmallCode
  alpha : SmallCode

def readCodes : BitReader Codes := do
  if (← BitSource.bit) = 1 then throw (.unsupported "pictures with transforms")
  if (← BitSource.bit) = 1 then throw (.unsupported "pictures with a cache")
  if (← BitSource.bit) = 1 then throw (.unsupported "pictures with groups of codes")
  let green ← SmallCode.readCode 280
  let red ← SmallCode.readCode 256
  let blue ← SmallCode.readCode 256
  let alpha ← SmallCode.readCode 256
  let _ ← SmallCode.readCode 40
  return ⟨green, red, blue, alpha⟩

def readPixels (c : Codes) : Nat → Bytes → BitReader Bytes
  | 0, out => return out
  | n + 1, out => do
    let green ← c.green.readSymbol
    let red ← c.red.readSymbol
    let blue ← c.blue.readSymbol
    let alpha ← c.alpha.readSymbol
    readPixels c n (out ++ Bytes.ofList ([red, green, blue, alpha].map UInt8.ofNat))

/-- The pixels of a picture that has to have this size. -/
def decode (width height : Nat) (data : Bytes) : Coded Bytes := do
  let work : BitReader Bytes := do
    let (w, h, _) ← readSize
    if w ≠ width ∨ h ≠ height then throw (.damaged "the size does not fit")
    readPixels (← readCodes) (width * height) ByteArray.empty
  return (← work.run ⟨data, 0⟩).1

end ImageLoader.WebP.Lossless
