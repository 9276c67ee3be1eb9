/-!
# Half precision

Numbers of sixteen bits (`binary16`: one sign bit, five of exponent, ten of mantissa) beside numbers of
thirty-two.  Widening is exact; narrowing rounds to the nearest half, and a tie goes to the even
mantissa.

* `Half.widen` — a half as a single.
* `Half.narrow` — the half nearest to a single.
-/

namespace ImageLoader.Half

open Float.Model

abbrev binary16 : Format where
  mantissaBitsWithoutImplicit := 10
  exponentBits := 5

/-- Rounds a number to what `spec` can hold; zeros, infinities and the rest stay what they are. -/
def fit (spec : Format) : UnpackedFloat → UnpackedFloat
  | .finite s m e _ => UnpackedFloat.round spec s m e
  | x => x

/-- The single that equals the half with these bits. -/
def widen (bits : UInt16) : Float32 :=
  .ofModel (.pack (fit Format.binary32 (UnpackedFloat.unpack binary16 bits.toBitVec)))

/-- The bits of the half nearest to a single. -/
def narrow (x : Float32) : UInt16 :=
  UInt16.ofBitVec (UnpackedFloat.pack binary16 (fit binary16 x.toModel.unpack))

end ImageLoader.Half
