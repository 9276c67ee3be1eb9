import ImageLoader.Codec.Basic

/-!
# Farbfeld images

A farbfeld file begins with its name and the size.  Only the size is read.

* `Farbfeld.header` — what the header says.
-/

namespace ImageLoader.Farbfeld

def header (data : Bytes) : Coded ImageHeader := do
  if !data.startsWith "farbfeld".toUTF8.toList then throw (.damaged "the signature is wrong")
  let width ← Coded.ofOption "the header is cut off" (data.bigEndian? 8 4)
  let height ← Coded.ofOption "the header is cut off" (data.bigEndian? 12 4)
  checkCountable width height 8
  return { width := UInt32.ofNat width, height := UInt32.ofNat height, format := .r16g16b16a16,
           bitDepth := 16 }

end ImageLoader.Farbfeld
