import ImageLoader.Format.Pixel
import ImageLoader.Outcome

/-!
# Pixel buffers

A buffer holds rows of pixels, each `stride` bytes after the one before.  Converting a buffer gives a
packed one, whose rows follow each other without a gap.

* `convertBuffer` — a whole image in another format.
-/

namespace ImageLoader

def wordLimit : Nat := UInt64.size

/-- The greatest number of bytes that can be set aside at once. -/
def allocationLimit : Nat := UInt64.size / 2 - 1

def sized (n : Nat) : Except FrameError Nat :=
  if n < wordLimit then .ok n else .error .dimensionTooLarge

def sumPanic : Panic := .text "attempt to add with overflow"

def productPanic : Panic := .text "attempt to multiply with overflow"

/-- The panic of a place in a buffer that leaves the machine word: a product, to which something is added. -/
def placePanic (product : Nat) : Panic := if wordLimit ≤ product then productPanic else sumPanic

def capacityPanic : Panic := .text "capacity overflow"

/-- The panic of a request for so many bytes, a product, which a word may not even count. -/
def roomPanic (product : Nat) : Panic := if wordLimit ≤ product then productPanic else capacityPanic

/-- A row of pixels in another format; a rest shorter than a pixel is left out. -/
def convertRow (source format : MemoryFormat) (row : Bytes) : Nat → Nat → Except FrameError Bytes
  | 0, _ => .ok ByteArray.empty
  | n + 1, start => do
    let pixel ← source.convertPixel format (row.extract start (start + source.nBytes))
    let rest ← convertRow source format row n (start + source.nBytes)
    return pixel ++ rest

/-- The rows from number `y` on, `n` of them, behind what is already converted. -/
def convertRows (source format : MemoryFormat) (src : Bytes) (width stride : Nat) :
    Nat → Nat → Bytes → Outcome FrameError Bytes
  | 0, _, done => .ok done
  | n + 1, y, done =>
    if wordLimit ≤ y * stride + width * source.nBytes then .error (.panic (placePanic (y * stride)))
    else
      match Bytes.slice? src (y * stride) (width * source.nBytes) with
      | none => .error (.error (.conversion (.sourceEnds y)))
      | some row =>
        match convertRow source format row width 0 with
        | .error e => .error (.error e)
        | .ok converted => convertRows source format src width stride n (y + 1) (done ++ converted)

def convertBuffer (source : MemoryFormat) (src : Bytes) (width height stride : Nat)
    (format : MemoryFormat) : Outcome FrameError Bytes := do
  let _ ← Outcome.ofExcept (sized (width * source.nBytes))
  let _ ← Outcome.ofExcept (sized (width * format.nBytes))
  let size ← Outcome.ofExcept (sized (width * format.nBytes * height))
  if allocationLimit < size then .error (.panic capacityPanic)
  else if width = 0 then .ok ByteArray.empty
  else convertRows source format src width stride height 0 ByteArray.empty

end ImageLoader
