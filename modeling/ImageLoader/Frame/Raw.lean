import ImageLoader.Duration
import ImageLoader.Format.Buffer

/-!
# Frames as decoders deliver them

A `RawFrame` is what a decoder hands over: sizes, a stride, a format and a buffer, none of which need fit
the others.  `validate` says when they do.

* `RawFrame.packed` — a frame whose rows follow each other without a gap.
* `RawFrame.validate` — refuses frames whose sizes do not match their buffer.
* `validate_eq_ok_iff` — what a valid frame is.
-/

namespace ImageLoader

/-- What the encoded image says about a frame.  Every entry may be unknown. -/
structure FrameDetails where
  /-- The colour profile, never applied. -/
  colorProfile : Option Bytes := none
  /-- Bits per channel of the encoded data. -/
  bitDepth : Option UInt8 := none
  alphaChannel : Option Bool := none
  grayscale : Option Bool := none
  /-- The place in an animation, counted from zero. -/
  number : Option UInt64 := none
deriving DecidableEq, Inhabited

structure RawFrame where
  width : UInt32
  height : UInt32
  stride : UInt32
  format : MemoryFormat
  buf : Bytes
  delay : Option Duration := none
  details : FrameDetails := {}
deriving DecidableEq

def maxTextureSize : UInt64 := 8000000000

namespace RawFrame

def display (f : RawFrame) : String :=
  s!"{f.width}x{f.height} stride {f.stride} {f.format.nick} ({f.buf.size} bytes)"

def rowBytes (f : RawFrame) : Nat := f.width.toNat * f.format.nBytes

def byteCount (f : RawFrame) : Nat := f.stride.toNat * f.height.toNat

def field (n : Nat) : Except FrameError UInt32 :=
  if n < UInt32.size then .ok (UInt32.ofNat n) else .error .dimensionTooLarge

/-- A frame whose rows follow each other without a gap. -/
def packed (width height : UInt32) (format : MemoryFormat) (buf : Bytes) :
    Except FrameError RawFrame :=
  (field (format.nBytes * width.toNat)).map fun stride =>
    { width, height, stride, format, buf }

/-- Refuses a frame without pixels, with overlapping rows, above the limit, or short of data. -/
def validate (f : RawFrame) (limit : Nat) : Except FrameError Unit :=
  if f.width = 0 ∨ f.height = 0 then .error (.emptySize f.display)
  else if f.stride.toNat < f.rowBytes then .error (.strideTooSmall f.display)
  else if limit < f.byteCount then .error (.textureTooLarge limit)
  else if f.buf.size < f.byteCount then .error (.textureTooSmall f.buf.size f.display)
  else .ok ()

theorem validate_eq_ok_iff {f : RawFrame} {limit : Nat} :
    f.validate limit = .ok () ↔
      f.width ≠ 0 ∧ f.height ≠ 0 ∧ f.rowBytes ≤ f.stride.toNat ∧ f.byteCount ≤ limit ∧
        f.byteCount ≤ f.buf.size := by
  unfold validate
  split
  next h =>
    simp only [reduceCtorEq, false_iff]
    rintro ⟨hw, hh, -⟩
    exact h.elim hw hh
  next h =>
    split
    next h' => simp; omega
    next h' =>
      split
      next h'' => simp; omega
      next h'' =>
        split
        next h''' => simp; omega
        next h''' =>
          simp only [not_or] at h
          simp only [true_iff]
          exact ⟨h.1, h.2, by omega, by omega, by omega⟩

end RawFrame

end ImageLoader
