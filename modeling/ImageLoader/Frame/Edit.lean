import ImageLoader.Frame.Raw

/-!
# Edits of a frame

The three ways in which a frame changes shape: its padding is removed, a region is cut out, it is
converted to another format.  An edit that fails may have changed part of the frame, so every edit
answers with a verdict and with the frame it left.

* `RawFrame.removePadding` — moves the rows together.
* `RawFrame.clip` — keeps a region.
* `RawFrame.convertTo` — changes the format.
-/

namespace ImageLoader

/-- What an edit leaves: a verdict and the frame. -/
structure Edited where
  frame : RawFrame
  verdict : Outcome FrameError Unit

namespace Edited

def done (f : RawFrame) : Edited := ⟨f, .ok ()⟩

def refused (f : RawFrame) (e : FrameError) : Edited := ⟨f, .error (.error e)⟩

def panicked (f : RawFrame) (p : Panic) : Edited := ⟨f, .error (.panic p)⟩

/-- The edited frame, where the edit went well. -/
def toOutcome (e : Edited) : Outcome FrameError RawFrame := e.verdict.map fun _ => e.frame

end Edited

namespace RawFrame

def withStride (f : RawFrame) (n : Nat) : Edited :=
  match field n with
  | .ok stride => .done { f with stride }
  | .error e => .refused f e

/-! ## Padding -/

def moveWithin (b : Bytes) (source len target : Nat) : Except Panic Bytes :=
  if b.size < source + len then
    .error (.text s!"range end index {source + len} out of range for slice of length {b.size}")
  else if b.size < target + len then
    .error (.text "dest is out of bounds")
  else
    .ok (Bytes.overwrite b target (b.extract source (source + len)))

/-- Moves `n` rows, from number `row` on, to where packed rows lie. -/
def moveRows (rowBytes stride : Nat) : Nat → Nat → Bytes → Except Panic Bytes
  | 0, _, b => .ok b
  | n + 1, row, b => do
    let b ← moveWithin b (row * stride) rowBytes (row * rowBytes)
    moveRows rowBytes stride n (row + 1) b

/-- The frame without what lies behind its last row. -/
def cutTail (f : RawFrame) : RawFrame :=
  { f with buf := Bytes.truncate f.buf (f.rowBytes * f.height.toNat) }

/-- Moves the rows together, so that the stride is the length of a row. -/
def removePadding (f : RawFrame) : Edited :=
  if f.stride.toNat = f.rowBytes then .done f.cutTail
  else
    match moveRows f.rowBytes f.stride.toNat (f.height.toNat - 1) 1 f.buf with
    | .error p => .panicked f p
    | .ok buf =>
      let moved := { f with buf }
      match field f.rowBytes with
      | .error e => .refused moved e
      | .ok stride => .done { moved with stride }.cutTail

/-! ## Regions -/

/-- The pieces of `n` rows, from number `row` on: `len` bytes from `offset` on, behind `done`. -/
def gatherRows (b : Bytes) (stride offset len : Nat) : Nat → Nat → Bytes → Outcome FrameError Bytes
  | 0, _, done => .ok done
  | n + 1, row, done =>
    if wordLimit ≤ row * stride + offset + len then .error (.panic (placePanic (row * stride)))
    else
      match Bytes.slice? b (row * stride + offset) len with
      | none => .error (.error (.invalidClip (.rowOutside row)))
      | some line => gatherRows b stride offset len n (row + 1) (done ++ line)

def clip (f : RawFrame) (r : ClipRegion) : Edited :=
  if r.fits f.width f.height then
    let len := r.width.toNat * f.format.nBytes
    if allocationLimit < len * r.height.toNat then .panicked f (roomPanic (len * r.height.toNat))
    else
      match gatherRows f.buf f.stride.toNat (r.x.toNat * f.format.nBytes) len r.height.toNat
          r.y.toNat ByteArray.empty with
      | .error stop => ⟨f, .error stop⟩
      | .ok buf => withStride { f with buf, width := r.width, height := r.height } len
  else
    .refused f (.invalidClip (.outside r f.width f.height))

/-! ## Formats -/

/-- Changes the format of the frame, which becomes packed by it. -/
def convertTo (f : RawFrame) (format : MemoryFormat) : Edited :=
  if format = f.format then .done f
  else
    match convertBuffer f.format f.buf f.width.toNat f.height.toNat f.stride.toNat format with
    | .error stop => ⟨f, .error stop⟩
    | .ok buf => withStride { f with buf, format } (f.width.toNat * format.nBytes)

end RawFrame

end ImageLoader
