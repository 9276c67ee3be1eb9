import ImageLoader.Frame.Raw

/-!
# Sealed frames

A `Frame` is what the loader delivers: its sizes match its buffer, which ends with its last row.

* `RawFrame.toFrame` — the frame behind a valid raw frame.
* `Frame.toRaw` — a sealed frame seen as a raw one.
-/

namespace ImageLoader

structure Frame where
  width : UInt32
  height : UInt32
  stride : UInt32
  format : MemoryFormat
  buf : Bytes
  delay : Option Duration
  details : FrameDetails
deriving DecidableEq

def Frame.toRaw (f : Frame) : RawFrame :=
  ⟨f.width, f.height, f.stride, f.format, f.buf, f.delay, f.details⟩

namespace RawFrame

/-- Checks the frame and cuts its buffer behind the last row. -/
def toFrame (f : RawFrame) (limit : Nat) : Except FrameError Frame :=
  (f.validate limit).map fun _ =>
    ⟨f.width, f.height, f.stride, f.format, Bytes.truncate f.buf f.byteCount, f.delay, f.details⟩

theorem toFrame_eq_ok_iff {f : RawFrame} {limit : Nat} {s : Frame} :
    f.toFrame limit = .ok s ↔
      f.validate limit = .ok () ∧
        s = ⟨f.width, f.height, f.stride, f.format, Bytes.truncate f.buf f.byteCount, f.delay,
          f.details⟩ := by
  unfold toFrame
  cases f.validate limit <;> simp [Except.map, eq_comm]

end RawFrame

end ImageLoader
