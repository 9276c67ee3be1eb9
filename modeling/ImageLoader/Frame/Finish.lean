import ImageLoader.Error
import ImageLoader.Format.Selection
import ImageLoader.Frame.Edit
import ImageLoader.Frame.Sealed

/-!
# Finishing a frame

What turns the frame of a decoder into the frame of a caller: it is checked, its padding goes, a region is
cut out, it is scaled, converted to a format that the caller accepts, and sealed.  Scaling is foreign work,
so finishing comes in two halves around it.

* `RawFrame.prepare` — everything before scaling.
* `RawFrame.conclude` — everything after it.
* `RawFrame.finish` — both, around a scaler.
-/

namespace ImageLoader

structure FinishTarget where
  accepted : FormatSet
  request : FrameRequest
  maxTextureSize : Nat

inductive Prepared where
  /-- The frame has the size that was asked for. -/
  | ready (f : RawFrame)
  /-- The frame has to be scaled to another size. -/
  | toScale (f : RawFrame) (width height : UInt32)

/-- A scaler: a frame of another size, or an error, or a panic. -/
abbrev Scaler := RawFrame → UInt32 → UInt32 → Loaded RawFrame

namespace RawFrame

def clipTo (f : RawFrame) (request : FrameRequest) : Outcome FrameError RawFrame :=
  match request.clip with
  | none => .ok f
  | some r => (f.clip r).toOutcome

/-- Checks a frame, removes its padding, cuts out the region, and looks at the size asked for. -/
def prepare (f : RawFrame) (t : FinishTarget) : Outcome FrameError Prepared := do
  Outcome.ofExcept (f.validate t.maxTextureSize)
  let f ← f.removePadding.toOutcome
  let f ← f.clipTo t.request
  match ← Outcome.ofExcept (t.request.scaleFor f.width f.height) with
  | none => return .ready f
  | some (width, height) => return .toScale f width height

/-- Converts a frame to the format that suits the caller best, and seals it. -/
def deliver (f : RawFrame) (t : FinishTarget) : Outcome FrameError Frame := do
  match t.accepted.best? f.format with
  | none => .error (.error (.noAcceptedFormat f.format))
  | some format =>
    let f ← (f.convertTo format).toOutcome
    Outcome.ofExcept (f.toFrame t.maxTextureSize)

/-- What follows scaling: the scaled frame is checked and delivered. -/
def conclude (f : RawFrame) (t : FinishTarget) : Outcome FrameError Frame := do
  Outcome.ofExcept (f.validate t.maxTextureSize)
  f.deliver t

def finish (scale : Scaler) (f : RawFrame) (t : FinishTarget) : Loaded Frame := do
  match ← (f.prepare t).loading with
  | .ready f => (f.deliver t).loading
  | .toScale f width height =>
    let f ← scale f width height
    (f.conclude t).loading

end RawFrame

end ImageLoader
