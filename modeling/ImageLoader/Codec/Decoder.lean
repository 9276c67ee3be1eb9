import ImageLoader.Codec.Basic
import ImageLoader.Codec.Container

/-!
# The decoder

What a loader asks of encoded data: what the header says, and the frames.  The containers themselves are read by
`Codecs`; the decoder finds the container, turns pictures upright if that is asked for, and packs frames.  A still
image gives one frame, an animation one for each of its pictures.

* `Codecs.probe` — the type of some data and what its header says.
* `Codecs.decodeFrames` — the frames of data of a known type.
* `Codecs.collectAnimation` — the frames of an animation: all of them, or the first fault.
-/

namespace ImageLoader

/-- Codecs for all containers.  Three of these can hold an animation. -/
structure Codecs where
  header : Container → Option DecodeLimits → Bytes → Coded ImageHeader
  still : Container → Option DecodeLimits → Bytes → Coded Picture
  gif : Option DecodeLimits → Bytes → Coded Animation
  webp : Option DecodeLimits → Bytes → Coded (Option Animation)
  png : Option DecodeLimits → Bytes → Coded (Option Animation)
  /-- Turns a picture whose pixels take this many bytes. -/
  turn : Orientation → Nat → Picture → Picture

def ImageHeader.info (h : ImageHeader) (c : Container) (options : DecodeOptions) : ImageInfo :=
  let applied := options.applyTransformations && h.orientation != .upright
  let (width, height) :=
    if applied && h.orientation.swapsSides then (h.height, h.width) else (h.width, h.height)
  { width, height, formatName := some c.name, exif := h.exif, transformationsApplied := applied }

/-- How the pictures of an animation are turned, if they are turned at all. -/
def ImageHeader.animationTurn (h : ImageHeader) (options : DecodeOptions) : Option Orientation :=
  if options.applyTransformations && h.orientation != .upright then some h.orientation else none

def Picture.frame (p : Picture) (format : MemoryFormat) : Except LoadError RawFrame :=
  (RawFrame.packed p.width p.height format p.pixels).mapError LoadError.frame

namespace Codecs

variable (K : Codecs)

/-! ## Probing -/

def probe (data : Bytes) (options : DecodeOptions) : Except LoadError ProbedImage :=
  match Container.detect? data with
  | none => .error (.unknownImageFormat none "The image format could not be determined")
  | some c =>
    match K.header c options.policy.limits data with
    | .error fault => .error (fault.toLoadError c.mimeType)
    | .ok h => .ok ⟨c.mimeType, h.info c options⟩

/-! ## Frames -/

def decodeStill (c : Container) (data : Bytes) (options : DecodeOptions) (m : MimeType) :
    Except LoadError RawFrame := do
  let h ← (K.header c options.policy.limits data).mapError (CodecFault.toLoadError m)
  let p ← (K.still c options.policy.limits data).mapError (CodecFault.toLoadError m)
  let p := if options.applyTransformations then K.turn h.orientation h.format.nBytes p else p
  let f ← p.frame h.format
  return { f with details := { h.details with number := some 0 } }

def oriented (turn : Option Orientation) (p : Picture) : Picture :=
  match turn with
  | some o => K.turn o MemoryFormat.r8g8b8a8.nBytes p
  | none => p

/-- The frame of a picture, which is number `n` of its animation. -/
def celFrame (base : FrameDetails) (turn : Option Orientation) (m : MimeType) (n : Nat) (cel : Coded Cel) :
    Except LoadError RawFrame := do
  let cel ← cel.mapError (CodecFault.toLoadError m)
  let f ← (K.oriented turn cel.picture).frame .r8g8b8a8
  return { f with delay := some cel.delay, details := { base with number := some (UInt64.ofNat n) } }

def collectFrom (base : FrameDetails) (turn : Option Orientation) (m : MimeType) :
    Nat → List (Coded Cel) → Except LoadError (List RawFrame)
  | _, [] => .ok []
  | n, cel :: rest => do
    let f ← K.celFrame base turn m n cel
    return f :: (← collectFrom base turn m (n + 1) rest)

/-- The frames of an animation: all of them, or the first fault. -/
def collectAnimation (a : Animation) (options : DecodeOptions) (m : MimeType) :
    Except LoadError (List RawFrame) :=
  K.collectFrom a.header.details (a.header.animationTurn options) m 0 a.cels

/-- The animation in some data, if it is one.  The frames of a GIF image carry no colour profile. -/
def animation? (c : Container) (limits : Option DecodeLimits) (data : Bytes) : Coded (Option Animation) :=
  match c with
  | .gif => (K.gif limits data).map fun a => some { a with header.colorProfile := none }
  | .webp => K.webp limits data
  | .png => K.png limits data
  | _ => .ok none

def frames (c : Container) (data : Bytes) (options : DecodeOptions) (m : MimeType) :
    Except LoadError (List RawFrame) := do
  match ← (K.animation? c options.policy.limits data).mapError (CodecFault.toLoadError m) with
  | none => return [← K.decodeStill c data options m]
  | some a => K.collectAnimation a options m

def decodeFrames (data : Bytes) (m : MimeType) (options : DecodeOptions) :
    Except LoadError (List RawFrame) :=
  match Container.ofMimeType? m with
  | none => .error (.unknownImageFormat (some m.text) "No decoder for this mime type")
  | some c => K.frames c data options m

end Codecs

end ImageLoader
