import ImageLoader.Codec.Orientation
import ImageLoader.Frame.Json
import ImageLoader.Loader.Info
import ImageLoader.Sandbox.Policy

/-!
# What codecs give

A codec reads one container format.  From the header it learns an `ImageHeader`; from the rest comes the
`Picture` of a still image, or the pictures of an animation, one `Cel` after another.

* `CodecFault.toLoadError` — how the fault of a codec is reported.
* `checkSize` — whether a size is within the limits.
-/

namespace ImageLoader

inductive CodecFault where
  /-- The data may be sound, but nothing here can decode it. -/
  | unsupported (what : String)
  | exceedsLimits (what : String)
  | damaged (what : String)
deriving DecidableEq

abbrev Coded (α : Type) := Except CodecFault α

namespace CodecFault

def toLoadError (m : MimeType) : CodecFault → LoadError
  | unsupported what => .unknownImageFormat (some m.text) what
  | exceedsLimits what => .decodeFailed s!"Decoder limits exceeded: {what}"
  | damaged what => .decodeFailed what

end CodecFault

def Coded.ofOption {α : Type} (what : String) : Option α → Coded α
  | some a => .ok a
  | none => .error (.damaged what)

structure ImageHeader where
  width : UInt32
  height : UInt32
  /-- The format that the pixels are decoded to. -/
  format : MemoryFormat
  /-- Bits per channel of the encoded data. -/
  bitDepth : UInt8 := 8
  colorProfile : Option Bytes := none
  exif : Option Bytes := none
  /-- How the pixels of the image become upright. -/
  orientation : Orientation := .ofMetadata exif
deriving DecidableEq

namespace ImageHeader

/-- The details that every frame of the image shares. -/
def details (h : ImageHeader) : FrameDetails where
  colorProfile := h.colorProfile
  bitDepth := some h.bitDepth
  alphaChannel := some h.format.hasAlpha
  grayscale := some h.format.isGrayscale

def area (h : ImageHeader) : Nat := h.width.toNat * h.height.toNat

end ImageHeader

/-- The pixels of a picture, row by row. -/
structure Picture where
  width : UInt32
  height : UInt32
  pixels : Bytes
deriving DecidableEq

/-- A picture of an animation: straight colour and alpha in eight bits each, and how long it is shown. -/
structure Cel where
  picture : Picture
  delay : Duration
deriving DecidableEq

/-- An animation: its header and its pictures up to the first fault. -/
structure Animation where
  header : ImageHeader
  cels : List (Coded Cel)

def withinBound (n : Nat) (bound : Option Nat) : Bool :=
  match bound with
  | some b => n ≤ b
  | none => true

def checkSize (limits : Option DecodeLimits) (width height : UInt32) : Coded Unit :=
  match limits with
  | none => .ok ()
  | some l =>
    if withinBound width.toNat (l.maxImageWidth.map UInt32.toNat) &&
        withinBound height.toNat (l.maxImageHeight.map UInt32.toNat) then .ok ()
    else .error (.exceedsLimits "the image is larger than allowed")

/-- Refuses a size whose bytes a machine word cannot count. -/
def checkCountable (width height bytesPerPixel : Nat) : Coded Unit :=
  if width * height * bytesPerPixel < UInt64.size then .ok ()
  else .error (.unsupported "the image is too large")

end ImageLoader
