import ImageLoader.Codec.Inflate
import ImageLoader.Codec.Png.Chunk

/-!
# What comes before the image data

The first chunk of a PNG file gives the size and the kind of the pixels.  Others before the image data hold the
palette, the transparent colour, the profile, the metadata, and whether the file is an animation.

* `Head.read` — the first chunk.
* `Preface.read` — everything before the image data, and the chunks from there on.
* `Preface.header` — what the codec learns from it.
-/

namespace ImageLoader.Png

inductive Kind where
  | gray
  | rgb
  | indexed
  | grayAlpha
  | rgba
deriving DecidableEq

namespace Kind

def ofNumber? : Nat → Option Kind
  | 0 => some gray
  | 2 => some rgb
  | 3 => some indexed
  | 4 => some grayAlpha
  | 6 => some rgba
  | _ => none

def channels : Kind → Nat
  | gray | indexed => 1
  | grayAlpha => 2
  | rgb => 3
  | rgba => 4

def depths : Kind → List Nat
  | gray => [1, 2, 4, 8, 16]
  | indexed => [1, 2, 4, 8]
  | _ => [8, 16]

end Kind

structure Head where
  width : UInt32
  height : UInt32
  kind : Kind
  /-- Bits per sample. -/
  depth : Nat
  interlaced : Bool

namespace Head

def ofBody? (b : Bytes) : Option Head := do
  let width ← b.bigEndian? 0 4
  let height ← b.bigEndian? 4 4
  let depth ← b.bigEndian? 8 1
  let kind ← Kind.ofNumber? (← b.bigEndian? 9 1)
  let compression ← b.bigEndian? 10 1
  let filter ← b.bigEndian? 11 1
  let interlace ← b.bigEndian? 12 1
  if width = 0 ∨ height = 0 ∨ depth ∉ kind.depths ∨ compression ≠ 0 ∨ filter ≠ 0 ∨ 1 < interlace then
    none
  else some ⟨UInt32.ofNat width, UInt32.ofNat height, kind, depth, interlace = 1⟩

def read (data : Bytes) : Coded (Head × List Chunk) := do
  match ← Coded.ofOption "the signature is wrong" (Chunk.sequence? data) with
  | [] => throw (.damaged "there is no header")
  | c :: rest =>
    if c.name ≠ "IHDR" then throw (.damaged "there is no header")
    c.check
    return (← Coded.ofOption "the header is damaged" (ofBody? c.body), rest)

def rowBytes (h : Head) (width : Nat) : Nat := (width * h.kind.channels * h.depth + 7) / 8

/-- Bytes from a byte of a pixel to the same byte of the next pixel, at least one. -/
def filterStep (h : Head) : Nat := max 1 (h.kind.channels * h.depth / 8)

end Head

/-! ## Animation control -/

/-- What becomes of the region of a picture when the next one comes. -/
inductive Disposal where
  | keep
  | clear
  | restore
deriving DecidableEq

/-- Where and how a picture of an animation is drawn. -/
structure FrameControl where
  sequence : Nat
  width : Nat
  height : Nat
  x : Nat
  y : Nat
  delay : Duration
  disposal : Disposal
  blends : Bool

/-- How long a picture is shown, in nanoseconds: a fraction of a second, over 100 where nothing is given. -/
def delayNanoseconds (numerator denominator : Nat) : Nat :=
  let ms := numerator * 1000
  let d := if denominator = 0 then 100 else denominator
  ms / d * 1000000 + ms % d * 1000000 / d

namespace FrameControl

def disposal? : Nat → Option Disposal
  | 0 => some .keep
  | 1 => some .clear
  | 2 => some .restore
  | _ => none

def ofBody? (h : Head) (b : Bytes) : Option FrameControl := do
  let sequence ← b.bigEndian? 0 4
  let width ← b.bigEndian? 4 4
  let height ← b.bigEndian? 8 4
  let x ← b.bigEndian? 12 4
  let y ← b.bigEndian? 16 4
  let numerator ← b.bigEndian? 20 2
  let denominator ← b.bigEndian? 22 2
  let disposal ← disposal? (← b.bigEndian? 24 1)
  let blend ← b.bigEndian? 25 1
  if width = 0 ∨ height = 0 ∨ h.width.toNat < x + width ∨ h.height.toNat < y + height ∨ 1 < blend then
    none
  else
    some ⟨sequence, width, height, x, y, .ofNanoseconds (delayNanoseconds numerator denominator),
      disposal, blend = 1⟩

def isFull (c : FrameControl) (h : Head) : Bool :=
  c.x = 0 && c.y = 0 && c.width = h.width.toNat && c.height = h.height.toNat

end FrameControl

/-! ## Everything before the image data -/

/-- Everything before the image data. -/
structure Preface where
  head : Head
  palette : Option Bytes := none
  transparency : Option Bytes := none
  profile : Option Bytes := none
  exif : Option Bytes := none
  /-- How many pictures the animation has. -/
  frameCount : Option Nat := none
  control : Option FrameControl := none

/-- The profile in a profile chunk: a name, a zero, a method, and a zlib stream. -/
def profile? (b : Bytes) : Option Bytes := do
  let name := b.toList.takeWhile (· ≠ 0)
  let method ← b.at? (name.length + 1)
  if name.isEmpty ∨ 79 < name.length ∨ method ≠ 0 then none
  else (Inflate.zlib (b.drop (name.length + 2))).toOption

namespace Preface

/-- May a transparency chunk with this body stand here? -/
def admitsTransparency (p : Preface) (b : Bytes) : Bool :=
  p.transparency.isNone &&
    match p.head.kind with
    | .gray => 2 ≤ b.size
    | .rgb => 6 ≤ b.size
    | .indexed => p.palette.isSome
    | _ => false

/-- Takes note of one chunk.  Chunks that can be left out and make no sense are passed over. -/
def note (p : Preface) (c : Chunk) : Coded Preface := do
  c.check
  if !c.isSound then return p
  match c.name with
  | "IHDR" => throw (.damaged "there are two headers")
  | "IEND" => throw (.damaged "there is no image data")
  | "PLTE" =>
    if p.palette.isSome then throw (.damaged "there are two palettes")
    return { p with palette := some c.body }
  | "tRNS" =>
    return if p.admitsTransparency c.body then { p with transparency := some c.body } else p
  | "iCCP" => return { p with profile := p.profile <|> profile? c.body }
  | "eXIf" => return { p with exif := p.exif <|> some c.body }
  | "acTL" =>
    return { p with frameCount := p.frameCount <|> (c.body.bigEndian? 0 4).filter (· ≠ 0) }
  | "fcTL" =>
    let control ← Coded.ofOption "a frame control is damaged" (FrameControl.ofBody? p.head c.body)
    if p.control.isSome ∨ control.sequence ≠ 0 ∨ !control.isFull p.head then
      throw (.damaged "a frame control is out of place")
    return { p with control := some control }
  | _ => return p

/-- Everything before the image data of a file, and the chunks from there on. -/
def read (data : Bytes) : Coded (Preface × List Chunk) := do
  let (head, chunks) ← Head.read data
  let before := chunks.takeWhile fun c => c.name ≠ "IDAT"
  let rest := chunks.drop before.length
  let preface ← before.foldlM note { head }
  if rest.isEmpty then throw (.damaged "there is no image data")
  return (preface, rest)

def format (p : Preface) : MemoryFormat :=
  let hasKey := p.transparency.isSome
  let wide := p.head.depth = 16
  match p.head.kind with
  | .gray =>
    if hasKey then if wide then .g16a16 else .g8a8
    else if wide then .g16 else .g8
  | .rgb =>
    if hasKey then if wide then .r16g16b16a16 else .r8g8b8a8
    else if wide then .r16g16b16 else .r8g8b8
  | .indexed => if hasKey then .r8g8b8a8 else .r8g8b8
  | .grayAlpha => if wide then .g16a16 else .g8a8
  | .rgba => if wide then .r16g16b16a16 else .r8g8b8a8

def header (p : Preface) : ImageHeader where
  width := p.head.width
  height := p.head.height
  format := p.format
  bitDepth := if p.head.depth = 16 then 16 else 8
  colorProfile := p.profile
  exif := p.exif

end Preface

end ImageLoader.Png
