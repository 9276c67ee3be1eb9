import ImageLoader.Codec.Canvas
import ImageLoader.Codec.WebP.Lossless

/-!
# WebP images

A WebP file is a sequence of chunks.  A simple file is one lossless picture; an extended one says first what it has:
a size, a profile, metadata, alpha, and a picture or an animation.  The pictures of an animation are drawn onto one
canvas and cover what is below.

* `File.read` — the file, and what the codec learns from it.
* `File.pixels` — the picture of a file that is no animation.
* `File.pictures` — the canvas after each picture of an animation.
-/

namespace ImageLoader.WebP

/-- A chunk: its name, the place of its body, and the length of that. -/
structure Chunk where
  name : String
  start : Nat
  size : Nat

namespace Chunk

/-- The place behind a chunk; bodies are filled up to an even length. -/
def next (c : Chunk) : Nat := c.start + c.size + c.size % 2

def read? (data : Bytes) (start : Nat) : Option Chunk := do
  let name ← data.slice? start 4
  let size ← data.littleEndian? (start + 4) 4
  return ⟨String.ofList (name.toList.map fun b => Char.ofNat b.toNat), start + 8, size⟩

def read (data : Bytes) (start : Nat) : Coded Chunk :=
  Coded.ofOption "the file ends early" (read? data start)

/-- What there is of the body. -/
def body (c : Chunk) (data : Bytes) : Bytes := data.extract c.start (c.start + c.size)

/-- The body, which has to be there. -/
def wholeBody (c : Chunk) (data : Bytes) : Coded Bytes :=
  Coded.ofOption "the file ends early" (data.slice? c.start c.size)

def readMany (data : Bytes) : Nat → Nat → List Chunk
  | 0, _ => []
  | fuel + 1, start =>
    match read? data start with
    | some c => c :: readMany data fuel c.next
    | none => []

end Chunk

structure File where
  data : Bytes
  width : Nat
  height : Nat
  hasAlpha : Bool
  isAnimated : Bool := false
  profile : Option Bytes := none
  exif : Option Bytes := none
  chunks : List Chunk

namespace File

def find? (chunks : List Chunk) (name : String) : Option Chunk := chunks.find? fun c => c.name = name

/-- Reads a file that is one lossless picture. -/
def readSimple (data : Bytes) (c : Chunk) : Coded File := do
  let ((width, height, hasAlpha), _) ← Lossless.readSize.run ⟨data, 8 * c.start⟩
  return { data, width, height, hasAlpha, chunks := [c] }

/-- Refuses a chunk of the animation whose head is not there. -/
def checkPicture (data : Bytes) (c : Chunk) : Coded Unit := do
  if c.name = "ANMF" then
    if c.size < 24 then throw (.damaged "a picture is too short")
    let _ ← Chunk.read data (c.start + 16)

def readExtended (data : Bytes) (c : Chunk) : Coded File := do
  let number (offset len : Nat) : Coded Nat :=
    Coded.ofOption "the file ends early" (data.littleEndian? (c.start + offset) len)
  let flags ← number 0 1
  let _ ← number 1 3
  let width := (← number 4 3) + 1
  let height := (← number 7 3) + 1
  if UInt32.size ≤ width * height then throw (.damaged "the image is too large")
  let chunks := Chunk.readMany data data.size c.next
  chunks.forM (checkPicture data)
  let has (name : String) : Bool := (find? chunks name).isSome
  let announced (bit : Nat) : Bool := flags / bit % 2 = 1
  let isAnimated := announced 2
  if isAnimated && !(has "ANIM" && has "ANMF") || announced 32 && !has "ICCP" ||
      announced 8 && !has "EXIF" || announced 4 && !has "XMP " ||
      !isAnimated && has "VP8L" == has "VP8 " then
    throw (.damaged "a chunk is missing")
  let bodyOf (name : String) : Coded (Option Bytes) :=
    match find? chunks name with
    | some c => (c.wholeBody data).map some
    | none => .ok none
  if isAnimated then
    if ((← bodyOf "ANIM").map ByteArray.size).getD 0 < 6 then
      throw (.damaged "the animation is damaged")
  return { data, width, height, hasAlpha := announced 16, isAnimated,
           profile := ← bodyOf "ICCP", exif := ← bodyOf "EXIF", chunks }

def read (data : Bytes) : Coded File := do
  let riff ← Chunk.read data 0
  if riff.name ≠ "RIFF" ∨ (data.extract 8 12).toList ≠ "WEBP".toUTF8.toList then
    throw (.damaged "the signature is wrong")
  let c ← Chunk.read data 12
  match c.name with
  | "VP8L" => readSimple data c
  | "VP8X" => readExtended data c
  | _ => throw (.damaged "the first chunk is not known")

def header (f : File) : ImageHeader where
  width := UInt32.ofNat f.width
  height := UInt32.ofNat f.height
  format := if f.hasAlpha then .r8g8b8a8 else .r8g8b8
  colorProfile := f.profile
  exif := f.exif

/-! ## Pictures -/

/-- Three of four bytes of each pixel. -/
def dropAlpha (b : Bytes) : Bytes :=
  Bytes.ofList ((List.range (b.size / 4)).flatMap fun i => (b.extract (4 * i) (4 * i + 3)).toList)

def pixels (f : File) : Coded Bytes := do
  let c ← Coded.ofOption "there is no lossless picture" (find? f.chunks "VP8L")
  let b ← Lossless.decode f.width f.height (c.body f.data)
  return if f.hasAlpha then b else dropAlpha b

/-- The canvas as it is shown: without alpha, everything is opaque. -/
def shown (f : File) (c : Canvas) : Bytes :=
  if f.hasAlpha then c.pixels
  else Bytes.ofList ((List.range (c.width * c.height)).flatMap fun i =>
    (c.pixels.extract (4 * i) (4 * i + 3)).toList ++ [255])

/-- The next picture, in the chunk at a place, drawn onto a canvas; gives its delay in milliseconds, and the place
behind it. -/
def nextPicture (f : File) (canvas : Canvas) (start : Nat) : Coded (Canvas × Nat × Nat) := do
  let c ← Chunk.read f.data start
  let number (offset : Nat) : Coded Nat :=
    Coded.ofOption "the file ends early" (f.data.littleEndian? (c.start + offset) 3)
  if c.name ≠ "ANMF" ∨ c.size < 32 then throw (.damaged "a picture is missing")
  let x := 2 * (← number 0)
  let y := 2 * (← number 3)
  let width := (← number 6) + 1
  let height := (← number 9) + 1
  if 16384 < width ∨ 16384 < height then throw (.damaged "a picture is too large")
  if f.width < x + width ∨ f.height < y + height then throw (.damaged "a picture is outside")
  let delay ← number 12
  let picture ← Chunk.read f.data (c.start + 16)
  if picture.name ≠ "VP8L" ∨ c.size < picture.size + picture.size % 2 + 24 then
    throw (.damaged "a picture is damaged")
  let pixels ← Lossless.decode width height (picture.body f.data)
  return (canvas.drawOver x y ⟨width, height, pixels⟩ Canvas.cover, delay, c.start + c.size)

/-- The canvas after each of the next `n` pictures, with its delay, up to the first fault. -/
def picturesFrom (f : File) : Nat → Canvas → Nat → List (Coded (Bytes × Duration))
  | 0, _, _ => []
  | n + 1, canvas, start =>
    match f.nextPicture canvas start with
    | .error e => [.error e]
    | .ok (canvas, delay, next) =>
      .ok (f.shown canvas, .ofNanoseconds (delay * 1000000)) :: picturesFrom f n canvas next

def pictures (f : File) : List (Coded (Bytes × Duration)) :=
  match find? f.chunks "ANMF" with
  | none => []
  | some first =>
    let n := (f.chunks.filter fun c => c.name = "ANMF").length
    picturesFrom f n (Canvas.blank f.width f.height) (first.start - 8)

end File

end ImageLoader.WebP
