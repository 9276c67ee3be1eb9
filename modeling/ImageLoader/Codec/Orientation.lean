import ImageLoader.Bytes

/-!
# Orientation

A camera that was not held upright notes it in the metadata of the picture, as a number from 1 to 8.  The
number says how the stored picture is to be turned and flipped.

* `Orientation.ofExif?` — the orientation that a metadata block asks for.
* `Orientation.size` — the size of the upright picture.
* `Orientation.apply` — the upright picture.
-/

namespace ImageLoader

/-- How a stored picture becomes upright.  The order is that of the numbers in the metadata. -/
inductive Orientation where
  | upright
  | flipHorizontal
  | rotate180
  | flipVertical
  | rotate90Flip
  | rotate90
  | rotate270Flip
  | rotate270
deriving DecidableEq, Inhabited

namespace Orientation

def all : List Orientation :=
  [upright, flipHorizontal, rotate180, flipVertical, rotate90Flip, rotate90, rotate270Flip, rotate270]

def ofNumber? (n : Nat) : Option Orientation := if n = 0 then none else all[n - 1]?

/-! ## Metadata -/

/-- A number of `len` bytes at `start`, in the byte order of the block. -/
def number? (littleEndian : Bool) (b : Bytes) (start len : Nat) : Option Nat :=
  if littleEndian then b.littleEndian? start len else b.bigEndian? start len

def search? (littleEndian : Bool) (b : Bytes) : Nat → Nat → Option Orientation
  | 0, _ => none
  | n + 1, start => do
    let tag ← number? littleEndian b start 2
    let kind ← number? littleEndian b (start + 2) 2
    let count ← number? littleEndian b (start + 4) 4
    let value ← number? littleEndian b (start + 8) 2
    let _ ← number? littleEndian b (start + 10) 2
    if tag = 0x112 ∧ kind = 3 ∧ count = 1 then ofNumber? value
    else search? littleEndian b n (start + 12)

/-- The orientation that a metadata block asks for. -/
def ofExif? (b : Bytes) : Option Orientation := do
  let littleEndian ← match (b.extract 0 4).toList with
    | [0x49, 0x49, 42, 0] => some true
    | [0x4D, 0x4D, 0, 42] => some false
    | _ => none
  let directory ← number? littleEndian b 4 4
  let entries ← number? littleEndian b directory 2
  search? littleEndian b entries (directory + 2)

def ofMetadata (exif : Option Bytes) : Orientation := (exif.bind ofExif?).getD upright

/-! ## Turning -/

def swapsSides : Orientation → Bool
  | rotate90 | rotate270 | rotate90Flip | rotate270Flip => true
  | _ => false

def size {α : Type} (o : Orientation) (width height : α) : α × α :=
  if o.swapsSides then (height, width) else (width, height)

/-- Where the pixel at `(x, y)` of the upright picture is stored, in a picture of the given size. -/
def stored (o : Orientation) (width height x y : Nat) : Nat × Nat :=
  match o with
  | upright => (x, y)
  | flipHorizontal => (width - 1 - x, y)
  | rotate180 => (width - 1 - x, height - 1 - y)
  | flipVertical => (x, height - 1 - y)
  | rotate90Flip => (y, x)
  | rotate90 => (y, height - 1 - x)
  | rotate270Flip => (width - 1 - y, height - 1 - x)
  | rotate270 => (width - 1 - y, x)

/-- The upright picture, from a stored one whose pixels take `pixelSize` bytes. -/
def apply (o : Orientation) (width height pixelSize : Nat) (b : Bytes) : Bytes :=
  match o with
  | upright => b
  | o =>
    let (w, h) := o.size width height
    Bytes.join ((List.range h).flatMap fun y => (List.range w).map fun x =>
      let (i, j) := o.stored width height x y
      let start := (j * width + i) * pixelSize
      b.extract start (start + pixelSize))

end Orientation

end ImageLoader
