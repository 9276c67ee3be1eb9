import ImageLoader.Codec.Png.Head

/-!
# Rows of pixels

The image data is a zlib stream of rows.  A row begins with the number of a filter, which predicts each byte
from the bytes to its left and above it.  An interlaced image comes as seven smaller images, the passes.

* `unfilter` — a row as it was before filtering.
* `Pass.all` — the passes of an image.
* `readPasses` — the rows of all passes.
-/

namespace ImageLoader.Png

/-- The one of three neighbours that is nearest to `left + above - corner`. -/
def nearestNeighbour (left above corner : UInt8) : UInt8 :=
  let p : Int := left.toNat + above.toNat - corner.toNat
  let l := (p - left.toNat).natAbs
  let a := (p - above.toNat).natAbs
  let c := (p - corner.toNat).natAbs
  if l ≤ a ∧ l ≤ c then left else if a ≤ c then above else corner

/-- What a filter predicts; `none` if there is no such filter. -/
def predict? (filter : UInt8) (left above corner : UInt8) : Option UInt8 :=
  match filter with
  | 0 => some 0
  | 1 => some left
  | 2 => some above
  | 3 => some (UInt8.ofNat ((left.toNat + above.toNat) / 2))
  | 4 => some (nearestNeighbour left above corner)
  | _ => none

/-- Undoes a filter from byte `i` on, for the row below `above`.  `step` bytes lie between neighbours. -/
def unfilterFrom (filter : UInt8) (step : Nat) (above row : Bytes) : Nat → Nat → Bytes → Option Bytes
  | 0, _, out => some out
  | n + 1, i, out => do
    let value := (row.at? i).getD 0
    let up := (above.at? i).getD 0
    let left := if i < step then 0 else (out.at? (i - step)).getD 0
    let corner := if i < step then 0 else (above.at? (i - step)).getD 0
    let predicted ← predict? filter left up corner
    unfilterFrom filter step above row n (i + 1) (out.push (value + predicted))

def unfilter (filter : UInt8) (step : Nat) (above row : Bytes) : Option Bytes :=
  unfilterFrom filter step above row row.size 0 ByteArray.empty

/-! ## Passes -/

/-- Every `stepX`-th pixel of every `stepY`-th row, from `(x, y)` on. -/
structure Pass where
  x : Nat
  y : Nat
  stepX : Nat
  stepY : Nat

namespace Pass

def interlaced : List Pass :=
  [⟨0, 0, 8, 8⟩, ⟨4, 0, 8, 8⟩, ⟨0, 4, 4, 8⟩, ⟨2, 0, 4, 4⟩, ⟨0, 2, 2, 4⟩, ⟨1, 0, 2, 2⟩, ⟨0, 1, 1, 2⟩]

def all (h : Head) : List Pass := if h.interlaced then interlaced else [⟨0, 0, 1, 1⟩]

/-- How many of `n` pixels lie on the grid that begins at `start`. -/
def extent (n start step : Nat) : Nat := (n - start + (step - 1)) / step

def width (p : Pass) (n : Nat) : Nat := extent n p.x p.stepX

/-- The rows of the pass that hold pixels, in an image of this size. -/
def height (p : Pass) (width height : Nat) : Nat :=
  if p.width width = 0 then 0 else extent height p.y p.stepY

def covers (p : Pass) (x y : Nat) : Bool :=
  p.x ≤ x && p.y ≤ y && (x - p.x) % p.stepX = 0 && (y - p.y) % p.stepY = 0

end Pass

structure PassRows where
  pass : Pass
  rows : Array Bytes

/-- Reads `n` rows of `length` bytes from `start` on, below `above`. -/
def readRows (raw : Bytes) (step length : Nat) : Nat → Nat → Bytes → Array Bytes → Coded (Array Bytes × Nat)
  | 0, start, _, rows => .ok (rows, start)
  | n + 1, start, above, rows => do
    let filter ← Coded.ofOption "there are too few pixels" (raw.at? start)
    let row ← Coded.ofOption "there are too few pixels" (raw.slice? (start + 1) length)
    let row ← Coded.ofOption "there is no such filter" (unfilter filter step above row)
    readRows raw step length n (start + 1 + length) row (rows.push row)

def readPasses (h : Head) (raw : Bytes) (width height : Nat) : List Pass → Nat → Coded (List PassRows)
  | [], _ => .ok []
  | p :: rest, start => do
    let length := h.rowBytes (p.width width)
    let (rows, next) ← readRows raw h.filterStep length (p.height width height) start
      ByteArray.empty #[]
    return ⟨p, rows⟩ :: (← readPasses h raw width height rest next)

end ImageLoader.Png
