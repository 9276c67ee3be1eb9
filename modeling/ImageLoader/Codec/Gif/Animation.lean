import ImageLoader.Codec.Canvas
import ImageLoader.Codec.Gif.Blocks
import ImageLoader.Codec.Gif.Lzw

/-!
# GIF images

A GIF image is an animation even if it has one picture.  The pictures are drawn onto a canvas of the size of the
screen; where a picture is see-through, the canvas is shown.

* `Gif.header` — what the codec learns from the screen.
* `Gif.pictures` — the canvas with each picture, and its delay, up to the first fault.
-/

namespace ImageLoader.Gif

def header (data : Bytes) : Coded ImageHeader := do
  let (screen, next) ← Screen.read data
  reachesBlocks data (data.size + 1) next false
  return { width := screen.width, height := screen.height, format := .r8g8b8a8 }

/-! ## Memory -/

/-- What is left of a bound on memory when `n` bytes are set aside. -/
def reserve (bound : Option Nat) (n : Nat) : Coded (Option Nat) :=
  match bound with
  | none => .ok none
  | some b => if b < n then .error (.exceedsLimits "there is too little memory") else .ok (some (b - n))

/-! ## Pictures -/

/-- The rows of an interlaced picture in the order in which they come. -/
def interlacedRows (height : Nat) : List Nat :=
  let rows (start step : Nat) := (List.range height).filter fun y => start ≤ y && (y - start) % step = 0
  rows 0 8 ++ rows 4 8 ++ rows 2 4 ++ rows 1 2

/-- The indices of a picture row by row from the top, from the order in which they come. -/
def Picture.arrange (p : Picture) (indices : Bytes) : Bytes :=
  if p.interlaced then
    let order := interlacedRows p.height
    Bytes.join ((List.range p.height).map fun y =>
      let start := (order.idxOf y) * p.width
      indices.extract start (start + p.width))
  else indices

/-- The colour of an index: nothing for the index that is see-through, and beyond the palette. -/
def colour (palette : Bytes) (transparent : Option UInt8) (index : UInt8) : List UInt8 :=
  match palette.slice? (3 * index.toNat) 3 with
  | some c => c.toList ++ [if transparent = some index then 0 else 255]
  | none => [0, 0, 0, 0]

def Picture.render (p : Picture) (palette indices : Bytes) : Canvas where
  width := p.width
  height := p.height
  pixels := Bytes.ofList ((p.arrange indices).toList.flatMap (colour palette p.control.transparent))

def readCodes (data : Bytes) (screen : Screen) (p : Picture) (start : Nat) : Coded (Canvas × Nat) := do
  if p.width = 0 ∨ p.height = 0 then throw (.damaged "a picture has no pixels")
  let palette ← Coded.ofOption "there is no palette" (p.palette <|> screen.palette)
  let size ← byteAt data start
  let (codes, next) ← dataAt data (start + 1)
  return (p.render palette (← Lzw.decode size (p.width * p.height) codes), next)

def showThrough (below above : List UInt8) : List UInt8 :=
  match above with
  | [_, _, _, 0] => below
  | _ => above

def Picture.draw (p : Picture) (canvas picture : Canvas) : Canvas × Canvas :=
  let shown := canvas.drawOver p.x p.y picture showThrough
  let next := match p.control.disposal with
    | .keep => shown
    | .clear => canvas.clear ⟨p.x, p.y, p.width, p.height⟩
    | .restore => canvas
  (shown, next)

def Picture.isFull (p : Picture) (screen : Screen) : Bool :=
  p.x = 0 && p.y = 0 && p.width = screen.width.toNat && p.height = screen.height.toNat

/-- The next picture, drawn, with its delay, the canvas that it leaves, and the place behind it. -/
def nextDrawn (data : Bytes) (screen : Screen) (bound : Option Nat) (canvas : Canvas) (start : Nat) :
    Coded (Option (Canvas × Nat × Canvas × Nat)) := do
  match ← nextPicture? data (data.size + 1) start {} with
  | none => return none
  | some (p, codes) =>
    let left ← reserve bound (4 * p.width * p.height)
    let (picture, next) ← readCodes data screen p codes
    if !p.isFull screen then
      let _ ← reserve left (4 * screen.width.toNat * screen.height.toNat)
    let (shown, kept) := p.draw canvas picture
    return some (shown, p.control.delay, kept, next)

def delay (n : Nat) : Duration := .ofNanoseconds (n * 10000000)

def picturesFrom (data : Bytes) (screen : Screen) (bound : Option Nat) :
    Nat → Canvas → Nat → List (Coded (Bytes × Duration))
  | 0, _, _ => []
  | fuel + 1, canvas, start =>
    match nextDrawn data screen bound canvas start with
    | .error e => [.error e]
    | .ok none => []
    | .ok (some (shown, hundredths, kept, next)) =>
      .ok (shown.pixels, delay hundredths) :: picturesFrom data screen bound fuel kept next

/-- The canvas with each picture, and its delay, up to the first fault. -/
def pictures (data : Bytes) (bound : Option UInt64) : List (Coded (Bytes × Duration)) :=
  let opened : Coded (Screen × Nat × Option Nat) := do
    let (screen, next) ← Screen.read data
    let left ← reserve (bound.map UInt64.toNat) (4 * screen.width.toNat * screen.height.toNat)
    if screen.width = 0 ∨ screen.height = 0 then throw (.damaged "the screen has no pixels")
    return (screen, next, left)
  match opened with
  | .error e => [.error e]
  | .ok (screen, next, left) =>
    picturesFrom data screen left (data.size + 1)
      (Canvas.blank screen.width.toNat screen.height.toNat) next

end ImageLoader.Gif
