import ImageLoader.Bytes
import ImageLoader.Float.Integral

/-!
# The canvas of an animation

The pictures of an animation are drawn onto a canvas of straight colour and alpha, four bytes a pixel.  What
lies outside of the canvas is cut off.

* `Canvas.drawOver` — draws a picture, with a rule for what each pixel becomes.
* `Canvas.blendPixel` — the rule that lets the canvas shine through.
-/

namespace ImageLoader

structure Region where
  x : Nat
  y : Nat
  width : Nat
  height : Nat
deriving DecidableEq

def Region.holds (r : Region) (x y : Nat) : Bool :=
  r.x ≤ x && x < r.x + r.width && r.y ≤ y && y < r.y + r.height

/-- A picture of four bytes a pixel. -/
structure Canvas where
  width : Nat
  height : Nat
  pixels : Bytes
deriving DecidableEq

namespace Canvas

def blank (width height : Nat) : Canvas := ⟨width, height, Bytes.fill (width * height * 4) 0⟩

/-- The four bytes of a pixel, all zero outside. -/
def pixel (c : Canvas) (x y : Nat) : List UInt8 :=
  match c.pixels.slice? ((y * c.width + x) * 4) 4 with
  | some b => b.toList
  | none => [0, 0, 0, 0]

def ofPixels (width height : Nat) (colour : Nat → Nat → List UInt8) : Canvas where
  width := width
  height := height
  pixels := Bytes.ofList ((List.range height).flatMap fun y =>
    (List.range width).flatMap fun x => colour x y)

/-- The canvas with the pixels of a rectangle changed by a rule, which is given their place in it. -/
def change (c : Canvas) (r : Region) (rule : Nat → Nat → List UInt8 → List UInt8) : Canvas :=
  ofPixels c.width c.height fun x y =>
    if r.holds x y then rule (x - r.x) (y - r.y) (c.pixel x y) else c.pixel x y

/-- Draws a picture at a place; `rule below above` is what a pixel becomes. -/
def drawOver (c : Canvas) (x y : Nat) (picture : Canvas)
    (rule : List UInt8 → List UInt8 → List UInt8) : Canvas :=
  c.change ⟨x, y, picture.width, picture.height⟩ fun i j below => rule below (picture.pixel i j)

def cover (_ above : List UInt8) : List UInt8 := above

def clear (c : Canvas) (r : Region) : Canvas := c.change r fun _ _ _ => [0, 0, 0, 0]

/-- Gives a rectangle back what it was on another canvas. -/
def restore (c : Canvas) (r : Region) (before : Canvas) : Canvas :=
  c.change r fun i j _ => before.pixel (r.x + i) (r.y + j)

/-! ## Blending -/

def fraction (v : UInt8) : Float32 := v.toFloat32 / Single.ofNat 255

/-- A fraction of one as a byte, rounded down. -/
def byte (x : Float32) : UInt8 := UInt8.ofNat (Single.truncate (Single.ofNat 255 * x))

/-- The rule that lets what is below shine through. -/
def blendPixel (below above : List UInt8) : List UInt8 :=
  match below, above with
  | [r, g, b, a], [r', g', b', a'] =>
    if a' = 0 then below
    else if a' = 255 then above
    else
      let back := fraction a
      let front := fraction a'
      let alpha := back + front - back * front
      let mix (v v' : UInt8) : UInt8 :=
        byte ((fraction v' * front + fraction v * back * (Single.ofNat 1 - front)) / alpha)
      [mix r r', mix g g', mix b b', byte alpha]
  | _, _ => below

end Canvas

end ImageLoader
