import ImageLoader.Float.Integral

/-!
# Resampling

A raster of four channels is brought to another size by mixing neighbouring pixels, first along its columns
and then along its rows.  The share of a pixel falls off linearly with its distance; when the raster shrinks,
the slope is stretched by the ratio of the sizes, so that every pixel has a share somewhere.

* `Window.of` — the pixels of a line that a new pixel is mixed of, with their shares.
* `Raster.resize` — a raster of another size.
* `size_resize` — how many samples it has.
-/

namespace ImageLoader

/-- Pixels of a line, beginning with number `first`, and the share that each of them has. -/
structure Window where
  first : Nat
  shares : List Float32

namespace Window

/-- The share of a pixel at distance `x`. -/
def slope (x : Float32) : Float32 :=
  if x.abs < Single.ofNat 1 then Single.ofNat 1 - x.abs else Single.ofNat 0

/-- `x`, moved to the nearer end if it lies outside `lo .. hi`. -/
def clampIndex (x : Int) (lo hi : Nat) : Nat := min hi (max lo x.toNat)

/-- The shares in proportion, so that together they make one. -/
def normalize (l : List Float32) : List Float32 :=
  let sum := l.foldl (· + ·) (Single.ofNat 0)
  l.map (· / sum)

def of (source target index : Nat) : Window :=
  let ratio := Single.ofNat source / Single.ofNat target
  let reach := if ratio < Single.ofNat 1 then Single.ofNat 1 else ratio
  let half := Single.ofNat 1 / Single.ofNat 2
  let center := (Single.ofNat index + half) * ratio
  let first := clampIndex (Single.floor (center - reach)) 0 (source - 1)
  let last := clampIndex (Single.ceil (center + reach)) (first + 1) source
  let middle := center - half
  ⟨first, normalize ((List.range (last - first)).map fun k =>
    slope ((Single.ofNat (first + k) - middle) / reach))⟩

/-- The mixture of pixels that a window asks for; pixel `i` has the value `value i`. -/
def mix (w : Window) (value : Nat → Float32) : Float32 :=
  (w.shares.foldl (fun (t, i) share => (t + value i * share, i + 1))
    (Single.ofNat 0, w.first)).1

end Window

/-- Four numbers for each pixel, row by row. -/
structure Raster where
  width : Nat
  height : Nat
  samples : Array Float32

namespace Raster

def sample (r : Raster) (x y c : Nat) : Float32 :=
  r.samples.getD ((y * r.width + x) * 4 + c) (Single.ofNat 0)

def ofSamples (width height : Nat) (value : Nat → Nat → Nat → Float32) : Raster where
  width := width
  height := height
  samples := Array.ofFn fun i : Fin (width * height * 4) =>
    value (i / 4 % width) (i / 4 / width) (i % 4)

def resizeColumns (r : Raster) (height : Nat) : Raster :=
  let windows := Array.ofFn fun y : Fin height => Window.of r.height height y
  ofSamples r.width height fun x y c =>
    match windows[y]? with
    | some w => w.mix fun i => r.sample x i c
    | none => Single.ofNat 0

def resizeRows (r : Raster) (width : Nat) : Raster :=
  let windows := Array.ofFn fun x : Fin width => Window.of r.width width x
  ofSamples width r.height fun x y c =>
    match windows[x]? with
    | some w => w.mix fun i => r.sample i y c
    | none => Single.ofNat 0

def resize (r : Raster) (width height : Nat) : Raster :=
  (r.resizeColumns height).resizeRows width

theorem size_resize (r : Raster) (width height : Nat) :
    (r.resize width height).samples.size = width * height * 4 := by
  simp [resize, resizeRows, resizeColumns, ofSamples]

end Raster

end ImageLoader
