/-!
# What a caller asks of a frame

A request names a region to cut out and a size to scale to; both are optional.

* `ClipRegion.fits_iff` — a region fits a size exactly when it ends inside it, as natural numbers.
-/

namespace ImageLoader

/-- A rectangle of pixels, measured from the upper left corner. -/
structure ClipRegion where
  x : UInt32
  y : UInt32
  width : UInt32
  height : UInt32
deriving DecidableEq, Inhabited

namespace ClipRegion

def display (r : ClipRegion) : String := s!"{r.width}x{r.height}+{r.x}+{r.y}"

def endsInside (r : ClipRegion) (width height : UInt32) : Bool :=
  r.x.toNat + r.width.toNat ≤ width.toNat && r.y.toNat + r.height.toNat ≤ height.toNat

def fits (r : ClipRegion) (width height : UInt32) : Bool :=
  r.width != 0 && r.height != 0 && r.endsInside width height

theorem fits_iff {r : ClipRegion} {width height : UInt32} :
    r.fits width height = true ↔
      r.width ≠ 0 ∧ r.height ≠ 0 ∧ r.x.toNat + r.width.toNat ≤ width.toNat ∧
        r.y.toNat + r.height.toNat ≤ height.toNat := by
  simp [fits, endsInside, and_assoc]

end ClipRegion

structure FrameRequest where
  clip : Option ClipRegion := none
  scale : Option (UInt32 × UInt32) := none
deriving DecidableEq, Inhabited

end ImageLoader
