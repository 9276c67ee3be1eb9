/-!
# Integers near a number of single precision

The integer next to a single: below, above, or nearest with halves away from zero.  The value of a
finite single is `m * 2 ^ e`, and everything here is exact arithmetic on `m` and `e`.

* `Single.floor`, `Single.ceil` — the integers around a number.
* `Single.nearest` — the nearest natural number; what is negative or no number gives zero.
-/

namespace ImageLoader.Single

open Float.Model

def floorScaled (m : Nat) (e : Int) : Nat :=
  if 0 ≤ e then m <<< e.toNat else m >>> (-e).toNat

/-- The least natural number that is not below `m * 2 ^ e`. -/
def ceilScaled (m : Nat) (e : Int) : Nat :=
  if 0 ≤ e then m <<< e.toNat else (m + 1 <<< (-e).toNat - 1) >>> (-e).toNat

/-- The natural number nearest to `m * 2 ^ e`; a half goes up. -/
def nearestScaled (m : Nat) (e : Int) : Nat :=
  if 0 ≤ e then m <<< e.toNat else (2 * m + 1 <<< (-e).toNat) >>> ((-e).toNat + 1)

/-- The greatest integer that is not above a number; zero for what is not finite. -/
def floor (x : Float32) : Int :=
  match x.toModel.unpack with
  | .finite .positive m e _ => floorScaled m e
  | .finite .negative m e _ => -(ceilScaled m e : Int)
  | _ => 0

def ceil (x : Float32) : Int :=
  match x.toModel.unpack with
  | .finite .positive m e _ => ceilScaled m e
  | .finite .negative m e _ => -(floorScaled m e : Int)
  | _ => 0

/-- The nearest natural number, halves away from zero; zero for what is negative or not finite. -/
def nearest (x : Float32) : Nat :=
  match x.toModel.unpack with
  | .finite .positive m e _ => nearestScaled m e
  | _ => 0

/-- The natural number below a number; zero for what is negative or not finite. -/
def truncate (x : Float32) : Nat := (floor x).toNat

/-- A natural number below `2 ^ 32`, to the nearest single. -/
def ofNat (n : Nat) : Float32 := (UInt32.ofNat n).toFloat32

/-- `x`, moved to the nearer end if it lies outside `lo .. hi`. -/
def clamp (x lo hi : Float32) : Float32 :=
  let x := if x < lo then lo else x
  if hi < x then hi else x

end ImageLoader.Single
