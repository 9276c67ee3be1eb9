/-!
# Byte strings

Pixel buffers and encoded images are byte strings.  This module adds to `ByteArray` the few operations
the loader needs: slices that know their bounds, moves inside a buffer, and words of two or four bytes
in either order.

* `slice?_eq_some_iff` — a slice exists exactly when it ends inside the buffer.
* `size_ofList`, `size_fill` — how long a built buffer is.
-/

namespace ImageLoader

abbrev Bytes := ByteArray

namespace Bytes

instance decidableEq : DecidableEq Bytes := ByteArray.instDecidableEq

def ofList (l : List UInt8) : Bytes := l.toByteArray

/-- The byte `v`, `n` times. -/
def fill (n : Nat) (v : UInt8) : Bytes := ofList (List.replicate n v)

def join (parts : List Bytes) : Bytes := parts.foldl (· ++ ·) ByteArray.empty

def at? (b : Bytes) (i : Nat) : Option UInt8 := b[i]?

/-- The `len` bytes from `start` on, if the buffer reaches that far. -/
def slice? (b : Bytes) (start len : Nat) : Option Bytes :=
  if start + len ≤ b.size then some (b.extract start (start + len)) else none

def drop (b : Bytes) (start : Nat) : Bytes := b.extract start b.size

/-- The first `n` bytes, or all of them if there are fewer. -/
def truncate (b : Bytes) (n : Nat) : Bytes := b.extract 0 n

/-- The buffer with `part` written over it from `start` on. -/
def overwrite (b : Bytes) (start : Nat) (part : Bytes) : Bytes :=
  b.extract 0 start ++ part ++ b.extract (start + part.size) b.size

def startsWith (b : Bytes) (l : List UInt8) : Bool := b.toList.take l.length == l

/-! ## Words -/

/-- Two bytes, the lower one first. -/
def ofUInt16 (v : UInt16) : Bytes := ofList [v.toUInt8, (v >>> 8).toUInt8]

/-- Four bytes, the lowest one first. -/
def ofUInt32 (v : UInt32) : Bytes :=
  ofList [v.toUInt8, (v >>> 8).toUInt8, (v >>> 16).toUInt8, (v >>> 24).toUInt8]

def word16 (a b : UInt8) : UInt16 := a.toUInt16 ||| (b.toUInt16 <<< 8)

/-- The word whose bytes are `a`, `b`, `c`, `d` from the lowest up. -/
def word32 (a b c d : UInt8) : UInt32 :=
  a.toUInt32 ||| (b.toUInt32 <<< 8) ||| (c.toUInt32 <<< 16) ||| (d.toUInt32 <<< 24)

/-- The number that `len` bytes from `start` on spell, the highest byte first. -/
def bigEndian? (b : Bytes) (start len : Nat) : Option Nat :=
  (b.slice? start len).map fun s => s.toList.foldl (fun n v => n * 256 + v.toNat) 0

/-- The number that `len` bytes from `start` on spell, the lowest byte first. -/
def littleEndian? (b : Bytes) (start len : Nat) : Option Nat :=
  (b.slice? start len).map fun s => s.toList.foldr (fun v n => v.toNat + 256 * n) 0

/-! ## Lengths -/

@[simp] theorem size_ofList (l : List UInt8) : (ofList l).size = l.length := by
  simp [ofList]

@[simp] theorem size_fill (n : Nat) (v : UInt8) : (fill n v).size = n := by
  simp [fill]

theorem slice?_eq_some_iff {b : Bytes} {start len : Nat} {s : Bytes} :
    b.slice? start len = some s ↔ start + len ≤ b.size ∧ s = b.extract start (start + len) := by
  unfold slice?
  split
  next h => simp [h, eq_comm]
  next h => simp [h]

theorem size_of_slice? {b s : Bytes} {start len : Nat} (h : b.slice? start len = some s) :
    s.size = len := by
  obtain ⟨hle, rfl⟩ := slice?_eq_some_iff.1 h
  rw [ByteArray.size_extract]
  omega

theorem size_overwrite {b part : Bytes} {start : Nat} (h : start + part.size ≤ b.size) :
    (b.overwrite start part).size = b.size := by
  simp only [overwrite, ByteArray.size_append, ByteArray.size_extract]
  omega

end Bytes

end ImageLoader
