import ImageLoader.Codec.Basic

/-!
# Bits

Compressed data is a sequence of bits, beginning with the lowest bit of the first byte.  A number of several
bits begins with its lowest one.

* `BitSource.take` — the next bits as a number.
* `BitSource.toByteBoundary` — skips the rest of a byte.
-/

namespace ImageLoader

structure BitSource where
  data : Bytes
  position : Nat := 0

abbrev BitReader (α : Type) := StateT BitSource (Except CodecFault) α

namespace BitSource

def remaining (s : BitSource) : Nat := s.data.size * 8 - s.position

def bit : BitReader Nat := fun s =>
  match s.data.at? (s.position / 8) with
  | none => .error (.damaged "the data ends early")
  | some b => .ok (b.toNat >>> (s.position % 8) % 2, { s with position := s.position + 1 })

def take : Nat → BitReader Nat
  | 0 => pure 0
  | n + 1 => do
    let low ← bit
    let high ← take n
    return low + 2 * high

/-- Skips the rest of a byte that was begun. -/
def toByteBoundary : BitReader Unit :=
  modify fun s => { s with position := (s.position + 7) / 8 * 8 }

/-- The next `n` bytes, from a byte boundary on. -/
def takeBytes (n : Nat) : BitReader Bytes := fun s =>
  match s.data.slice? (s.position / 8) n with
  | none => .error (.damaged "the data ends early")
  | some b => .ok (b, { s with position := s.position + 8 * n })

end BitSource

end ImageLoader
