import ImageLoader.Codec.Basic

/-!
# QOI images

A QOI file is a header of 14 bytes, a sequence of small commands, and eight bytes that end it.  A command gives one
pixel, by its values or by its difference from the last one or by its place in a table of 64 pixels, or repeats the
last one.

* `Qoi.header` — the header.
* `Qoi.pixels` — the pixels.
-/

namespace ImageLoader.Qoi

def maxPixels : Nat := 400000000

def header (data : Bytes) : Coded ImageHeader := do
  let number (start len : Nat) : Coded Nat :=
    Coded.ofOption "the header is cut off" (data.bigEndian? start len)
  let _ ← number 0 14
  let width ← number 4 4
  let height ← number 8 4
  let channels ← number 12 1
  let space ← number 13 1
  if !data.startsWith "qoif".toUTF8.toList ∨ 1 < space then throw (.damaged "the header is damaged")
  if width * height = 0 ∨ maxPixels < width * height then
    throw (.damaged "the size is not possible")
  let format ← match channels with
    | 3 => pure MemoryFormat.r8g8b8
    | 4 => pure MemoryFormat.r8g8b8a8
    | _ => throw (.damaged "the number of channels is not possible")
  return { width := UInt32.ofNat width, height := UInt32.ofNat height, format }

structure Pixel where
  r : UInt8
  g : UInt8
  b : UInt8
  a : UInt8

namespace Pixel

/-- The place of a pixel in the table. -/
def slot (p : Pixel) : Nat :=
  (p.r.toNat * 3 + p.g.toNat * 5 + p.b.toNat * 7 + p.a.toNat * 11) % 64

def bytes (p : Pixel) (hasAlpha : Bool) : List UInt8 :=
  if hasAlpha then [p.r, p.g, p.b, p.a] else [p.r, p.g, p.b]

def shift (p : Pixel) (r g b : UInt8) : Pixel := { p with r := p.r + r, g := p.g + g, b := p.b + b }

end Pixel

inductive Step where
  /-- The pixel in the table at this place, which is left as it is. -/
  | recall (slot : Nat)
  /-- The last pixel, this many times. -/
  | again (times : Nat)
  /-- A new pixel. -/
  | paint (p : Pixel)

/-- The command at a place, after the pixel `last`, and the place behind it.  Alpha counts only in images that
have it. -/
def readStep (data : Bytes) (hasAlpha : Bool) (last : Pixel) (start : Nat) : Option (Step × Nat) := do
  let op ← data.at? start
  let at1 := data.at? (start + 1)
  if op = 0xFE then
    let r ← at1
    let g ← data.at? (start + 2)
    let b ← data.at? (start + 3)
    return (.paint { last with r, g, b }, start + 4)
  else if op = 0xFF then
    if hasAlpha then
      let r ← at1
      let g ← data.at? (start + 2)
      let b ← data.at? (start + 3)
      let a ← data.at? (start + 4)
      return (.paint ⟨r, g, b, a⟩, start + 5)
    else return (.paint last, start + 1)
  else if op < 0x40 then return (.recall op.toNat, start + 1)
  else if op < 0x80 then
    return (.paint (last.shift (op / 16 % 4 - 2) (op / 4 % 4 - 2) (op % 4 - 2)), start + 1)
  else if op < 0xC0 then
    let detail ← at1
    let green := op % 64 - 32
    return (.paint (last.shift (green + detail / 16 - 8) green (green + detail % 16 - 8)), start + 2)
  else return (.again (op.toNat % 64 + 1), start + 1)

abbrev Table := Array Pixel

/-- Reads `n` more pixels from a place on, behind those that are done; gives the place behind the last. -/
def readPixels (data : Bytes) (hasAlpha : Bool) : Nat → Nat → Nat → Pixel → Table → Bytes →
    Coded (Bytes × Nat)
  | 0, _, _, _, _, _ => .error (.damaged "the pixels do not end")
  | _ + 1, 0, start, _, _, out => .ok (out, start)
  | fuel + 1, n + 1, start, last, table, out => do
    let put (p : Pixel) (times : Nat) : Bytes :=
      out ++ Bytes.ofList ((List.replicate times (p.bytes hasAlpha)).flatten)
    match ← Coded.ofOption "the file ends early" (readStep data hasAlpha last start) with
    | (.recall slot, next) =>
      let p := table.getD slot ⟨0, 0, 0, 0⟩
      let p := if hasAlpha then p else { p with a := last.a }
      readPixels data hasAlpha fuel n next p table (put p 1)
    | (.again times, next) =>
      let times := min times (n + 1)
      readPixels data hasAlpha fuel (n + 1 - times) next last table (put last times)
    | (.paint p, next) =>
      readPixels data hasAlpha fuel n next p (table.setIfInBounds p.slot p) (put p 1)

def ending : List UInt8 := [0, 0, 0, 0, 0, 0, 0, 1]

def pixels (data : Bytes) : Coded Bytes := do
  let h ← header data
  let table := Array.replicate 64 (⟨0, 0, 0, 0⟩ : Pixel)
  let (out, next) ← readPixels data h.format.hasAlpha (h.area + 1) h.area 14 ⟨0, 0, 0, 255⟩ table
    ByteArray.empty
  if (data.extract next (next + 8)).toList ≠ ending then throw (.damaged "the end is missing")
  return out

end ImageLoader.Qoi
