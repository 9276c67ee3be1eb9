import ImageLoader.Codec.Basic
import ImageLoader.Text.Blank
import ImageLoader.Text.Decimal

/-!
# Radiance images

A Radiance file begins with lines of text: a signature, attributes, an empty line, and the size.  Rows of pixels
follow, four bytes each: three mantissas and an exponent that they share.  A row may also be packed, by runs of
pixels or by runs of bytes.

* `Radiance.header` — what the lines say.
* `Radiance.pixels` — the pixels, as numbers of single precision.
-/

namespace ImageLoader.Radiance

/-! ## Lines -/

/-- The bytes of a line, without its end, and the place behind it; none at the end of the file. -/
def line? (data : Bytes) (start : Nat) : Option (List UInt8 × Nat) :=
  let rest := (data.drop start).toList
  let line := rest.takeWhile (· ≠ 10)
  if rest.isEmpty then none else some (line, start + line.length + 1)

/-- The text of a line; bytes beyond ASCII are no letters. -/
def text (line : List UInt8) : List Char :=
  line.map fun b => if b < 128 then Char.ofNat b.toNat else Char.ofNat 0xFFFD

/-- The place behind the empty line that ends the attributes. -/
def skipAttributes (data : Bytes) : Nat → Nat → Coded Nat
  | 0, _ => .error (.damaged "the header does not end")
  | fuel + 1, start => do
    let (line, next) ← Coded.ofOption "the header is cut off" (line? data start)
    if line.isEmpty then return next
    let key := (text line).takeWhile (· ≠ '=')
    let value := Text.trim ((text line).drop (key.length + 1))
    if line.head? ≠ some 0x23 ∧ key.length < line.length ∧ Text.trim key = "FORMAT".toList ∧
        value ≠ "32-bit_rle_rgbe".toList then
      throw (.unsupported "the pixels are in another format")
    skipAttributes data fuel next

def words (line : List Char) : List (List Char) :=
  (line.splitBy fun a b => Text.isBlank a == Text.isBlank b).filter fun w => !w.all Text.isBlank

/-- The size in the line `-Y height +X width`. -/
def size (line : List Char) : Coded (Nat × Nat) := do
  match words line with
  | [tag, first, tag', second] =>
    if tag = "-Y".toList ∧ tag' = "+X".toList then
      let height ← Coded.ofOption "the size is no number" (Text.Decimal.parse? UInt32.size first)
      let width ← Coded.ofOption "the size is no number" (Text.Decimal.parse? UInt32.size second)
      return (width, height)
    else throw (.unsupported "the rows are in another order")
  | _ => throw (.damaged "the size is missing")

def readHeader (data : Bytes) : Coded (ImageHeader × Nat) := do
  if !data.startsWith "#?RADIANCE".toUTF8.toList then throw (.damaged "the signature is wrong")
  let start := match line? data 10 with
    | some (_, next) => next
    | none => data.size
  let start ← skipAttributes data (data.size + 1) start
  let (line, next) ← Coded.ofOption "the size is missing" (line? data start)
  let (width, height) ← size (text line)
  checkCountable width height 3
  return ({ width := UInt32.ofNat width, height := UInt32.ofNat height,
            format := .r32g32b32Float, bitDepth := 32 }, next)

def header (data : Bytes) : Coded ImageHeader := (readHeader data).map Prod.fst

/-! ## Rows -/

abbrev Pixel := List UInt8

def pixelAt (data : Bytes) (start : Nat) : Coded Pixel :=
  (Coded.ofOption "the file ends early" (data.slice? start 4)).map ByteArray.toList

/-- The length of the run that a pixel stands for, if it is no pixel. -/
def runLength? : Pixel → Option Nat
  | [1, 1, 1, n] => some n.toNat
  | _ => none

/-- Reads the rest of a row of `width` pixels.  Runs that follow each other are digits of one length, the lowest
first. -/
def readRuns (data : Bytes) (width : Nat) : Nat → Nat → Nat → Pixel → Array Pixel →
    Coded (Array Pixel × Nat)
  | 0, _, _, _, _ => .error (.damaged "a row does not end")
  | fuel + 1, start, unit, last, row =>
    if width ≤ row.size then .ok (row, start)
    else do
      let p ← pixelAt data start
      match runLength? p with
      | some n =>
        if width < row.size + n * unit then throw (.damaged "a run is too long")
        readRuns data width fuel (start + 4) (unit * 256) last
          (row ++ Array.replicate (n * unit) last)
      | none => readRuns data width fuel (start + 4) 1 p (row.push p)

/-- Reads `width` bytes of one component, packed by runs. -/
def readComponent (data : Bytes) (width : Nat) : Nat → Nat → Bytes → Coded (Bytes × Nat)
  | 0, _, _ => .error (.damaged "a row does not end")
  | fuel + 1, start, out =>
    if width ≤ out.size then .ok (out, start)
    else do
      let n := (← Coded.ofOption "the file ends early" (data.at? start)).toNat
      let length := if n ≤ 128 then n else n - 128
      if width < out.size + length then throw (.damaged "a run is too long")
      if n ≤ 128 then
        let part ← Coded.ofOption "the file ends early" (data.slice? (start + 1) length)
        readComponent data width fuel (start + 1 + length) (out ++ part)
      else
        let value ← Coded.ofOption "the file ends early" (data.at? (start + 1))
        readComponent data width fuel (start + 2) (out ++ Bytes.fill length value)

def readPacked (data : Bytes) (width start : Nat) : Coded (Array Pixel × Nat) := do
  let fuel := data.size + 1
  let (r, start) ← readComponent data width fuel start ByteArray.empty
  let (g, start) ← readComponent data width fuel start ByteArray.empty
  let (b, start) ← readComponent data width fuel start ByteArray.empty
  let (e, start) ← readComponent data width fuel start ByteArray.empty
  let row := Array.ofFn fun i : Fin width =>
    [(r.at? i).getD 0, (g.at? i).getD 0, (b.at? i).getD 0, (e.at? i).getD 0]
  return (row, start)

def readRow (data : Bytes) (width start : Nat) : Coded (Array Pixel × Nat) := do
  let first ← pixelAt data start
  match first with
  | [2, 2, c, _] =>
    if c < 128 then readPacked data width (start + 4)
    else readRuns data width (data.size + 1) (start + 4) 1 first #[first]
  | _ =>
    if (runLength? first).isSome then throw (.damaged "a row begins with a run")
    readRuns data width (data.size + 1) (start + 4) 1 first #[first]

/-! ## Numbers -/

/-- The weight of the mantissas under an exponent: `2 ^ (e - 136)`, and zero for zero. -/
def weight (e : UInt8) : Float32 :=
  let power := if 1 < e then (e.toUInt32 - 1) <<< 23 else e.toUInt32 <<< 22
  Float32.ofBits power / Single.ofNat 256

def floats : Pixel → Bytes
  | [r, g, b, e] => Bytes.join ([r, g, b].map fun m => Bytes.ofUInt32 (weight e * m.toFloat32).toBits)
  | _ => ByteArray.empty

/-- The pixels of `n` rows from a place on, behind those that are done. -/
def readRows (data : Bytes) (width : Nat) : Nat → Nat → Bytes → Coded Bytes
  | 0, _, out => .ok out
  | n + 1, start, out => do
    let (row, next) ← readRow data width start
    readRows data width n next (out ++ Bytes.join (row.toList.map floats))

def pixels (data : Bytes) : Coded Bytes := do
  let (h, start) ← readHeader data
  if h.area = 0 then return ByteArray.empty
  readRows data h.width.toNat h.height.toNat start ByteArray.empty

end ImageLoader.Radiance
