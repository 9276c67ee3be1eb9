import ImageLoader.Codec.Basic

/-!
# TIFF images

A TIFF file begins with its byte order and the place of a directory of numbered fields.  Images of one strip that
is not compressed are read: gray with 8 or 16 bits, and colour with or without alpha in numbers of single
precision.

* `Tiff.header` — what the fields say.
* `Tiff.pixels` — the pixels, in the byte order of the library.
-/

namespace ImageLoader.Tiff

structure File where
  data : Bytes
  littleEndian : Bool
  /-- The fields: tag, type, number of values, and the place of the values. -/
  fields : List (Nat × Nat × Nat × Nat)

namespace File

def number (data : Bytes) (littleEndian : Bool) (start len : Nat) : Coded Nat :=
  Coded.ofOption "the file ends early"
    (if littleEndian then data.littleEndian? start len else data.bigEndian? start len)

def sizeOf : Nat → Nat
  | 3 => 2
  | 4 => 4
  | _ => 1

def readFields (data : Bytes) (littleEndian : Bool) : Nat → Nat → Coded (List (Nat × Nat × Nat × Nat))
  | 0, _ => .ok []
  | n + 1, start => do
    let tag ← number data littleEndian start 2
    let kind ← number data littleEndian (start + 2) 2
    let count ← number data littleEndian (start + 4) 4
    let value ← number data littleEndian (start + 8) 4
    let place := if sizeOf kind * count ≤ 4 then start + 8 else value
    return (tag, kind, count, place) :: (← readFields data littleEndian n (start + 12))

def read (data : Bytes) : Coded File := do
  let littleEndian ← match (data.extract 0 4).toList with
    | [0x49, 0x49, 42, 0] => pure true
    | [0x4D, 0x4D, 0, 42] => pure false
    | _ => throw (.damaged "the signature is wrong")
  let start ← number data littleEndian 4 4
  let count ← number data littleEndian start 2
  let fields ← readFields data littleEndian count (start + 2)
  let _ ← number data littleEndian (start + 2 + 12 * count) 4
  return { data, littleEndian, fields }

/-- The values of a field, if it is there. -/
def values? (f : File) (tag : Nat) : Coded (Option (List Nat)) := do
  match f.fields.find? fun field => field.1 = tag with
  | none => return none
  | some (_, kind, count, place) =>
    if f.data.size < count then throw (.damaged "a field is too long")
    let size := sizeOf kind
    return some (← (List.range count).mapM fun i => number f.data f.littleEndian (place + size * i) size)

/-- The first value of a field, or what holds without it. -/
def valueD (f : File) (tag default : Nat) : Coded Nat := do
  return ((← f.values? tag).bind List.head?).getD default

def value (f : File) (tag : Nat) : Coded Nat := do
  Coded.ofOption "a field is missing" ((← f.values? tag).bind List.head?)

end File

/-! ## Fields -/

/-- The format of the pixels: photometric interpretation, samples per pixel, bits and kind of a sample. -/
def format (interpretation samples bits kind : Nat) : Coded MemoryFormat :=
  match interpretation, samples, bits, kind with
  | 1, 1, 8, 1 => .ok .g8
  | 1, 1, 16, 1 => .ok .g16
  | 2, 3, 32, 3 => .ok .r32g32b32Float
  | 2, 4, 32, 3 => .ok .r32g32b32a32Float
  | _, _, _, _ => .error (.unsupported "the pixels are in another format")

def readHeader (f : File) : Coded ImageHeader := do
  let width ← f.value 256
  let height ← f.value 257
  if width = 0 ∨ height = 0 then throw (.damaged "the size is not possible")
  let bits ← f.valueD 258 1
  let interpretation ← f.value 262
  let samples ← f.valueD 277 1
  let kind ← f.valueD 339 1
  let format ← format interpretation samples bits kind
  checkCountable width height format.nBytes
  return { width := UInt32.ofNat width, height := UInt32.ofNat height, format,
           bitDepth := UInt8.ofNat bits }

def header (data : Bytes) : Coded ImageHeader := do readHeader (← File.read data)

/-! ## Pixels -/

/-- Turns the bytes of every word of `size` bytes around. -/
def swapWords (size : Nat) (b : Bytes) : Bytes :=
  Bytes.ofList ((List.range (b.size / size)).flatMap fun i =>
    (b.extract (i * size) (i * size + size)).toList.reverse)

def pixels (data : Bytes) : Coded Bytes := do
  let f ← File.read data
  let h ← readHeader f
  if (← f.valueD 259 1) ≠ 1 then throw (.unsupported "the strip is compressed")
  let start ← f.value 273
  let length ← f.value 279
  let size := h.area * h.format.nBytes
  if length < size then throw (.damaged "the strip is too short")
  let strip ← Coded.ofOption "the file ends early" (data.slice? start size)
  return if f.littleEndian then strip else swapWords h.format.channelType.size strip

end ImageLoader.Tiff
