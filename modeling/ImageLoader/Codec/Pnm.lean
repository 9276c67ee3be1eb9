import ImageLoader.Codec.Basic
import ImageLoader.Float.Integral
import ImageLoader.Text.Blank
import ImageLoader.Text.Decimal

/-!
# Portable anymaps

An anymap begins with `P` and a digit.  Digits 1 to 6 stand for bitmaps, graymaps and pixmaps, first with samples as
text and then with samples as bytes; a header of two or three numbers follows.  Digit 7 stands for a header of named
lines.

* `Pnm.header` — what the header says.
* `Pnm.pixels` — the pixels, with samples spread over the whole range.
-/

namespace ImageLoader.Pnm

inductive Encoding where
  | text
  | bytes
deriving DecidableEq

inductive Samples where
  /-- Single bits, of which one is black. -/
  | bitmap
  /-- Bytes of which only zero and one are used. -/
  | flags (hasAlpha : Bool)
  /-- Numbers in this format. -/
  | levels (format : MemoryFormat)
deriving DecidableEq

namespace Samples

def format : Samples → MemoryFormat
  | bitmap => .g8
  | flags hasAlpha => if hasAlpha then .g8a8 else .g8
  | levels f => f

def bitDepth : Samples → UInt8
  | bitmap | flags _ => 1
  | levels f => UInt8.ofNat (8 * f.channelType.size)

end Samples

structure Header where
  width : Nat
  height : Nat
  /-- The sample that stands for full intensity. -/
  maximum : Nat
  samples : Samples
  encoding : Encoding
  /-- The place of the first sample. -/
  start : Nat

/-! ## Numbers in the header -/

/-- White space between numbers. -/
def isSeparator (b : UInt8) : Bool := (9 ≤ b && b ≤ 13) || b == 32

def endsLine (b : UInt8) : Bool := b == 10 || b == 13

/-- Reads a word, behind the bytes of it that were read.  `visible` tells whether the last byte was outside of
comments, which end with their line. -/
def readWord : List UInt8 → Bool → List UInt8 → Option (List UInt8 × List UInt8)
  | [], _, word => if word.isEmpty then none else some (word.reverse, [])
  | b :: rest, visible, word =>
    if visible && b != 0x23 then
      if isSeparator b then
        if word.isEmpty then readWord rest true word else some (word.reverse, rest)
      else readWord rest true (b :: word)
    else readWord rest (endsLine b) word

def characters (l : List UInt8) : List Char := l.map fun b => Char.ofNat b.toNat

/-- Reads a number of the header; gives what follows the white space behind it. -/
def readNumber (s : List UInt8) : Coded (Nat × List UInt8) := do
  let (word, rest) ← Coded.ofOption "the header is cut off" (readWord s true [])
  let n ← Coded.ofOption "a number is damaged" (Text.Decimal.unsigned? UInt32.size (characters word))
  return (n, rest)

/-- The format of samples up to a maximum, from those for one byte and for two. -/
def levels (maximum : Nat) (narrow wide : MemoryFormat) : Coded Samples :=
  if maximum = 0 ∨ 65535 < maximum then .error (.damaged "the maximum is not possible")
  else .ok (.levels (if maximum ≤ 255 then narrow else wide))

/-- Reads the header of a bitmap, a graymap or a pixmap. -/
def readPlain (data : Bytes) (digit : Nat) : Coded Header := do
  let (width, s) ← readNumber (data.drop 2).toList
  let (height, s) ← readNumber s
  let encoding := if digit ≤ 3 then Encoding.text else .bytes
  match digit % 3 with
  | 1 => return ⟨width, height, 1, .bitmap, encoding, data.size - s.length⟩
  | kind =>
    let (maximum, s) ← readNumber s
    let samples ← if kind = 2 then levels maximum .g8 .g16 else levels maximum .r8g8b8 .r16g16b16
    return ⟨width, height, maximum, samples, encoding, data.size - s.length⟩

/-! ## Named lines -/

structure Lines where
  width : Option Nat := none
  height : Option Nat := none
  depth : Option Nat := none
  maximum : Option Nat := none
  kind : Option String := none

/-- A number on a line, of which there must not be two. -/
def lineNumber (before : Option Nat) (text : List Char) : Coded (Option Nat) :=
  if before.isSome then .error (.damaged "a line comes twice")
  else (Coded.ofOption "a number is damaged" (Text.Decimal.parse? UInt32.size (Text.trim text))).map some

def Lines.note (l : Lines) (name : String) (text : List Char) : Coded Lines := do
  match name with
  | "WIDTH" => return { l with width := ← lineNumber l.width text }
  | "HEIGHT" => return { l with height := ← lineNumber l.height text }
  | "DEPTH" => return { l with depth := ← lineNumber l.depth text }
  | "MAXVAL" => return { l with maximum := ← lineNumber l.maximum text }
  | "TUPLTYPE" =>
    let word := String.ofList (Text.trim text)
    return { l with kind := some (match l.kind with
      | some k => k ++ " " ++ word
      | none => word) }
  | _ => throw (.damaged "a line is not known")

def samplesOf (kind : Option String) (depth maximum : Nat) : Coded Samples := do
  if maximum = 0 then throw (.damaged "the maximum is not possible")
  let expect (n : Nat) (narrow wide : MemoryFormat) : Coded Samples :=
    if depth = n then levels maximum narrow wide
    else .error (.damaged "the depth does not fit the type")
  let expectFlags (n : Nat) (hasAlpha : Bool) : Coded Samples :=
    if depth = n ∧ maximum = 1 then .ok (.flags hasAlpha)
    else .error (.damaged "the depth does not fit the type")
  match kind with
  | some "BLACKANDWHITE" => expectFlags 1 false
  | some "BLACKANDWHITE_ALPHA" => expectFlags 2 true
  | some "GRAYSCALE" => expect 1 .g8 .g16
  | some "GRAYSCALE_ALPHA" => expect 2 .g8a8 .g16a16
  | some "RGB" => expect 3 .r8g8b8 .r16g16b16
  | some "RGB_ALPHA" => expect 4 .r8g8b8a8 .r16g16b16a16
  | some _ => throw (.unsupported "the type of the samples is not known")
  | none =>
    match depth with
    | 1 => return .levels .g8
    | 2 => return .levels .g8a8
    | 3 => return .levels .r8g8b8
    | 4 => return .levels .r8g8b8a8
    | _ => throw (.damaged "the depth stands for no type")

/-- Reads named lines up to the last one; gives the number of bytes that are left. -/
def readLines : Nat → List UInt8 → Lines → Coded (Lines × Nat)
  | 0, _, _ => .error (.damaged "the header does not end")
  | fuel + 1, s, l => do
    let line := s.takeWhile (· ≠ 10)
    let rest := s.drop (line.length + 1)
    if s.isEmpty then throw (.damaged "the header is cut off")
    if line.head? = some 0x23 then readLines fuel rest l
    else
      if line.any (128 ≤ ·) then throw (.damaged "a line is not known")
      let text := characters line
      let name := text.takeWhile fun c => !Text.isBlank c
      if name = "ENDHDR".toList then return (l, rest.length)
      readLines fuel rest (← l.note (String.ofList name) (text.drop name.length))

def readNamed (data : Bytes) : Coded Header := do
  if data.at? 2 ≠ some 10 then throw (.damaged "the header is cut off")
  let (lines, left) ← readLines (data.size + 1) (data.drop 3).toList {}
  match lines.width, lines.height, lines.depth, lines.maximum with
  | some width, some height, some depth, some maximum =>
    let samples ← samplesOf lines.kind depth maximum
    return ⟨width, height, maximum, samples, .bytes, data.size - left⟩
  | _, _, _, _ => throw (.damaged "a line is missing")

/-! ## The header as a whole -/

def readHeader (data : Bytes) : Coded Header := do
  let magic := (data.extract 0 2).toList
  let h ← match magic with
    | [0x50, digit] =>
      if 0x31 ≤ digit ∧ digit ≤ 0x36 then readPlain data (digit.toNat - 0x30)
      else if digit = 0x37 then readNamed data
      else throw (.damaged "the signature is wrong")
    | _ => throw (.damaged "the signature is wrong")
  checkCountable h.width h.height h.samples.format.nBytes
  return h

def header (data : Bytes) : Coded ImageHeader := do
  let h ← readHeader data
  return { width := UInt32.ofNat h.width, height := UInt32.ofNat h.height,
           format := h.samples.format, bitDepth := h.samples.bitDepth }

/-! ## Samples -/

/-- Reads `n` bits written as text. -/
def readBits : Nat → List UInt8 → List UInt8 → Coded (List UInt8)
  | 0, _, done => .ok done.reverse
  | _ + 1, [], _ => .error (.damaged "there are too few pixels")
  | n + 1, b :: rest, done =>
    if isSeparator b then readBits (n + 1) rest done
    else if b = 0x30 then readBits n rest (255 :: done)
    else if b = 0x31 then readBits n rest (0 :: done)
    else .error (.damaged "a sample is damaged")
termination_by n s => (n, s.length)

def readNumbers (bound : Nat) : Nat → List UInt8 → List Nat → Coded (List Nat)
  | 0, _, done => .ok done.reverse
  | n + 1, s, done => do
    let s := s.dropWhile isSeparator
    let word := s.takeWhile fun b => !isSeparator b
    let value ← Coded.ofOption "a sample is damaged" (Text.Decimal.unsigned? bound (characters word))
    readNumbers bound n (s.drop (word.length + 1)) (value :: done)

/-- The bits of a row of bytes, the highest first, as black and white. -/
def rowBits (row : List UInt8) : List UInt8 :=
  row.flatMap fun b => (List.range 8).map fun i => if b.toNat >>> (7 - i) % 2 = 1 then 0 else 255

/-- The pixels of a bitmap in bytes, whose rows begin at byte boundaries. -/
def bitmapBytes (width height : Nat) (raw : Bytes) : List UInt8 :=
  let length := (width + 7) / 8
  if width = 0 then []
  else (List.range height).flatMap fun y =>
    (rowBits (raw.extract (y * length) (y * length + length)).toList).take width

/-- A sample spread from `0 .. maximum` over the whole range of a channel. -/
def spread (peak maximum value : Nat) : Nat :=
  if maximum = peak then value
  else min peak (Single.nearest (Single.ofNat value * (Single.ofNat peak / Single.ofNat maximum)))

def sampleBytes (size value : Nat) : List UInt8 :=
  if size = 2 then [UInt8.ofNat value, UInt8.ofNat (value / 256)] else [UInt8.ofNat value]

def readLevels (data : Bytes) (h : Header) (f : MemoryFormat) : Coded (List Nat) := do
  let size := f.channelType.size
  let count := h.width * h.height * f.nChannels
  match h.encoding with
  | .text => readNumbers (1 <<< (8 * size)) count (data.drop h.start).toList []
  | .bytes =>
    let raw ← Coded.ofOption "there are too few pixels" (data.slice? h.start (count * size))
    return (List.range count).map fun i => (raw.bigEndian? (i * size) size).getD 0

def pixels (data : Bytes) : Coded Bytes := do
  let h ← readHeader data
  let count := h.width * h.height
  match h.samples with
  | .bitmap =>
    match h.encoding with
    | .text => return Bytes.ofList (← readBits count (data.drop h.start).toList [])
    | .bytes =>
      let length := (h.width + 7) / 8 * h.height
      let raw ← Coded.ofOption "there are too few pixels" (data.slice? h.start length)
      return Bytes.ofList (bitmapBytes h.width h.height raw)
  | .flags hasAlpha =>
    let length := count * (if hasAlpha then 2 else 1)
    let raw ← Coded.ofOption "there are too few pixels" (data.slice? h.start length)
    if raw.toList.any (1 < ·) then throw (.damaged "a sample is too great")
    return Bytes.ofList (raw.toList.map fun b => if b = 1 then 255 else 0)
  | .levels f =>
    let size := f.channelType.size
    let values ← readLevels data h f
    let peak := 1 <<< (8 * size) - 1
    return Bytes.ofList (values.flatMap fun v => sampleBytes size (spread peak h.maximum v))

end ImageLoader.Pnm
