import ImageLoader.Codec.Basic

/-!
# Blocks

A GIF file is a screen, whose size and palette come first, and a sequence of blocks: extensions, of which one
controls how the next picture is shown, pictures, and a trailer.

* `Screen.read` — the screen, and the place of the first block.
* `nextPicture?` — the next picture, up to its codes, or none at the trailer.
* `reachesBlocks` — whether the file goes on behind the screen and its extensions.
-/

namespace ImageLoader.Gif

structure Screen where
  width : UInt32
  height : UInt32
  palette : Option Bytes

inductive Disposal where
  | keep
  | clear
  | restore
deriving DecidableEq

structure Control where
  disposal : Disposal := .keep
  /-- The delay in hundredths of a second. -/
  delay : Nat := 0
  /-- The index that is see-through. -/
  transparent : Option UInt8 := none

/-- A picture, up to its codes. -/
structure Picture where
  x : Nat
  y : Nat
  width : Nat
  height : Nat
  palette : Option Bytes
  interlaced : Bool
  control : Control

def byteAt (data : Bytes) (start : Nat) : Coded Nat :=
  (Coded.ofOption "the file ends early" (data.at? start)).map UInt8.toNat

def wordAt (data : Bytes) (start : Nat) : Coded Nat :=
  Coded.ofOption "the file ends early" (data.littleEndian? start 2)

/-- The palette at a place, if these flags announce one, and the place behind it. -/
def readPalette (data : Bytes) (flags start : Nat) : Coded (Option Bytes × Nat) := do
  if flags < 128 then return (none, start)
  let size := 3 * (1 <<< (flags % 8 + 1))
  return (some (← Coded.ofOption "the file ends early" (data.slice? start size)), start + size)

def Screen.read (data : Bytes) : Coded (Screen × Nat) := do
  let magic := (data.extract 0 6).toList
  if magic ≠ "GIF87a".toUTF8.toList ∧ magic ≠ "GIF89a".toUTF8.toList then
    throw (.damaged "the signature is wrong")
  let width ← wordAt data 6
  let height ← wordAt data 8
  let flags ← byteAt data 10
  let _ ← wordAt data 11
  let (palette, next) ← readPalette data flags 13
  return (⟨UInt32.ofNat width, UInt32.ofNat height, palette⟩, next)

/-- The contents of a sequence of data blocks, behind what is `done`, and the place behind it. -/
def readData (data : Bytes) : Nat → Nat → Bytes → Coded (Bytes × Nat)
  | 0, _, _ => .error (.damaged "the file ends early")
  | fuel + 1, start, done => do
    let size ← byteAt data start
    if size = 0 then return (done, start + 1)
    let part ← Coded.ofOption "the file ends early" (data.slice? (start + 1) size)
    readData data fuel (start + 1 + size) (done ++ part)

def dataAt (data : Bytes) (start : Nat) : Coded (Bytes × Nat) :=
  readData data (data.size + 1) start ByteArray.empty

def Control.ofBytes (b : Bytes) : Coded Control :=
  match b.toList with
  | [flags, low, high, index] =>
    .ok {
      disposal := match flags.toNat / 4 % 8 with
        | 2 => .clear
        | 3 => .restore
        | _ => .keep
      delay := low.toNat + 256 * high.toNat
      transparent := if flags.toNat % 2 = 1 then some index else none }
  | _ => .error (.damaged "a control extension has the wrong length")

/-- Reads an extension behind its first byte; gives the control for the next picture. -/
def readExtension (data : Bytes) (start : Nat) (control : Control) : Coded (Control × Nat) := do
  let label ← byteAt data start
  let (contents, next) ← dataAt data (start + 1)
  if label = 0xF9 then return (← Control.ofBytes contents, next) else return (control, next)

def readPicture (data : Bytes) (start : Nat) (control : Control) : Coded (Picture × Nat) := do
  let x ← wordAt data start
  let y ← wordAt data (start + 2)
  let width ← wordAt data (start + 4)
  let height ← wordAt data (start + 6)
  let flags ← byteAt data (start + 8)
  let (palette, next) ← readPalette data flags (start + 9)
  return (⟨x, y, width, height, palette, flags / 64 % 2 = 1, control⟩, next)

/-- The next picture, up to its codes, and the place of these; none at the trailer. -/
def nextPicture? (data : Bytes) : Nat → Nat → Control → Coded (Option (Picture × Nat))
  | 0, _, _ => .error (.damaged "the file ends early")
  | fuel + 1, start, control => do
    match ← byteAt data start with
    | 0x21 =>
      let (control, next) ← readExtension data (start + 1) control
      nextPicture? data fuel next control
    | 0x2C => return some (← readPicture data (start + 1) control)
    | 0x3B => return none
    | _ => throw (.damaged "there is no such block")

/-- Goes over the extensions behind the screen.  Another block has to follow, and something behind that, unless
it is the trailer and comes behind an extension. -/
def reachesBlocks (data : Bytes) : Nat → Nat → Bool → Coded Unit
  | 0, _, _ => .error (.damaged "the file ends early")
  | fuel + 1, start, extended => do
    match ← byteAt data start with
    | 0x21 =>
      let (_, next) ← readExtension data (start + 1) {}
      reachesBlocks data fuel next true
    | block =>
      if !(extended && block = 0x3B) then
        let _ ← byteAt data (start + 1)
      return ()

end ImageLoader.Gif
