import ImageLoader.Codec.Basic
import ImageLoader.Codec.Checksum

/-!
# Chunks

A PNG file is a signature and a sequence of chunks: a length, a name of four letters, a body, and a checksum
over name and body.  A file that was cut off still shows the chunks it has, the last one without its end.

* `Chunk.sequence?` — the chunks of a file.
* `Chunk.isCritical` — chunks whose damage matters.
-/

namespace ImageLoader.Png

/-- A chunk, or what is left of it. -/
structure Chunk where
  name : String
  body : Bytes
  /-- Are the whole body and the checksum there? -/
  isWhole : Bool
  /-- Is the checksum right? -/
  isSound : Bool

def signature : List UInt8 := [0x89, 0x50, 0x4E, 0x47, 13, 10, 26, 10]

namespace Chunk

/-- Chunks whose name begins with a capital cannot be left out. -/
def isCritical (c : Chunk) : Bool := c.name.toList.head?.any Char.isUpper

/-- The chunk at `start`, with the place behind it, if its length and name are there. -/
def read? (data : Bytes) (start : Nat) : Option (Chunk × Nat) := do
  let length ← data.bigEndian? start 4
  let name ← data.slice? (start + 4) 4
  let body := data.extract (start + 8) (start + 8 + length)
  let check := data.bigEndian? (start + 8 + length) 4
  return ({
    name := String.ofList (name.toList.map fun b => Char.ofNat b.toNat)
    body
    isWhole := check.isSome
    isSound := check == some (crc32 (name ++ body)).toNat }, start + 12 + length)

def readMany (data : Bytes) : Nat → Nat → List Chunk
  | 0, _ => []
  | n + 1, start =>
    match read? data start with
    | some (c, next) => c :: readMany data n next
    | none => []

def sequence? (data : Bytes) : Option (List Chunk) :=
  if data.startsWith signature then some (readMany data data.size 8) else none

/-- Refuses a chunk that is cut off, or that is critical and damaged. -/
def check (c : Chunk) : Coded Unit :=
  if !c.isWhole then .error (.damaged "a chunk is cut off")
  else if c.isCritical && !c.isSound then .error (.damaged "a checksum is wrong")
  else .ok ()

end Chunk

end ImageLoader.Png
