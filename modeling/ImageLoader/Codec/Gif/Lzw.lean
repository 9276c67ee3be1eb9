import ImageLoader.Codec.BitSource

/-!
# Codes that grow with the data

The pixels of a GIF picture are a sequence of codes.  A code stands for a string of pixels; every code that is
read adds to the table the string before it with one more pixel, and codes get longer as the table grows.  One
code empties the table, and one ends the data.

* `Lzw.decode` — the first pixels that a sequence of codes spells.
-/

namespace ImageLoader.Lzw

structure State where
  /-- Bits of a code now. -/
  width : Nat
  /-- The strings by their codes. -/
  table : Array Bytes
  /-- The string of the code before. -/
  last : Option Bytes := none

def maxWidth : Nat := 12

def clearCode (size : Nat) : Nat := 1 <<< size

def endCode (size : Nat) : Nat := 1 <<< size + 1

def State.initial (size : Nat) : State where
  width := size + 1
  table := Array.ofFn (fun i : Fin (1 <<< size + 2) =>
    if i < 1 <<< size then Bytes.ofList [UInt8.ofNat i] else ByteArray.empty)

/-- The first pixel of a string, as a string. -/
def firstOf (b : Bytes) : Bytes := b.extract 0 1

def State.string? (s : State) (size code : Nat) : Option Bytes :=
  match s.last with
  | none => if code < clearCode size then s.table[code]? else none
  | some last =>
    if code = s.table.size then some (last ++ firstOf last) else s.table[code]?

def State.learn (s : State) (string : Bytes) : State :=
  match s.last with
  | none => { s with last := some string }
  | some last =>
    if s.table.size < 1 <<< maxWidth then
      let table := s.table.push (last ++ firstOf string)
      let width := if table.size = 1 <<< s.width ∧ s.width < maxWidth then s.width + 1 else s.width
      { width, table, last := some string }
    else { s with last := some string }

/-- Reads codes until there are `count` pixels. -/
def read (size count : Nat) : Nat → State → Bytes → BitReader Bytes
  | 0, _, _ => throw (.damaged "there are too few pixels")
  | fuel + 1, s, out => do
    if count ≤ out.size then return out.truncate count
    let code ← BitSource.take s.width
    if code = clearCode size then read size count fuel (.initial size) out
    else if code = endCode size then throw (.damaged "there are too few pixels")
    else
      match s.string? size code with
      | none => throw (.damaged "a code stands for nothing")
      | some string => read size count fuel (s.learn string) (out ++ string)

/-- The first `count` pixels that a sequence of codes spells, with pixels of `size` bits. -/
def decode (size count : Nat) (data : Bytes) : Coded Bytes := do
  if size < 1 ∨ maxWidth ≤ size then throw (.damaged "there is no such pixel size")
  return (← (read size count (data.size * 8 + 2) (.initial size) ByteArray.empty).run ⟨data, 0⟩).1

end ImageLoader.Lzw
