import ImageLoader.Codec.PrefixCode

/-!
# Deflated data

Deflated data is a sequence of blocks.  A block holds bytes as they are, or literals and matches under two
prefix codes; a match repeats bytes that came before.  A zlib stream puts a header before the blocks and a
checksum, which is not verified, behind them.

* `Inflate.blocks` — the bytes of a sequence of blocks.
* `Inflate.zlib` — the bytes of a zlib stream.
-/

namespace ImageLoader.Inflate

/-- The base and the number of extra bits of each symbol for a length, from 257 on. -/
def lengthTable : List (Nat × Nat) :=
  [(3, 0), (4, 0), (5, 0), (6, 0), (7, 0), (8, 0), (9, 0), (10, 0), (11, 1), (13, 1), (15, 1), (17, 1),
   (19, 2), (23, 2), (27, 2), (31, 2), (35, 3), (43, 3), (51, 3), (59, 3), (67, 4), (83, 4), (99, 4),
   (115, 4), (131, 5), (163, 5), (195, 5), (227, 5), (258, 0)]

def distanceTable : List (Nat × Nat) :=
  [(1, 0), (2, 0), (3, 0), (4, 0), (5, 1), (7, 1), (9, 2), (13, 2), (17, 3), (25, 3), (33, 4), (49, 4),
   (65, 5), (97, 5), (129, 6), (193, 6), (257, 7), (385, 7), (513, 8), (769, 8), (1025, 9), (1537, 9),
   (2049, 10), (3073, 10), (4097, 11), (6145, 11), (8193, 12), (12289, 12), (16385, 13), (24577, 13)]

/-- The order in which the lengths for the code of code lengths are given. -/
def lengthOrder : List Nat := [16, 17, 18, 0, 8, 7, 9, 6, 10, 5, 11, 4, 12, 3, 13, 2, 14, 1, 15]

def fixedLengths : List Nat :=
  List.replicate 144 8 ++ List.replicate 112 9 ++ List.replicate 24 7 ++ List.replicate 8 8

structure BlockCodes where
  literals : PrefixCode
  distances : PrefixCode

/-- The code with these lengths, which has to be complete unless it has at most one word and may be so. -/
def code (lengths : List Nat) (mayBeSmall : Bool) : Coded PrefixCode :=
  match PrefixCode.ofLengths? lengths with
  | some c =>
    if c.isComplete || (mayBeSmall && c.size ≤ 1) then .ok c
    else .error (.damaged "a prefix code is incomplete")
  | none => .error (.damaged "a prefix code has too many words")

def fixedCodes : Coded BlockCodes := do
  return ⟨← code fixedLengths false, ← code (List.replicate 32 5) false⟩

/-- Reads `n` lengths under the code of code lengths, behind those in `done`, the last one first. -/
def readLengths (c : PrefixCode) : Nat → Nat → List Nat → BitReader (List Nat)
  | 0, _, _ => throw (.damaged "the code lengths do not end")
  | fuel + 1, n, done =>
    if n ≤ done.length then
      if done.length = n then return done.reverse
      else throw (.damaged "there are too many code lengths")
    else do
      match ← c.read with
      | 16 =>
        let times := 3 + (← BitSource.take 2)
        match done with
        | [] => throw (.damaged "there is no code length to repeat")
        | last :: _ => readLengths c fuel n (List.replicate times last ++ done)
      | 17 =>
        let times := 3 + (← BitSource.take 3)
        readLengths c fuel n (List.replicate times 0 ++ done)
      | 18 =>
        let times := 11 + (← BitSource.take 7)
        readLengths c fuel n (List.replicate times 0 ++ done)
      | length => readLengths c fuel n (length :: done)

def readTriples : Nat → BitReader (List Nat)
  | 0 => return []
  | n + 1 => do
    let first ← BitSource.take 3
    let rest ← readTriples n
    return first :: rest

def readCodes : BitReader BlockCodes := do
  let literals := 257 + (← BitSource.take 5)
  let distances := 1 + (← BitSource.take 5)
  let given := 4 + (← BitSource.take 4)
  if 286 < literals then throw (.damaged "there are too many literal codes")
  let triples ← readTriples given
  let lengthOf (symbol : Nat) : Nat :=
    match lengthOrder.idxOf? symbol with
    | some i => triples.getD i 0
    | none => 0
  let lengthCode ← code ((List.range 19).map lengthOf) false
  let lengths ← readLengths lengthCode (literals + distances + 1) (literals + distances) []
  if lengths.getD 256 0 = 0 then throw (.damaged "a block has no end")
  return ⟨← code (lengths.take literals) false, ← code (lengths.drop literals) true⟩

/-- The number that a symbol stands for, with its extra bits. -/
def readNumber (table : List (Nat × Nat)) (symbol : Nat) : BitReader Nat := do
  match table[symbol]? with
  | some (base, extra) => return base + (← BitSource.take extra)
  | none => throw (.damaged "a symbol is not in use")

/-- Repeats `length` bytes that lie `distance` back. -/
def repeatBack (distance : Nat) : Nat → Bytes → Bytes
  | 0, out => out
  | length + 1, out =>
    repeatBack distance length (out.push ((out.at? (out.size - distance)).getD 0))

def readSymbols (c : BlockCodes) : Nat → Bytes → BitReader Bytes
  | 0, _ => throw (.damaged "a block does not end")
  | fuel + 1, out => do
    let symbol ← c.literals.read
    if symbol < 256 then readSymbols c fuel (out.push (UInt8.ofNat symbol))
    else if symbol = 256 then return out
    else
      let length ← readNumber lengthTable (symbol - 257)
      let distance ← readNumber distanceTable (← c.distances.read)
      if out.size < distance then throw (.damaged "a match begins before the data")
      readSymbols c fuel (repeatBack distance length out)

/-- Reads a block that holds bytes as they are. -/
def readStored (out : Bytes) : BitReader Bytes := do
  BitSource.toByteBoundary
  let length ← BitSource.take 16
  let complement ← BitSource.take 16
  if length + complement ≠ 0xFFFF then throw (.damaged "the length of a block is damaged")
  return out ++ (← BitSource.takeBytes length)

def readBlocks : Nat → Bytes → BitReader Bytes
  | 0, _ => throw (.damaged "the blocks do not end")
  | fuel + 1, out => do
    let last ← BitSource.bit
    let kind ← BitSource.take 2
    let left := (← get).remaining
    let out ← match kind with
      | 0 => readStored out
      | 1 => readSymbols (← fixedCodes) (left + 1) out
      | 2 => readSymbols (← readCodes) (left + 1) out
      | _ => throw (.damaged "a block is of no known kind")
    if last = 1 then return out else readBlocks fuel out

/-- The bytes of a sequence of blocks, which begins at a byte boundary. -/
def blocks : BitReader Bytes := do
  readBlocks ((← get).remaining + 1) ByteArray.empty

/-- The bytes of a zlib stream; what follows the stream does not count. -/
def zlib (data : Bytes) : Coded Bytes := do
  let work : BitReader Bytes := do
    let method ← BitSource.take 8
    let flags ← BitSource.take 8
    if method % 16 ≠ 8 ∨ 7 < method / 16 ∨ flags / 32 % 2 = 1 ∨ (method * 256 + flags) % 31 ≠ 0 then
      throw (.damaged "the data is not deflated")
    let out ← blocks
    BitSource.toByteBoundary
    let _ ← BitSource.takeBytes 4
    return out
  return (← work.run ⟨data, 0⟩).1

end ImageLoader.Inflate
