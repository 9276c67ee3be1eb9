import ImageLoader.Bytes

/-!
# Cyclic redundancy checks

The check of 32 bits that chunks of a container carry: the remainder of the data, as a polynomial over two
elements, with its bits reversed.

* `crc32` — the check of some bytes.
-/

namespace ImageLoader

def crcBit (c : UInt32) : UInt32 :=
  if c &&& 1 = 1 then (c >>> 1) ^^^ 0xEDB88320 else c >>> 1

def crcByte (c : UInt32) (b : UInt8) : UInt32 :=
  (List.range 8).foldl (fun c _ => crcBit c) (c ^^^ b.toUInt32)

def crc32 (b : Bytes) : UInt32 := ~~~(b.foldl crcByte 0xFFFFFFFF)

end ImageLoader
