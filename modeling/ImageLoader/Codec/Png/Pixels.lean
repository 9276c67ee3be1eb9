import ImageLoader.Codec.Png.Scanline

/-!
# Pixels

A pixel is read as samples of 1 to 16 bits and written in the format that the image is decoded to: small gray
samples become bytes, an index becomes its colour, and a transparent colour becomes an alpha channel.

* `Preface.pixelBytes` — the bytes of one pixel.
* `Preface.pixels` — a picture, from its zlib stream.
-/

namespace ImageLoader.Png

def sample (depth : Nat) (row : Bytes) (i : Nat) : Nat :=
  if depth = 16 then (row.bigEndian? (2 * i) 2).getD 0
  else
    let perByte := 8 / depth
    let b := ((row.at? (i / perByte)).getD 0).toNat
    b >>> ((perByte - 1 - i % perByte) * depth) % (1 <<< depth)

/-- The bytes of a sample: two for words, else one, for which small samples are spread out. -/
def sampleBytes (depth value : Nat) : List UInt8 :=
  if depth = 16 then [UInt8.ofNat value, UInt8.ofNat (value / 256)]
  else [UInt8.ofNat (value * (255 / (1 <<< depth - 1)))]

namespace Preface

/-- The samples of the transparent colour. -/
def key (p : Preface) : Option (List Nat) :=
  p.transparency.map fun b => (List.range p.head.kind.channels).map fun i =>
    (b.bigEndian? (2 * i) 2).getD 0 % (1 <<< max 8 p.head.depth)

/-- The alpha of a pixel with these samples: none at all for the transparent colour. -/
def keyAlpha (p : Preface) (samples : List Nat) : List UInt8 :=
  match p.key with
  | none => []
  | some key =>
    let alpha : UInt8 := if samples = key then 0 else 0xFF
    if p.head.depth = 16 then [alpha, alpha] else [alpha]

/-- The colour with this index; there is black beyond the end of the palette. -/
def colour (p : Preface) (index : Nat) : List UInt8 :=
  let palette := p.palette.getD ByteArray.empty
  let colour := match palette.slice? (3 * index) 3 with
    | some c => c.toList
    | none => [0, 0, 0]
  match p.transparency with
  | some alphas => colour ++ [(alphas.at? index).getD 0xFF]
  | none => colour

def pixelBytes (p : Preface) (samples : List Nat) : List UInt8 :=
  match p.head.kind with
  | .indexed => p.colour (samples.headD 0)
  | .gray | .rgb => samples.flatMap (sampleBytes p.head.depth) ++ p.keyAlpha samples
  | .grayAlpha | .rgba => samples.flatMap (sampleBytes p.head.depth)

def samples (p : Preface) (row : Bytes) (x : Nat) : List Nat :=
  let n := p.head.kind.channels
  (List.range n).map fun i => sample p.head.depth row (x * n + i)

/-- The bytes of the pixel at `(x, y)`, which lies in the first pass that covers it. -/
def pixelAt (p : Preface) (passes : List PassRows) (x y : Nat) : List UInt8 :=
  match passes.find? fun r => r.pass.covers x y with
  | none => []
  | some r =>
    let row := r.rows.getD ((y - r.pass.y) / r.pass.stepY) ByteArray.empty
    p.pixelBytes (p.samples row ((x - r.pass.x) / r.pass.stepX))

def pixels (p : Preface) (width height : Nat) (stream : Bytes) : Coded Bytes := do
  if p.head.kind = .indexed ∧ p.palette.isNone then throw (.damaged "there is no palette")
  let raw ← Inflate.zlib stream
  let passes ← readPasses p.head raw width height (Pass.all p.head) 0
  return Bytes.ofList ((List.range height).flatMap fun y =>
    (List.range width).flatMap fun x => p.pixelAt passes x y)

end Preface

/-! ## Still images -/

/-- The bodies of the chunks of this name at the front, joined, and what follows, which must not be nothing. -/
def joinFront (name : String) (chunks : List Chunk) : Coded (Bytes × List Chunk) := do
  let front := chunks.takeWhile fun c => c.name = name
  let rest := chunks.drop front.length
  front.forM Chunk.check
  if rest.isEmpty then throw (.damaged "the file ends early")
  return (Bytes.join (front.map Chunk.body), rest)

def stillPixels (data : Bytes) : Coded Bytes := do
  let (preface, chunks) ← Preface.read data
  let (stream, _) ← joinFront "IDAT" chunks
  preface.pixels preface.head.width.toNat preface.head.height.toNat stream

end ImageLoader.Png
