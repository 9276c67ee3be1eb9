import ImageLoader.Bytes
import ImageLoader.Float.Half
import ImageLoader.Float.Integral
import ImageLoader.Frame.Error

/-!
# Pixels

Every pixel can be read as four numbers of single precision, with straight alpha, and written back in
any format.  Reading and writing go channel by channel in a fixed order, so a pixel that is too short
is refused at a definite channel, and a target that is too short keeps what was written before.

* `MemoryFormat.read` — the colour of a pixel.
* `MemoryFormat.write` — a pixel of a given colour, written over a target.
* `MemoryFormat.transform` — one pixel from one format to another.
-/

namespace ImageLoader

/-- A colour with straight alpha; `1` is full intensity. -/
structure Rgba where
  red : Float32
  green : Float32
  blue : Float32
  alpha : Float32

namespace ChannelType

def maxWord : ChannelType → Float32
  | .u8 => Single.ofNat 255
  | _ => Single.ofNat 65535

/-- The number that the bytes of a channel stand for. -/
def decode : ChannelType → List UInt8 → Float32
  | .u8, [v] => v.toFloat32 / maxWord .u8
  | .u16, [a, b] => (Bytes.word16 a b).toFloat32 / maxWord .u16
  | .f16, [a, b] => Half.widen (Bytes.word16 a b)
  | .f32, [a, b, c, d] => Float32.ofBits (Bytes.word32 a b c d)
  | _, _ => Single.ofNat 0

/-- A fraction of the greatest word, to the nearest word. -/
def quantize (t : ChannelType) (x : Float32) : Nat :=
  Single.nearest (Single.clamp x (Single.ofNat 0) (Single.ofNat 1) * t.maxWord)

def encode (t : ChannelType) (x : Float32) : Bytes :=
  match t with
  | .u8 => Bytes.ofList [UInt8.ofNat (t.quantize x)]
  | .u16 => Bytes.ofUInt16 (UInt16.ofNat (t.quantize x))
  | .f16 => Bytes.ofUInt16 (Half.narrow x)
  | .f32 => Bytes.ofUInt32 x.toBits

theorem size_encode (t : ChannelType) (x : Float32) : (t.encode x).size = t.size := by
  cases t <;> simp [encode, size, Bytes.ofUInt16, Bytes.ofUInt32]

end ChannelType

namespace Rgba

/-- Undoes the multiplication by alpha; where alpha is not positive nothing is left. -/
def unpremultiply (p : Rgba) : Rgba :=
  if Single.ofNat 0 < p.alpha then
    ⟨p.red / p.alpha, p.green / p.alpha, p.blue / p.alpha, p.alpha⟩
  else
    ⟨Single.ofNat 0, Single.ofNat 0, Single.ofNat 0, Single.ofNat 0⟩

/-- The number that a component of a pixel gets, with colour multiplied by `factor`. -/
def component (p : Rgba) (factor : Float32) : Component → Float32
  | .red => p.red * factor
  | .green => p.green * factor
  | .blue => p.blue * factor
  | .alpha => p.alpha
  | .gray => (p.red + p.green + p.blue) / Single.ofNat 3 * factor

end Rgba

namespace MemoryFormat

/-! ## Reading -/

/-- The channel from which a component is read.  Brightness stands for each of the colours. -/
def channelOf? (f : MemoryFormat) (c : Component) : Option Nat :=
  let order := f.layout.order
  match order.idxOf? c with
  | some n => some n
  | none => if c = .alpha then none else order.idxOf? .gray

def readChannel (f : MemoryFormat) (pixel : Bytes) (n : Nat) : Except FrameError Float32 :=
  match Bytes.slice? pixel (n * f.channelType.size) f.channelType.size with
  | some b => .ok (f.channelType.decode b.toList)
  | none => .error (.conversion (.pixelTooShort n))

/-- The number of a component; a format without alpha is opaque. -/
def readComponent (f : MemoryFormat) (pixel : Bytes) (c : Component) : Except FrameError Float32 :=
  match f.channelOf? c with
  | some n => f.readChannel pixel n
  | none => .ok (Single.ofNat 1)

def read (f : MemoryFormat) (pixel : Bytes) : Except FrameError Rgba := do
  let red ← f.readComponent pixel .red
  let green ← f.readComponent pixel .green
  let blue ← f.readComponent pixel .blue
  let alpha ← f.readComponent pixel .alpha
  let p : Rgba := ⟨red, green, blue, alpha⟩
  return if f.isPremultiplied then p.unpremultiply else p

/-! ## Writing -/

/-- The number by which a format multiplies colour. -/
def factor (f : MemoryFormat) (p : Rgba) : Float32 :=
  if f.isPremultiplied then p.alpha else Single.ofNat 1

def channels (f : MemoryFormat) (p : Rgba) : List Bytes :=
  f.layout.order.map fun c => f.channelType.encode (p.component (f.factor p) c)

/-- Writes channels from number `n` on, as far as the target reaches. -/
def writeChannels (size : Nat) (n : Nat) (target : Bytes) : List Bytes → Bytes × Except FrameError Unit
  | [] => (target, .ok ())
  | c :: rest =>
    if (n + 1) * size ≤ target.size then
      writeChannels size (n + 1) (Bytes.overwrite target (n * size) c) rest
    else
      (target, .error (.conversion (.targetTooShort n)))

def write (f : MemoryFormat) (p : Rgba) (target : Bytes) : Bytes × Except FrameError Unit :=
  writeChannels f.channelType.size 0 target (f.channels p)

def pixel (f : MemoryFormat) (p : Rgba) : Bytes := Bytes.join (f.channels p)

/-! ## From one format to another -/

/-- Writes a pixel of one format over a target in another. -/
def transform (source : MemoryFormat) (src : Bytes) (format : MemoryFormat) (target : Bytes) :
    Bytes × Except FrameError Unit :=
  match source.read src with
  | .ok p => format.write p target
  | .error e => (target, .error e)

def convertPixel (source format : MemoryFormat) (src : Bytes) : Except FrameError Bytes :=
  match source.transform src format (Bytes.fill format.nBytes 0) with
  | (target, .ok ()) => .ok target
  | (_, .error e) => .error e

end MemoryFormat

end ImageLoader
