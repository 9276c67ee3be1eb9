import ImageLoader.Frame.Finish
import ImageLoader.Frame.Resample

/-!
# The scaler

Frames of every format are scaled.  The pixels are mixed with straight alpha, in a format with four channels
that is as fine as the format of the frame, and are brought back afterwards.

* `RawFrame.scaled` — a frame in another size.
* `size_resample` — the length of the resampled buffer.
-/

namespace ImageLoader

namespace ChannelType

def peak : ChannelType → Float32
  | .u8 => Single.ofNat 255
  | .u16 => Single.ofNat 65535
  | _ => Single.ofNat 1

/-- The number that a channel counts as when pixels are mixed: words count as they are. -/
def weigh (t : ChannelType) (b : Bytes) : Float32 :=
  match t, b.toList with
  | .u8, [v] => v.toFloat32
  | .u16, [v, w] => (Bytes.word16 v w).toFloat32
  | t, l => t.decode l

/-- The bytes of a channel for a mixture, which is cut off at zero and at the greatest value. -/
def settle (t : ChannelType) (x : Float32) : Bytes :=
  let x := Single.clamp x (Single.ofNat 0) t.peak
  match t with
  | .u8 => Bytes.ofList [UInt8.ofNat (Single.nearest x)]
  | .u16 => Bytes.ofUInt16 (UInt16.ofNat (Single.nearest x))
  | t => t.encode x

theorem size_settle (t : ChannelType) (x : Float32) : (t.settle x).size = t.size := by
  cases t with
  | u8 => simp [settle, size]
  | u16 => simp [settle, size, Bytes.ofUInt16]
  | f16 => exact size_encode .f16 _
  | f32 => exact size_encode .f32 _

end ChannelType

def MemoryFormat.mixing (f : MemoryFormat) : MemoryFormat :=
  match f.channelType with
  | .u8 => .r8g8b8a8
  | .u16 => .r16g16b16a16
  | .f16 | .f32 => .r32g32b32a32Float

namespace Raster

def ofBytes (t : ChannelType) (b : Bytes) (width height : Nat) : Raster where
  width := width
  height := height
  samples := Array.ofFn fun i : Fin (width * height * 4) =>
    t.weigh (b.extract (i * t.size) (i * t.size + t.size))

def toBytes (r : Raster) (t : ChannelType) : Bytes := Bytes.join (r.samples.toList.map t.settle)

end Raster

/-- A packed buffer of four channels in another size.  Nothing gives zeros. -/
def resample (t : ChannelType) (b : Bytes) (width height width' height' : Nat) : Bytes :=
  if width' = width ∧ height' = height then b.truncate (width * height * (4 * t.size))
  else if width = 0 ∨ height = 0 then Bytes.fill (width' * height' * (4 * t.size)) 0
  else ((Raster.ofBytes t b width height).resize width' height').toBytes t

namespace RawFrame

def scaled (f : RawFrame) (width height : UInt32) : Outcome FrameError RawFrame := do
  let packedFrame ← f.removePadding.toOutcome
  let mixed ← (packedFrame.convertTo f.format.mixing).toOutcome
  if mixed.buf.size < f.width.toNat * f.height.toNat * mixed.format.nBytes then
    .error (.error (.conversion (.cannotResample f.width f.height mixed.format)))
  else
    let buf := resample mixed.format.channelType mixed.buf f.width.toNat f.height.toNat width.toNat
      height.toNat
    let resized ← Outcome.ofExcept (packed width height mixed.format buf)
    let native ← (resized.convertTo f.format).toOutcome
    return { native with delay := f.delay, details := f.details }

def scaler : Scaler := fun f width height => (f.scaled width height).loading

end RawFrame

/-! ## Lengths -/

theorem size_join_map {α : Type} {f : α → Bytes} {n : Nat} (h : ∀ a, (f a).size = n) (l : List α) :
    (Bytes.join (l.map f)).size = l.length * n := by
  suffices ∀ start : Bytes, ((l.map f).foldl (· ++ ·) start).size = start.size + l.length * n by
    simpa [Bytes.join] using this ByteArray.empty
  induction l with
  | nil => simp
  | cons a r ih =>
    intro start
    rw [List.map_cons, List.foldl_cons, ih, ByteArray.size_append, h, List.length_cons, Nat.succ_mul]
    omega

theorem size_resample {t : ChannelType} {b : Bytes} {width height width' height' : Nat}
    (h : width * height * (4 * t.size) ≤ b.size) :
    (resample t b width height width' height').size = width' * height' * (4 * t.size) := by
  unfold resample
  split
  next he =>
    obtain ⟨rfl, rfl⟩ := he
    simp only [Bytes.truncate, ByteArray.size_extract]
    omega
  next =>
    split
    · exact Bytes.size_fill _ _
    · rw [Raster.toBytes, size_join_map (ChannelType.size_settle t), Array.length_toList,
        Raster.size_resize, Nat.mul_assoc]

end ImageLoader
