import ImageLoader.Frame.Scaler
import ImageLoader.Proofs.Bytes
import ImageLoader.Proofs.Frame.Shape
import ImageLoader.Proofs.Rows

/-!
# The scaler by way of samples

Images are resized as samples of one type: bytes, words or singles.  The scaler reads the samples of a frame from its
bytes, in the format in which pixels are mixed, hands them over with the size, and writes the samples that it gets back
as a frame.  What resizes them is left open here; with the resampling of the library it is the scaler of the library.

* `resample_truncate`: resampling looks at no more bytes than the image has.
* `SampleType.flatMap_read`: **bytes are what is written of the samples that are read from them**, but for a rest.
* `Pixmap`: an image of samples, and never fewer than its size asks for.
* `RawFrame.scalerBy`: the scaler, whatever resizes the samples.
* `RawFrame.scaler_eq_scalerBy`: **the scaler of the library is such a scaler.**
-/

namespace ImageLoader

/-! ## Resampling -/

/-- Resampling looks at no more bytes than the image has. -/
theorem resample_truncate {t : ChannelType} {b : Bytes} {width height width' height' n : Nat}
    (h : width * height * (4 * t.size) ≤ n) :
    resample t (b.truncate n) width height width' height' = resample t b width height width' height' := by
  have hraster : Raster.ofBytes t (b.truncate n) width height = Raster.ofBytes t b width height := by
    unfold Raster.ofBytes
    congr 2
    funext i
    have hend : i.val * t.size + t.size ≤ width * height * (4 * t.size) := by
      rw [← Nat.succ_mul, ← Nat.mul_assoc]
      exact Nat.mul_le_mul_right _ i.isLt
    rw [Bytes.truncate, Bytes.extract_extract_of_le (by omega), Nat.zero_add, Nat.zero_add]
  have hfirst : (b.truncate n).truncate (width * height * (4 * t.size)) =
      b.truncate (width * height * (4 * t.size)) := by
    rw [Bytes.truncate, Bytes.truncate, Bytes.extract_extract_of_le (by omega), Nat.zero_add, Nat.zero_add,
      Bytes.truncate]
  rw [resample, resample, hraster, hfirst]

/-! ## Samples -/

inductive SampleType where
  | byte
  | word
  | single
deriving DecidableEq

namespace SampleType

/-- A sample.  A single is the word of its bits. -/
@[reducible] def Sample : SampleType → Type
  | .byte => UInt8
  | .word => UInt16
  | .single => UInt32

def format : SampleType → MemoryFormat
  | .byte => .r8g8b8a8
  | .word => .r16g16b16a16
  | .single => .r32g32b32a32Float

/-- The samples of a format, if images of it can be resized. -/
def ofFormat? : MemoryFormat → Option SampleType
  | .r8g8b8a8 => some .byte
  | .r16g16b16a16 => some .word
  | .r32g32b32a32Float => some .single
  | _ => none

def size (t : SampleType) : Nat := t.format.channelType.size

/-- The words in a list of bytes; a rest of one byte is left out. -/
def words : List UInt8 → List UInt16
  | a :: b :: rest => Bytes.word16 a b :: words rest
  | _ => []

/-- The words of four bytes in a list; a rest of less than four is left out. -/
def doubleWords : List UInt8 → List UInt32
  | a :: b :: c :: d :: rest => Bytes.word32 a b c d :: doubleWords rest
  | _ => []

def read : (t : SampleType) → List UInt8 → List t.Sample
  | .byte, l => l
  | .word, l => words l
  | .single, l => doubleWords l

def write : (t : SampleType) → t.Sample → List UInt8
  | .byte, v => [v]
  | .word, v => (Bytes.ofUInt16 v).toList
  | .single, v => (Bytes.ofUInt32 v).toList

variable {t : SampleType}

theorem size_pos (t : SampleType) : 0 < t.size := by cases t <;> decide

theorem nBytes_format (t : SampleType) : t.format.nBytes = 4 * t.size := by cases t <;> rfl

theorem ofFormat?_format (t : SampleType) : ofFormat? t.format = some t := by cases t <;> rfl

/-- Pixels are mixed in a format of samples. -/
theorem exists_format_eq_mixing (f : MemoryFormat) : ∃ t : SampleType, f.mixing = t.format := by
  unfold MemoryFormat.mixing
  cases f.channelType with
  | u8 => exact ⟨.byte, rfl⟩
  | u16 => exact ⟨.word, rfl⟩
  | f16 | f32 => exact ⟨.single, rfl⟩

theorem length_write (v : t.Sample) : (t.write v).length = t.size := by
  cases t with
  | byte => rfl
  | word =>
    show (Bytes.ofUInt16 v).toList.length = 2
    rw [Bytes.ofUInt16, Bytes.toList_ofList]
    rfl
  | single =>
    show (Bytes.ofUInt32 v).toList.length = 4
    rw [Bytes.ofUInt32, Bytes.toList_ofList]
    rfl

theorem length_flatMap_write (l : List t.Sample) : (l.flatMap t.write).length = l.length * t.size := by
  induction l with
  | nil => simp
  | cons v rest ih =>
    rw [List.flatMap_cons, List.length_append, length_write, ih, List.length_cons, Nat.succ_mul, Nat.add_comm]

theorem length_read (t : SampleType) (l : List UInt8) : (t.read l).length = l.length / t.size := by
  cases t with
  | byte => exact (Nat.div_one _).symm
  | word =>
    show (words l).length = l.length / 2
    fun_induction words l with
    | case1 a b rest ih =>
      simp only [List.length_cons, ih]
      omega
    | case2 l hshort =>
      match l, hshort with
      | [], _ | [_], _ => simp
      | a :: b :: rest, hshort => exact absurd rfl (hshort a b rest)
  | single =>
    show (doubleWords l).length = l.length / 4
    fun_induction doubleWords l with
    | case1 a b c d rest ih =>
      simp only [List.length_cons, ih]
      omega
    | case2 l hshort =>
      match l, hshort with
      | [], _ | [_], _ | [_, _], _ | [_, _, _], _ => simp
      | a :: b :: c :: d :: rest, hshort => exact absurd rfl (hshort a b c d rest)

/-- What is written of the samples of a list is a beginning of the list. -/
theorem flatMap_read_prefix (t : SampleType) (l : List UInt8) : (t.read l).flatMap t.write <+: l := by
  cases t with
  | byte =>
    show l.flatMap (fun v => [v]) <+: l
    exact ⟨[], (List.append_nil _).trans (List.flatMap_singleton' l)⟩
  | word =>
    show (words l).flatMap (fun v => (Bytes.ofUInt16 v).toList) <+: l
    fun_induction words l with
    | case1 a b rest ih =>
      rw [List.flatMap_cons, Bytes.ofUInt16_word16, Bytes.toList_ofList]
      exact (List.prefix_append_right_inj [a, b]).mpr ih
    | case2 l hshort => exact List.nil_prefix
  | single =>
    show (doubleWords l).flatMap (fun v => (Bytes.ofUInt32 v).toList) <+: l
    fun_induction doubleWords l with
    | case1 a b c d rest ih =>
      rw [List.flatMap_cons, Bytes.ofUInt32_word32, Bytes.toList_ofList]
      exact (List.prefix_append_right_inj [a, b, c, d]).mpr ih
    | case2 l hshort => exact List.nil_prefix

/-- **Bytes are what is written of the samples that are read from them**, as far as they make whole samples. -/
theorem flatMap_read (t : SampleType) (l : List UInt8) :
    (t.read l).flatMap t.write = l.take (l.length / t.size * t.size) := by
  have hprefix := List.prefix_iff_eq_take.mp (t.flatMap_read_prefix l)
  rwa [length_flatMap_write, length_read] at hprefix

end SampleType

/-! ## Images of samples -/

/-- An image of four channels.  It may have more samples than it needs, and has no fewer. -/
structure Pixmap where
  type : SampleType
  width : UInt32
  height : UInt32
  samples : List type.Sample
  full : width.toNat * height.toNat * 4 ≤ samples.length

namespace Pixmap

/-- The image in a frame, if its format has samples and its buffer has enough of them. -/
def ofFrame? (f : RawFrame) : Option Pixmap :=
  match SampleType.ofFormat? f.format with
  | none => none
  | some t =>
    if h : f.width.toNat * f.height.toNat * 4 ≤ (t.read f.buf.toList).length then
      some ⟨t, f.width, f.height, t.read f.buf.toList, h⟩
    else none

def bytes (p : Pixmap) : Bytes := Bytes.ofList (p.samples.flatMap p.type.write)

def frame (p : Pixmap) : Except FrameError RawFrame :=
  RawFrame.packed p.width p.height p.type.format p.bytes

theorem size_bytes (p : Pixmap) : p.bytes.size = p.samples.length * p.type.size := by
  rw [bytes, Bytes.size_ofList, SampleType.length_flatMap_write]

theorem le_size_bytes (p : Pixmap) : p.width.toNat * p.height.toNat * (4 * p.type.size) ≤ p.bytes.size := by
  rw [size_bytes, ← Nat.mul_assoc]
  exact Nat.mul_le_mul_right _ p.full

theorem length_read_of_size {t : SampleType} {b : Bytes} {n : Nat} (h : b.size = n * t.size) :
    (t.read b.toList).length = n := by
  rw [t.length_read, Bytes.length_toList, h, Nat.mul_div_cancel _ t.size_pos]

def resampledBytes (p : Pixmap) (width height : UInt32) : Bytes :=
  resample p.type.format.channelType p.bytes p.width.toNat p.height.toNat width.toNat height.toNat

theorem size_resampledBytes (p : Pixmap) (width height : UInt32) :
    (p.resampledBytes width height).size = width.toNat * height.toNat * 4 * p.type.size := by
  rw [Nat.mul_assoc]
  exact size_resample p.le_size_bytes

def resampled (p : Pixmap) (width height : UInt32) : Pixmap where
  type := p.type
  width := width
  height := height
  samples := p.type.read (p.resampledBytes width height).toList
  full := Nat.le_of_eq (length_read_of_size (p.size_resampledBytes width height)).symm

theorem bytes_resampled (p : Pixmap) (width height : UInt32) :
    (p.resampled width height).bytes = p.resampledBytes width height := by
  show Bytes.ofList ((p.type.read (p.resampledBytes width height).toList).flatMap p.type.write) = _
  rw [SampleType.flatMap_read, ← SampleType.length_read, length_read_of_size (p.size_resampledBytes width height),
    ← size_resampledBytes, ← Bytes.length_toList, List.take_length, Bytes.ofList_toList]

end Pixmap

namespace RawFrame

/-- A frame in another size, where `resize` changes the size of images. -/
def scaledBy (resize : Pixmap → UInt32 → UInt32 → Pixmap) (f : RawFrame) (width height : UInt32) :
    Outcome FrameError RawFrame := do
  let packedFrame ← f.removePadding.toOutcome
  let mixed ← (packedFrame.convertTo f.format.mixing).toOutcome
  match Pixmap.ofFrame? mixed with
  | none => .error (.error (.conversion (.cannotResample mixed.width mixed.height mixed.format)))
  | some p =>
    let resized ← Outcome.ofExcept (resize p width height).frame
    let native ← (resized.convertTo f.format).toOutcome
    return { native with delay := f.delay, details := f.details }

/-- The scaler, where `resize` changes the size of images. -/
def scalerBy (resize : Pixmap → UInt32 → UInt32 → Pixmap) : Scaler :=
  fun f width height => (f.scaledBy resize width height).loading

variable {f : RawFrame} {t : SampleType} {p : Pixmap}

theorem le_samples_iff (ht : f.format = t.format) : f.width.toNat * f.height.toNat * 4 ≤ f.buf.size / t.size ↔
    f.width.toNat * f.height.toNat * f.format.nBytes ≤ f.buf.size := by
  rw [Nat.le_div_iff_mul_le t.size_pos, Nat.mul_assoc, ← t.nBytes_format, ← ht]

theorem ofFrame?_of_lt (ht : f.format = t.format)
    (h : f.buf.size < f.width.toNat * f.height.toNat * f.format.nBytes) : Pixmap.ofFrame? f = none := by
  have hshort : ¬ f.width.toNat * f.height.toNat * 4 ≤ (t.read f.buf.toList).length := by
    rw [t.length_read, Bytes.length_toList, le_samples_iff ht]
    exact Nat.not_le_of_lt h
  rw [Pixmap.ofFrame?, ht, SampleType.ofFormat?_format]
  exact dif_neg hshort

theorem ofFrame?_of_le (ht : f.format = t.format)
    (h : f.width.toNat * f.height.toNat * f.format.nBytes ≤ f.buf.size) :
    ∃ p, Pixmap.ofFrame? f = some p ∧ p.type = t ∧ p.width = f.width ∧ p.height = f.height ∧
      p.bytes = f.buf.truncate (f.buf.size / t.size * t.size) := by
  have hfull : f.width.toNat * f.height.toNat * 4 ≤ (t.read f.buf.toList).length := by
    rw [t.length_read, Bytes.length_toList]
    exact (le_samples_iff ht).mpr h
  refine ⟨⟨t, f.width, f.height, t.read f.buf.toList, hfull⟩, ?_, rfl, rfl, rfl, ?_⟩
  · rw [Pixmap.ofFrame?, ht, SampleType.ofFormat?_format]
    exact dif_pos hfull
  · rw [Pixmap.bytes, t.flatMap_read, Bytes.ofList_take, Bytes.length_toList]

theorem frame_resampled (ht : f.format = t.format) (hp : Pixmap.ofFrame? f = some p)
    (h : f.width.toNat * f.height.toNat * f.format.nBytes ≤ f.buf.size) (width height : UInt32) :
    (p.resampled width height).frame = packed width height f.format
      (resample f.format.channelType f.buf f.width.toNat f.height.toNat width.toNat height.toNat) := by
  obtain ⟨q, hq, htype, hw, hh, hbytes⟩ := ofFrame?_of_le ht h
  obtain rfl : q = p := Option.some.inj (hq.symm.trans hp)
  -- a rest that makes no whole sample is not looked at
  have hle : f.width.toNat * f.height.toNat * (4 * t.format.channelType.size) ≤ f.buf.size / t.size * t.size := by
    rw [← Nat.mul_assoc]
    exact Nat.mul_le_mul_right t.size ((le_samples_iff ht).mpr h)
  have hresample : q.resampledBytes width height =
      resample f.format.channelType f.buf f.width.toNat f.height.toNat width.toNat height.toNat := by
    rw [Pixmap.resampledBytes, hbytes, hw, hh, htype, ht, resample_truncate hle]
  rw [Pixmap.frame, Pixmap.bytes_resampled, hresample, ht, ← htype]
  rfl

theorem scaled_eq_scaledBy (f : RawFrame) (width height : UInt32) :
    f.scaled width height = f.scaledBy Pixmap.resampled width height := by
  unfold scaled scaledBy
  cases hp : f.removePadding.toOutcome with
  | error stop => rfl
  | ok packedFrame =>
  cases hm : (packedFrame.convertTo f.format.mixing).toOutcome with
  | error stop => simp only [hm, bind, Except.bind]
  | ok mixed =>
    obtain ⟨hwidth, hheight, hformat, -, -, -⟩ := convertTo_packedAs (removePadding_packedAs hp) hm
    obtain ⟨t, ht⟩ := SampleType.exists_format_eq_mixing f.format
    rw [← hformat] at ht
    simp only [hm, bind, Except.bind]
    rw [← hwidth, ← hheight]
    by_cases hlt : mixed.buf.size < mixed.width.toNat * mixed.height.toNat * mixed.format.nBytes
    · rw [if_pos hlt, ofFrame?_of_lt ht hlt]
    · have hle := Nat.le_of_not_lt hlt
      obtain ⟨p, hp, -⟩ := ofFrame?_of_le ht hle
      rw [if_neg hlt, hp, ← frame_resampled ht hp hle]

/-- **The scaler of the library resizes samples by resampling them.** -/
theorem scaler_eq_scalerBy : scaler = scalerBy Pixmap.resampled := by
  funext f width height
  rw [scaler, scaled_eq_scaledBy, scalerBy]

end RawFrame

end ImageLoader
