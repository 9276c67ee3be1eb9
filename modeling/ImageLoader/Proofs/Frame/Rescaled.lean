import ImageLoader.Proofs.Format.Buffers
import ImageLoader.Proofs.Frame.Edits
import ImageLoader.Proofs.Frame.Pixmap

/-!
# What the scaler answers

A valid frame is unpadded, converted to the format in which pixels are mixed, resized as samples, and converted back.
Every step is given what it needs by the one before: all bytes are there, and there are no others.  So the samples are
always found, and a frame comes out unless a row of four channels is too long to be measured, before resizing or after.
Only the first conversion makes more of a frame than was there, and it alone may want more memory than there can be.

* `RawFrame.Tight`: rows without a gap, and nothing behind them.
* `RawFrame.Tight.convertTo`: **a tight frame is converted to a tight frame**, or its rows become too long, or no memory
  can hold it.
* `Pixmap.Resizes`: what is expected of the one who resizes; `Pixmap.resizes_resampled`: the library does it.
* `RawFrame.scalerBy_rescales`: **the scaler gives what it is asked for**, unless rows become too long.
-/

namespace ImageLoader

open SampleType (exists_format_eq_mixing nBytes_format)

theorem MemoryFormat.nBytes_le_mixing (f : MemoryFormat) : f.nBytes ≤ f.mixing.nBytes := by
  cases f <;> decide

/-- What is expected of one who resizes an image: an image in memory of the same type and of the size asked for, with as
many samples as that size needs. -/
structure Pixmap.Resizes (p q : Pixmap) (width height : UInt32) : Prop where
  type_eq : q.type = p.type
  width_eq : q.width = width
  height_eq : q.height = height
  length : q.samples.length = width.toNat * height.toNat * 4
  room : q.bytes.size ≤ allocationLimit

/-- The library resamples images as is expected, where there can be memory for them. -/
theorem Pixmap.resizes_resampled (p : Pixmap) {width height : UInt32}
    (hroom : width.toNat * height.toNat * 16 ≤ allocationLimit) :
    p.Resizes (p.resampled width height) width height where
  type_eq := rfl
  width_eq := rfl
  height_eq := rfl
  length := Pixmap.length_read_of_size (p.size_resampledBytes width height)
  room := by
    have hsize : p.type.size ≤ 4 := by cases p.type <;> decide
    rw [Pixmap.bytes_resampled, Pixmap.size_resampledBytes, Nat.mul_assoc]
    exact Nat.le_trans (Nat.mul_le_mul_left _ (by omega)) hroom

namespace RawFrame

variable {f g : RawFrame} {c : MemoryFormat} {p : Pixmap} {width height : UInt32} {limit : Nat}

/-! ## Tight frames -/

/-- Rows without a gap, nothing behind them, and all of it in memory. -/
structure Tight (f : RawFrame) : Prop where
  stride : f.stride.toNat = f.rowBytes
  size : f.buf.size = f.byteCount
  room : f.buf.size ≤ allocationLimit

theorem tight_cropped_whole (hv : f.validate limit = .ok ()) (hbuf : f.buf.size ≤ allocationLimit) :
    (f.cropped f.whole).Tight where
  stride := toNat_stride_cropped hv (whole_fits hv)
  size := size_cropped hv (whole_fits hv)
  room := by
    obtain ⟨-, -, -, -, hcount⟩ := validate_eq_ok_iff.mp hv
    rw [size_buf_cropped hv (whole_fits hv)]
    exact Nat.le_trans (size_cropped_le hv (whole_fits hv)) (Nat.le_trans hcount hbuf)

theorem tight_of_size (hstride : f.stride = UInt32.ofNat f.rowBytes) (hshort : f.rowBytes < UInt32.size)
    (hsize : f.buf.size = f.rowBytes * f.height.toNat) (hroom : f.buf.size ≤ allocationLimit) : f.Tight := by
  have hrow : f.stride.toNat = f.rowBytes := by
    rw [hstride]
    exact UInt32.toNat_ofNat_of_lt hshort
  refine ⟨hrow, ?_, hroom⟩
  rw [hsize, byteCount, hrow]

theorem Tight.size_buf (h : f.Tight) : f.buf.size = f.width.toNat * f.format.nBytes * f.height.toNat := by
  rw [h.size, byteCount, h.stride, rowBytes]

theorem Tight.rowBytes_lt (h : f.Tight) : f.rowBytes < UInt32.size := by
  rw [← h.stride]
  exact f.stride.toNat_lt

theorem Tight.hasRow (h : f.Tight) {y : Nat} (hy : y < f.height.toNat) :
    HasRow f.format f.buf f.width.toNat f.stride.toNat y := by
  have hrow := row_le_byteCount hy
  rw [HasRow, h.size]
  show y * f.stride.toNat + f.rowBytes ≤ _
  rwa [← h.stride]

theorem size_le_row {row : Nat} (h : wordLimit ≤ row * height.toNat) : UInt32.size ≤ row := by
  by_contra hrow
  have hlt : row * height.toNat < UInt32.size * UInt32.size :=
    Nat.mul_lt_mul_of_lt_of_le (Nat.lt_of_not_le hrow) (Nat.le_of_lt height.toNat_lt) (by decide)
  exact absurd h (Nat.not_le_of_lt hlt)

/-- A frame in another format: `g` is what `f` has become, with tight rows. -/
structure Converted (f g : RawFrame) (c : MemoryFormat) : Prop extends PackedAs f g f.width f.height c where
  tight : g.Tight

/-- A word can count the bytes of the frame in another format, and no memory can hold them. -/
def Unheld (f : RawFrame) (c : MemoryFormat) : Prop :=
  f.width.toNat * c.nBytes * f.height.toNat < wordLimit ∧ allocationLimit < f.width.toNat * c.nBytes * f.height.toNat

instance (f : RawFrame) (c : MemoryFormat) : Decidable (f.Unheld c) := inferInstanceAs (Decidable (_ ∧ _))

/-- How the conversion of a tight frame ends, with the sizes that lead there. -/
inductive TightEnding (f : RawFrame) (c : MemoryFormat) : Outcome FrameError RawFrame → Prop
  /-- No memory can hold it. -/
  | unheld (hunheld : f.Unheld c) : TightEnding f c (.error (.panic capacityPanic))
  /-- Its rows are too long. -/
  | tooLong (hheld : ¬ f.Unheld c) (hlong : UInt32.size ≤ f.width.toNat * c.nBytes) :
      TightEnding f c (.error (.error .dimensionTooLarge))
  /-- It is converted, and tight again. -/
  | converted {g : RawFrame} (hheld : ¬ f.Unheld c) (hshort : f.width.toNat * c.nBytes < UInt32.size)
      (hg : f.Converted g c) : TightEnding f c (.ok g)

theorem Tight.held (h : f.Tight) : ¬ f.Unheld f.format := by
  have hroom := h.room
  rw [h.size_buf] at hroom
  exact fun hunheld => absurd hroom (Nat.not_le_of_lt hunheld.2)

/-- **A tight frame is converted to a tight frame**, or its rows become too long, or no memory can hold it. -/
theorem Tight.convertTo (h : f.Tight) (c : MemoryFormat) : TightEnding f c (f.convertTo c).toOutcome := by
  by_cases hne : c = f.format
  · subst hne
    have hself : (f.convertTo f.format).toOutcome = .ok f := by
      rw [RawFrame.convertTo, if_pos rfl]
      rfl
    rw [hself]
    exact .converted h.held h.rowBytes_lt ⟨⟨rfl, rfl, rfl, h.stride, rfl, rfl⟩, h⟩
  · have hending : BufferEnding f.format c f.buf f.width.toNat f.height.toNat f.stride.toNat
        (convertBuffer f.format f.buf f.width.toNat f.height.toNat f.stride.toNat c) :=
      convertBuffer_ending f.width.toNat_lt f.stride.toNat_lt h.room
    generalize ho : convertBuffer f.format f.buf f.width.toNat f.height.toNat f.stride.toNat c = o at hending
    cases hending with
    | tooLarge hsize =>
      rw [convertTo_of_error hne ho]
      exact .tooLong (fun hunheld => absurd hsize (Nat.not_le_of_lt hunheld.1)) (size_le_row hsize)
    | unheld hsize hover =>
      rw [convertTo_of_error hne ho]
      exact .unheld ⟨hsize, hover⟩
    | short _ _ hy hend => exact absurd (h.hasRow hy) hend
    | @converted image hroom _ himage =>
      have hheld : ¬ f.Unheld c := fun hunheld => absurd hroom (Nat.not_le_of_lt hunheld.2)
      rw [convertTo_of_ok hne ho]
      by_cases hshort : f.width.toNat * c.nBytes < UInt32.size
      · have hsize : image.size = f.width.toNat * c.nBytes * f.height.toNat := by
          rw [himage.size, Nat.mul_comm]
        rw [withStride_of_lt hshort]
        have htight : Tight { f with
            buf := image, format := c, stride := UInt32.ofNat (f.width.toNat * c.nBytes) } :=
          tight_of_size rfl hshort hsize (hsize ▸ hroom)
        exact .converted hheld hshort ⟨⟨rfl, rfl, rfl, htight.stride, rfl, rfl⟩, htight⟩
      · rw [withStride_of_not_lt hshort]
        exact .tooLong hheld (Nat.le_of_not_lt hshort)

/-- A tight frame stays one in a format with pixels that are no larger. -/
theorem Tight.convertTo_of_le (h : f.Tight) {c : MemoryFormat} (hle : c.nBytes ≤ f.format.nBytes) :
    ∃ g, (f.convertTo c).toOutcome = .ok g ∧ f.Converted g c := by
  have hrow : f.width.toNat * c.nBytes ≤ f.rowBytes := Nat.mul_le_mul_left _ hle
  have hroom : f.width.toNat * c.nBytes * f.height.toNat ≤ allocationLimit := by
    refine Nat.le_trans (Nat.mul_le_mul_right _ hrow) ?_
    rw [rowBytes, ← h.size_buf]
    exact h.room
  have hending := h.convertTo c
  generalize (f.convertTo c).toOutcome = o at hending
  cases hending with
  | unheld hunheld => exact absurd hroom (Nat.not_le_of_lt hunheld.2)
  | tooLong _ hlong => exact absurd (Nat.lt_of_le_of_lt hrow h.rowBytes_lt) (Nat.not_lt_of_le hlong)
  | converted _ _ hg => exact ⟨_, rfl, hg⟩

/-! ## Images of samples -/

/-- **The samples of a tight frame are found**, where its format has samples. -/
theorem Tight.exists_pixmap (h : f.Tight) {t : SampleType} (ht : f.format = t.format) :
    ∃ p, Pixmap.ofFrame? f = some p ∧ p.type = t := by
  have hle : f.width.toNat * f.height.toNat * f.format.nBytes ≤ f.buf.size := by
    rw [h.size_buf, Nat.mul_right_comm]
  obtain ⟨p, hp, htype, -⟩ := ofFrame?_of_le ht hle
  exact ⟨p, hp, htype⟩

theorem frame_of_resizes {q : Pixmap} (h : p.Resizes q width height) :
    (width.toNat * p.type.format.nBytes < UInt32.size ∧ ∃ g, q.frame = .ok g ∧ g.width = width ∧ g.height = height ∧
      g.format = p.type.format ∧ g.Tight) ∨
      (UInt32.size ≤ width.toNat * p.type.format.nBytes ∧ q.frame = .error .dimensionTooLarge) := by
  have hframe : q.frame = packed width height p.type.format q.bytes := by
    rw [Pixmap.frame, h.width_eq, h.height_eq, h.type_eq]
  have hsize : q.bytes.size = width.toNat * p.type.format.nBytes * height.toNat := by
    rw [q.size_bytes, h.length, h.type_eq, Nat.mul_assoc, ← nBytes_format, Nat.mul_right_comm]
  rw [hframe, packed, Nat.mul_comm p.type.format.nBytes]
  by_cases hshort : width.toNat * p.type.format.nBytes < UInt32.size
  · left
    rw [field_of_lt hshort]
    exact ⟨hshort, _, rfl, rfl, rfl, rfl, tight_of_size rfl hshort hsize h.room⟩
  · right
    rw [field, if_neg hshort]
    exact ⟨Nat.le_of_not_lt hshort, rfl⟩

/-! ## The scaler -/

/-- What the scaler answers when it is asked for a frame in another size. -/
structure Rescales (f : RawFrame) (width height : UInt32) (o : Loaded RawFrame) : Prop where
  /-- A frame, or the refusal of a size, or no memory; there is no other error, and no other panic. -/
  ending : (∃ g, o = .ok g) ∨ o = .error (.error (.frame .dimensionTooLarge)) ∨ o = .error (.panic capacityPanic)
  /-- There is no memory if none can hold the frame in the format in which pixels are mixed, and only then. -/
  unheld_iff : o = .error (.panic capacityPanic) ↔ f.Unheld f.format.mixing
  /-- Otherwise it is refused if a row is too long in this format, before or after, and only then. -/
  refused_iff : o = .error (.error (.frame .dimensionTooLarge)) ↔ ¬ f.Unheld f.format.mixing ∧
    (UInt32.size ≤ f.width.toNat * f.format.mixing.nBytes ∨ UInt32.size ≤ width.toNat * f.format.mixing.nBytes)
  /-- A frame has the size that was asked for, and its own format, delay and details, in packed rows, -/
  shape : ∀ g, o = .ok g → PackedAs f g width height f.format
  /-- and nothing behind them. -/
  size : ∀ g, o = .ok g → g.buf.size = g.stride.toNat * g.height.toNat

theorem rescales_unheld (hunheld : f.Unheld f.format.mixing) :
    Rescales f width height (.error (.panic capacityPanic)) where
  ending := .inr (.inr rfl)
  unheld_iff := iff_of_true rfl hunheld
  refused_iff := iff_of_false (fun h => nomatch h) fun h => h.1 hunheld
  shape _ hg := nomatch hg
  size _ hg := nomatch hg

theorem rescales_refused (hheld : ¬ f.Unheld f.format.mixing)
    (h : UInt32.size ≤ f.width.toNat * f.format.mixing.nBytes ∨ UInt32.size ≤ width.toNat * f.format.mixing.nBytes) :
    Rescales f width height (.error (.error (.frame .dimensionTooLarge))) where
  ending := .inr (.inl rfl)
  unheld_iff := iff_of_false (fun h => nomatch h) hheld
  refused_iff := iff_of_true rfl ⟨hheld, h⟩
  shape _ hg := nomatch hg
  size _ hg := nomatch hg

theorem rescales_ok (hheld : ¬ f.Unheld f.format.mixing) (hshort : f.width.toNat * f.format.mixing.nBytes < UInt32.size)
    (hshort' : width.toNat * f.format.mixing.nBytes < UInt32.size) (hg : PackedAs f g width height f.format)
    (hsize : g.buf.size = g.stride.toNat * g.height.toNat) : Rescales f width height (.ok g) where
  ending := .inl ⟨g, rfl⟩
  unheld_iff := iff_of_false (fun h => nomatch h) hheld
  refused_iff := iff_of_false (fun h => nomatch h) (by omega)
  shape _ h := Except.ok.inj h ▸ hg
  size _ h := Except.ok.inj h ▸ hsize

/-- **The scaler gives a valid frame in the size that it is asked for**, whoever resizes the samples as is expected, and
refuses one if its rows become too long, and only then; it panics only if no memory can hold the frame that is to be
mixed. -/
theorem scalerBy_rescales {resize : Pixmap → UInt32 → UInt32 → Pixmap} (hv : f.validate limit = .ok ())
    (hbuf : f.buf.size ≤ allocationLimit) (hresize : ∀ p : Pixmap, p.Resizes (resize p width height) width height) :
    Rescales f width height (scalerBy resize f width height) := by
  have htight : (f.cropped f.whole).Tight := tight_cropped_whole hv hbuf
  have hunpadded : f.removePadding.toOutcome = .ok (f.cropped f.whole) := by
    rw [removePadding_eq hv]
    rfl
  obtain ⟨t, ht⟩ := exists_format_eq_mixing f.format
  have hmixing : TightEnding (f.cropped f.whole) f.format.mixing _ := htight.convertTo f.format.mixing
  unfold scalerBy scaledBy
  generalize ho : ((f.cropped f.whole).convertTo f.format.mixing).toOutcome = o at hmixing
  cases hmixing with
  | unheld hunheld =>
    simp only [hunpadded, ho, bind, Except.bind]
    exact rescales_unheld hunheld
  | tooLong hheld hlong =>
    simp only [hunpadded, ho, bind, Except.bind]
    exact rescales_refused hheld (.inl hlong)
  | @converted mixed hheld hshort hconverted =>
    obtain ⟨p, hp, rfl⟩ := hconverted.tight.exists_pixmap (hconverted.format_eq.trans ht)
    rcases frame_of_resizes (hresize p) with ⟨hshort', resized, hresized, hw, hh, hformat, hrtight⟩ | ⟨hlong', hresized⟩
    · -- the way back is to pixels that are no larger
      have hle : f.format.nBytes ≤ resized.format.nBytes := by
        rw [hformat, ← ht]
        exact f.format.nBytes_le_mixing
      obtain ⟨native, hnative, hgood⟩ := hrtight.convertTo_of_le hle
      simp only [hunpadded, ho, hp, hresized, hnative, Outcome.ofExcept_ok, bind, Except.bind]
      refine rescales_ok hheld hshort (ht ▸ hshort') ⟨?_, ?_, hgood.format_eq, ?_, rfl, rfl⟩ hgood.tight.size
      · exact hgood.width_eq.trans hw
      · exact hgood.height_eq.trans hh
      · exact hgood.packed.trans (by rw [hw])
    · simp only [hunpadded, ho, hp, hresized, Outcome.ofExcept_error, bind, Except.bind]
      exact rescales_refused hheld (.inr (ht ▸ hlong'))

/-- Two gray rows of one pixel, with three bytes of padding each, become two rows of two. -/
theorem scalerBy_rescales_gray :
    let f : RawFrame := ⟨1, 2, 4, .g8, Bytes.ofList [9, 0, 0, 0, 9, 0, 0, 0], none, {}⟩
    f.validate 8 = .ok () ∧ f.buf.size ≤ allocationLimit ∧
      (∀ p : Pixmap, p.Resizes (p.resampled 2 2) 2 2) ∧
      ∃ g, f.scaler 2 2 = .ok g ∧ PackedAs f g 2 2 .g8 ∧ g.buf.size = 4 := by
  intro f
  have hv : f.validate 8 = .ok () := validate_eq_ok_iff.mpr (by decide)
  have hbuf : f.buf.size ≤ allocationLimit := by decide
  have hresize : ∀ p : Pixmap, p.Resizes (p.resampled 2 2) 2 2 := fun p => p.resizes_resampled (by decide)
  have h : Rescales f 2 2 (f.scaler 2 2) := by
    rw [scaler_eq_scalerBy]
    exact scalerBy_rescales hv hbuf hresize
  obtain ⟨g, hg⟩ | hrefused | hunheld := h.ending
  · have hshape := h.shape g hg
    refine ⟨hv, hbuf, hresize, g, hg, hshape, ?_⟩
    rw [h.size g hg, hshape.packed, hshape.height_eq]
    rfl
  · exact absurd (h.refused_iff.mp hrefused) (by decide)
  · exact absurd (h.unheld_iff.mp hunheld) (by decide)

end RawFrame

end ImageLoader
