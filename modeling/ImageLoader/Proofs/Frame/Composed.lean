import ImageLoader.Proofs.Format.Detour
import ImageLoader.Proofs.Frame.Edits
import ImageLoader.Proofs.Frame.Unscaled

/-!
# Edits one after another

A part of a part is a part, a part of what was packed is the part itself, and a part of what was converted is what
the part is converted to.  The strides differ from one side to the other, and so does the size of a pixel, but each
edit leaves a packed frame, and packed frames of the same pixels are the same.

* `RawFrame.cropped_cropped`: a region of a region is a region.
* `RawFrame.cropped_converted`: **regions are cut out before a conversion or after it**, with the same result.
* `RawFrame.composes`: **the edits of a valid frame compose.**
-/

namespace ImageLoader

/-! ## Regions of regions -/

namespace ClipRegion

variable {r s : ClipRegion} {width height : UInt32}

/-- What the region `s` of the region `r` is for the frame. -/
def part (r s : ClipRegion) : ClipRegion := ⟨r.x + s.x, r.y + s.y, s.width, s.height⟩

variable (hr : r.fits width height = true) (hs : s.fits r.width r.height = true)
include hr hs

theorem toNat_x_part : (r.part s).x.toNat = r.x.toNat + s.x.toNat := by
  obtain ⟨-, -, hrx, -⟩ := fits_iff.mp hr
  obtain ⟨-, -, hsx, -⟩ := fits_iff.mp hs
  have hlt := width.toNat_lt
  rw [part, UInt32.toNat_add, Nat.mod_eq_of_lt (by omega)]

theorem toNat_y_part : (r.part s).y.toNat = r.y.toNat + s.y.toNat := by
  obtain ⟨-, -, -, hry⟩ := fits_iff.mp hr
  obtain ⟨-, -, -, hsy⟩ := fits_iff.mp hs
  have hlt := height.toNat_lt
  rw [part, UInt32.toNat_add, Nat.mod_eq_of_lt (by omega)]

theorem fits_part : (r.part s).fits width height = true := by
  obtain ⟨-, -, hrx, hry⟩ := fits_iff.mp hr
  obtain ⟨hw, hh, hsx, hsy⟩ := fits_iff.mp hs
  refine fits_iff.mpr ⟨hw, hh, ?_, ?_⟩
  · rw [toNat_x_part hr hs]
    show r.x.toNat + s.x.toNat + s.width.toNat ≤ width.toNat
    omega
  · rw [toNat_y_part hr hs]
    show r.y.toNat + s.y.toNat + s.height.toNat ≤ height.toNat
    omega

end ClipRegion

/-- An edit, and another of the frame that it leaves if it goes well. -/
def Edited.andThen (e : Edited) (edit : RawFrame → Edited) : Outcome FrameError RawFrame :=
  e.toOutcome >>= fun f => (edit f).toOutcome

namespace RawFrame

variable {f : RawFrame} {r s : ClipRegion} {c : MemoryFormat} {limit : Nat} {image : Bytes}

theorem cropped_cropped (hv : f.validate limit = .ok ()) (hr : r.fits f.width f.height = true)
    (hs : s.fits r.width r.height = true) : (f.cropped r).cropped s = f.cropped (r.part s) := by
  obtain ⟨-, -, hx, hy⟩ := ClipRegion.fits_iff.mp hs
  obtain ⟨-, -, -, -, hbuf⟩ := validate_eq_ok_iff.mp hv
  have hstride : (UInt32.ofNat (r.width.toNat * f.format.nBytes)).toNat = r.width.toNat * f.format.nBytes :=
    toNat_stride_cropped hv hr
  have hrows : ∀ y < r.height.toNat, r.y.toNat * f.stride.toNat + r.x.toNat * f.format.nBytes +
      y * f.stride.toNat + r.width.toNat * f.format.nBytes ≤ f.buf.size := fun y hy => by
    have h := region_le_byteCount hv hr hy
    rw [Nat.add_mul] at h
    omega
  have hcol : s.x.toNat * f.format.nBytes + s.width.toNat * f.format.nBytes ≤ r.width.toNat * f.format.nBytes := by
    rw [← Nat.add_mul]
    exact Nat.mul_le_mul_right _ hx
  -- the rows of the inner region begin where the outer one says, and are as far apart as those of the frame
  have hstart : r.y.toNat * f.stride.toNat + r.x.toNat * f.format.nBytes + s.y.toNat * f.stride.toNat +
      s.x.toNat * f.format.nBytes =
        (r.part s).y.toNat * f.stride.toNat + (r.part s).x.toNat * f.format.nBytes := by
    rw [ClipRegion.toNat_x_part hr hs, ClipRegion.toNat_y_part hr hs, Nat.add_mul, Nat.add_mul]
    omega
  rw [cropped, cropped, cropped]
  simp only [hstride, Bytes.gather_gather hrows hcol hy, hstart]
  rfl

theorem size_buf_cropped_le (hv : f.validate limit = .ok ()) (hr : r.fits f.width f.height = true) :
    (f.cropped r).buf.size ≤ f.buf.size := by
  rw [size_buf_cropped hv hr]
  exact Nat.le_trans (size_cropped_le hv hr) (validate_eq_ok_iff.mp hv).2.2.2.2

/-- **Cutting a region out of a valid frame in memory gives the region, or says that it does not fit.** -/
theorem toOutcome_clip (hv : f.validate limit = .ok ()) (hbuf : f.buf.size ≤ allocationLimit) (r : ClipRegion) :
    (f.clip r).toOutcome = if r.fits f.width f.height then .ok (f.cropped r)
      else .error (.error (.invalidClip (.outside r f.width f.height))) := by
  by_cases hr : r.fits f.width f.height = true
  · have hroom : r.width.toNat * f.format.nBytes * r.height.toNat ≤ allocationLimit := by
      rw [Nat.mul_comm, ← size_buf_cropped hv hr]
      exact Nat.le_trans (size_buf_cropped_le hv hr) hbuf
    rw [clip_eq hv hr hroom, if_pos hr]
    rfl
  · rw [clip_refused (Bool.eq_false_iff.mpr hr), if_neg hr]
    rfl

theorem clip_andThen_clip (hv : f.validate limit = .ok ()) (hbuf : f.buf.size ≤ allocationLimit) (r s : ClipRegion) :
    (f.clip r).andThen (·.clip s) =
      if r.fits f.width f.height then
        if s.fits r.width r.height then .ok (f.cropped (r.part s))
        else .error (.error (.invalidClip (.outside s r.width r.height)))
      else .error (.error (.invalidClip (.outside r f.width f.height))) := by
  unfold Edited.andThen
  rw [toOutcome_clip hv hbuf]
  by_cases hr : r.fits f.width f.height = true
  · rw [if_pos hr, if_pos hr]
    show ((f.cropped r).clip s).toOutcome = _
    rw [toOutcome_clip (validate_cropped hv hr) (Nat.le_trans (size_buf_cropped_le hv hr) hbuf)]
    show (if s.fits r.width r.height = true then _ else _) = _
    by_cases hs : s.fits r.width r.height = true
    · rw [if_pos hs, if_pos hs, cropped_cropped hv hr hs]
    · rw [if_neg hs, if_neg hs]
      rfl
  · rw [if_neg hr, if_neg hr]
    rfl

/-! ## Packed frames -/

theorem removePadding_andThen_clip (hv : f.validate limit = .ok ()) (hbuf : f.buf.size ≤ allocationLimit)
    (r : ClipRegion) : f.removePadding.andThen (·.clip r) = (f.clip r).toOutcome := by
  have hw := whole_fits hv
  rw [removePadding_eq hv]
  show ((f.cropped f.whole).clip r).toOutcome = _
  rw [toOutcome_clip hv hbuf,
    toOutcome_clip (validate_cropped hv hw) (Nat.le_trans (size_buf_cropped_le hv hw) hbuf)]
  show (if r.fits f.width f.height = true then _ else _) = _
  by_cases hr : r.fits f.width f.height = true
  · rw [if_pos hr, if_pos hr, cropped_cropped_whole hv hr]
  · rw [if_neg hr, if_neg hr]
    rfl

/-! ## Converted frames -/

/-- The frame with its pixels in another format, packed. -/
def recast (f : RawFrame) (c : MemoryFormat) (image : Bytes) : RawFrame :=
  { f with buf := image, format := c, stride := UInt32.ofNat (f.width.toNat * c.nBytes) }

/-- What a frame that is converted has become, and the sizes that it has in the other format. -/
structure Recast (f : RawFrame) (c : MemoryFormat) (image : Bytes) : Prop where
  isConversion : IsConversion f.format c f.buf f.stride.toNat f.width.toNat f.height.toNat image
  short : f.width.toNat * c.nBytes < UInt32.size
  room : f.width.toNat * c.nBytes * f.height.toNat ≤ allocationLimit

theorem exists_recast (hbuf : f.buf.size ≤ allocationLimit) (hne : c ≠ f.format)
    (hok : (f.convertTo c).verdict = .ok ()) :
    ∃ image, Recast f c image ∧ f.convertTo c = .done (f.recast c image) := by
  obtain ⟨⟨hroom, -⟩, hshort⟩ := ((convertTo_leaves hbuf c).done_iff.mp hok).resolve_left hne
  have hending : BufferEnding f.format c f.buf f.width.toNat f.height.toNat f.stride.toNat
      (convertBuffer f.format f.buf f.width.toNat f.height.toNat f.stride.toNat c) :=
    convertBuffer_ending f.width.toNat_lt f.stride.toNat_lt hbuf
  rcases ho : convertBuffer f.format f.buf f.width.toNat f.height.toNat f.stride.toNat c with stop | image
  · rw [convertTo_of_error hne ho] at hok
    cases hok
  · rw [ho] at hending
    refine ⟨image, ⟨hending.isConversion, hshort, hroom⟩, ?_⟩
    rw [convertTo_of_ok hne ho, withStride_of_lt hshort]
    rfl

namespace Recast

variable (h : Recast f c image)
include h

theorem toNat_stride : (f.recast c image).stride.toNat = f.width.toNat * c.nBytes :=
  UInt32.toNat_ofNat_of_lt h.short

theorem size_buf : (f.recast c image).buf.size = (f.recast c image).byteCount := by
  rw [byteCount, h.toNat_stride, Nat.mul_comm]
  exact h.isConversion.size

theorem validate (hv : f.validate limit = .ok ()) :
    (f.recast c image).validate (f.recast c image).byteCount = .ok () := by
  obtain ⟨hw, hh, -⟩ := validate_eq_ok_iff.mp hv
  exact validate_eq_ok_iff.mpr
    ⟨hw, hh, Nat.le_of_eq h.toNat_stride.symm, Nat.le_refl _, Nat.le_of_eq h.size_buf.symm⟩

theorem size_buf_le : (f.recast c image).buf.size ≤ allocationLimit := by
  rw [h.size_buf, byteCount, h.toNat_stride]
  exact h.room

end Recast

/-- **A part of a frame is converted to that part of the converted frame.** -/
theorem cropped_converted (hv : f.validate limit = .ok ()) (hr : r.fits f.width f.height = true)
    (h : Recast f c image) (hne : c ≠ f.format) :
    (f.cropped r).convertTo c = .done ((f.recast c image).cropped r) := by
  have hconv := h.validate hv
  obtain ⟨-, -, hx, hy⟩ := ClipRegion.fits_iff.mp hr
  have hshort : r.width.toNat * c.nBytes < UInt32.size :=
    Nat.lt_of_le_of_lt (Nat.mul_le_mul_right _ (by omega)) h.short
  have hroom : r.width.toNat * c.nBytes * r.height.toNat ≤ allocationLimit :=
    Nat.le_trans (Nat.mul_le_mul (Nat.mul_le_mul_right _ (by omega)) (by omega)) h.room
  obtain ⟨part, hpart, hpixels⟩ := convertBuffer_cropped hv hr hroom
  have hsize : ((f.recast c image).cropped r).buf.size = r.height.toNat * (r.width.toNat * c.nBytes) :=
    size_buf_cropped hconv hr
  have hstride : ((f.recast c image).cropped r).stride.toNat = r.width.toNat * c.nBytes :=
    toNat_stride_cropped hconv hr
  -- each pixel of both is converted from the same pixel of the frame
  have hsame : part = ((f.recast c image).cropped r).buf := by
    refine eq_of_pixelAt hpixels.size hsize fun x hxr y hyr => ?_
    have hleft := hpixels.pixel x hxr y hyr
    rw [pixelAt_cropped hv hr hxr hyr,
      h.isConversion.pixel (r.x.toNat + x) (by omega) (r.y.toNat + y) (by omega)] at hleft
    have hright := pixelAt_cropped hconv hr hxr hyr
    rw [hstride, h.toNat_stride] at hright
    rw [← Except.ok.inj hleft]
    exact hright.symm
  rw [convertTo_of_ok (f := f.cropped r) hne hpart, hsame]
  exact withStride_of_lt hshort

theorem convertTo_andThen_clip (hv : f.validate limit = .ok ()) (hbuf : f.buf.size ≤ allocationLimit)
    (hok : (f.convertTo c).verdict = .ok ()) (r : ClipRegion) :
    (f.convertTo c).andThen (·.clip r) = (f.clip r).andThen (·.convertTo c) := by
  by_cases hne : c = f.format
  · subst hne
    have hself : f.convertTo f.format = .done f := if_pos rfl
    unfold Edited.andThen
    rw [hself, toOutcome_clip hv hbuf]
    show (f.clip r).toOutcome = _
    rw [toOutcome_clip hv hbuf]
    by_cases hr : r.fits f.width f.height = true
    · have hpart : (f.cropped r).convertTo f.format = .done (f.cropped r) := if_pos rfl
      rw [if_pos hr]
      show _ = ((f.cropped r).convertTo f.format).toOutcome
      rw [hpart]
      rfl
    · rw [if_neg hr]
      rfl
  · obtain ⟨image, hi, hdone⟩ := exists_recast hbuf hne hok
    unfold Edited.andThen
    rw [hdone, toOutcome_clip hv hbuf]
    show ((f.recast c image).clip r).toOutcome = _
    rw [toOutcome_clip (hi.validate hv) hi.size_buf_le]
    show (if r.fits f.width f.height = true then _ else _) = _
    by_cases hr : r.fits f.width f.height = true
    · rw [if_pos hr, if_pos hr]
      show _ = ((f.cropped r).convertTo c).toOutcome
      rw [cropped_converted hv hr hi hne]
      rfl
    · rw [if_neg hr, if_neg hr]
      rfl

/-! ## Composition -/

/-- How the edits of a frame compose. -/
structure Composes (f : RawFrame) : Prop where
  /-- A region is cut out of a region if the outer one ends inside the frame, and the inner one has pixels and ends
  inside the outer one, and only then. -/
  clip_iff : ∀ r s : ClipRegion, (∃ g, (f.clip r).andThen (·.clip s) = .ok g) ↔
    (r.x.toNat + r.width.toNat ≤ f.width.toNat ∧ r.y.toNat + r.height.toNat ≤ f.height.toNat) ∧
      s.width ≠ 0 ∧ s.height ≠ 0 ∧
        s.x.toNat + s.width.toNat ≤ r.width.toNat ∧ s.y.toNat + s.height.toNat ≤ r.height.toNat
  /-- What is left is the region with the sums of the two offsets, -/
  clip_eq : ∀ (r s : ClipRegion) (g : RawFrame), (f.clip r).andThen (·.clip s) = .ok g →
    (f.clip (r.part s)).toOutcome = .ok g
  /-- which do not run over. -/
  offset_eq : ∀ (r s : ClipRegion) (g : RawFrame), (f.clip r).andThen (·.clip s) = .ok g →
    (r.part s).x.toNat = r.x.toNat + s.x.toNat ∧ (r.part s).y.toNat = r.y.toNat + s.y.toNat
  /-- Whether the padding is removed before makes no difference to a region. -/
  packed : ∀ r : ClipRegion, f.removePadding.andThen (·.clip r) = (f.clip r).toOutcome
  /-- Where the frame can be converted, neither does it whether a region is cut out before or after. -/
  converted : ∀ (c : MemoryFormat) (r : ClipRegion), (f.convertTo c).verdict = .ok () →
    (f.convertTo c).andThen (·.clip r) = (f.clip r).andThen (·.convertTo c)
  /-- Either way the result is a frame, or there is no such region, which is said in the same words. -/
  ending : ∀ (c : MemoryFormat) (r : ClipRegion), (f.convertTo c).verdict = .ok () →
    (∃ g, (f.clip r).andThen (·.convertTo c) = .ok g) ∨
      ∃ fault, (f.clip r).toOutcome = .error (.error (.invalidClip fault)) ∧
        ((f.convertTo c).frame.clip r).toOutcome = .error (.error (.invalidClip fault))

theorem clip_andThen_clip_eq_ok_iff (hv : f.validate limit = .ok ()) (hbuf : f.buf.size ≤ allocationLimit)
    {g : RawFrame} : (f.clip r).andThen (·.clip s) = .ok g ↔
      r.fits f.width f.height = true ∧ s.fits r.width r.height = true ∧ f.cropped (r.part s) = g := by
  rw [clip_andThen_clip hv hbuf]
  by_cases hr : r.fits f.width f.height = true
  · by_cases hs : s.fits r.width r.height = true
    · simp [hr, hs]
    · simp [hr, hs]
  · simp [hr]

theorem convertTo_ending (hv : f.validate limit = .ok ()) (hbuf : f.buf.size ≤ allocationLimit)
    (hok : (f.convertTo c).verdict = .ok ()) (r : ClipRegion) :
    (∃ g, (f.clip r).andThen (·.convertTo c) = .ok g) ∨
      ∃ fault, (f.clip r).toOutcome = .error (.error (.invalidClip fault)) ∧
        ((f.convertTo c).frame.clip r).toOutcome = .error (.error (.invalidClip fault)) := by
  obtain ⟨-, hw, hh, -⟩ := (convertTo_leaves hbuf c).kept hok
  by_cases hr : r.fits f.width f.height = true
  · refine .inl ?_
    have hclip : (f.clip r).andThen (·.convertTo c) = ((f.cropped r).convertTo c).toOutcome := by
      unfold Edited.andThen
      rw [toOutcome_clip hv hbuf, if_pos hr]
      rfl
    by_cases hne : c = f.format
    · subst hne
      have hself : (f.cropped r).convertTo f.format = .done (f.cropped r) := if_pos rfl
      exact ⟨f.cropped r, by rw [hclip, hself]; rfl⟩
    · obtain ⟨image, hi, -⟩ := exists_recast hbuf hne hok
      exact ⟨(f.recast c image).cropped r, by rw [hclip, cropped_converted hv hr hi hne]; rfl⟩
  · have hfalse := Bool.eq_false_iff.mpr hr
    refine .inr ⟨.outside r f.width f.height, ?_, ?_⟩
    · rw [clip_refused hfalse]
      rfl
    · rw [clip_refused (by rw [hw, hh]; exact hfalse), hw, hh]
      rfl

/-- **The edits of a valid frame in memory compose**: regions of regions are regions, and neither removing the padding
nor converting the frame makes a difference to a region that is cut out. -/
theorem composes (hv : f.validate limit = .ok ()) (hbuf : f.buf.size ≤ allocationLimit) : Composes f where
  clip_iff r s := by
    have hok : (∃ g, (f.clip r).andThen (·.clip s) = .ok g) ↔
        r.fits f.width f.height = true ∧ s.fits r.width r.height = true := by
      simp only [clip_andThen_clip_eq_ok_iff hv hbuf, exists_and_left, exists_eq', and_true]
    rw [hok, ClipRegion.fits_iff, ClipRegion.fits_iff]
    refine ⟨fun ⟨⟨_, _, hr⟩, hs⟩ => ⟨hr, hs⟩, fun ⟨hr, hs⟩ => ⟨⟨?_, ?_, hr⟩, hs⟩⟩
    -- a region with a region in it has pixels
    · rintro hzero
      have hpos := Nat.pos_of_ne_zero fun h => hs.1 (UInt32.toNat_inj.mp h)
      have hle := hs.2.2.1
      rw [hzero] at hle
      exact absurd hle (by rw [UInt32.toNat_zero]; omega)
    · rintro hzero
      have hpos := Nat.pos_of_ne_zero fun h => hs.2.1 (UInt32.toNat_inj.mp h)
      have hle := hs.2.2.2
      rw [hzero] at hle
      exact absurd hle (by rw [UInt32.toNat_zero]; omega)
  clip_eq r s g h := by
    obtain ⟨hr, hs, rfl⟩ := (clip_andThen_clip_eq_ok_iff hv hbuf).mp h
    rw [toOutcome_clip hv hbuf, if_pos (ClipRegion.fits_part hr hs)]
  offset_eq r s g h := by
    obtain ⟨hr, hs, -⟩ := (clip_andThen_clip_eq_ok_iff hv hbuf).mp h
    exact ⟨ClipRegion.toNat_x_part hr hs, ClipRegion.toNat_y_part hr hs⟩
  packed r := removePadding_andThen_clip hv hbuf r
  converted c r hok := convertTo_andThen_clip hv hbuf hok r
  ending c r hok := convertTo_ending hv hbuf hok r

/-- Two gray rows with a byte of padding, of which the last column is cut out: in two steps, and in red, green, blue
and alpha. -/
theorem composes_column :
    let f : RawFrame := ⟨3, 2, 4, .g8, Bytes.ofList [1, 2, 3, 0, 4, 5, 6, 0], none, {}⟩
    let g : RawFrame := ⟨1, 2, 1, .g8, Bytes.ofList [3, 6], none, {}⟩
    f.validate 8 = .ok () ∧ f.buf.size ≤ allocationLimit ∧
      (f.clip ⟨1, 0, 2, 2⟩).andThen (·.clip ⟨1, 0, 1, 2⟩) = .ok g ∧
      (f.convertTo .r8g8b8a8).andThen (·.clip ⟨2, 0, 1, 2⟩) =
        (f.clip ⟨2, 0, 1, 2⟩).andThen (·.convertTo .r8g8b8a8) := by
  intro f g
  have hv : f.validate 8 = .ok () := validate_eq_ok_iff.mpr (by decide)
  have hbuf : f.buf.size ≤ allocationLimit := by decide
  have h : Composes f := composes hv hbuf
  obtain ⟨g', hg'⟩ := (h.clip_iff ⟨1, 0, 2, 2⟩ ⟨1, 0, 1, 2⟩).mpr (by decide)
  have hone := h.clip_eq _ _ _ hg'
  have hok : (f.convertTo .r8g8b8a8).verdict = .ok () :=
    (convertTo_leaves hbuf _).done_iff.mpr (.inr ⟨⟨by decide, .inr (by decide)⟩, by decide⟩)
  have hcropped : f.cropped ⟨2, 0, 1, 2⟩ = g := by decide
  have hcut : (f.clip ⟨2, 0, 1, 2⟩).toOutcome = .ok (f.cropped ⟨2, 0, 1, 2⟩) := by
    rw [toOutcome_clip hv hbuf, if_pos (by decide)]
  have hsame : g' = g := (Except.ok.inj (hone.symm.trans hcut)).trans hcropped
  exact ⟨hv, hbuf, hsame ▸ hg', h.converted _ _ hok⟩

end RawFrame

end ImageLoader
