import ImageLoader.Proofs.Format.Buffers
import ImageLoader.Proofs.Frame.Cropped
import ImageLoader.Proofs.Frame.Shape

/-!
# What the edits of a frame leave

Removing the padding of a valid frame always goes well, and cutting a region out of it goes well if the region fits;
one that does not fit leaves the frame as it was.  Converting is asked of any frame, valid or not, and has one failure
that comes too late: the stride is measured when the buffer and the format have been replaced.

* `RawFrame.removePadding_repacks`: **removing the padding keeps every byte of a pixel.**
* `RawFrame.clip_shows`: **a region is cut out exactly if it fits**, and all of it is shown.
* `RawFrame.convertTo_leaves`: **a conversion that fails leaves the frame as it was**, unless only its new stride is too
  large for its field.
-/

namespace ImageLoader

namespace RawFrame

variable {f g : RawFrame} {r : ClipRegion} {c : MemoryFormat} {limit : Nat}

/-! ## Padding -/

theorem SameImage.byte_eq (h : f.SameImage g) {y i : Nat} (hy : y < f.height.toNat) (hi : i < f.rowBytes) :
    g.buf[y * g.stride.toNat + i]? = f.buf[y * f.stride.toNat + i]? := by
  have hrow : f.rowBytes = g.rowBytes := by rw [rowBytes, rowBytes, h.width, h.format]
  rw [← Bytes.getElem?_extract (b := g.buf) (hrow ▸ hi), ← h.pixels y hy, Bytes.getElem?_extract hi]

theorem sameImage_cropped_whole (hv : f.validate limit = .ok ()) : f.SameImage (f.cropped f.whole) where
  width := rfl
  height := rfl
  format := rfl
  delay := rfl
  details := rfl
  pixels y hy := by
    have hfit : ∀ k < f.height.toNat, 0 + k * f.stride.toNat + f.rowBytes ≤ f.buf.size := fun k hk => by
      rw [Nat.zero_add]
      exact row_le_size hv hk
    have hstride : (f.cropped f.whole).stride.toNat = f.rowBytes := toNat_stride_cropped hv (whole_fits hv)
    have hextract := Bytes.extract_gather (i := 0) hfit hy (Nat.le_of_eq (Nat.zero_add f.rowBytes))
    simp only [Nat.zero_add, Nat.add_zero] at hextract
    rw [hstride, cropped_whole]
    exact hextract.symm

/-- What is left of a frame when its padding is removed: the same pixels, byte by byte, and nothing else. -/
structure Repacked (f g : RawFrame) : Prop extends PackedAs f g f.width f.height f.format where
  size : g.buf.size = g.stride.toNat * g.height.toNat
  byte : ∀ y < f.height.toNat, ∀ i < f.width.toNat * f.format.nBytes,
    g.buf[y * g.stride.toNat + i]? = f.buf[y * f.stride.toNat + i]?

theorem packedAs_cropped (hv : f.validate limit = .ok ()) (hr : r.fits f.width f.height = true) :
    PackedAs f (f.cropped r) r.width r.height f.format :=
  ⟨rfl, rfl, rfl, toNat_stride_cropped hv hr, rfl, rfl⟩

theorem removePadding_cropped_whole (hv : f.validate limit = .ok ()) :
    (f.cropped f.whole).removePadding = .done (f.cropped f.whole) := by
  have hw := whole_fits hv
  have hagain : (f.cropped f.whole).cropped (f.cropped f.whole).whole = f.cropped f.whole :=
    cropped_cropped_whole hv hw
  rw [removePadding_eq (validate_cropped hv hw), hagain]

/-- **Removing the padding of a valid frame goes well and keeps every byte of a pixel**; once it is removed, removing
it again changes nothing. -/
theorem removePadding_repacks (hv : f.validate limit = .ok ()) :
    f.removePadding.verdict = .ok () ∧ Repacked f f.removePadding.frame ∧
      f.removePadding.frame.removePadding = .done f.removePadding.frame := by
  have hw := whole_fits hv
  rw [removePadding_eq hv]
  refine ⟨rfl, ⟨packedAs_cropped hv hw, size_cropped hv hw, fun y hy i hi => ?_⟩, removePadding_cropped_whole hv⟩
  exact (sameImage_cropped_whole hv).byte_eq hy hi

/-- Three rows of two bytes, with one byte between them: the second is moved over its own first byte, and the third
over the last byte of the second. -/
theorem removePadding_repacks_gray :
    let f : RawFrame := ⟨2, 3, 3, .g8, Bytes.ofList [1, 2, 0, 3, 4, 0, 5, 6, 0, 7], none, {}⟩
    f.validate 9 = .ok () ∧ f.removePadding.verdict = .ok () ∧ Repacked f f.removePadding.frame ∧
      f.removePadding.frame.removePadding = .done f.removePadding.frame := by
  intro f
  have hv : f.validate 9 = .ok () := validate_eq_ok_iff.mpr (by decide)
  exact ⟨hv, removePadding_repacks hv⟩

/-! ## Regions -/

/-- What is left of a frame when a region is cut out: the pixels of the region, and nothing else. -/
structure Shows (f g : RawFrame) (r : ClipRegion) : Prop extends PackedAs f g r.width r.height f.format where
  size : g.buf.size = g.stride.toNat * g.height.toNat
  pixel : ∀ i < r.width.toNat, ∀ j < r.height.toNat,
    f.format.pixelAt g.buf g.stride.toNat i j =
      f.format.pixelAt f.buf f.stride.toNat (r.x.toNat + i) (r.y.toNat + j)

theorem shows_cropped (hv : f.validate limit = .ok ()) (hr : r.fits f.width f.height = true) :
    Shows f (f.cropped r) r where
  toPackedAs := packedAs_cropped hv hr
  size := size_cropped hv hr
  pixel _ hi _ hj := pixelAt_cropped hv hr hi hj

/-- **A region is cut out of a valid frame in memory if it has pixels and ends inside the frame, and only then**; any
other leaves the frame as it was. -/
theorem clip_shows (hv : f.validate limit = .ok ()) (hbuf : f.buf.size ≤ allocationLimit) (r : ClipRegion) :
    ((f.clip r).verdict = .ok () ↔ r.width ≠ 0 ∧ r.height ≠ 0 ∧
        r.x.toNat + r.width.toNat ≤ f.width.toNat ∧ r.y.toNat + r.height.toNat ≤ f.height.toNat) ∧
      ((f.clip r).verdict = .ok () → Shows f (f.clip r).frame r) ∧
      ((f.clip r).verdict ≠ .ok () → f.clip r = .refused f (.invalidClip (.outside r f.width f.height))) := by
  rw [← ClipRegion.fits_iff]
  by_cases hr : r.fits f.width f.height = true
  · -- what fits takes no more memory than the frame has
    have hroom : r.width.toNat * f.format.nBytes * r.height.toNat ≤ allocationLimit := by
      have hsize := size_cropped_le hv hr
      have hcount := (validate_eq_ok_iff.mp hv).2.2.2.2
      rw [Nat.mul_comm]
      omega
    rw [clip_eq hv hr hroom]
    exact ⟨⟨fun _ => hr, fun _ => rfl⟩, fun _ => shows_cropped hv hr, fun h => absurd rfl h⟩
  · rw [clip_refused (Bool.eq_false_iff.mpr hr)]
    exact ⟨⟨fun h => (nomatch h), fun h => absurd h hr⟩, fun h => (nomatch h), fun _ => rfl⟩

/-- The last column of a padded frame is cut out. -/
theorem clip_shows_column :
    let f : RawFrame := ⟨2, 2, 4, .g8, Bytes.ofList [1, 2, 0, 0, 3, 4, 0, 0], none, {}⟩
    let r : ClipRegion := ⟨1, 0, 1, 2⟩
    f.validate 8 = .ok () ∧ f.buf.size ≤ allocationLimit ∧ Shows f (f.clip r).frame r := by
  intro f r
  have hv : f.validate 8 = .ok () := validate_eq_ok_iff.mpr (by decide)
  have hbuf : f.buf.size ≤ allocationLimit := by decide
  obtain ⟨hok, hshows, -⟩ := clip_shows hv hbuf r
  exact ⟨hv, hbuf, hshows (hok.mpr (by decide))⟩

/-! ## Formats -/

/-- The pixels of a frame can be converted: its rows are all there, or have no pixels, and in the other format there can
be memory for them. -/
def Convertible (f : RawFrame) (c : MemoryFormat) : Prop :=
  f.width.toNat * c.nBytes * f.height.toNat ≤ allocationLimit ∧
    (f.width.toNat = 0 ∨ ∀ y < f.height.toNat, HasRow f.format f.buf f.width.toNat f.stride.toNat y)

/-- A frame whose pixels can be converted to rows that are too long for the field that measures them. -/
structure Overlong (f : RawFrame) (c : MemoryFormat) : Prop where
  other : c ≠ f.format
  convertible : f.Convertible c
  long : ¬f.width.toNat * c.nBytes < UInt32.size

/-- What converting a frame leaves, whether it goes well or not. -/
structure Leaves (f : RawFrame) (c : MemoryFormat) (e : Edited) : Prop where
  /-- It goes well where nothing is to be done, and where the pixels can be converted and the new stride fits. -/
  done_iff : e.verdict = .ok () ↔ c = f.format ∨ f.Convertible c ∧ f.width.toNat * c.nBytes < UInt32.size
  /-- Then the frame has the format, and the size, the delay and the details that it had, -/
  kept : e.verdict = .ok () → e.frame.format = c ∧ e.frame.width = f.width ∧ e.frame.height = f.height ∧
    e.frame.delay = f.delay ∧ e.frame.details = f.details
  /-- and is packed if the format is another. -/
  packed : e.verdict = .ok () → c ≠ f.format → e.frame.stride.toNat = f.width.toNat * c.nBytes ∧
    e.frame.buf.size = e.frame.stride.toNat * e.frame.height.toNat
  /-- A frame that is not converted is as it was, unless it is overlong. -/
  unchanged_iff : e.verdict ≠ .ok () → (e.frame = f ↔ ¬f.Overlong c)
  /-- One that is overlong is refused when its buffer and its format have been replaced. -/
  overlong : f.Overlong c → ∃ image, e = .refused { f with buf := image, format := c } .dimensionTooLarge ∧
    IsConversion f.format c f.buf f.stride.toNat f.width.toNat f.height.toNat image

variable {image : Bytes}

theorem leaves_same (f : RawFrame) : Leaves f f.format (.done f) where
  done_iff := ⟨fun _ => .inl rfl, fun _ => rfl⟩
  kept _ := ⟨rfl, rfl, rfl, rfl, rfl⟩
  packed _ hne := absurd rfl hne
  unchanged_iff h := absurd rfl h
  overlong h := absurd rfl h.other

theorem leaves_refused {stop : Stop FrameError} (hne : c ≠ f.format) (hc : ¬f.Convertible c) :
    Leaves f c ⟨f, .error stop⟩ where
  done_iff := ⟨fun h => (nomatch h), fun h => absurd (h.resolve_left hne).1 hc⟩
  kept h := nomatch h
  packed h := nomatch h
  unchanged_iff _ := ⟨fun _ h => hc h.convertible, fun _ => rfl⟩
  overlong h := absurd h.convertible hc

theorem leaves_converted (hc : f.Convertible c)
    (himage : IsConversion f.format c f.buf f.stride.toNat f.width.toNat f.height.toNat image)
    (hshort : f.width.toNat * c.nBytes < UInt32.size) :
    Leaves f c (.done { f with
      buf := image, format := c, stride := UInt32.ofNat (f.width.toNat * c.nBytes) }) where
  done_iff := ⟨fun _ => .inr ⟨hc, hshort⟩, fun _ => rfl⟩
  kept _ := ⟨rfl, rfl, rfl, rfl, rfl⟩
  packed _ _ := by
    have hstride : (UInt32.ofNat (f.width.toNat * c.nBytes)).toNat = f.width.toNat * c.nBytes :=
      UInt32.toNat_ofNat_of_lt hshort
    refine ⟨hstride, himage.size.trans ?_⟩
    rw [Nat.mul_comm]
    exact congrArg (· * f.height.toNat) hstride.symm
  unchanged_iff h := absurd rfl h
  overlong h := absurd hshort h.long

theorem leaves_overlong (hne : c ≠ f.format) (hc : f.Convertible c)
    (himage : IsConversion f.format c f.buf f.stride.toNat f.width.toNat f.height.toNat image)
    (hlong : ¬f.width.toNat * c.nBytes < UInt32.size) :
    Leaves f c (.refused { f with buf := image, format := c } .dimensionTooLarge) where
  done_iff := ⟨fun h => (nomatch h), fun h => absurd (h.resolve_left hne).2 hlong⟩
  kept h := nomatch h
  packed h := nomatch h
  unchanged_iff _ := ⟨fun h => absurd (congrArg RawFrame.format h) hne, fun h => absurd ⟨hne, hc, hlong⟩ h⟩
  overlong _ := ⟨image, rfl, himage⟩

/-- **A conversion that fails leaves the frame as it was, unless the frame is overlong**: of any frame in memory,
whatever its sizes say of its buffer.  One that goes well packs the frame and changes nothing but the format, the stride
and the buffer. -/
theorem convertTo_leaves (hbuf : f.buf.size ≤ allocationLimit) (c : MemoryFormat) : Leaves f c (f.convertTo c) := by
  have hending : BufferEnding f.format c f.buf f.width.toNat f.height.toNat f.stride.toNat
      (convertBuffer f.format f.buf f.width.toNat f.height.toNat f.stride.toNat c) :=
    convertBuffer_ending f.width.toNat_lt f.stride.toNat_lt hbuf
  have hconvertible :
      (∃ image, convertBuffer f.format f.buf f.width.toNat f.height.toNat f.stride.toNat c = .ok image) ↔
        f.Convertible c := hending.ok_iff
  by_cases hne : c = f.format
  · subst hne
    rw [show f.convertTo f.format = .done f from if_pos rfl]
    exact leaves_same f
  · rcases ho : convertBuffer f.format f.buf f.width.toNat f.height.toNat f.stride.toNat c with stop | image
    · rw [convertTo_of_error hne ho]
      refine leaves_refused hne fun hc => ?_
      obtain ⟨image, hok⟩ := hconvertible.mpr hc
      cases ho.symm.trans hok
    · have hc : f.Convertible c := hconvertible.mp ⟨image, ho⟩
      rw [ho] at hending
      rw [convertTo_of_ok hne ho]
      by_cases hshort : f.width.toNat * c.nBytes < UInt32.size
      · rw [withStride_of_lt hshort]
        exact leaves_converted hc hending.isConversion hshort
      · rw [withStride_of_not_lt hshort]
        exact leaves_overlong hne hc hending.isConversion hshort

/-- A gray frame of many columns and no rows has three bytes in its buffer.  It is refused in a format of four channels,
and what is left has that format, no bytes, and the stride of a gray frame. -/
theorem convertTo_leaves_columns :
    let f : RawFrame := ⟨1073741824, 0, 1073741824, .g8, Bytes.ofList [1, 2, 3], none, {}⟩
    let e := f.convertTo .r8g8b8a8
    f.buf.size ≤ allocationLimit ∧ e.verdict = .error (.error .dimensionTooLarge) ∧ e.frame.format = .r8g8b8a8 ∧
      e.frame.buf.size = 0 ∧ e.frame.stride = f.stride ∧ e.frame ≠ f := by
  intro f e
  have hbuf : f.buf.size ≤ allocationLimit := by decide
  have hleaves : Leaves f .r8g8b8a8 e := convertTo_leaves hbuf .r8g8b8a8
  have hover : f.Overlong .r8g8b8a8 :=
    ⟨by decide, ⟨by decide, .inr fun y hy => absurd hy (Nat.not_lt_zero y)⟩, by decide⟩
  obtain ⟨image, he, himage⟩ := hleaves.overlong hover
  have hverdict : e.verdict = .error (.error .dimensionTooLarge) := by rw [he]; rfl
  refine ⟨hbuf, hverdict, by rw [he]; rfl, ?_, by rw [he]; rfl, fun h => ?_⟩
  · rw [he]
    exact himage.size.trans (Nat.zero_mul _)
  · exact (hleaves.unchanged_iff fun hok => nomatch hverdict.symm.trans hok).mp h hover

end RawFrame

end ImageLoader
