import ImageLoader.Loader.Services
import ImageLoader.Proofs.Format.Conversion
import ImageLoader.Proofs.Rows

/-!
# Parts of a frame

Removing the padding of a frame moves its rows together inside the buffer, and cutting out a region gathers
pieces of the rows that were moved.  Of a valid frame both leave a packed frame that holds the pixels of a region
and nothing else of the buffer: `RawFrame.cropped`.

* `RawFrame.Moved.step`, `RawFrame.Moved.moveRows`: rows that are moved in place do not run over those that are not.
* `RawFrame.removePadding_eq`, `RawFrame.clip_eq`: **the edits of a valid frame are croppings of it.**
* `Services.finish_eq_of_sameImage`: **no byte of a valid frame that belongs to no pixel reaches what is made of
  it.**
-/

namespace ImageLoader

namespace RawFrame

open Bytes

/-! ## Moving rows together -/

section Moving

variable {b b' : Bytes} {stride len n row : Nat}

/-- Where rows are moved together: the first `n` lie one after another, and what comes after them is as it was. -/
structure Moved (b b' : Bytes) (stride len n : Nat) : Prop where
  size : b'.size = b.size
  moved : b'.extract 0 (n * len) = gather b 0 stride len n
  unmoved : ∀ i j, n * len ≤ i → b'.extract i j = b.extract i j

/-- The first row lies where it is to lie. -/
theorem moved_one : Moved b b stride len 1 where
  size := rfl
  moved := by simp [gather]
  unmoved _ _ _ := rfl

theorem Moved.step (h : Moved b b' stride len n) (hlen : len ≤ stride)
    (hfit : n * stride + len ≤ b.size) :
    ∃ b'', moveWithin b' (n * stride) len (n * len) = .ok b'' ∧ Moved b b'' stride len (n + 1) := by
  have hle : n * len ≤ n * stride := Nat.mul_le_mul_left n hlen
  have hsize := h.size
  -- the row was not overwritten: it lies behind the rows that were moved
  have hrow : b'.extract (n * stride) (n * stride + len) = b.extract (n * stride) (n * stride + len) :=
    h.unmoved _ _ hle
  have hpart : (b.extract (n * stride) (n * stride + len)).size = len := by
    rw [ByteArray.size_extract]
    omega
  have hroom : n * len + (b.extract (n * stride) (n * stride + len)).size ≤ b'.size := by omega
  refine ⟨b'.overwrite (n * len) (b.extract (n * stride) (n * stride + len)), ?_, ?_, ?_, ?_⟩
  · unfold moveWithin
    rw [if_neg (by omega), if_neg (by omega), hrow]
  · rw [size_overwrite hroom, hsize]
  · have hmoved := extract_overwrite_zero hroom
    rw [hpart] at hmoved
    rw [Nat.succ_mul, hmoved, h.moved, gather, Nat.zero_add]
  · intro i j hi
    rw [Nat.succ_mul] at hi
    rw [extract_overwrite_of_le hroom (by omega), h.unmoved i j (by omega)]

/-- **The rows that are left can be moved**, one after another. -/
theorem Moved.moveRows {count : Nat} (h : Moved b b' stride len row) (hlen : len ≤ stride)
    (hfit : ∀ y < row + count, y * stride + len ≤ b.size) :
    ∃ b'', RawFrame.moveRows len stride count row b' = .ok b'' ∧
      Moved b b'' stride len (row + count) := by
  induction count generalizing row b' with
  | zero => exact ⟨b', rfl, h⟩
  | succ count ih =>
    obtain ⟨b₁, hmove, h₁⟩ := h.step hlen (hfit row (by omega))
    obtain ⟨b₂, hrest, h₂⟩ := ih h₁ fun y hy => hfit y (by omega)
    refine ⟨b₂, ?_, by rwa [show row + (count + 1) = row + 1 + count by omega]⟩
    rw [RawFrame.moveRows, hmove]
    exact hrest

theorem gatherRows_eq (offset first done : Nat)
    (hfit : ∀ y < done + n, (first + y) * stride + offset + len ≤ b.size)
    (hword : ∀ y < done + n, (first + y) * stride + offset + len < wordLimit) :
    gatherRows b stride offset len n (first + done)
      (gather b (first * stride + offset) stride len done) =
        .ok (gather b (first * stride + offset) stride len (done + n)) := by
  induction n generalizing done with
  | zero => rfl
  | succ n ih =>
    have hf := hfit done (by omega)
    have hw := hword done (by omega)
    have hslice : slice? b ((first + done) * stride + offset) len =
        some (b.extract (first * stride + offset + done * stride)
          (first * stride + offset + done * stride + len)) := by
      rw [slice?_eq_some_iff, Nat.add_mul] at *
      exact ⟨by omega, by congr 1 <;> omega⟩
    rw [gatherRows, if_neg (by omega), hslice]
    have hrest := ih (done + 1) (fun y hy => hfit y (by omega)) fun y hy => hword y (by omega)
    rw [show done + (n + 1) = done + 1 + n by omega, ← hrest]
    rfl

end Moving

/-! ## Cropping -/

/-- The region that is all of a frame. -/
def whole (f : RawFrame) : ClipRegion := ⟨0, 0, f.width, f.height⟩

/-- The pixels of a region, packed. -/
def cropped (f : RawFrame) (r : ClipRegion) : RawFrame :=
  { f with
    width := r.width
    height := r.height
    stride := UInt32.ofNat (r.width.toNat * f.format.nBytes)
    buf := gather f.buf (r.y.toNat * f.stride.toNat + r.x.toNat * f.format.nBytes) f.stride.toNat
      (r.width.toNat * f.format.nBytes) r.height.toNat }

variable {f g : RawFrame} {r : ClipRegion} {limit y : Nat}

theorem field_of_lt {n : Nat} (h : n < UInt32.size) : field n = .ok (UInt32.ofNat n) := if_pos h

theorem withStride_of_lt {n : Nat} (h : n < UInt32.size) :
    f.withStride n = .done { f with stride := UInt32.ofNat n } := by
  rw [withStride, field_of_lt h]

theorem withStride_of_not_lt {n : Nat} (h : ¬n < UInt32.size) :
    f.withStride n = .refused f .dimensionTooLarge := by
  rw [withStride, field, if_neg h]

theorem byteCount_lt (f : RawFrame) : f.byteCount < wordLimit :=
  calc f.stride.toNat * f.height.toNat < 2 ^ 32 * 2 ^ 32 :=
        Nat.mul_lt_mul_of_lt_of_le f.stride.toNat_lt (Nat.le_of_lt f.height.toNat_lt) (by decide)
    _ = wordLimit := rfl

theorem row_le_byteCount (hy : y < f.height.toNat) :
    y * f.stride.toNat + f.stride.toNat ≤ f.byteCount :=
  calc y * f.stride.toNat + f.stride.toNat = (y + 1) * f.stride.toNat := (Nat.succ_mul ..).symm
    _ ≤ f.height.toNat * f.stride.toNat := Nat.mul_le_mul_right _ hy
    _ = f.byteCount := Nat.mul_comm ..

theorem row_le_size (hv : f.validate limit = .ok ()) (hy : y < f.height.toNat) :
    y * f.stride.toNat + f.rowBytes ≤ f.buf.size := by
  obtain ⟨-, -, hrow, -, hbuf⟩ := validate_eq_ok_iff.mp hv
  have h := row_le_byteCount hy
  omega

theorem whole_fits (hv : f.validate limit = .ok ()) : f.whole.fits f.width f.height = true := by
  obtain ⟨hw, hh, -⟩ := validate_eq_ok_iff.mp hv
  exact ClipRegion.fits_iff.mpr ⟨hw, hh, by simp [whole], by simp [whole]⟩

theorem columns_fit (hv : f.validate limit = .ok ()) (hr : r.fits f.width f.height = true) :
    r.x.toNat * f.format.nBytes + r.width.toNat * f.format.nBytes ≤ f.stride.toNat := by
  obtain ⟨-, -, hx, -⟩ := ClipRegion.fits_iff.mp hr
  obtain ⟨-, -, hrow, -⟩ := validate_eq_ok_iff.mp hv
  rw [← Nat.add_mul]
  exact Nat.le_trans (Nat.mul_le_mul_right _ hx) hrow

theorem region_le_byteCount (hv : f.validate limit = .ok ()) (hr : r.fits f.width f.height = true)
    (hy : y < r.height.toNat) :
    (r.y.toNat + y) * f.stride.toNat + r.x.toNat * f.format.nBytes + r.width.toNat * f.format.nBytes
      ≤ f.byteCount := by
  obtain ⟨-, -, -, hend⟩ := ClipRegion.fits_iff.mp hr
  have hrow : (r.y.toNat + y) * f.stride.toNat + f.stride.toNat ≤ f.byteCount :=
    row_le_byteCount (by omega)
  have hcol := columns_fit hv hr
  omega

theorem toNat_stride_cropped (hv : f.validate limit = .ok ()) (hr : r.fits f.width f.height = true) :
    (f.cropped r).stride.toNat = r.width.toNat * f.format.nBytes := by
  have hcol := columns_fit hv hr
  have hlt := f.stride.toNat_lt
  exact UInt32.toNat_ofNat_of_lt (by rw [UInt32.size]; omega)

theorem size_buf_cropped (hv : f.validate limit = .ok ()) (hr : r.fits f.width f.height = true) :
    (f.cropped r).buf.size = r.height.toNat * (r.width.toNat * f.format.nBytes) := by
  obtain ⟨-, -, -, -, hbuf⟩ := validate_eq_ok_iff.mp hv
  refine size_gather fun y hy => ?_
  have h := region_le_byteCount hv hr hy
  rw [Nat.add_mul] at h
  omega

theorem byteCount_cropped (hv : f.validate limit = .ok ()) (hr : r.fits f.width f.height = true) :
    (f.cropped r).byteCount = r.height.toNat * (r.width.toNat * f.format.nBytes) := by
  rw [byteCount, toNat_stride_cropped hv hr]
  exact Nat.mul_comm ..

theorem size_cropped (hv : f.validate limit = .ok ()) (hr : r.fits f.width f.height = true) :
    (f.cropped r).buf.size = (f.cropped r).byteCount := by
  rw [size_buf_cropped hv hr, byteCount_cropped hv hr]

/-- What a region covers of a valid frame takes no more bytes than the frame. -/
theorem size_cropped_le (hv : f.validate limit = .ok ()) (hr : r.fits f.width f.height = true) :
    r.height.toNat * (r.width.toNat * f.format.nBytes) ≤ f.byteCount := by
  obtain ⟨-, -, -, hend⟩ := ClipRegion.fits_iff.mp hr
  have hcol := columns_fit hv hr
  calc r.height.toNat * (r.width.toNat * f.format.nBytes)
      ≤ f.height.toNat * f.stride.toNat := Nat.mul_le_mul (by omega) (by omega)
    _ = f.byteCount := Nat.mul_comm ..

/-- **What a region covers of a valid frame is a valid frame.** -/
theorem validate_cropped (hv : f.validate limit = .ok ()) (hr : r.fits f.width f.height = true) :
    (f.cropped r).validate limit = .ok () := by
  obtain ⟨hw, hh, -⟩ := ClipRegion.fits_iff.mp hr
  obtain ⟨-, -, -, hlimit, -⟩ := validate_eq_ok_iff.mp hv
  have hstride := toNat_stride_cropped hv hr
  refine validate_eq_ok_iff.mpr ⟨hw, hh, Nat.le_of_eq hstride.symm, ?_, Nat.le_of_eq (size_cropped hv hr).symm⟩
  rw [byteCount_cropped hv hr]
  exact Nat.le_trans (size_cropped_le hv hr) hlimit

/-- The pixels of a part are pixels of the frame. -/
theorem pixelAt_cropped (hv : f.validate limit = .ok ()) (hr : r.fits f.width f.height = true)
    {x y : Nat} (hx : x < r.width.toNat) (hy : y < r.height.toNat) :
    f.format.pixelAt (f.cropped r).buf (f.cropped r).stride.toNat x y =
      f.format.pixelAt f.buf f.stride.toNat (r.x.toNat + x) (r.y.toNat + y) := by
  obtain ⟨-, -, -, -, hbuf⟩ := validate_eq_ok_iff.mp hv
  have hfit : ∀ k < r.height.toNat, r.y.toNat * f.stride.toNat + r.x.toNat * f.format.nBytes +
      k * f.stride.toNat + r.width.toNat * f.format.nBytes ≤ f.buf.size := fun k hk => by
    have h := region_le_byteCount hv hr hk
    rw [Nat.add_mul] at h
    omega
  have hcol : x * f.format.nBytes + f.format.nBytes ≤ r.width.toNat * f.format.nBytes := by
    rw [← Nat.succ_mul]
    exact Nat.mul_le_mul_right _ hx
  rw [toNat_stride_cropped hv hr, MemoryFormat.pixelAt, MemoryFormat.pixelAt, cropped,
    Bytes.extract_gather hfit hy hcol, Nat.add_mul, Nat.add_mul]
  congr 1 <;> omega

/-! ## The edits -/

theorem cropped_whole (f : RawFrame) : f.cropped f.whole =
    { f with
      stride := UInt32.ofNat f.rowBytes
      buf := gather f.buf 0 f.stride.toNat f.rowBytes f.height.toNat } := by
  simp [cropped, whole, rowBytes]

/-- **Removing the padding of a valid frame leaves its pixels.** -/
theorem removePadding_eq (hv : f.validate limit = .ok ()) :
    f.removePadding = .done (f.cropped f.whole) := by
  obtain ⟨-, hh, hrow, -⟩ := validate_eq_ok_iff.mp hv
  have hheight : f.height.toNat ≠ 0 := fun h => hh (UInt32.toNat_inj.mp h)
  have hlt := f.stride.toNat_lt
  rw [cropped_whole]
  unfold removePadding
  by_cases hs : f.stride.toNat = f.rowBytes
  · -- nothing is moved: the rows have no gaps as they are
    rw [if_pos hs, hs, gather_packed, ← hs, UInt32.ofNat_toNat, Nat.zero_add, Nat.mul_comm, hs]
    rfl
  · have hrows : ∀ y < 1 + (f.height.toNat - 1), y * f.stride.toNat + f.rowBytes ≤ f.buf.size :=
      fun y hy => row_le_size hv (by omega)
    obtain ⟨b, hmove, hmoved⟩ := moved_one.moveRows hrow hrows
    have hall := hmoved.moved
    rw [show 1 + (f.height.toNat - 1) = f.height.toNat by omega, Nat.mul_comm] at hall
    rw [if_neg hs, hmove]
    simp only [field_of_lt (show f.rowBytes < UInt32.size by rw [UInt32.size]; omega)]
    rw [← hall]
    rfl

theorem gatherRows_cropped (hv : f.validate limit = .ok ()) (hr : r.fits f.width f.height = true) :
    gatherRows f.buf f.stride.toNat (r.x.toNat * f.format.nBytes) (r.width.toNat * f.format.nBytes)
      r.height.toNat r.y.toNat ByteArray.empty = .ok (f.cropped r).buf := by
  obtain ⟨-, -, -, -, hbuf⟩ := validate_eq_ok_iff.mp hv
  have h := gatherRows_eq (b := f.buf) (n := r.height.toNat) _ r.y.toNat 0
    (fun y hy => Nat.le_trans (region_le_byteCount hv hr (by omega)) hbuf)
    (fun y hy => Nat.lt_of_le_of_lt (region_le_byteCount hv hr (by omega)) f.byteCount_lt)
  rw [Nat.zero_add] at h
  exact h

/-- **Cutting a region out of a valid frame leaves the pixels of the region**, unless there is no room for them. -/
theorem clip_eq (hv : f.validate limit = .ok ()) (hr : r.fits f.width f.height = true)
    (hroom : r.width.toNat * f.format.nBytes * r.height.toNat ≤ allocationLimit) :
    f.clip r = .done (f.cropped r) := by
  have hcol := columns_fit hv hr
  have hlt := f.stride.toNat_lt
  unfold clip
  rw [if_pos hr]
  simp only [if_neg (Nat.not_lt_of_le hroom), gatherRows_cropped hv hr]
  exact withStride_of_lt (by rw [UInt32.size]; omega)

theorem clip_refused (hr : r.fits f.width f.height = false) :
    f.clip r = .refused f (.invalidClip (.outside r f.width f.height)) := by
  unfold clip
  rw [if_neg (by rw [hr]; exact Bool.false_ne_true)]

/-- A region of the packed frame is that region of the frame. -/
theorem cropped_cropped_whole (hv : f.validate limit = .ok ())
    (hr : r.fits f.width f.height = true) : (f.cropped f.whole).cropped r = f.cropped r := by
  obtain ⟨-, -, hx, hy⟩ := ClipRegion.fits_iff.mp hr
  have hstride : (UInt32.ofNat f.rowBytes).toNat = f.rowBytes :=
    toNat_stride_cropped hv (whole_fits hv)
  have hfit : ∀ y < f.height.toNat, 0 + y * f.stride.toNat + f.rowBytes ≤ f.buf.size := fun y hy => by
    rw [Nat.zero_add]
    exact row_le_size hv hy
  have hcol : r.x.toNat * f.format.nBytes + r.width.toNat * f.format.nBytes ≤ f.rowBytes := by
    rw [← Nat.add_mul]
    exact Nat.mul_le_mul_right _ hx
  rw [cropped_whole, cropped, cropped]
  simp only [hstride, gather_gather hfit hcol hy, Nat.zero_add]

/-! ## Frames that show the same -/

/-- Two frames show the same: they agree in everything but what lies between and behind their rows. -/
structure SameImage (f g : RawFrame) : Prop where
  width : f.width = g.width
  height : f.height = g.height
  format : f.format = g.format
  delay : f.delay = g.delay
  details : f.details = g.details
  pixels : ∀ y < f.height.toNat,
    f.buf.extract (y * f.stride.toNat) (y * f.stride.toNat + f.rowBytes) =
      g.buf.extract (y * g.stride.toNat) (y * g.stride.toNat + g.rowBytes)

/-- Frames that show the same are packed alike. -/
theorem SameImage.cropped_whole_eq (h : f.SameImage g) : f.cropped f.whole = g.cropped g.whole := by
  obtain ⟨hw, hh, hf, hd, ht, hp⟩ := h
  have hrow : f.rowBytes = g.rowBytes := by rw [rowBytes, rowBytes, hw, hf]
  rw [hrow] at hp
  have hbuf : gather f.buf 0 f.stride.toNat g.rowBytes f.height.toNat =
      gather g.buf 0 g.stride.toNat g.rowBytes f.height.toNat :=
    gather_congr fun y hy => by
      rw [Nat.zero_add, Nat.zero_add]
      exact hp y hy
  rw [cropped_whole, cropped_whole, hrow, hbuf, hw, hh, hf, hd, ht]

/-- Valid frames that show the same are prepared alike. -/
theorem SameImage.prepare_eq {t : FinishTarget} (h : f.SameImage g)
    (hf : f.validate t.maxTextureSize = .ok ()) (hg : g.validate t.maxTextureSize = .ok ()) :
    f.prepare t = g.prepare t := by
  unfold prepare
  rw [hf, hg, removePadding_eq hf, removePadding_eq hg, h.cropped_whole_eq]

end RawFrame

/-- **Nothing but its pixels reaches what is made of a valid frame.**  Frames that show the same are finished with
one result, whatever the scaler does, and the world is left in one state: the scaler is given one frame. -/
theorem Services.finish_eq_of_sameImage {σ : Type} {f g : RawFrame} {t : FinishTarget}
    (hf : f.validate t.maxTextureSize = .ok ()) (hg : g.validate t.maxTextureSize = .ok ())
    (h : f.SameImage g) :
    (∀ (S : Services σ) (v : World σ), S.finish f t v = S.finish g t v) ∧
      ∀ scale : Scaler, f.finish scale t = g.finish scale t := by
  have hprepare := h.prepare_eq hf hg
  refine ⟨fun S v => ?_, fun scale => ?_⟩
  · unfold finish
    rw [hprepare]
  · unfold RawFrame.finish
    rw [hprepare]

/-- Two gray pixels one below the other, with and without something beside and behind them. -/
theorem Services.finish_eq_of_sameImage_gray :
    let f : RawFrame := ⟨1, 2, 1, .g8, Bytes.ofList [10, 20], none, {}⟩
    let g : RawFrame := ⟨1, 2, 3, .g8, Bytes.ofList [10, 7, 7, 20, 8, 8, 9], none, {}⟩
    let t : FinishTarget := ⟨.all, { scale := some (4, 4) }, 100⟩
    f.validate t.maxTextureSize = .ok () ∧ g.validate t.maxTextureSize = .ok () ∧ f.SameImage g ∧
      (∀ (S : Services Unit) (v : World Unit), S.finish f t v = S.finish g t v) ∧
        ∀ scale : Scaler, f.finish scale t = g.finish scale t := by
  intro f g t
  have hf : f.validate t.maxTextureSize = .ok () := RawFrame.validate_eq_ok_iff.mpr (by decide)
  have hg : g.validate t.maxTextureSize = .ok () := RawFrame.validate_eq_ok_iff.mpr (by decide)
  have h : f.SameImage g := ⟨rfl, rfl, rfl, rfl, rfl, by decide⟩
  exact ⟨hf, hg, h, finish_eq_of_sameImage hf hg h⟩

end ImageLoader
