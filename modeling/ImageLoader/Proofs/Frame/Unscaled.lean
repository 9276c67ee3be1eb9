import ImageLoader.Proofs.Format.Choice
import ImageLoader.Proofs.Format.Conversion
import ImageLoader.Proofs.Frame.Cropped
import ImageLoader.Proofs.Frame.Shape
import ImageLoader.Proofs.Loader.Ports

/-!
# Frames that are finished without scaling

Where the size that is asked for is the size of the region that is asked for, finishing crops and converts, and
can be said in full: a list of requirements decides whether a frame is finished, the first of them that is not met
names the error, and the frame that is made shows the region pixel by pixel.

* `RawFrame.requirements`: what is asked of a frame, in the order in which it is checked.
* `Frame.ShowsRegion`: what the finished frame holds.
* `Services.finish_unscaled`: **a frame is finished if it meets the requirements, and only then.**
-/

namespace ImageLoader

/-! ## What is asked of a frame -/

/-- A condition that has to be met, and the error of what does not meet it. -/
structure Requirement where
  met : Bool
  refusal : FrameError

/-- The error of the first requirement that is not met. -/
def Requirement.refusal? (l : List Requirement) : Option FrameError :=
  (l.find? fun q => !q.met).map refusal

/-- The region of a frame that a request asks for. -/
def FrameRequest.regionOf (r : FrameRequest) (f : RawFrame) : ClipRegion := r.clip.getD f.whole

/-- What is asked of any frame: pixels, rows that do not overlap, a size below the limit, and all of its data. -/
def RawFrame.soundness (f : RawFrame) (limit : Nat) : List Requirement :=
  [⟨1 ≤ f.width.toNat ∧ 1 ≤ f.height.toNat, .emptySize f.display⟩,
    ⟨f.width.toNat * f.format.nBytes ≤ f.stride.toNat, .strideTooSmall f.display⟩,
    ⟨f.stride.toNat * f.height.toNat ≤ limit, .textureTooLarge limit⟩,
    ⟨f.stride.toNat * f.height.toNat ≤ f.buf.size, .textureTooSmall f.buf.size f.display⟩]

/-- What is asked of a region in the format that is chosen for it.  Where that is the format of the frame, nothing is
asked of the size in it. -/
def RawFrame.convertibility (f : RawFrame) (t : FinishTarget) (r : ClipRegion) : List Requirement :=
  let chosen := t.accepted.best? f.format
  [⟨t.accepted.toList ≠ [], .noAcceptedFormat f.format⟩,
    ⟨∀ c ∈ chosen, c ≠ f.format → r.width.toNat * c.nBytes < UInt32.size, .dimensionTooLarge⟩,
    ⟨∀ c ∈ chosen, c ≠ f.format →
      r.width.toNat * c.nBytes * r.height.toNat ≤ t.maxTextureSize, .textureTooLarge t.maxTextureSize⟩]

/-- What is asked of a frame that is finished without scaling, in the order in which it is checked. -/
def RawFrame.requirements (f : RawFrame) (t : FinishTarget) : List Requirement :=
  let r := t.request.regionOf f
  f.soundness t.maxTextureSize ++
    ⟨1 ≤ r.width.toNat ∧ 1 ≤ r.height.toNat ∧ r.x.toNat + r.width.toNat ≤ f.width.toNat ∧
      r.y.toNat + r.height.toNat ≤ f.height.toNat, .invalidClip (.outside r f.width f.height)⟩ ::
    f.convertibility t r

/-- There is room for what is made of a region: for the buffer that it comes from, and for the region in the chosen
format, as far as a word can count its bytes. -/
structure RawFrame.HasRoom (f : RawFrame) (t : FinishTarget) (r : ClipRegion) : Prop where
  own : f.buf.size ≤ allocationLimit
  converted : ∀ c ∈ t.accepted.best? f.format, c ≠ f.format →
    r.width.toNat * c.nBytes * r.height.toNat < wordLimit →
    r.width.toNat * c.nBytes * r.height.toNat ≤ allocationLimit

/-- What a finished frame shows of a raw one: a region, packed, in a format `c`.  Its pixels are those of the raw
frame, or are transformed from them, and there is nothing else in it. -/
structure Frame.ShowsRegion (frame : Frame) (f : RawFrame) (r : ClipRegion) (c : MemoryFormat) :
    Prop where
  width : frame.width = r.width
  height : frame.height = r.height
  format : frame.format = c
  stride : frame.stride.toNat = r.width.toNat * c.nBytes
  size : frame.buf.size = frame.stride.toNat * frame.height.toNat
  delay : frame.delay = f.delay
  details : frame.details = f.details
  pixel : ∀ x < r.width.toNat, ∀ y < r.height.toNat,
    let source := f.format.pixelAt f.buf f.stride.toNat (r.x.toNat + x) (r.y.toNat + y)
    let shown := c.pixelAt frame.buf frame.stride.toNat x y
    if c = f.format then shown = source
    else f.format.transform source c (Bytes.fill c.nBytes 0) = (shown, .ok ())

theorem FrameRequest.scaleFor_of_eq {request : FrameRequest} {width height : UInt32}
    (h : request.scale = none ∨ request.scale = some (width, height)) (hw : width ≠ 0)
    (hh : height ≠ 0) : request.scaleFor width height = .ok none := by
  unfold scaleFor
  rcases h with h | h
  · rw [h]
  · rw [h]
    simp [hw, hh]

namespace RawFrame

variable {f : RawFrame} {t : FinishTarget} {r : ClipRegion} {c : MemoryFormat} {limit : Nat}

/-! ## Cropping -/

/-- **The region of a request is cut out of a packed frame**, if it fits. -/
theorem clipTo_cropped_whole (hv : f.validate limit = .ok ()) (hroom : f.byteCount ≤ allocationLimit)
    (request : FrameRequest) :
    (f.cropped f.whole).clipTo request =
      if (request.regionOf f).fits f.width f.height then .ok (f.cropped (request.regionOf f))
      else .error (.error (.invalidClip (.outside (request.regionOf f) f.width f.height))) := by
  have hw := whole_fits hv
  unfold clipTo FrameRequest.regionOf
  cases request.clip with
  | none => rw [Option.getD_none, if_pos hw]
  | some r =>
    rw [Option.getD_some]
    by_cases hr : r.fits f.width f.height = true
    · have hle : r.width.toNat * f.format.nBytes * r.height.toNat ≤ allocationLimit := by
        rw [Nat.mul_comm]
        exact Nat.le_trans (size_cropped_le hv hr) hroom
      simp only [if_pos hr, clip_eq (validate_cropped hv hw) hr hle, cropped_cropped_whole hv hr]
      rfl
    · rw [if_neg hr]
      simp only [clip_refused (f := f.cropped f.whole) (Bool.eq_false_iff.mpr hr)]
      rfl

/-! ## Sealing -/

/-- Sealing a packed frame with pixels that ends with its last row keeps all of it, unless it is too large. -/
theorem toFrame_packed (hw : f.width ≠ 0) (hh : f.height ≠ 0) (hp : f.stride.toNat = f.rowBytes)
    (hsize : f.buf.size = f.byteCount) (limit : Nat) :
    f.toFrame limit = if f.byteCount ≤ limit then
      .ok ⟨f.width, f.height, f.stride, f.format, f.buf, f.delay, f.details⟩
      else .error (.textureTooLarge limit) := by
  by_cases hl : f.byteCount ≤ limit
  · rw [if_pos hl]
    refine toFrame_eq_ok_iff.mpr ⟨validate_eq_ok_iff.mpr ⟨hw, hh, ?_, hl, ?_⟩, ?_⟩
    · exact Nat.le_of_eq hp.symm
    · exact Nat.le_of_eq hsize.symm
    · rw [Bytes.truncate, ← hsize, ByteArray.extract_zero_size]
  · rw [if_neg hl, toFrame, validate, if_neg (by simp [hw, hh]), if_neg (by omega), if_pos (by omega)]
    rfl

theorem deliver_of_some (hc : t.accepted.best? f.format = some c) :
    f.deliver t = (f.convertTo c).toOutcome >>= fun g => .ofExcept (g.toFrame t.maxTextureSize) := by
  rw [deliver, hc]

theorem deliver_of_none (hc : t.accepted.best? f.format = none) :
    f.deliver t = .error (.error (.noAcceptedFormat f.format)) := by
  rw [deliver, hc]

/-! ## Converting -/

theorem deliver_native (hv : f.validate t.maxTextureSize = .ok ())
    (hr : r.fits f.width f.height = true) (hc : t.accepted.best? f.format = some f.format) :
    ∃ frame, (f.cropped r).deliver t = .ok frame ∧ frame.ShowsRegion f r f.format := by
  obtain ⟨hw, hh, -⟩ := ClipRegion.fits_iff.mp hr
  have hstride := toNat_stride_cropped hv hr
  obtain ⟨-, -, -, hlimit, -⟩ := validate_eq_ok_iff.mp (validate_cropped hv hr)
  have hsize := size_cropped hv hr
  have hseal := toFrame_packed (f := f.cropped r) hw hh hstride hsize t.maxTextureSize
  have hself : (f.cropped r).convertTo f.format = .done (f.cropped r) := if_pos rfl
  refine ⟨⟨r.width, r.height, (f.cropped r).stride, f.format, (f.cropped r).buf, f.delay, f.details⟩,
    ?_, ⟨rfl, rfl, rfl, hstride, hsize, rfl, rfl, fun x hx y hy => ?_⟩⟩
  · rw [deliver_of_some (f := f.cropped r) hc, hself]
    exact Outcome.ofExcept_eq_ok_iff.mpr (hseal.trans (if_pos hlimit))
  · simp only [if_true]
    exact pixelAt_cropped hv hr hx hy

theorem cropped_rows_fit (hv : f.validate limit = .ok ()) (hr : r.fits f.width f.height = true)
    {y : Nat} (hy : y < r.height.toNat) :
    y * (f.cropped r).stride.toNat + r.width.toNat * f.format.nBytes ≤ (f.cropped r).byteCount := by
  have h := row_le_byteCount (f := f.cropped r) hy
  rw [toNat_stride_cropped hv hr] at h ⊢
  exact h

/-- The buffer of a part can be converted where there is room for the result. -/
theorem convertBuffer_cropped (hv : f.validate limit = .ok ()) (hr : r.fits f.width f.height = true)
    (hroom : r.width.toNat * c.nBytes * r.height.toNat ≤ allocationLimit) :
    ∃ image, convertBuffer f.format (f.cropped r).buf r.width.toNat r.height.toNat
        (f.cropped r).stride.toNat c = .ok image ∧
      IsConversion f.format c (f.cropped r).buf (f.cropped r).stride.toNat r.width.toNat
        r.height.toNat image := by
  obtain ⟨hw, hh, -⟩ := ClipRegion.fits_iff.mp hr
  have hw' : r.width.toNat ≠ 0 := fun h => hw (UInt32.toNat_inj.mp h)
  have hh' : r.height.toNat ≠ 0 := fun h => hh (UInt32.toNat_inj.mp h)
  obtain ⟨-, -, -, -, hbuf⟩ := validate_eq_ok_iff.mp (validate_cropped hv hr)
  exact convertBuffer_eq_ok (fun k hk => Nat.le_trans (cropped_rows_fit hv hr hk) hbuf)
    (fun k hk => Nat.lt_of_le_of_lt (cropped_rows_fit hv hr hk) (f.cropped r).byteCount_lt)
    (Nat.pos_of_ne_zero hw') (Nat.pos_of_ne_zero hh') hroom

/-- **A part is refused in a format in which its rows are too long.** -/
theorem deliver_tooWide (hv : f.validate t.maxTextureSize = .ok ())
    (hr : r.fits f.width f.height = true) (hc : t.accepted.best? f.format = some c)
    (hne : c ≠ f.format) (hwide : ¬r.width.toNat * c.nBytes < UInt32.size)
    (hroom : r.width.toNat * c.nBytes * r.height.toNat < wordLimit →
      r.width.toNat * c.nBytes * r.height.toNat ≤ allocationLimit) :
    (f.cropped r).deliver t = .error (.error .dimensionTooLarge) := by
  have hpixels : ∀ d : MemoryFormat, r.width.toNat * d.nBytes < wordLimit := row_bytes_lt r.width.toNat_lt
  -- the buffer is converted and its stride refused, or it is refused itself: the error is the same
  have hrefused : ∃ g, (f.cropped r).convertTo c = .refused g .dimensionTooLarge := by
    by_cases hword : r.width.toNat * c.nBytes * r.height.toNat < wordLimit
    · obtain ⟨image, hconvert, -⟩ := convertBuffer_cropped hv hr (hroom hword)
      exact ⟨_, (convertTo_of_ok (f := f.cropped r) hne hconvert).trans (withStride_of_not_lt hwide)⟩
    · have hconvert := convertBuffer_tooLarge (f.cropped r).buf (f.cropped r).stride.toNat
        (hpixels f.format) (hpixels c) (Nat.le_of_not_lt hword)
      exact ⟨_, convertTo_of_error (f := f.cropped r) hne hconvert⟩
  obtain ⟨g, hg⟩ := hrefused
  rw [deliver_of_some (f := f.cropped r) hc, hg]
  rfl

/-- A part in another format, in which its rows are short enough: it is delivered if it is small enough. -/
theorem deliver_converted (hv : f.validate t.maxTextureSize = .ok ())
    (hr : r.fits f.width f.height = true) (hc : t.accepted.best? f.format = some c)
    (hne : c ≠ f.format) (hwide : r.width.toNat * c.nBytes < UInt32.size)
    (hroom : r.width.toNat * c.nBytes * r.height.toNat ≤ allocationLimit) :
    ∃ frame, frame.ShowsRegion f r c ∧ (f.cropped r).deliver t =
      if r.width.toNat * c.nBytes * r.height.toNat ≤ t.maxTextureSize then .ok frame
      else .error (.error (.textureTooLarge t.maxTextureSize)) := by
  obtain ⟨hw, hh, -⟩ := ClipRegion.fits_iff.mp hr
  obtain ⟨image, hconvert, himage⟩ := convertBuffer_cropped hv hr hroom
  have hstride : (UInt32.ofNat (r.width.toNat * c.nBytes)).toNat = r.width.toNat * c.nBytes :=
    UInt32.toNat_ofNat_of_lt hwide
  let g : RawFrame := { f.cropped r with
    buf := image, format := c, stride := UInt32.ofNat (r.width.toNat * c.nBytes) }
  have hcount : g.byteCount = r.width.toNat * c.nBytes * r.height.toNat := by
    rw [byteCount, hstride]
    rfl
  have hsize : g.buf.size = g.byteCount := by
    rw [hcount, Nat.mul_comm]
    exact himage.size
  have hedit : (f.cropped r).convertTo c = .done g :=
    (convertTo_of_ok (f := f.cropped r) hne hconvert).trans (withStride_of_lt hwide)
  refine ⟨⟨g.width, g.height, g.stride, g.format, g.buf, g.delay, g.details⟩,
    ⟨rfl, rfl, rfl, hstride, hsize, rfl, rfl, fun x hx y hy => ?_⟩, ?_⟩
  · have hpixel := himage.pixel x hx y hy
    rw [MemoryFormat.convertPixel_eq_ok_iff, pixelAt_cropped hv hr hx hy, ← hstride] at hpixel
    simp only [if_neg hne]
    exact hpixel
  · rw [deliver_of_some (f := f.cropped r) hc, hedit]
    show Outcome.ofExcept (g.toFrame t.maxTextureSize) = _
    rw [toFrame_packed hw hh hstride hsize, hcount]
    by_cases hlimit : r.width.toNat * c.nBytes * r.height.toNat ≤ t.maxTextureSize
    · rw [if_pos hlimit, if_pos hlimit]
      rfl
    · rw [if_neg hlimit, if_neg hlimit]
      rfl

/-! ## Before scaling -/

/-- **A valid frame is prepared by cropping**, where the region asked for fits and has the size asked for. -/
theorem prepare_unscaled (hv : f.validate t.maxTextureSize = .ok ())
    (hroom : f.byteCount ≤ allocationLimit)
    (hscale : t.request.scale = none ∨
      t.request.scale = some ((t.request.regionOf f).width, (t.request.regionOf f).height)) :
    f.prepare t =
      if (t.request.regionOf f).fits f.width f.height then
        .ok (.ready (f.cropped (t.request.regionOf f)))
      else .error (.error (.invalidClip (.outside (t.request.regionOf f) f.width f.height))) := by
  unfold prepare
  rw [hv, removePadding_eq hv]
  show (clipTo (f.cropped f.whole) t.request >>= _) = _
  rw [clipTo_cropped_whole hv hroom]
  by_cases hr : (t.request.regionOf f).fits f.width f.height = true
  · obtain ⟨hw, hh, -⟩ := ClipRegion.fits_iff.mp hr
    rw [if_pos hr, if_pos hr]
    have hnone := FrameRequest.scaleFor_of_eq hscale hw hh
    show (Outcome.ofExcept (t.request.scaleFor (t.request.regionOf f).width
      (t.request.regionOf f).height) >>= _) = _
    rw [hnone]
    rfl
  · rw [if_neg hr, if_neg hr]
    rfl

end RawFrame

/-! ## The requirements -/

namespace Requirement

@[simp] theorem refusal?_nil : refusal? [] = none := rfl

theorem refusal?_cons (q : Requirement) (l : List Requirement) :
    refusal? (q :: l) = if q.met then refusal? l else some q.refusal := by
  unfold refusal?
  rw [List.find?_cons]
  cases q.met <;> rfl

theorem refusal?_append (l m : List Requirement) :
    refusal? (l ++ m) = (refusal? l).or (refusal? m) := by
  induction l with
  | nil => rfl
  | cons q l ih =>
    rw [List.cons_append, refusal?_cons, refusal?_cons, ih]
    cases q.met <;> rfl

theorem refusal?_eq_none_iff {l : List Requirement} : refusal? l = none ↔ ∀ q ∈ l, q.met = true := by
  unfold refusal?
  rw [Option.map_eq_none_iff, List.find?_eq_none]
  simp

end Requirement

theorem one_le_toNat_iff {n : UInt32} : 1 ≤ n.toNat ↔ n ≠ 0 := by
  rw [Nat.one_le_iff_ne_zero, Ne, Ne, ← UInt32.toNat_inj]
  rfl

namespace RawFrame

variable {f : RawFrame} {t : FinishTarget}

/-- **A check of a frame is a check of the requirements of soundness.** -/
theorem validate_eq_refusal (f : RawFrame) (limit : Nat) :
    f.validate limit = match Requirement.refusal? (f.soundness limit) with
      | some e => .error e
      | none => .ok () := by
  simp only [soundness, Requirement.refusal?_cons, Requirement.refusal?_nil, decide_eq_true_eq,
    one_le_toNat_iff]
  unfold validate rowBytes byteCount
  -- both sides are gone through check by check
  by_cases hempty : f.width = 0 ∨ f.height = 0
  · rw [if_pos hempty, if_neg fun h => hempty.elim h.1 h.2]
  rw [if_neg hempty, if_pos (not_or.mp hempty)]
  by_cases hstride : f.stride.toNat < f.width.toNat * f.format.nBytes
  · rw [if_pos hstride, if_neg (Nat.not_le_of_lt hstride)]
  rw [if_neg hstride, if_pos (Nat.le_of_not_lt hstride)]
  by_cases hlimit : limit < f.stride.toNat * f.height.toNat
  · rw [if_pos hlimit, if_neg (Nat.not_le_of_lt hlimit)]
  rw [if_neg hlimit, if_pos (Nat.le_of_not_lt hlimit)]
  by_cases hbuf : f.buf.size < f.stride.toNat * f.height.toNat
  · rw [if_pos hbuf, if_neg (Nat.not_le_of_lt hbuf)]
  rw [if_neg hbuf, if_pos (Nat.le_of_not_lt hbuf)]

end RawFrame

theorem ClipRegion.fits_iff_toNat {r : ClipRegion} {width height : UInt32} :
    r.fits width height = true ↔ 1 ≤ r.width.toNat ∧ 1 ≤ r.height.toNat ∧
      r.x.toNat + r.width.toNat ≤ width.toNat ∧ r.y.toNat + r.height.toNat ≤ height.toNat := by
  rw [ClipRegion.fits_iff, one_le_toNat_iff, one_le_toNat_iff]

/-- **Delivering a part asks for what its conversion asks for**, and shows the part. -/
theorem RawFrame.deliver_cropped {f : RawFrame} {t : FinishTarget} {r : ClipRegion}
    (hv : f.validate t.maxTextureSize = .ok ()) (hr : r.fits f.width f.height = true)
    (hroom : f.HasRoom t r) :
    match Requirement.refusal? (f.convertibility t r) with
    | some e => (f.cropped r).deliver t = .error (.error e)
    | none => ∃ c frame, t.accepted.best? f.format = some c ∧
        (f.cropped r).deliver t = .ok frame ∧ frame.ShowsRegion f r c := by
  simp only [convertibility, Requirement.refusal?_cons, Requirement.refusal?_nil, decide_eq_true_eq]
  cases hc : t.accepted.best? f.format with
  | none =>
    have hempty : ¬t.accepted.toList ≠ [] :=
      Decidable.not_not.mpr (FormatSet.best?_eq_none_iff.mp hc)
    rw [if_neg hempty]
    exact deliver_of_none (f := f.cropped r) hc
  | some c =>
    have hfull : t.accepted.toList ≠ [] := fun h => by
      rw [FormatSet.best?_eq_none_iff.mpr h] at hc
      cases hc
    rw [if_pos hfull]
    simp only [Option.mem_def, Option.some.injEq, forall_eq']
    by_cases hne : c = f.format
    · subst hne
      obtain ⟨frame, hdeliver, hshows⟩ := deliver_native hv hr hc
      rw [if_pos fun h => absurd rfl h, if_pos fun h => absurd rfl h]
      exact ⟨f.format, frame, rfl, hdeliver, hshows⟩
    by_cases hwide : r.width.toNat * c.nBytes < UInt32.size
    · -- a row that a field can measure leaves no more rows than a word can count
      have hword : r.width.toNat * c.nBytes * r.height.toNat < wordLimit :=
        Nat.mul_lt_mul_of_lt_of_le hwide (Nat.le_of_lt r.height.toNat_lt) (by decide)
      obtain ⟨frame, hshows, hdeliver⟩ :=
        deliver_converted hv hr hc hne hwide (hroom.converted c hc hne hword)
      rw [if_pos fun _ => hwide, hdeliver]
      by_cases hlimit : r.width.toNat * c.nBytes * r.height.toNat ≤ t.maxTextureSize
      · rw [if_pos fun _ => hlimit, if_pos hlimit]
        exact ⟨c, frame, rfl, rfl, hshows⟩
      · rw [if_neg fun h => hlimit (h hne), if_neg hlimit]
    · rw [if_neg fun h => hwide (h hne)]
      exact deliver_tooWide hv hr hc hne hwide (hroom.converted c hc hne)

/-! ## Finishing -/

namespace Services

variable {σ : Type} {S : Services σ} {f : RawFrame} {t : FinishTarget} {v : World σ}

theorem finish_of_error {e : FrameError} (h : f.prepare t = .error (.error e)) :
    S.finish f t v = (.error (.error (.frame e)), v) := by
  unfold finish
  rw [h]
  rfl

theorem finish_of_ready {g : RawFrame} (h : f.prepare t = .ok (.ready g)) :
    S.finish f t v = ((g.deliver t).loading, v) := by
  unfold finish
  rw [h]
  rfl

/-- **The first requirement that is not met names the error; where all are met, the region is shown.** -/
theorem finish_cases (S : Services σ) (v : World σ)
    (hscale : t.request.scale = none ∨
      t.request.scale = some ((t.request.regionOf f).width, (t.request.regionOf f).height))
    (hroom : f.HasRoom t (t.request.regionOf f)) :
    match Requirement.refusal? (f.requirements t) with
    | some e => S.finish f t v = (.error (.error (.frame e)), v)
    | none => ∃ c frame, t.accepted.best? f.format = some c ∧ S.finish f t v = (.ok frame, v) ∧
        frame.ShowsRegion f (t.request.regionOf f) c := by
  have hvalid := f.validate_eq_refusal t.maxTextureSize
  simp only [RawFrame.requirements, Requirement.refusal?_append]
  cases hsound : Requirement.refusal? (f.soundness t.maxTextureSize) with
  | some e =>
    -- an unsound frame is refused before the request is looked at
    rw [hsound] at hvalid
    refine finish_of_error ?_
    unfold RawFrame.prepare
    rw [hvalid]
    rfl
  | none =>
    rw [hsound] at hvalid
    obtain ⟨-, -, -, -, hbuf⟩ := RawFrame.validate_eq_ok_iff.mp hvalid
    have hprepare := RawFrame.prepare_unscaled hvalid (Nat.le_trans hbuf hroom.own) hscale
    simp only [Option.none_or, Requirement.refusal?_cons, decide_eq_true_eq,
      ← ClipRegion.fits_iff_toNat]
    by_cases hr : (t.request.regionOf f).fits f.width f.height = true
    · rw [if_pos hr] at hprepare
      rw [if_pos hr, finish_of_ready hprepare]
      have hdeliver := RawFrame.deliver_cropped hvalid hr hroom
      cases hq : Requirement.refusal? (f.convertibility t (t.request.regionOf f)) with
      | some e =>
        rw [hq] at hdeliver
        simp only [hdeliver]
        rfl
      | none =>
        rw [hq] at hdeliver
        obtain ⟨c, frame, hc, hd, hshows⟩ := hdeliver
        exact ⟨c, frame, hc, by rw [hd]; rfl, hshows⟩
    · rw [if_neg hr] at hprepare
      rw [if_neg hr]
      exact finish_of_error hprepare

/-- **Finishing without scaling crops and converts.**  Where the size asked for is that of the region asked for, a
frame is finished if and only if it meets the requirements; the first that it does not meet names the error; and
what is finished shows the region in the chosen format, pixel by pixel. -/
theorem finish_unscaled (S : Services σ) (f : RawFrame) (t : FinishTarget) (v : World σ)
    (hscale : t.request.scale = none ∨
      t.request.scale = some ((t.request.regionOf f).width, (t.request.regionOf f).height))
    (hroom : f.HasRoom t (t.request.regionOf f)) :
    ((∃ frame, S.finish f t v = (.ok frame, v)) ↔ ∀ q ∈ f.requirements t, q.met = true) ∧
      (∀ e, Requirement.refusal? (f.requirements t) = some e →
        S.finish f t v = (.error (.error (.frame e)), v)) ∧
      ∀ frame w, S.finish f t v = (.ok frame, w) →
        ∃ c, t.accepted.best? f.format = some c ∧ frame.ShowsRegion f (t.request.regionOf f) c := by
  have hcases := finish_cases S v hscale hroom
  rw [← Requirement.refusal?_eq_none_iff]
  cases hq : Requirement.refusal? (f.requirements t) with
  | some e =>
    rw [hq] at hcases
    refine ⟨⟨fun ⟨frame, h⟩ => ?_, fun h => nomatch h⟩, fun d hd => ?_, fun frame w h => ?_⟩
    · rw [hcases] at h
      cases h
    · cases hd
      exact hcases
    · rw [hcases] at h
      cases h
  | none =>
    rw [hq] at hcases
    obtain ⟨c, frame, hc, hfinish, hshows⟩ := hcases
    refine ⟨⟨fun _ => rfl, fun _ => ⟨frame, hfinish⟩⟩, fun d hd => (nomatch hd), fun other w h => ?_⟩
    rw [hfinish] at h
    cases h
    exact ⟨c, hc, hshows⟩

/-- Two gray pixels are cut out of the second row of a padded frame in red, green and blue, and become opaque. -/
theorem finish_unscaled_gray :
    let S := Services.whitePixel fun _ => {}
    let f : RawFrame :=
      ⟨3, 2, 12, .r8g8b8, Bytes.ofList [255, 0, 0, 0, 255, 0, 0, 0, 255, 0, 0, 0,
        10, 10, 10, 20, 20, 20, 30, 30, 30, 0, 0, 0], none, {}⟩
    let t : FinishTarget := ⟨.of .r8g8b8a8, { clip := some ⟨1, 1, 2, 1⟩, scale := some (2, 1) }, 24⟩
    let v : World Unit := { state := () }
    t.request.scale = some ((t.request.regionOf f).width, (t.request.regionOf f).height) ∧
      f.HasRoom t (t.request.regionOf f) ∧
        ∃ frame, S.finish f t v = (.ok frame, v) ∧ frame.ShowsRegion f ⟨1, 1, 2, 1⟩ .r8g8b8a8 := by
  intro S f t v
  have hchosen : t.accepted.best? f.format = some .r8g8b8a8 := by decide
  have hroom : f.HasRoom t (t.request.regionOf f) := by
    refine ⟨by decide, fun c hc _ _ => ?_⟩
    rw [hchosen] at hc
    cases hc
    decide
  obtain ⟨hok, -, hshows⟩ := finish_unscaled S f t v (.inr rfl) hroom
  obtain ⟨frame, hframe⟩ := hok.mpr (by decide)
  obtain ⟨c, hc, hregion⟩ := hshows frame v hframe
  rw [hchosen] at hc
  cases hc
  exact ⟨rfl, hroom, frame, hframe, hregion⟩

end Services

end ImageLoader
