import ImageLoader.Proofs.Format.Choice
import ImageLoader.Proofs.Frame.Shape
import ImageLoader.Proofs.Image.Delivery

/-!
# Delivered frames

Whatever a decoder and a scaler do, a frame that is handed out is well formed and acceptable: it was sealed last
of all, in a format that was chosen from the accepted ones.  What the frame looks like beyond that depends on
the scaler, and where the scaler does what it is asked for, the frame has the size that was asked for.

* `Frame.WellFormed`, `Frame.Shows`: the two promises.
* `RawFrame.deliver_wellFormed`, `RawFrame.deliver_shows`: the last step of finishing makes them good.
* `Image.serve_delivered`: **frames that are finished, and frames that are handed out in any run, are delivered
  as promised.**
-/

namespace ImageLoader

variable {σ : Type}

/-- A frame whose readers stay inside its buffer, in a size and a format that are allowed. -/
structure Frame.WellFormed (f : Frame) (t : FinishTarget) : Prop where
  width : 1 ≤ f.width.toNat
  height : 1 ≤ f.height.toNat
  stride : f.width.toNat * f.format.nBytes ≤ f.stride.toNat
  size : f.buf.size = f.stride.toNat * f.height.toNat
  limit : f.stride.toNat * f.height.toNat ≤ t.maxTextureSize
  accepted : t.accepted.contains f.format = true

/-- The size that a request asks for: that of its scale, else that of its region, else the size of the frame. -/
def FrameRequest.sizeOf (r : FrameRequest) (f : RawFrame) : UInt32 × UInt32 :=
  match r.scale, r.clip with
  | some size, _ => size
  | none, some region => (region.width, region.height)
  | none, none => (f.width, f.height)

/-- The frame shows `raw` as the request asks for it: packed, in the size asked for, and saying the same of
itself. -/
structure Frame.Shows (f : Frame) (raw : RawFrame) (r : FrameRequest) : Prop where
  stride : f.stride.toNat = f.width.toNat * f.format.nBytes
  size : (f.width, f.height) = r.sizeOf raw
  delay : f.delay = raw.delay
  details : f.details = raw.details

namespace RawFrame

variable {f g raw : RawFrame} {t : FinishTarget} {frame : Frame}

/-! ## The last step -/

/-- What is delivered is a conversion to a chosen format, sealed. -/
theorem deliver_eq_ok (h : f.deliver t = .ok frame) :
    ∃ format g, t.accepted.best? f.format = some format ∧
      (f.convertTo format).toOutcome = .ok g ∧ g.toFrame t.maxTextureSize = .ok frame := by
  unfold deliver at h
  split at h
  next hb => cases h
  next format hb =>
    rcases hc : (f.convertTo format).toOutcome with stop | g
    · rw [hc] at h
      cases h
    · rw [hc] at h
      exact ⟨format, g, hb, hc, Outcome.ofExcept_eq_ok_iff.mp h⟩

theorem format_of_convertTo {target : MemoryFormat} (h : (f.convertTo target).toOutcome = .ok g) :
    g.format = target := by
  by_cases hne : target = f.format
  · subst hne
    rw [convertTo_self h]
  · exact (convertTo_packedAs_of_ne hne h).format_eq

/-- **What is delivered is well formed**, whatever it was before. -/
theorem deliver_wellFormed (h : f.deliver t = .ok frame) : frame.WellFormed t := by
  obtain ⟨format, g, hb, hc, hs⟩ := deliver_eq_ok h
  obtain ⟨hv, rfl⟩ := toFrame_eq_ok_iff.mp hs
  obtain ⟨hw, hh, hstride, hlimit, hbuf⟩ := validate_eq_ok_iff.mp hv
  have hw' : g.width.toNat ≠ 0 := fun h => hw (UInt32.toNat_inj.mp h)
  have hh' : g.height.toNat ≠ 0 := fun h => hh (UInt32.toNat_inj.mp h)
  refine ⟨?_, ?_, hstride, ?_, hlimit, ?_⟩
  · show 1 ≤ g.width.toNat
    omega
  · show 1 ≤ g.height.toNat
    omega
  · -- the buffer holds at least the rows, and is cut behind the last of them
    show (Bytes.truncate g.buf g.byteCount).size = g.byteCount
    rw [Bytes.truncate, ByteArray.size_extract]
    omega
  · show t.accepted.contains g.format = true
    rw [format_of_convertTo hc]
    exact FormatSet.contains_of_best? hb

/-- **What is delivered of a packed frame shows it.** -/
theorem deliver_shows {width height : UInt32} {format : MemoryFormat} {r : FrameRequest}
    (hf : PackedAs raw f width height format) (hsize : (width, height) = r.sizeOf raw)
    (h : f.deliver t = .ok frame) : frame.Shows raw r := by
  obtain ⟨target, g, -, hc, hs⟩ := deliver_eq_ok h
  obtain ⟨-, rfl⟩ := toFrame_eq_ok_iff.mp hs
  obtain ⟨hw, hh, hfmt, hp, hdelay, hdetails⟩ := convertTo_packedAs hf hc
  refine ⟨?_, ?_, hdelay, hdetails⟩
  · show g.stride.toNat = g.width.toNat * g.format.nBytes
    rw [hw, hfmt]
    exact hp
  · show (g.width, g.height) = r.sizeOf raw
    rw [hw, hh]
    exact hsize

/-! ## The steps before it -/

theorem clipTo_packedAs {r : FrameRequest} {format : MemoryFormat}
    (hf : PackedAs raw f raw.width raw.height format) (h : f.clipTo r = .ok g) :
    ∃ width height, PackedAs raw g width height format ∧
      (r.scale = none → (width, height) = r.sizeOf raw) := by
  unfold clipTo at h
  cases hc : r.clip with
  | none =>
    rw [hc] at h
    cases h
    refine ⟨raw.width, raw.height, hf, fun hs => ?_⟩
    simp only [FrameRequest.sizeOf, hs, hc]
  | some region =>
    rw [hc] at h
    have hg := hf.trans (clip_packedAs h)
    rw [hf.format_eq] at hg
    refine ⟨region.width, region.height, hg, fun hs => ?_⟩
    simp only [FrameRequest.sizeOf, hs, hc]

theorem sizeOf_of_scaleFor {r : FrameRequest} {width height : UInt32}
    {size : Option (UInt32 × UInt32)} (h : r.scaleFor width height = .ok size)
    (hsize : r.scale = none → (width, height) = r.sizeOf raw) :
    size.getD (width, height) = r.sizeOf raw := by
  unfold FrameRequest.scaleFor at h
  rcases hs : r.scale with _ | ⟨w, h'⟩
  · rw [hs] at h
    cases h
    exact hsize hs
  · rw [hs] at h
    simp only at h
    by_cases hzero : w = 0 ∨ h' = 0
    · rw [if_pos hzero] at h
      cases h
    · rw [if_neg hzero] at h
      by_cases heq : w = width ∧ h' = height
      · rw [if_pos heq] at h
        cases h
        obtain ⟨rfl, rfl⟩ := heq
        simp only [FrameRequest.sizeOf, hs, Option.getD_none]
      · rw [if_neg heq] at h
        cases h
        simp only [FrameRequest.sizeOf, hs, Option.getD_some]

/-- **Before scaling a frame is packed**, and it has the size asked for unless it is to be scaled to it. -/
theorem prepare_packedAs {p : Prepared} (h : f.prepare t = .ok p) :
    match p with
    | .ready g => ∃ width height, PackedAs f g width height f.format ∧
        (width, height) = t.request.sizeOf f
    | .toScale g width height => (∃ w h, PackedAs f g w h f.format) ∧
        (width, height) = t.request.sizeOf f := by
  unfold prepare at h
  rcases hv : f.validate t.maxTextureSize with e | _
  · rw [hv] at h
    cases h
  rw [hv] at h
  rcases hp : f.removePadding.toOutcome with stop | g
  · rw [hp] at h
    cases h
  rw [hp] at h
  rcases hc : g.clipTo t.request with stop | g'
  · simp only [Outcome.ofExcept_ok, bind, Except.bind, hc] at h
    cases h
  obtain ⟨width, height, hg, hsize⟩ := clipTo_packedAs (removePadding_packedAs hp) hc
  rcases hs : t.request.scaleFor g'.width g'.height with e | size
  · simp only [Outcome.ofExcept_ok, bind, Except.bind, hc, hs] at h
    cases h
  have hsize' := hs
  rw [hg.width_eq, hg.height_eq] at hsize'
  have hof := sizeOf_of_scaleFor hsize' hsize
  simp only [Outcome.ofExcept_ok, bind, Except.bind, hc, hs] at h
  rcases size with _ | ⟨w, h'⟩
  · cases h
    exact ⟨width, height, hg, hof⟩
  · cases h
    exact ⟨⟨width, height, hg⟩, hof⟩

end RawFrame

/-! ## Around a scaler -/

/-- A scaler that gives what it is asked for: the frame, packed and of the size. -/
def Services.ScalesFaithfully (S : Services σ) : Prop :=
  ∀ f width height v g, (S.scale f width height v).1 = .ok g → f.PackedAs g width height f.format

/-- What is promised of a frame that is delivered for `raw`. -/
structure Delivered (S : Services σ) (raw : RawFrame) (t : FinishTarget) (frame : Frame) : Prop where
  wellFormed : frame.WellFormed t
  shows : S.ScalesFaithfully → frame.Shows raw t.request

/-- **What finishing gives is delivered as promised**, whatever the scaler gives. -/
theorem Services.finish_delivered {S : Services σ} {raw : RawFrame} {t : FinishTarget} {v : World σ}
    {frame : Frame} (h : (S.finish raw t v).1 = .ok frame) : Delivered S raw t frame := by
  unfold finish at h
  split at h
  next stop hp => cases h
  next g hp =>
    have hd := Outcome.loading_eq_ok_iff.mp h
    obtain ⟨width, height, hg, hsize⟩ :=
      RawFrame.prepare_packedAs (Outcome.loading_eq_ok_iff.mp hp)
    exact ⟨RawFrame.deliver_wellFormed hd, fun _ => RawFrame.deliver_shows hg hsize hd⟩
  next g width height hp =>
    obtain ⟨⟨w, h', hg⟩, hsize⟩ := RawFrame.prepare_packedAs (Outcome.loading_eq_ok_iff.mp hp)
    rcases hs : S.scale g width height v with ⟨stop | scaled, v'⟩
    · rw [hs] at h
      cases h
    · rw [hs] at h
      have hc := Outcome.loading_eq_ok_iff.mp h
      unfold RawFrame.conclude at hc
      rcases hv : scaled.validate t.maxTextureSize with e | _
      · rw [hv] at hc
        cases hc
      · rw [hv] at hc
        refine ⟨RawFrame.deliver_wellFormed hc, fun faithful => ?_⟩
        have hscaled := hg.trans (faithful g width height v scaled (by rw [hs]))
        exact RawFrame.deliver_shows hscaled hsize hc

namespace Image

/-- What was handed out of an image was finished from frames that its decoding gave. -/
theorem Ledger.exists_raw {S : Services σ} {img : Image} {out : List (FrameRequest × Frame)}
    {q : FrameQueue} (h : img.Ledger S out q) {x : FrameRequest × Frame} (hx : x ∈ out) :
    ∃ frames, img.Settles S (.anyhow S .decode) (.decoded frames) ∧
      ∃ raw ∈ frames, img.Finishes S x raw := by
  cases h with
  | undecoded => cases hx
  | failed => cases hx
  | @decoded out rest done hs hf =>
    have hmem : ∃ raw ∈ done, img.Finishes S x raw := by
      clear hs
      induction hf with
      | nil => cases hx
      | @cons y f out done hy _ ih =>
        rcases List.mem_cons.mp hx with rfl | hx
        · exact ⟨f, List.mem_cons_self, hy⟩
        · obtain ⟨raw, hraw, hfin⟩ := ih hx
          exact ⟨raw, List.mem_cons_of_mem f hraw, hfin⟩
    obtain ⟨raw, hraw, hfin⟩ := hmem
    exact ⟨done ++ rest, hs, raw, List.mem_append_left rest hraw, hfin⟩

/-- **Every frame that is finished, and every frame that is handed out in a run of calls, is delivered as
promised**: it is well formed and acceptable, and where the scaler is faithful it shows its raw frame. -/
theorem serve_delivered (S : Services σ) (img : Image) (calls : List (Call σ)) (w : World σ) :
    (∀ raw t v frame, (S.finish raw t v).1 = .ok frame → Delivered S raw t frame) ∧
      ∀ x ∈ (serve S calls (img, w)).1.frames, ∃ frames,
        img.Settles S (.anyhow S .decode) (.decoded frames) ∧
          ∃ raw ∈ frames, Delivered S raw
            { accepted := img.accepted, request := x.1, maxTextureSize := S.settings.maxTextureSize.toNat } x.2 := by
  refine ⟨fun raw t v frame h => Services.finish_delivered h, fun x hx => ?_⟩
  obtain ⟨q, -, hl⟩ := serve_ledger S calls img w
  obtain ⟨frames, hs, raw, hraw, v, hv⟩ := hl.exists_raw hx
  exact ⟨frames, hs, raw, hraw, Services.finish_delivered hv⟩

end Image

end ImageLoader
