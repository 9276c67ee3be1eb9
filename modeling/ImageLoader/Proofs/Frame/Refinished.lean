import ImageLoader.Loader.Standard
import ImageLoader.Proofs.Frame.Delivered
import ImageLoader.Proofs.Frame.Unscaled

/-!
# Finishing what is finished

A finished frame meets everything that finishing asks of a frame: it is valid and packed, has the size that was asked
for, and is in an accepted format.  So it passes through every step as it is.

* `Frame.Finished`: a frame that asks for nothing more.
* `Frame.Finished.prepare`, `Frame.Finished.deliver`: both halves of finishing leave it as it is.
* `RawFrame.scaler_packedAs`: the scaler of the library gives what it is asked for.
* `Services.finish_again`: **finishing a finished frame gives that frame**, without asking the scaler.
-/

namespace ImageLoader

/-- A frame at which no step of finishing has anything to do, where no region is asked for. -/
structure Frame.Finished (frame : Frame) (t : FinishTarget) : Prop extends frame.WellFormed t where
  packed : frame.stride.toNat = frame.width.toNat * frame.format.nBytes
  scale : t.request.scale = none ∨ t.request.scale = some (frame.width, frame.height)

theorem FormatSet.best?_of_contains {s : FormatSet} {f : MemoryFormat} (h : s.contains f = true) :
    s.best? f = some f := if_pos h

namespace Frame.Finished

variable {frame : Frame} {t : FinishTarget} (h : frame.Finished t)
include h

theorem width_ne_zero : frame.width ≠ 0 := one_le_toNat_iff.mp h.width

theorem height_ne_zero : frame.height ≠ 0 := one_le_toNat_iff.mp h.height

theorem validate : frame.toRaw.validate t.maxTextureSize = .ok () :=
  RawFrame.validate_eq_ok_iff.mpr
    ⟨h.width_ne_zero, h.height_ne_zero, h.stride, h.limit, Nat.le_of_eq h.size.symm⟩

theorem removePadding : frame.toRaw.removePadding = .done frame.toRaw := by
  have hpacked : frame.toRaw.stride.toNat = frame.toRaw.rowBytes := h.packed
  have hsize : frame.toRaw.buf.size = frame.toRaw.rowBytes * frame.toRaw.height.toNat := by
    rw [← hpacked]
    exact h.size
  unfold RawFrame.removePadding
  rw [if_pos hpacked, RawFrame.cutTail, Bytes.truncate, ← hsize, ByteArray.extract_zero_size]

/-- **Nothing is cut out, and nothing has to be scaled.** -/
theorem prepare (hclip : t.request.clip = none) : frame.toRaw.prepare t = .ok (.ready frame.toRaw) := by
  have hsize : t.request.scaleFor frame.width frame.height = .ok none :=
    FrameRequest.scaleFor_of_eq h.scale h.width_ne_zero h.height_ne_zero
  unfold RawFrame.prepare RawFrame.clipTo
  rw [h.validate, h.removePadding, hclip]
  show (Outcome.ofExcept (t.request.scaleFor frame.width frame.height) >>= _) = _
  rw [hsize]
  rfl

/-- **Nothing has to be converted.** -/
theorem deliver : frame.toRaw.deliver t = .ok frame := by
  have hself : frame.toRaw.convertTo frame.format = .done frame.toRaw := if_pos rfl
  have hseal := RawFrame.toFrame_packed (f := frame.toRaw) h.width_ne_zero h.height_ne_zero h.packed h.size
    t.maxTextureSize
  have hlimit : frame.toRaw.byteCount ≤ t.maxTextureSize := h.limit
  rw [if_pos hlimit] at hseal
  rw [RawFrame.deliver_of_some (f := frame.toRaw) (FormatSet.best?_of_contains h.accepted)]
  show ((frame.toRaw.convertTo frame.format).toOutcome >>= _) = _
  rw [hself]
  exact Outcome.ofExcept_eq_ok_iff.mpr hseal

end Frame.Finished

namespace RawFrame

/-- **The scaler of the library gives what it is asked for**: the frame, packed and of the size. -/
theorem scaler_packedAs {f g : RawFrame} {width height : UInt32} (h : f.scaler width height = .ok g) :
    PackedAs f g width height f.format := by
  have hs := Outcome.loading_eq_ok_iff.mp h
  unfold scaled at hs
  rcases hp : f.removePadding.toOutcome with stop | packedFrame
  · rw [hp] at hs
    cases hs
  rcases hm : (packedFrame.convertTo f.format.mixing).toOutcome with stop | mixed
  · simp only [hp, hm, bind, Except.bind] at hs
    cases hs
  simp only [hp, hm, bind, Except.bind] at hs
  split at hs
  · cases hs
  rcases hr : packed width height mixed.format (resample mixed.format.channelType mixed.buf f.width.toNat
      f.height.toNat width.toNat height.toNat) with e | resized
  · rw [hr] at hs
    cases hs
  rw [hr] at hs
  rcases hn : (resized.convertTo f.format).toOutcome with stop | native
  · simp only [Outcome.ofExcept_ok, hn] at hs
    cases hs
  simp only [Outcome.ofExcept_ok, hn] at hs
  cases hs
  -- the resized frame is packed as it is made, and stays so in the format of the frame
  have hresized : PackedAs resized resized width height mixed.format := by
    unfold packed at hr
    cases hf : field (mixed.format.nBytes * width.toNat) with
    | error e =>
      rw [hf] at hr
      cases hr
    | ok stride =>
      rw [hf] at hr
      cases hr
      exact ⟨rfl, rfl, rfl, (toNat_of_field hf).trans (Nat.mul_comm ..), rfl, rfl⟩
  obtain ⟨hwidth, hheight, hformat, hstride, -, -⟩ := convertTo_packedAs hresized hn
  exact ⟨hwidth, hheight, hformat, hstride, rfl, rfl⟩

end RawFrame

namespace Services

variable {σ : Type} {S : Services σ} {raw : RawFrame} {t : FinishTarget} {frame : Frame} {v : World σ}

theorem scalesFaithfully_ofCodecs (K : Codecs) (settings : LoaderSettings) (files : FileReader)
    (insideFlatpak : World σ → Bool × World σ) (plan : TaskKind → World σ → TaskPlan × World σ) :
    (ofCodecs K settings files insideFlatpak plan).ScalesFaithfully :=
  fun _ _ _ _ _ h => RawFrame.scaler_packedAs h

/-- **What is finished is finished**, if the scaler gives what it is asked for. -/
theorem finished_of_finish (hs : S.ScalesFaithfully) (h : (S.finish raw t v).1 = .ok frame) : frame.Finished t := by
  obtain ⟨hformed, hshows⟩ := finish_delivered h
  obtain ⟨hstride, hsize, -, -⟩ := hshows hs
  refine ⟨hformed, hstride, ?_⟩
  -- a scale that was asked for is the size that the frame has
  cases hscale : t.request.scale with
  | none => exact .inl rfl
  | some size =>
    simp only [FrameRequest.sizeOf, hscale] at hsize
    exact .inr (congrArg some hsize.symm)

/-- **Finishing a finished frame gives that frame**, where no region is asked for: it is ready as it is, its format is
the one that suits it best, and so every finishing for the same target gives it, whatever scaler is at hand. -/
theorem finish_again (hs : S.ScalesFaithfully) (hclip : t.request.clip = none)
    (h : (S.finish raw t v).1 = .ok frame) :
    frame.toRaw.prepare t = .ok (.ready frame.toRaw) ∧ t.accepted.best? frame.format = some frame.format ∧
      ∀ {τ : Type} (T : Services τ) (w : World τ), T.finish frame.toRaw t w = (.ok frame, w) := by
  have hf : frame.Finished t := finished_of_finish hs h
  refine ⟨hf.prepare hclip, FormatSet.best?_of_contains hf.accepted, fun T w => ?_⟩
  rw [finish_of_ready (hf.prepare hclip), hf.deliver]
  rfl

/-- A gray pixel with a byte of padding is scaled to two, and becomes opaque. -/
theorem finish_again_gray :
    let S : Services Unit := standard ⟨.bwrap, .all, true, .ofSeconds 60, maxTextureSize, .default⟩
      (fun path => .error ⟨path, false⟩) false
    let raw : RawFrame := ⟨1, 1, 2, .g8, Bytes.ofList [7, 0], none, {}⟩
    let t : FinishTarget := ⟨.of .r8g8b8a8, { scale := some (2, 1) }, 8⟩
    let frame : Frame := ⟨2, 1, 8, .r8g8b8a8, Bytes.ofList [7, 7, 7, 255, 7, 7, 7, 255], none, {}⟩
    let v : World Unit := { state := () }
    S.ScalesFaithfully ∧ t.request.clip = none ∧ (S.finish raw t v).1 = .ok frame ∧
      S.finish frame.toRaw t v = (.ok frame, v) := by
  intro S raw t frame v
  have hs : S.ScalesFaithfully := scalesFaithfully_ofCodecs _ _ _ _ _
  have h : (S.finish raw t v).1 = .ok frame := by decide +kernel
  exact ⟨hs, rfl, h, (finish_again hs rfl h).2.2 S v⟩

end Services

end ImageLoader
