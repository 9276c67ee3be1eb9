import ImageLoader.Proofs.Frame.Shape
import ImageLoader.Proofs.Frame.Words

/-!
# Finishing does not fail by itself

In machine words, a frame of any sizes and any buffer is finished without a sum or a product that leaves the word
and without a slice that leaves its buffer, whatever valid or invalid frame a scaler gives in between: each step
leaves a valid frame for the next, or refuses.  So the errors that blame a buffer for ending too early, which the
loops could give, are never given.

* `Words.Tame`: how a step may end.
* `Words.tame_prepare`, `Words.tame_conclude`: the steps before and after a scaler end so, on any frame.
* `Words.prepare_bounded`, `Words.conclude_bounded`: with memory for all that `RawFrame` has room for, they are the
  steps of `RawFrame`.
* `Words.finish_unfailing`: **finishing does not panic, unless memory is refused.**
-/

namespace ImageLoader

/-- Does the error say that a buffer ended before a row or before a channel? -/
def FrameError.cutShort : FrameError → Bool
  | .invalidClip (.rowOutside _) => true
  | .conversion (.sourceEnds _) => true
  | .conversion (.pixelTooShort _) => true
  | .conversion (.targetTooShort _) => true
  | _ => false

def LoadError.cutShort : LoadError → Bool
  | .frame e => e.cutShort
  | _ => false

namespace Words

/-! ## How a step may end -/

section Tame

variable {ε α β : Type}

/-- A step gives something, or an error of the kind that it may give, or is refused memory. -/
inductive Tame (may : ε → Prop) (alloc : Nat → Bool) : Outcome ε α → Prop
  | ok (a : α) : Tame may alloc (.ok a)
  | error {e : ε} (h : may e) : Tame may alloc (.error (.error e))
  | refused {n : Nat} (h : alloc n = false) : Tame may alloc (.error (.panic capacityPanic))

variable {may : ε → Prop} {alloc : Nat → Bool}

theorem Tame.bind {o : Outcome ε α} {k : α → Outcome ε β} (ho : Tame may alloc o)
    (hk : ∀ a, o = .ok a → Tame may alloc (k a)) : Tame may alloc (o >>= k) := by
  cases ho with
  | ok a => exact hk a rfl
  | error h => exact .error h
  | refused h => exact .refused h

theorem Tame.loading {may : FrameError → Prop} {may' : LoadError → Prop} {o : Outcome FrameError α}
    (ho : Tame may alloc o) (h : ∀ e, may e → may' (.frame e)) : Tame may' alloc o.loading := by
  cases ho with
  | ok a => exact .ok a
  | error he => exact .error (h _ he)
  | refused ha => exact .refused ha

end Tame

variable {α : Type} {alloc : Nat → Bool} {f g : RawFrame} {t : FinishTarget} {limit : Nat}

/-- Errors that blame no buffer. -/
def Whole (e : FrameError) : Prop := e.cutShort = false

theorem tame_ofExcept {r : Except FrameError α} (h : ∀ e, r = .error e → Whole e) :
    Tame Whole alloc (.ofExcept r) := by
  cases r with
  | ok a => exact .ok a
  | error e => exact .error (h e rfl)

theorem tame_reserve (n : Nat) : Tame Whole alloc (reserve alloc n) := by
  cases h : alloc n with
  | true =>
    rw [reserve_of_granted h]
    exact .ok ()
  | false =>
    rw [reserve_of_refused h]
    exact .refused h

theorem tame_grant {rest : Outcome FrameError α} (n : Nat) (h : Tame Whole alloc rest) :
    Tame Whole alloc (grant alloc n rest) := by
  by_cases hn : n < wordLimit
  · rw [grant, checked_of_lt hn, ok_bind]
    exact (tame_reserve n).bind fun _ _ => h
  · rw [grant_of_not_lt hn]
    exact .error rfl

/-! ## Checks -/

theorem whole_of_validate {e : FrameError} (h : f.validate limit = .error e) : Whole e := by
  unfold RawFrame.validate at h
  repeat' split at h
  all_goals cases h
  all_goals rfl

theorem tame_validate (f : RawFrame) (limit : Nat) : Tame Whole alloc (validate f limit) := by
  rw [validate_eq]
  exact tame_ofExcept fun _ h => whole_of_validate h

theorem tame_toFrame (f : RawFrame) (limit : Nat) : Tame Whole alloc (toFrame f limit) := by
  rw [toFrame_eq]
  refine tame_ofExcept fun e h => ?_
  unfold RawFrame.toFrame at h
  cases hv : f.validate limit with
  | ok u =>
    rw [hv] at h
    cases h
  | error e' =>
    rw [hv] at h
    cases h
    exact whole_of_validate hv

theorem valid_of_validate (h : validate f limit = .ok ()) : f.validate limit = .ok () := by
  rw [validate_eq] at h
  cases hv : f.validate limit with
  | ok u => rfl
  | error e =>
    rw [hv] at h
    cases h

theorem tame_withStride (f : RawFrame) (n : Nat) : Tame Whole alloc (f.withStride n).toOutcome := by
  by_cases hn : n < UInt32.size
  · rw [RawFrame.withStride_of_lt hn]
    exact .ok _
  · rw [RawFrame.withStride_of_not_lt hn]
    exact .error rfl

theorem whole_of_scaleFor {r : FrameRequest} {width height : UInt32} {e : FrameError}
    (h : r.scaleFor width height = .error e) : Whole e := by
  unfold FrameRequest.scaleFor at h
  repeat' split at h
  all_goals cases h
  rfl

/-! ## Before the scaler -/

theorem tame_clipTo (hv : f.validate limit = .ok ()) (request : FrameRequest) :
    Tame Whole alloc (clipTo alloc f request) := by
  unfold clipTo
  cases request.clip with
  | none => exact .ok f
  | some r =>
    by_cases hr : r.fits f.width f.height = true
    · simp only [clip_eq hv hr]
      exact (tame_reserve _).bind fun _ _ => .ok _
    · simp only [clip, if_neg hr]
      exact .error rfl

theorem valid_of_clipTo (hv : f.validate limit = .ok ()) {request : FrameRequest}
    (h : clipTo alloc f request = .ok g) : g.validate limit = .ok () := by
  unfold clipTo at h
  cases hc : request.clip with
  | none =>
    rw [hc] at h
    cases h
    exact hv
  | some r =>
    rw [hc] at h
    by_cases hr : r.fits f.width f.height = true
    · simp only [clip_eq hv hr] at h
      cases ha : alloc (r.width.toNat * f.format.nBytes * r.height.toNat) with
      | true =>
        rw [reserve_of_granted ha] at h
        cases h
        exact RawFrame.validate_cropped hv hr
      | false =>
        rw [reserve_of_refused ha] at h
        cases h
    · simp only [clip, if_neg hr] at h
      cases h

theorem clipTo_bounded (f : RawFrame) (request : FrameRequest) : clipTo bounded f request = f.clipTo request := by
  unfold clipTo RawFrame.clipTo
  cases request.clip with
  | none => rfl
  | some r => exact clip_bounded f r

/-- A valid frame is packed, cut, and looked at for the size that is asked for. -/
theorem prepare_of_valid (hv : f.validate t.maxTextureSize = .ok ()) :
    prepare alloc f t = clipTo alloc (f.cropped f.whole) t.request >>= fun g =>
      Outcome.ofExcept (t.request.scaleFor g.width g.height) >>= fun size =>
        match size with
        | none => .ok (.ready g)
        | some (width, height) => .ok (.toScale g width height) := by
  unfold prepare
  rw [validate_eq, hv, removePadding_eq hv]
  rfl

/-- **On any frame, what comes before the scaler ends as it may.** -/
theorem tame_prepare (f : RawFrame) (t : FinishTarget) : Tame Whole alloc (prepare alloc f t) := by
  cases hv : f.validate t.maxTextureSize with
  | error e =>
    have h : prepare alloc f t = .error (.error e) := by
      rw [prepare, validate_eq, hv]
      rfl
    rw [h]
    exact .error (whole_of_validate hv)
  | ok u =>
    rw [prepare_of_valid hv]
    refine (tame_clipTo (RawFrame.validate_cropped hv (RawFrame.whole_fits hv)) _).bind fun g _ => ?_
    refine (tame_ofExcept fun e h => whole_of_scaleFor h).bind fun size _ => ?_
    cases size with
    | none => exact .ok _
    | some size => exact .ok _

/-- A frame that needs no scaling is valid as it comes out. -/
theorem valid_of_prepare (h : prepare alloc f t = .ok (.ready g)) : g.validate t.maxTextureSize = .ok () := by
  cases hv : f.validate t.maxTextureSize with
  | error e =>
    rw [prepare, validate_eq, hv] at h
    cases h
  | ok u =>
    rw [prepare_of_valid hv] at h
    rcases hc : clipTo alloc (f.cropped f.whole) t.request with stop | g'
    · rw [hc] at h
      cases h
    · have hvalid := valid_of_clipTo (RawFrame.validate_cropped hv (RawFrame.whole_fits hv)) hc
      rw [hc] at h
      rcases hs : t.request.scaleFor g'.width g'.height with e | (none | size)
      · simp only [ok_bind, hs] at h
        cases h
      · simp only [ok_bind, hs] at h
        cases h
        exact hvalid
      · simp only [ok_bind, hs] at h
        cases h

theorem prepare_bounded (f : RawFrame) (t : FinishTarget) : prepare bounded f t = f.prepare t := by
  cases hv : f.validate t.maxTextureSize with
  | error e =>
    rw [prepare, RawFrame.prepare, validate_eq, hv]
    rfl
  | ok u =>
    rw [prepare_of_valid hv, clipTo_bounded, RawFrame.prepare, hv, RawFrame.removePadding_eq hv]
    rfl

/-! ## After the scaler -/

theorem tame_deliver (hv : f.validate limit = .ok ()) (t : FinishTarget) : Tame Whole alloc (deliver alloc f t) := by
  unfold deliver
  cases t.accepted.best? f.format with
  | none => exact .error rfl
  | some c =>
    by_cases hc : c = f.format
    · simp only [convertTo, if_pos hc]
      exact tame_toFrame f _
    · obtain ⟨image, hconvert⟩ := convertTo_eq hv hc
      simp only [hconvert]
      exact (tame_grant _ (tame_withStride _ _)).bind fun g _ => tame_toFrame g _

theorem deliver_bounded (f : RawFrame) (t : FinishTarget) : deliver bounded f t = f.deliver t := by
  unfold deliver RawFrame.deliver
  cases t.accepted.best? f.format with
  | none => rfl
  | some c => simp only [convertTo_bounded, toFrame_eq]

/-- **On any frame that a scaler gives, what comes after it ends as it may.** -/
theorem tame_conclude (f : RawFrame) (t : FinishTarget) : Tame Whole alloc (conclude alloc f t) :=
  (tame_validate f _).bind fun _ h => tame_deliver (valid_of_validate h) t

theorem conclude_bounded (f : RawFrame) (t : FinishTarget) : conclude bounded f t = f.conclude t := by
  unfold conclude RawFrame.conclude
  rw [validate_eq]
  cases hv : f.validate t.maxTextureSize with
  | error e => rfl
  | ok u => exact deliver_bounded f t

/-! ## Finishing -/

/-- What is promised of finishing a frame in machine words, with such memory and such a scaler. -/
structure Unfailing (alloc : Nat → Bool) (scale : Scaler) (f : RawFrame) (t : FinishTarget) : Prop where
  /-- No sum or product leaves the word and no slice leaves its buffer: only memory that is refused is a panic. -/
  panics : ∀ p, finish alloc scale f t = .error (.panic p) → p = capacityPanic ∧ ∃ n, alloc n = false
  /-- No buffer is blamed for ending too early, but by the scaler. -/
  errors : ∀ e, finish alloc scale f t = .error (.error e) → e.cutShort = true →
    ∃ g width height, scale g width height = .error (.error e)
  /-- With memory for all that `RawFrame` has room for, this is its finishing. -/
  bounded : finish bounded scale f t = f.finish scale t

theorem finish_bounded (scale : Scaler) (f : RawFrame) (t : FinishTarget) :
    finish bounded scale f t = f.finish scale t := by
  unfold finish RawFrame.finish
  rw [← prepare_bounded f t]
  cases hp : prepare bounded f t with
  | error stop => rcases stop with e | p <;> rfl
  | ok prepared =>
    cases prepared with
    | ready g => exact congrArg Outcome.loading (deliver_bounded g t)
    | toScale g width height =>
      show (scale g width height >>= _) = scale g width height >>= _
      simp only [conclude_bounded]

/-- An error that blames a buffer is one of the scaler. -/
def Scaled (scale : Scaler) (e : LoadError) : Prop :=
  e.cutShort = true → ∃ g width height, scale g width height = .error (.error e)

/-- **On any frame and with any scaler that does not panic, finishing ends as it may.** -/
theorem tame_finish {scale : Scaler} (hscale : ∀ g width height p, scale g width height ≠ .error (.panic p))
    (f : RawFrame) (t : FinishTarget) : Tame (Scaled scale) alloc (finish alloc scale f t) := by
  have hwhole : ∀ e, Whole e → Scaled scale (.frame e) := by
    intro e he hcut
    cases he.symm.trans hcut
  refine ((tame_prepare f t).loading hwhole).bind fun prepared hp => ?_
  cases prepared with
  | ready g =>
    have hprepare : prepare alloc f t = .ok (.ready g) := Outcome.loading_eq_ok_iff.mp hp
    exact (tame_deliver (valid_of_prepare hprepare) t).loading hwhole
  | toScale g width height =>
    cases hs : scale g width height with
    | ok scaled =>
      show Tame (Scaled scale) alloc (scale g width height >>= _)
      rw [hs]
      exact (tame_conclude scaled t).loading hwhole
    | error stop =>
      show Tame (Scaled scale) alloc (scale g width height >>= _)
      rw [hs]
      cases stop with
      | error e => exact .error fun _ => ⟨g, width, height, hs⟩
      | panic p => exact absurd hs (hscale g width height p)

/-- **Finishing does not fail by itself**: for every frame, request, selection and limit, and every scaler that gives
some frame or an error, it does not panic unless memory is refused, and it blames no buffer for ending too early. -/
theorem finish_unfailing (alloc : Nat → Bool) (scale : Scaler)
    (hscale : ∀ g width height p, scale g width height ≠ .error (.panic p)) (f : RawFrame) (t : FinishTarget) :
    Unfailing alloc scale f t := by
  have htame : Tame (Scaled scale) alloc (finish alloc scale f t) := tame_finish hscale f t
  refine ⟨fun p hp => ?_, fun e he => ?_, finish_bounded scale f t⟩
  · rw [hp] at htame
    cases htame with
    | refused h => exact ⟨rfl, _, h⟩
  · rw [he] at htame
    cases htame with
    | error h => exact h

/-- A padded frame is cut, and given to a scaler that claims a larger frame than it gives.  Where all memory is granted,
there is no panic. -/
theorem finish_unfailing_padded :
    let scale : Scaler := fun g width height =>
      if width = 1 then .error (.error (.frame (.conversion (.note "too narrow"))))
      else .ok { g with width, height, stride := 4294967295 }
    let f : RawFrame := ⟨3, 2, 12, .r8g8b8, Bytes.fill 24 7, none, {}⟩
    let t : FinishTarget := ⟨.of .r16g16b16, { clip := some ⟨1, 0, 2, 2⟩, scale := some (4294967295, 2) }, 64⟩
    (∀ g width height p, scale g width height ≠ .error (.panic p)) ∧
      ∀ p, finish (fun _ => true) scale f t ≠ .error (.panic p) := by
  intro scale f t
  have hscale : ∀ g width height p, scale g width height ≠ .error (.panic p) := by
    intro g width height p h
    by_cases hw : width = 1
    · cases (if_pos hw).symm.trans h
    · cases (if_neg hw).symm.trans h
  refine ⟨hscale, fun p hp => ?_⟩
  obtain ⟨-, n, hn⟩ := (finish_unfailing (fun _ => true) scale hscale f t).panics p hp
  cases hn

end Words

end ImageLoader
