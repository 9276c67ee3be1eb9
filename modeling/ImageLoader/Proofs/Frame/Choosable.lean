import ImageLoader.Frame.Scaler
import ImageLoader.Loader.Services
import ImageLoader.Proofs.Errors
import ImageLoader.Proofs.Format.Choice
import ImageLoader.Proofs.Format.Conversion

/-!
# Formats that can be chosen

Finishing a frame fails for want of a format only where a format is chosen.  No other step gives that error, so with
a selection that has a member no frame is refused for it, unless by a scaler of its own.

* `RawFrame.within_prepare`, `RawFrame.within_convertTo`: no step before or after the choice gives the error.
* `RawFrame.within_deliver`: nor the choice, from a selection that has a member.
* `Services.within_finish`: **nor finishing as a whole.**
-/

namespace ImageLoader

/-- Is the error given for want of a format? -/
def FrameError.lacksFormat : FrameError → Bool
  | .noAcceptedFormat _ => true
  | _ => false

def LoadError.lacksFormat : LoadError → Bool
  | .frame e => e.lacksFormat
  | _ => false

/-- The error has another reason than the want of a format. -/
def FrameError.HasFormat (e : FrameError) : Prop := e.lacksFormat = false

def LoadError.HasFormat (e : LoadError) : Prop := e.lacksFormat = false

theorem LoadError.not_hasFormat (f : MemoryFormat) : ¬(LoadError.frame (.noAcceptedFormat f)).HasFormat :=
  Bool.noConfusion

theorem Outcome.loading_within {α : Type} {o : Outcome FrameError α}
    (h : Within (Stop.Excused FrameError.HasFormat) o) :
    Within (Stop.Excused LoadError.HasFormat) o.loading :=
  h.loading fun _ he => he

/-! ## Conversions -/

theorem within_sized (n : Nat) : Within FrameError.HasFormat (sized n) := by
  unfold sized
  split
  · exact .ok n
  · exact .error rfl

theorem within_convertRows (source format : MemoryFormat) (src : Bytes) (width stride n y : Nat) (done : Bytes) :
    Within (Stop.Excused FrameError.HasFormat) (convertRows source format src width stride n y done) := by
  induction n generalizing y done with
  | zero => exact .ok done
  | succ n ih =>
    unfold convertRows
    split
    · exact .error trivial
    · split
      · exact .error rfl
      next row hrow =>
        -- a row that is too short panics above, so the conversion of this one cannot fail
        have hsize : 0 + width * source.nBytes ≤ row.size := by
          rw [Bytes.size_of_slice? hrow]
          omega
        obtain ⟨converted, hconverted, -⟩ := convertRow_of_size format hsize
        rw [hconverted]
        exact ih (y + 1) (done ++ converted)

theorem within_convertBuffer (source : MemoryFormat) (src : Bytes) (width height stride : Nat)
    (format : MemoryFormat) :
    Within (Stop.Excused FrameError.HasFormat) (convertBuffer source src width height stride format) := by
  unfold convertBuffer
  refine (within_sized _).ofExcept.bind fun _ _ => ?_
  refine (within_sized _).ofExcept.bind fun _ _ => ?_
  refine (within_sized _).ofExcept.bind fun _ _ => ?_
  split
  · exact .error trivial
  · split
    · exact .ok _
    · exact within_convertRows source format src width stride height 0 _

namespace RawFrame

variable (f : RawFrame) (t : FinishTarget)

/-! ## Edits -/

theorem within_field (n : Nat) : Within FrameError.HasFormat (field n) := by
  unfold field
  split
  · exact .ok _
  · exact .error rfl

theorem within_validate (limit : Nat) : Within FrameError.HasFormat (f.validate limit) := by
  unfold validate
  repeat' split
  all_goals first
    | exact .ok ()
    | exact .error rfl

theorem within_withStride (n : Nat) : Within (Stop.Excused FrameError.HasFormat) (f.withStride n).toOutcome := by
  have hfield := within_field n
  unfold withStride
  cases hn : field n with
  | ok stride => exact .ok _
  | error e => exact .error (hfield e hn)

theorem within_removePadding : Within (Stop.Excused FrameError.HasFormat) f.removePadding.toOutcome := by
  have hfield := within_field f.rowBytes
  unfold removePadding
  split
  · exact .ok _
  · split
    · exact .error trivial
    · cases hn : field f.rowBytes with
      | ok stride => exact .ok _
      | error e => exact .error (hfield e hn)

theorem within_gatherRows (b : Bytes) (stride offset len n row : Nat) (done : Bytes) :
    Within (Stop.Excused FrameError.HasFormat) (gatherRows b stride offset len n row done) := by
  induction n generalizing row done with
  | zero => exact .ok done
  | succ n ih =>
    unfold gatherRows
    split
    · exact .error trivial
    · split
      · exact .error rfl
      · exact ih (row + 1) _

theorem within_clip (r : ClipRegion) : Within (Stop.Excused FrameError.HasFormat) (f.clip r).toOutcome := by
  unfold clip
  split
  · simp only
    split
    · exact .error trivial
    · have hrows := within_gatherRows f.buf f.stride.toNat (r.x.toNat * f.format.nBytes)
        (r.width.toNat * f.format.nBytes) r.height.toNat r.y.toNat ByteArray.empty
      split
      next stop hstop => exact .error (hrows stop hstop)
      next buf _ => exact within_withStride _ _
  · exact .error rfl

theorem within_convertTo (format : MemoryFormat) :
    Within (Stop.Excused FrameError.HasFormat) (f.convertTo format).toOutcome := by
  unfold convertTo
  split
  · exact .ok f
  · have hbuffer := within_convertBuffer f.format f.buf f.width.toNat f.height.toNat f.stride.toNat format
    split
    next stop hstop => exact .error (hbuffer stop hstop)
    next buf _ => exact within_withStride _ _

/-! ## Finishing -/

theorem within_prepare : Within (Stop.Excused FrameError.HasFormat) (f.prepare t) := by
  unfold prepare
  refine (within_validate f _).ofExcept.bind fun _ _ => ?_
  refine (within_removePadding f).bind fun g _ => ?_
  have hclip : Within (Stop.Excused FrameError.HasFormat) (g.clipTo t.request) := by
    unfold clipTo
    cases t.request.clip with
    | none => exact .ok g
    | some r => exact within_clip g r
  refine hclip.bind fun g' _ => ?_
  have hscale : Within FrameError.HasFormat (t.request.scaleFor g'.width g'.height) := by
    unfold FrameRequest.scaleFor
    repeat' split
    all_goals first
      | exact .ok _
      | exact .error rfl
  refine hscale.ofExcept.bind fun size _ => ?_
  cases size with
  | none => exact .ok _
  | some size => exact .ok _

/-- **A format is chosen from a selection that has a member.** -/
theorem within_deliver (ht : t.accepted.toList ≠ []) :
    Within (Stop.Excused FrameError.HasFormat) (f.deliver t) := by
  unfold deliver
  cases hbest : t.accepted.best? f.format with
  | none => exact absurd (FormatSet.best?_eq_none_iff.mp hbest) ht
  | some format =>
    refine (within_convertTo f format).bind fun g _ => ?_
    exact ((within_validate g _).map).ofExcept

theorem within_conclude (ht : t.accepted.toList ≠ []) :
    Within (Stop.Excused FrameError.HasFormat) (f.conclude t) := by
  unfold conclude
  exact (within_validate f _).ofExcept.bind fun _ _ => within_deliver f t ht

theorem within_scaler (width height : UInt32) :
    Within (Stop.Excused LoadError.HasFormat) (scaler f width height) := by
  refine Outcome.loading_within ?_
  unfold scaled
  refine (within_removePadding f).bind fun g _ => ?_
  refine (within_convertTo g _).bind fun mixed _ => ?_
  split
  · exact .error rfl
  · refine Within.bind ((within_field _).map).ofExcept fun resized _ => ?_
    exact (within_convertTo resized _).bind fun native _ => .ok _

end RawFrame

/-- **A frame is not refused for want of a format** that is finished for a selection with a member, by a scaler that
does not give that error. -/
theorem Services.within_finish {σ : Type} {S : Services σ}
    (hscale : ∀ f width height w, Within (Stop.Excused LoadError.HasFormat) (S.scale f width height w).1)
    (f : RawFrame) {t : FinishTarget} (ht : t.accepted.toList ≠ []) (w : World σ) :
    Within (Stop.Excused LoadError.HasFormat) (S.finish f t w).1 := by
  unfold finish
  have hprepare := Outcome.loading_within (f.within_prepare t)
  split
  next stop hstop => exact .error (hprepare stop hstop)
  next g _ => exact Outcome.loading_within (g.within_deliver t ht)
  next g width height _ =>
    have hg := hscale g width height w
    split
    next stop v hv =>
      rw [hv] at hg
      exact .error (hg stop rfl)
    next g' v _ => exact Outcome.loading_within (g'.within_conclude t ht)

end ImageLoader
