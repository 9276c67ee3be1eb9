import ImageLoader.Command.Inspection
import ImageLoader.Proofs.Image.Awaited

/-!
# The loop over the frames of an image

An inspection asks for one frame after another until it has what it wants.  `Loop` says what such a loop does,
turn by turn, and nothing about how many turns there are; a loop that went on for ever would have no `Loop`.  That
there always is one rests on the queue of the image, which is a frame shorter after each call that gives a frame.

* `Loop`: what the loop does; `Loop.unique`: it does it in one way.
* `Image.nextBy_shrinks`: a call that gives a frame leaves an image with one frame less.
* `collect_loop`: **the loop ends**, with any foreign parts and whatever becomes of tokens and tasks, and `collect`
  gives what it ends with.
-/

namespace ImageLoader

variable {σ : Type}

namespace Inspection

/-- The loop, with the reports that it has made so far, ends with this. -/
inductive Loop (ask : Ask σ) (allFrames : Bool) :
    List FrameReport → Image → World σ → Loaded (List FrameReport) × Image × World σ → Prop
  | stopped {done : List FrameReport} {img img' : Image} {w w' : World σ} {o : Loaded Frame}
      {stop : Stop LoadError} :
      ask img w = (o, img', w') → record done o = .error stop →
        Loop ask allFrames done img w (.error stop, img', w')
  | ended {done done' : List FrameReport} {img img' : Image} {w w' : World σ} {o : Loaded Frame} {more : Bool} :
      ask img w = (o, img', w') → record done o = .ok (done', more) → (more && allFrames) = false →
        Loop ask allFrames done img w (.ok done', img', w')
  | again {done done' : List FrameReport} {img img' : Image} {w w' : World σ} {o : Loaded Frame}
      {r : Loaded (List FrameReport) × Image × World σ} :
      ask img w = (o, img', w') → record done o = .ok (done', true) → allFrames = true →
        Loop ask allFrames done' img' w' r → Loop ask allFrames done img w r

variable {ask : Ask σ} {allFrames : Bool} {done done' : List FrameReport} {img : Image} {w : World σ}

theorem Loop.unique {r r' : Loaded (List FrameReport) × Image × World σ}
    (h : Loop ask allFrames done img w r) (h' : Loop ask allFrames done img w r') : r = r' := by
  -- both go by the same outcome of the same call
  induction h with
  | stopped hask hs =>
    cases h' with
    | stopped hask' hs' =>
      cases hask.symm.trans hask'
      cases hs.symm.trans hs'
      rfl
    | ended hask' hr =>
      cases hask.symm.trans hask'
      cases hs.symm.trans hr
    | again hask' hr =>
      cases hask.symm.trans hask'
      cases hs.symm.trans hr
  | ended hask hr hm =>
    cases h' with
    | stopped hask' hs =>
      cases hask.symm.trans hask'
      cases hr.symm.trans hs
    | ended hask' hr' =>
      cases hask.symm.trans hask'
      cases hr.symm.trans hr'
      rfl
    | again hask' hr' ha =>
      cases hask.symm.trans hask'
      cases hr.symm.trans hr'
      rw [ha] at hm
      cases hm
  | again hask hr ha _ ih =>
    cases h' with
    | stopped hask' hs =>
      cases hask.symm.trans hask'
      cases hr.symm.trans hs
    | ended hask' hr' hm =>
      cases hask.symm.trans hask'
      cases hr.symm.trans hr'
      rw [ha] at hm
      cases hm
    | again hask' hr' _ hl =>
      cases hask.symm.trans hask'
      cases hr.symm.trans hr'
      exact ih hl

/-! ## Recording -/

theorem record_ok (done : List FrameReport) (f : Frame) :
    record done (.ok f) = .ok (done ++ [.of done.length f], true) := rfl

theorem record_exhausted (h : done ≠ []) : record done (.error (.error .noMoreFrames)) = .ok (done, false) := by
  rw [record, if_neg (mt List.isEmpty_iff.mp h)]

theorem record_error {stop : Stop LoadError} (h : stop ≠ .error .noMoreFrames) :
    record done (.error stop) = .error stop := by
  unfold record
  split
  next he => cases he
  next he =>
    cases he
    exact absurd rfl h
  next he =>
    cases he
    rfl

theorem ok_of_record {o : Loaded Frame} (h : record done o = .ok (done', true)) : ∃ f, o = .ok f := by
  unfold record at h
  split at h
  next f => exact ⟨f, rfl⟩
  · split at h
    · cases h
    · cases h
  · cases h

end Inspection

/-! ## The queue -/

variable {S : Services σ} {request : FrameRequest} {way : Way}

/-- A call that gives a frame takes it from a queue of frames, the one of the image if it has one. -/
theorem Image.nextBy_shrinks {img img' : Image} {w w' : World σ} {f : Frame}
    (h : Image.nextBy S request way (img, w) = (.ok f, img', w')) :
    ∃ g rest, (img.queue ≠ .undecoded → img.queue = .decoded (g :: rest)) ∧ img'.queue = .decoded rest := by
  obtain ⟨q, hq, ha⟩ := nextBy_ends S request way img w
  rw [h] at hq ha
  generalize ho : some (.ok f : Loaded Frame) = o at ha
  cases ha with
  | givenUp => cases ho
  | canceled => cases ho
  | stopped => cases ho
  | refused => cases ho
  | @finished q g o hs hg _ =>
    cases ho
    rcases q with _ | (_ | ⟨g', rest⟩) | e
    · cases hg
    · cases hg
    · exact ⟨g', rest, fun hne => (hs.eq_of_decoded hne).symm, congrArg Image.queue hq⟩
    · cases hg

namespace Inspection

variable {img : Image}

abbrev askBy (S : Services σ) (request : FrameRequest) (way : Way) : Ask σ :=
  fun img w => Image.nextBy S request way (img, w)

/-- With one call more than frames, the loop comes to its end. -/
theorem collectRest_loop {n : Nat} {frames : List RawFrame} (hqueue : img.queue = .decoded frames)
    (hlength : frames.length < n) (done : List FrameReport) (w : World σ) :
    Loop (askBy S request way) true done img w (collectRest (askBy S request way) n done img w) := by
  -- each turn of the loop takes one off the number of frames, and one off the number of calls
  induction n generalizing frames done img w with
  | zero => exact absurd hlength (Nat.not_lt_zero _)
  | succ n ih =>
    unfold collectRest
    rcases hask : askBy S request way img w with ⟨o, img', w'⟩
    rcases hrecord : record done o with stop | ⟨done', more⟩
    · simp only [hrecord]
      exact .stopped hask hrecord
    · simp only [hrecord]
      cases more with
      | false => exact .ended hask hrecord rfl
      | true =>
        obtain ⟨f, rfl⟩ := ok_of_record hrecord
        obtain ⟨g, rest, hold, hnew⟩ := Image.nextBy_shrinks hask
        have hframes : frames = g :: rest := by
          have hdecoded := hold (by rw [hqueue]; exact fun h => nomatch h)
          rw [hqueue] at hdecoded
          cases hdecoded
          rfl
        rw [hframes, List.length_cons] at hlength
        rw [if_pos rfl]
        exact .again hask hrecord rfl (ih hnew (by omega) done' w')

/-- **The loop ends**, and with what `collect` gives. -/
theorem collect_loop (S : Services σ) (request : FrameRequest) (way : Way) (allFrames : Bool) (img : Image)
    (w : World σ) :
    Loop (askBy S request way) allFrames [] img w (collect (askBy S request way) allFrames img w) := by
  unfold collect
  rcases hask : askBy S request way img w with ⟨o, img', w'⟩
  rcases hrecord : record [] o with stop | ⟨done, more⟩
  · simp only [hrecord]
    exact .stopped hask hrecord
  · simp only [hrecord]
    by_cases hgo : (more && allFrames) = true
    · obtain ⟨rfl, rfl⟩ := Bool.and_eq_true_iff.mp hgo
      obtain ⟨f, rfl⟩ := ok_of_record hrecord
      obtain ⟨g, rest, -, hnew⟩ := Image.nextBy_shrinks hask
      have hremaining : rest.length < remaining img' + 1 := by
        rw [remaining, hnew]
        exact Nat.lt_succ_self _
      rw [if_pos hgo]
      exact .again hask hrecord rfl (collectRest_loop hnew hremaining done w')
    · rw [if_neg hgo]
      exact .ended hask hrecord (Bool.eq_false_iff.mpr hgo)

end Inspection

end ImageLoader
