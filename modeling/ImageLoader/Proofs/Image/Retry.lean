import ImageLoader.Proofs.Image.Delivery
import ImageLoader.Proofs.Image.Outright

/-!
# Asking again

A call that hands out no frame leaves the queue as it found it, or as decoding left it.  Asking again then gives
what it would have given at first, with one exception: where the task that was to decode the image failed, the
failure of the task stands in the queue as if decoding had ended with it, and stays there.

* `Spoils`: the exception.
* `Settles.next_eq_iff`: a queue that decoding may have left is as good as the one before, but for that.
* `Call.run_retried`: **what is true of every call that hands out no frame.**
-/

namespace ImageLoader

variable {σ : Type}

def Services.withPlan (S : Services σ) (plan : TaskKind → World σ → TaskPlan × World σ) :
    Services σ :=
  { S with plan }

theorem Services.Deterministic.withPlan {S : Services σ} (det : S.Deterministic)
    (plan : TaskKind → World σ → TaskPlan × World σ) : (S.withPlan plan).Deterministic :=
  ⟨det.probe, det.decode, det.scale⟩

namespace FrameQueue

variable {finished : RawFrame → Loaded Frame} {e : LoadError}

/-- Taking a frame from decoded frames does not make them a failure. -/
theorem take_decoded_ne_failed (frames : List RawFrame) :
    ((decoded frames).take finished).2 ≠ failed e := by
  cases frames with
  | nil => exact fun h => nomatch h
  | cons f rest =>
    rw [take_of_ok (q := decoded (f :: rest)) rfl]
    rcases finished f with stop | frame <;> exact fun h => nomatch h

/-- Of all ends that decoding may have, one is like a recorded failure. -/
theorem next_undecoded_eq_failed_iff {D : Loaded (List RawFrame)} :
    (failed e).next D finished = undecoded.next D finished ↔ D = .error (.error e) := by
  have hf : (failed e).next D finished = (.error (.error e), failed e) := rfl
  constructor
  · intro h
    rw [hf] at h
    rcases D with (e' | p) | frames
    · have he := congrArg Prod.snd h
      cases he
      rfl
    · cases h
    · exact absurd (congrArg Prod.snd h).symm (take_decoded_ne_failed frames)
  · intro h
    rw [h]
    rfl

end FrameQueue

namespace Image

/-- From `img` a call has come to `img'`, where `e` is recorded as the end of decoding, which does not end so. -/
structure Spoils (S : Services σ) (caught : Bool) (img img' : Image) (w : World σ) (e : LoadError) :
    Prop where
  undecoded : img.queue = .undecoded
  failed : img'.queue = .failed e
  differs : Outcome.isolate caught (img.decodeJob S w).1 ≠ .error (.error e)

variable {S : Services σ} {hd : Handling} {img img' : Image} {q : FrameQueue} {caught : Bool}
  {w : World σ} {e : LoadError}

/-- **A queue that decoding may have left is as good as the one before**, unless the image is spoiled. -/
theorem Settles.next_eq_iff (h : img.Settles S hd q) (det : S.Deterministic) (caught : Bool)
    (finished : RawFrame → Loaded Frame) (w : World σ) :
    q.next (Outcome.isolate caught (img.decodeJob S w).1) finished =
        img.queue.next (Outcome.isolate caught (img.decodeJob S w).1) finished ↔
      ¬∃ e, Spoils S caught img (img.withQueue q) w e := by
  cases h with
  | kept =>
    refine iff_of_true rfl ?_
    rintro ⟨e, hu, hf, -⟩
    rw [queue_withQueue, hu] at hf
    cases hf
  | @decoded r hu he =>
    rw [hu]
    cases r with
    | ok frames =>
      obtain ⟨v, hv⟩ := he.exists_ok
      have hD : Outcome.isolate caught (img.decodeJob S w).1 = .ok frames := by
        rw [fixed_decodeJob det img w v, hv]
        rfl
      refine iff_of_true ?_ ?_
      · rw [hD]
        rfl
      · rintro ⟨e, -, hf, -⟩
        cases hf
    | error e =>
      refine FrameQueue.next_undecoded_eq_failed_iff.trans ⟨?_, ?_⟩
      · rintro hD ⟨e', -, hf, hne⟩
        cases hf
        exact hne hD
      · intro hn
        by_contra hne
        exact hn ⟨e, hu, rfl, hne⟩

/-- An image is spoiled by a failure of the task that was to decode it, or by a panic in that task which
whoever asks again does not catch. -/
theorem Spoils.reason (h : Spoils S caught img (img.withQueue q) w e) (det : S.Deterministic)
    (hs : img.Settles S hd q) :
    (∃ failure, hd.fails failure ∧ e = failure.toLoadError) ∨
      ∃ p, hd.catches ∧ (img.decodeJob S w).1 = .error (.panic p) ∧ caught = false ∧
        e = .ofPanic p.message := by
  obtain ⟨hu, hf, hne⟩ := h
  rw [queue_withQueue] at hf
  cases hs with
  | kept =>
    rw [hu] at hf
    cases hf
  | @decoded r _ he =>
    cases r with
    | ok frames => cases hf
    | error e' =>
      cases hf
      -- an error of the decoder itself would be recorded rightly, so `e` is not one
      generalize ho : Outcome.ofExcept (.error e) = o at he
      cases he with
      | @result v r hr =>
        rw [fixed_decodeJob det img w v, hr, Outcome.isolate_ofExcept, ← ho] at hne
        exact absurd rfl hne
      | @caught v p hc hp =>
        have hw := (fixed_decodeJob det img w v).trans hp
        cases ho
        refine .inr ⟨p, hc, hw, ?_, rfl⟩
        rw [hw] at hne
        cases caught with
        | false => rfl
        | true => exact absurd rfl hne
      | escaped => cases ho
      | @failed failure hfail =>
        cases ho
        exact .inl ⟨failure, hfail, rfl⟩

/-- What is true of asking again for a frame of `img`, after the call `c` has handed out none and left `img'`. -/
structure Retried (S : Services σ) (c : Call σ) (img img' : Image) : Prop where
  /-- An undisturbed call gives the frame and leaves the image that it would have given and left without
  `c`, if and only if the image is not spoiled. -/
  again : ∀ plan inBackground, (S.withPlan plan).Completes inBackground →
    ∀ way request v w u, Undisturbed (S.withPlan plan) way v → Undisturbed (S.withPlan plan) way w →
      ((nextBy (S.withPlan plan) request way (img', v)).1 =
            (nextBy (S.withPlan plan) request way (img, w)).1 ∧
          (nextBy (S.withPlan plan) request way (img', v)).2.1 =
            (nextBy (S.withPlan plan) request way (img, w)).2.1 ↔
        ¬∃ e, Spoils S (way.catches img.options.policy inBackground) img img' u e)
  /-- What spoils an image is a failure of the task that was to decode it for `c`, or a panic in it. -/
  reason : ∀ caught u e, Spoils S caught img img' u e →
    (∃ failure, (c.circumstances S img).decoding.fails failure ∧ e = failure.toLoadError) ∨
      ∃ p, (c.circumstances S img).decoding.catches ∧ (img.decodeJob S u).1 = .error (.panic p) ∧
        caught = false ∧ e = .ofPanic p.message
  /-- It stays spoiled: every later call is told of the same failure. -/
  lasting : ∀ caught u e, Spoils S caught img img' u e → ∀ (later : Call σ) v,
    (later.start v).tokens.Tidy →
      (later.run S (img', v)).1 = later.refusal e (later.start v) ∧ (later.run S (img', v)).2.1 = img'

end Image

/-- **A call that hands out no frame, canceled, timed out or otherwise, can be made again as if it had not
been made, unless it spoils the image**; and that only a failed task for decoding, or a panic in it, can do. -/
theorem Call.run_retried {S : Services σ} (det : S.Deterministic) (c : Call σ) {img img' : Image}
    {w w' : World σ} {o : Option (Loaded Frame)} (hrun : c.run S (img, w) = (o, img', w'))
    (hnone : ∀ frame, o ≠ some (.ok frame)) : img.Retried S c img' := by
  obtain ⟨q, himg, ha⟩ := c.run_answer S img w hrun
  -- no frame was taken: the queue is the one that decoding left
  have hq : q.after o = q := by
    rcases o with _ | (stop | frame)
    · rfl
    · rfl
    · exact absurd rfl (hnone frame)
  rw [hq] at himg
  simp only at himg
  subst himg
  refine ⟨?_, fun caught u e h => h.reason det ha.settles, ?_⟩
  · intro plan inBackground pool way request v w u quiet quiet'
    obtain ⟨ho, himg⟩ := Image.nextBy_outright (det.withPlan plan) pool quiet request
      (img.withQueue q) u
    obtain ⟨ho', himg'⟩ := Image.nextBy_outright (det.withPlan plan) pool quiet' request img u
    have hiff := ha.settles.next_eq_iff det (way.catches img.options.policy inBackground)
      (fun f => Outcome.isolate (way.catches img.options.policy inBackground)
        (img.finishJob S request f u).1) u
    rw [ho, ho', himg, himg', ← hiff]
    constructor
    · rintro ⟨hframe, hqueue⟩
      exact Prod.ext hframe (congrArg Image.queue hqueue)
    · intro h
      exact ⟨congrArg Prod.fst h, congrArg img.withQueue (congrArg Prod.snd h)⟩
  · intro caught u e h later v tidy
    have hf : (img.withQueue q).queue = .failed e := h.failed
    refine later.run_refused S (fun hu => ?_) (by rw [hf]; rfl) tidy
    rw [hf] at hu
    cases hu

/-- The task that was to decode a white pixel takes too long, and the pixel is lost for good. -/
theorem Call.retried_after_timeout :
    let S := Services.whitePixel fun _ => { failure := some (.timedOut 1), inBackground := true }
    let img : Image :=
      { mimeType := ⟨"image/png"⟩, info := ⟨1, 1, none, none, false⟩, data := ByteArray.empty,
        options := ⟨⟨.bwrap, none, true⟩, true⟩, accepted := .all }
    let c : Call Unit := .polled {} none [id]
    (c.run S (img, { state := () })).1 = some (.error (.error (.timeout 1))) ∧
      Image.Spoils S true img (c.run S (img, { state := () })).2.1 { state := () } (.timeout 1) ∧
      img.Retried S c (c.run S (img, { state := () })).2.1 := by
  intro S img c
  have hrun : c.run S (img, { state := () }) =
      (some (.error (.error (.timeout 1))), img.withQueue (.failed (.timeout 1)), { state := () }) := rfl
  have hretried : img.Retried S c (img.withQueue (.failed (.timeout 1))) :=
    Call.run_retried (Services.deterministic_whitePixel _) c hrun fun _ h => nomatch h
  rw [hrun]
  exact ⟨rfl, ⟨rfl, rfl, fun h => nomatch h⟩, hretried⟩

end ImageLoader
