import ImageLoader.Proofs.Image.Call
import ImageLoader.Proofs.Loader.Ports

/-!
# Calls that nothing comes between

A caller who waits for a frame, under no token or under one that stays calm, from a pool that completes its
jobs, gets what decoding and finishing give: `Image.outright`.  It does not matter which way the caller waits.

* `Way`, `Image.nextBy`: the two ways to wait for a frame.
* `Image.Answer.eq_outright`: an answer without interruption, from deterministic services, is the outright one.
* `Image.nextBy_outright`: **an undisturbed call gives the frame and leaves the queue that it gives outright.**
-/

namespace ImageLoader

variable {σ : Type}

inductive Way where
  | onSpot
  | awaited (t : Option Token)
deriving DecidableEq

namespace Way

def token? : Way → Option Token
  | onSpot => none
  | awaited t => t

/-- Is a panic caught, under the policy or by a pool that runs its jobs in the background? -/
def catches (policy : DecodePolicy) (inBackground : Bool) : Way → Bool
  | onSpot => policy.isolatePanics
  | awaited _ => inBackground

theorem catches_isolating {policy : DecodePolicy} (h : policy.isolatePanics = true) (way : Way) :
    way.catches policy true = true := by
  cases way with
  | onSpot => exact h
  | awaited t => rfl

end Way

def Image.nextBy (S : Services σ) (request : FrameRequest) : Way → Image.Polled σ →
    Loaded Frame × Image.Polled σ
  | .onSpot, s => s.1.nextFrame S request s.2
  | .awaited t, s => s.1.awaitNext S request t s.2

/-- A pool whose tasks never fail, and run all in the background or all in place. -/
def Services.Completes (S : Services σ) (inBackground : Bool) : Prop :=
  ∀ kind v, (S.plan kind v).1.failure = none ∧ (S.plan kind v).1.inBackground = inBackground

/-- No time limit is shorter than the time that jobs take in the pool of this library. -/
theorem Services.completes_standard (settings : LoaderSettings) (files : FileReader) (insideFlatpak : Bool) :
    (standard settings files insideFlatpak : Services σ).Completes true := by
  have hlimit : settings.decodeTimeout.isShorter (.ofNanoseconds 0) = false := by
    simp [Duration.isShorter, Duration.ofNanoseconds]
  have hplan : (TaskPlan.background settings.decodeTimeout (.ofNanoseconds 0)).failure = none := by
    simp [TaskPlan.background, hlimit]
  exact fun kind v => ⟨hplan, rfl⟩

/-- Nothing comes between a caller who waits this way and what is waited for. -/
structure Undisturbed (S : Services σ) (way : Way) (w : World σ) : Prop where
  spares : ∀ t ∈ way.token?, S.Spares t
  calm : ∀ t ∈ way.token?, w.tokens.Calm t

/-! ## What a call gives outright -/

namespace FrameQueue

/-- The next frame of a queue that is settled, and the queue after it. -/
def take (finished : RawFrame → Loaded Frame) (q : FrameQueue) : Loaded Frame × FrameQueue :=
  match q.front with
  | .error e => (.error (.error e), q)
  | .ok f => (finished f, q.after (some (finished f)))

/-- The next frame where decoding ends as `decoded` and finishing as `finished`, and the queue after it. -/
def next (decoded : Loaded (List RawFrame)) (finished : RawFrame → Loaded Frame) :
    FrameQueue → Loaded Frame × FrameQueue
  | .undecoded =>
    match decoded with
    | .ok frames => (FrameQueue.decoded frames).take finished
    | .error (.error e) => (failed e).take finished
    | .error (.panic p) => (.error (.panic p), .undecoded)
  | q => q.take finished

variable {decoded : Loaded (List RawFrame)} {finished : RawFrame → Loaded Frame} {q : FrameQueue}

theorem next_of_settled (hq : q ≠ .undecoded) : q.next decoded finished = q.take finished := by
  cases q with
  | undecoded => exact absurd rfl hq
  | decoded frames => rfl
  | failed e => rfl

theorem next_undecoded {r : Except LoadError (List RawFrame)} (hr : decoded = .ofExcept r) :
    undecoded.next decoded finished = (ofResult r).take finished := by
  subst hr
  cases r <;> rfl

theorem take_of_error {e : LoadError} (h : q.front = .error e) :
    q.take finished = (.error (.error e), q) := by
  unfold take
  rw [h]

theorem take_of_ok {f : RawFrame} (h : q.front = .ok f) :
    q.take finished = (finished f, q.after (some (finished f))) := by
  unfold take
  rw [h]

end FrameQueue

namespace Image

/-- What a call gives outright, and the queue that it leaves. -/
def outright (S : Services σ) (caught : Bool) (request : FrameRequest) (img : Image) (w : World σ) :
    Loaded Frame × FrameQueue :=
  img.queue.next (Outcome.isolate caught (img.decodeJob S w).1)
    fun f => Outcome.isolate caught (img.finishJob S request f w).1

variable {S : Services σ} {c : Circumstances} {hd : Handling} {request : FrameRequest} {img : Image}
  {q : FrameQueue} {b : Bool}

theorem fixed_decodeJob (det : S.Deterministic) (img : Image) : Fixed (img.decodeJob S) :=
  det.decode img.data img.mimeType img.options

theorem fixed_finishJob (det : S.Deterministic) (request : FrameRequest) (img : Image)
    (f : RawFrame) : Fixed (img.finishJob S request f) :=
  det.finish f (img.finishTarget S request)

theorem Settles.eq_take (h : img.Settles S hd q) (hq : q ≠ .undecoded) (steady : hd.Steady b)
    (det : S.Deterministic) (finished : RawFrame → Loaded Frame) (w : World σ) :
    img.queue.next (Outcome.isolate b (img.decodeJob S w).1) finished = q.take finished := by
  cases h with
  | kept => exact FrameQueue.next_of_settled hq
  | decoded hu he =>
    rw [hu]
    exact FrameQueue.next_undecoded (he.eq_isolate steady (fixed_decodeJob det img) w).symm

/-- **An answer without interruption is the outright one.** -/
theorem Answer.eq_outright {o : Loaded Frame} (h : Answer S c request img (some o) q)
    (calm : ¬c.interrupts) (hdec : c.decoding.Steady b) (hfin : c.finishing.Steady b)
    (det : S.Deterministic) (w : World σ) :
    img.outright S b request w = (o, q.after (some o)) := by
  unfold outright
  generalize ho : some o = o' at h
  cases h with
  | givenUp hi => exact absurd hi calm
  | canceled hi => exact absurd hi calm
  | stopped hu he =>
    cases ho
    have hp := he.eq_isolate hdec (fixed_decodeJob det img) w
    rw [hu]
    simp only [FrameQueue.next]
    rw [← hp]
    rfl
  | refused hs hq he =>
    cases ho
    rw [hs.eq_take hq hdec det, FrameQueue.take_of_error he]
    rfl
  | @finished q f o hs hf he =>
    cases ho
    have hq : q ≠ .undecoded := by
      intro hu
      rw [hu] at hf
      cases hf
    have hr := he.eq_isolate hfin (fixed_finishJob det request img f) w
    rw [hs.eq_take hq hdec det, FrameQueue.take_of_ok hf, hr]

/-! ## Waiting under a calm token -/

variable {t : Option Token} {w : World σ}

/-- **One poll under a guard that nothing disturbs.** -/
theorem pollNext_quiet (hs : ∀ u ∈ t, S.Spares u) {g : Guarded FetchStage}
    (hq : g.Quiet w.tokens t) (hu : Underway S request img q g.op)
    {p : Poll (Guarded FetchStage) (Except LoadError Frame)} {s : Polled σ}
    (h : pollNext S request g (img.withQueue q, w) = (p, s)) :
    Arrival S False request img s.1 p ∧ ∀ next, p = .pending next → next.Quiet s.2.tokens t := by
  have hspare : ∀ u ∈ t, Sparing u (pollFetch S request g.op) :=
    fun u ht => (hs u ht).pollFetch request g.op
  have hq' : g.Quiet (cancellation (img.withQueue q, w)) t := hq
  obtain ⟨c, wrap, hwrap, hpoll⟩ := Guarded.poll_of_quiet hq' hspare
  have hin : withCancellation c (img.withQueue q, w) =
      (img.withQueue q, { w with tokens := c }) := rfl
  rw [hin] at hwrap hpoll
  rcases hf : pollFetch S request g.op (img.withQueue q, { w with tokens := c }) with ⟨p', img', w'⟩
  rw [hf] at hwrap hpoll
  obtain ⟨q', rfl, hprogress⟩ := pollFetch_progress False hu hf
  rw [pollNext_eq, hpoll] at h
  cases h
  refine ⟨hprogress.arrival fun op => (hwrap op).1, fun next hn => ?_⟩
  cases p' with
  | pending op => cases hn; exact (hwrap op).2
  | ready r => cases hn
  | panicked p => cases hn

/-- A call by polling that nothing disturbs ends with an answer of its own. -/
theorem awaitNext_answer (request : FrameRequest) (img : Image) (hs : ∀ u ∈ t, S.Spares u)
    (hc : ∀ u ∈ t, w.tokens.Calm u) :
    ∃ q, (img.awaitNext S request t w).2.1 =
        img.withQueue (q.after (some (img.awaitNext S request t w).1)) ∧
      Answer S (.pooled S False) request img (some (img.awaitNext S request t w).1) q := by
  refine Poll.drive_of_invariant
    (fun (g : Guarded FetchStage) (s : Polled σ) => ∃ q, s.1 = img.withQueue q ∧
      Underway S request img q g.op ∧ g.Quiet s.2.tokens t)
    (fun o (s : Polled σ) => ∃ q, s.1 = img.withQueue (q.after (some o)) ∧
      Answer S (.pooled S False) request img (some o) q) ?_ ?_ ?_ _ _ ?_
  · rintro g ⟨img', v⟩ next ⟨img'', v'⟩ ⟨q, rfl, hu, hq⟩ hp
    obtain ⟨⟨q', hq', hu'⟩, hnext⟩ := pollNext_quiet hs hq hu hp
    exact ⟨q', hq', hu', hnext next rfl⟩
  · rintro g ⟨img', v⟩ r ⟨img'', v'⟩ ⟨q, rfl, hu, hq⟩ hp
    exact (pollNext_quiet hs hq hu hp).1
  · rintro g ⟨img', v⟩ p ⟨img'', v'⟩ ⟨q, rfl, hu, hq⟩ hp
    exact (pollNext_quiet hs hq hu hp).1
  · refine ⟨img.queue, rfl, ⟨.kept, ?_⟩, Guarded.quiet_of hc FetchStage.idle⟩
    cases t <;> trivial

theorem sparing_awaitNext {u : Token} (hs : S.Spares u) :
    Sparing u fun s : Polled σ => s.1.awaitNext S request t s.2 := by
  have hpoll : ∀ g, Sparing u (pollNext S request g) := by
    intro g s
    rw [pollNext_eq]
    exact Guarded.sparing_poll g (hs.pollFetch request g.op) s
  exact Poll.sparing_drive hpoll (Guarded.of t .idle)

/-! ## Either way -/

theorem sparing_nextBy {u : Token} (hs : S.Spares u) (request : FrameRequest) (way : Way) :
    Sparing u (nextBy S request way) := by
  cases way with
  | onSpot => exact hs.nextFrame request
  | awaited t => exact sparing_awaitNext hs

/-- **An undisturbed call gives the frame, and leaves the queue, that it gives outright.** -/
theorem nextBy_outright (det : S.Deterministic) (pool : S.Completes b) {way : Way}
    (quiet : Undisturbed S way w) (request : FrameRequest) (img : Image) (v : World σ) :
    (nextBy S request way (img, w)).1 =
        (img.outright S (way.catches img.options.policy b) request v).1 ∧
      (nextBy S request way (img, w)).2.1 =
        img.withQueue (img.outright S (way.catches img.options.policy b) request v).2 := by
  cases way with
  | onSpot =>
    rcases hn : img.nextFrame S request w with ⟨o, img', w'⟩
    obtain ⟨q, rfl, ha⟩ := nextFrame_answer hn
    have hsteady := Handling.steady_onSpot img.options.policy
    have ho := ha.eq_outright id hsteady hsteady det v
    simp only [nextBy, hn, Way.catches, ho, and_self]
  | awaited t =>
    obtain ⟨hs, hc⟩ := quiet
    simp only [Way.token?] at hs hc
    obtain ⟨q, himg, ha⟩ := awaitNext_answer request img hs hc
    have ho := ha.eq_outright id (Handling.steady_pooled fun v => pool .decode v)
      (Handling.steady_pooled fun v => pool .finish v) det v
    simp only [nextBy, Way.catches, ho, himg, and_self]

end Image

end ImageLoader
