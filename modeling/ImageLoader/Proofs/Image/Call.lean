import ImageLoader.Loader.Image
import ImageLoader.Proofs.Cancel.Guarded
import ImageLoader.Proofs.Loader.Handling

/-!
# Calls on an image

A caller asks an image for a frame on the spot or by polling, lets the world go on between the polls, and may
let go of a call that is still pending.  This file says once what such a call can do.  `Answer` lists the
outcomes together with the queue that the call had before it took a frame from it; all that is proved of calls
elsewhere goes through that list.

* `Call`, `Call.run`: a call, and what comes of it.
* `Settles`: the queue of a call is the one that it found, or the one that its decoding gave it.
* `pollFetch_progress`, `pollNext_arrives`: what one poll does.
* `Call.run_answer`: **what a call does.**
-/

namespace ImageLoader

/-- What happens in the world while nobody works on the image: tokens are canceled, other work is done. -/
abbrev Change (σ : Type) := World σ → World σ

/-- A call for a frame, as far as its caller goes with it. -/
inductive Call (σ : Type) where
  /-- On the spot, after a change of the world. -/
  | direct (request : FrameRequest) (before : Change σ)
  /-- By polling, with the changes of the world before each poll.  A call that is pending after the last of
  them is given up. -/
  | polled (request : FrameRequest) (t : Option Token) (polls : List (Change σ))

variable {σ : Type}

namespace Image

/-- Polls a call once after each of the changes, until it ends. -/
def pollEach (S : Services σ) (request : FrameRequest) :
    List (Change σ) → Guarded FetchStage → Polled σ → Option (Loaded Frame) × Polled σ
  | [], _, s => (none, s)
  | change :: rest, g, s =>
    match pollNext S request g (s.1, change s.2) with
    | (.pending next, s) => pollEach S request rest next s
    | (.ready r, s) => (some (.ofExcept r), s)
    | (.panicked p, s) => (some (.error (.panic p)), s)

end Image

namespace Call

def request : Call σ → FrameRequest
  | direct request _ => request
  | polled request _ _ => request

/-- What comes of a call: its outcome, unless it was given up, and the image and the world after it. -/
def run (S : Services σ) : Call σ → Image.Polled σ → Option (Loaded Frame) × Image.Polled σ
  | direct request before, s =>
    let (o, img, w) := s.1.nextFrame S request (before s.2)
    (some o, img, w)
  | polled request t polls, s => Image.pollEach S request polls (.of t .idle) s

end Call

structure Circumstances where
  decoding : Handling
  finishing : Handling
  /-- The call may be canceled or given up. -/
  interrupts : Prop

namespace Circumstances

def onSpot (policy : DecodePolicy) : Circumstances := ⟨.onSpot policy, .onSpot policy, False⟩

def pooled (S : Services σ) (interrupts : Prop) : Circumstances :=
  ⟨.pooled S .decode, .pooled S .finish, interrupts⟩

end Circumstances

/-- The queue after a call with this outcome, which took its frame from `q`. -/
def FrameQueue.after (q : FrameQueue) : Option (Loaded Frame) → FrameQueue
  | some (.ok _) => q.advance
  | _ => q

theorem FrameQueue.isUndecoded_iff {q : FrameQueue} : q.isUndecoded = true ↔ q = .undecoded := by
  cases q <;> simp [FrameQueue.isUndecoded]

theorem FrameQueue.ofResult_ne_undecoded (r : Except LoadError (List RawFrame)) :
    FrameQueue.ofResult r ≠ .undecoded := by
  cases r <;> exact fun h => nomatch h

namespace Image

def withQueue (img : Image) (q : FrameQueue) : Image := { img with queue := q }

/-- The queues to which decoding may bring a call: the one that the image has, or, where nothing was decoded
yet, the one that follows from a way for the decoding to end. -/
inductive Settles (S : Services σ) (img : Image) (hd : Handling) : FrameQueue → Prop
  | kept : Settles S img hd img.queue
  | decoded {r : Except LoadError (List RawFrame)} :
      img.queue = .undecoded → (img.decodeJob S).Ends hd (.ofExcept r) → Settles S img hd (.ofResult r)

/-- **What a call can do.**  The outcome, absent where the call was given up, and the queue from which the
call took its frame. -/
inductive Answer (S : Services σ) (c : Circumstances) (request : FrameRequest) (img : Image) :
    Option (Loaded Frame) → FrameQueue → Prop
  | givenUp {q : FrameQueue} :
      c.interrupts → img.Settles S c.decoding q → Answer S c request img none q
  | canceled {q : FrameQueue} :
      c.interrupts → img.Settles S c.decoding q →
        Answer S c request img (some (.error (.error .canceled))) q
  | stopped {p : Panic} :
      img.queue = .undecoded → (img.decodeJob S).Ends c.decoding (.error (.panic p)) →
        Answer S c request img (some (.error (.panic p))) .undecoded
  | refused {q : FrameQueue} {e : LoadError} :
      img.Settles S c.decoding q → q ≠ .undecoded → q.front = .error e →
        Answer S c request img (some (.error (.error e))) q
  | finished {q : FrameQueue} {f : RawFrame} {o : Loaded Frame} :
      img.Settles S c.decoding q → q.front = .ok f →
        (img.finishJob S request f).Ends c.finishing o → Answer S c request img (some o) q

variable {S : Services σ} {c : Circumstances} {hd : Handling} {request : FrameRequest} {img : Image}
  {q : FrameQueue}

@[simp] theorem withQueue_queue (img : Image) : img.withQueue img.queue = img := rfl

@[simp] theorem queue_withQueue (img : Image) (q : FrameQueue) : (img.withQueue q).queue = q := rfl

@[simp] theorem options_withQueue (img : Image) (q : FrameQueue) :
    (img.withQueue q).options = img.options := rfl

@[simp] theorem decodeJob_withQueue (S : Services σ) (img : Image) (q : FrameQueue) :
    (img.withQueue q).decodeJob S = img.decodeJob S := rfl

@[simp] theorem finishJob_withQueue (S : Services σ) (img : Image) (q : FrameQueue)
    (request : FrameRequest) : (img.withQueue q).finishJob S request = img.finishJob S request := rfl

theorem Settles.queue_eq_undecoded (h : img.Settles S hd q) (hq : q = .undecoded) :
    img.queue = .undecoded := by
  cases h with
  | kept => exact hq
  | decoded hu _ => exact hu

theorem Settles.eq_of_decoded (h : img.Settles S hd q) (hne : img.queue ≠ .undecoded) :
    q = img.queue := by
  cases h with
  | kept => rfl
  | decoded hu => exact absurd hu hne

theorem Answer.settles {o : Option (Loaded Frame)} (h : Answer S c request img o q) :
    img.Settles S c.decoding q := by
  cases h with
  | givenUp _ hs => exact hs
  | canceled _ hs => exact hs
  | stopped hu _ => exact hu ▸ .kept
  | refused hs _ _ => exact hs
  | finished hs _ _ => exact hs

/-! ## On the spot -/

theorem nextFrame_of_settled (hq : img.queue ≠ .undecoded) (w : World σ) :
    img.nextFrame S request w = img.deliverFront S request w := by
  unfold nextFrame ensureDecoded
  rw [if_neg (mt FrameQueue.isUndecoded_iff.mp hq)]

theorem deliverFront_answer (hs : img.Settles S (.onSpot img.options.policy) q) (hq : q ≠ .undecoded)
    {w w' : World σ} {o : Loaded Frame} {img' : Image}
    (h : (img.withQueue q).deliverFront S request w = (o, img', w')) :
    img' = img.withQueue (q.after (some o)) ∧
      Answer S (.onSpot img.options.policy) request img (some o) q := by
  unfold deliverFront at h
  split at h
  next e he => cases h; exact ⟨rfl, .refused hs hq he⟩
  next f hf =>
    have hr := DecodePolicy.ends_run img.options.policy (img.finishJob S request f) w
    rcases hj : img.finishJob S request f w with ⟨r, v⟩
    rw [hj] at hr
    simp only [finishJob_withQueue, options_withQueue, hj] at h
    split at h
    next frame ho => cases h; exact ⟨rfl, .finished hs hf (ho ▸ hr)⟩
    next stop ho => cases h; exact ⟨rfl, .finished hs hf (ho ▸ hr)⟩

theorem nextFrame_answer {w w' : World σ} {o : Loaded Frame} {img' : Image}
    (h : img.nextFrame S request w = (o, img', w')) :
    ∃ q, img' = img.withQueue (q.after (some o)) ∧
      Answer S (.onSpot img.options.policy) request img (some o) q := by
  by_cases hu : img.queue = .undecoded
  · unfold nextFrame ensureDecoded at h
    have hr := DecodePolicy.ends_run img.options.policy (img.decodeJob S) w
    simp only [hu, FrameQueue.isUndecoded, if_true] at h
    rcases ho : img.options.policy.run (img.decodeJob S w).1 with (e | p) | frames
    · rw [ho] at h hr
      exact ⟨_, deliverFront_answer (.decoded (r := .error e) hu hr) (fun h => nomatch h) h⟩
    · rw [ho] at h hr
      cases h
      refine ⟨.undecoded, ?_, .stopped hu hr⟩
      exact (congrArg img.withQueue hu).symm ▸ rfl
    · rw [ho] at h hr
      exact ⟨_, deliverFront_answer (.decoded (r := .ok frames) hu hr) (fun h => nomatch h) h⟩
  · rw [nextFrame_of_settled hu] at h
    exact ⟨_, deliverFront_answer .kept hu h⟩

/-! ## By polling -/

theorem pollFetch_idle_of_settled (hq : img.queue ≠ .undecoded) (w : World σ) :
    pollFetch S request .idle (img, w) = pollFront S request img w := by
  simp only [pollFetch]
  rw [if_neg (mt FrameQueue.isUndecoded_iff.mp hq)]

/-- A stage that belongs to the queue: its task stands for what has to be done next. -/
def FetchStage.Fits (S : Services σ) (request : FrameRequest) (img : Image) (q : FrameQueue) :
    FetchStage → Prop
  | .idle => True
  | .decoding t => q = .undecoded ∧ t.Sound (img.decodeJob S) (.pooled S .decode)
  | .finishing f t => q.front = .ok f ∧ t.Sound (img.finishJob S request f) (.pooled S .finish)

/-- A call under way: `q` is the queue of the image by now. -/
structure Underway (S : Services σ) (request : FrameRequest) (img : Image) (q : FrameQueue)
    (stage : FetchStage) : Prop where
  settles : img.Settles S (.pooled S .decode) q
  fits : stage.Fits S request img q

/-- What a poll may leave, with the queue `q`: a call under way, or an answer. -/
def Progress (S : Services σ) (interrupts : Prop) (request : FrameRequest) (img : Image)
    (q : FrameQueue) : Poll FetchStage (Except LoadError Frame) → Prop
  | .pending next => Underway S request img q next
  | .ready r => Answer S (.pooled S interrupts) request img (some (.ofExcept r)) q
  | .panicked p => Answer S (.pooled S interrupts) request img (some (.error (.panic p))) q

variable {interrupts : Prop} {w : World σ} {s : Polled σ}
  {p : Poll FetchStage (Except LoadError Frame)}

theorem Progress.settles (h : Progress S interrupts request img q p) :
    img.Settles S (.pooled S .decode) q := by
  cases p with
  | pending next => exact h.settles
  | ready r => exact Answer.settles h
  | panicked p => exact Answer.settles h

theorem pollFinishing_progress {f : RawFrame} {t : Task Frame}
    (hs : img.Settles S (.pooled S .decode) q) (hf : q.front = .ok f)
    (ht : t.Sound (img.finishJob S request f) (.pooled S .finish))
    (h : pollFinishing S request f t (img.withQueue q) w = (p, s)) :
    s.1 = img.withQueue q ∧ Progress S interrupts request img q p := by
  unfold pollFinishing at h
  rcases hp : t.poll (img.finishJob S request f) w with ⟨p', v⟩
  simp only [finishJob_withQueue, hp] at h
  cases h
  refine ⟨rfl, ?_⟩
  cases p' with
  | pending next => exact ⟨hs, hf, Task.sound_of_pending ht hp⟩
  | ready r => exact .finished hs hf (Task.ends_of_ready ht hp)
  | panicked p => exact .finished hs hf (Task.ends_of_panicked ht hp)

theorem pollFront_progress (hs : img.Settles S (.pooled S .decode) q) (hq : q ≠ .undecoded)
    (h : pollFront S request (img.withQueue q) w = (p, s)) :
    s.1 = img.withQueue q ∧ Progress S interrupts request img q p := by
  unfold pollFront at h
  split at h
  next e he => cases h; exact ⟨rfl, .refused hs hq he⟩
  next f hf => exact pollFinishing_progress hs hf (Task.sound_start _ _ _) h

theorem pollDecoding_progress {t : Task (List RawFrame)} (hu : img.queue = .undecoded)
    (ht : t.Sound (img.decodeJob S) (.pooled S .decode))
    (h : pollDecoding S request t (img.withQueue .undecoded) w = (p, s)) :
    ∃ q', s.1 = img.withQueue q' ∧ Progress S interrupts request img q' p := by
  unfold pollDecoding at h
  split at h
  next next v hv =>
    cases h
    exact ⟨.undecoded, rfl, hu ▸ .kept, rfl, Task.sound_of_pending ht hv⟩
  next r v hv =>
    have hs : img.Settles S (.pooled S .decode) (.ofResult r) :=
      .decoded hu (Task.ends_of_ready ht hv)
    exact ⟨_, pollFront_progress hs (FrameQueue.ofResult_ne_undecoded r) h⟩
  next p v hv =>
    cases h
    exact ⟨.undecoded, rfl, .stopped hu (Task.ends_of_panicked ht hv)⟩

/-- **One poll of a call under way leaves it under way, or answers it.** -/
theorem pollFetch_progress (interrupts : Prop) {stage : FetchStage}
    (hu : Underway S request img q stage)
    (h : pollFetch S request stage (img.withQueue q, w) = (p, s)) :
    ∃ q', s.1 = img.withQueue q' ∧ Progress S interrupts request img q' p := by
  obtain ⟨hs, hfit⟩ := hu
  cases stage with
  | idle =>
    cases q with
    | undecoded => exact pollDecoding_progress (hs.queue_eq_undecoded rfl) (Task.sound_start _ _ _) h
    | decoded frames => exact ⟨_, pollFront_progress hs (fun he => nomatch he) h⟩
    | failed e => exact ⟨_, pollFront_progress hs (fun he => nomatch he) h⟩
  | decoding t =>
    obtain ⟨rfl, ht⟩ := hfit
    exact pollDecoding_progress (hs.queue_eq_undecoded rfl) ht h
  | finishing f t => exact ⟨q, pollFinishing_progress hs hfit.1 hfit.2 h⟩

/-- What a poll may leave of a call under a guard, with the image after it. -/
def Arrival (S : Services σ) (interrupts : Prop) (request : FrameRequest) (img img' : Image) :
    Poll (Guarded FetchStage) (Except LoadError Frame) → Prop
  | .pending next => ∃ q, img' = img.withQueue q ∧ Underway S request img q next.op
  | .ready r => ∃ q, img' = img.withQueue (q.after (some (.ofExcept r))) ∧
      Answer S (.pooled S interrupts) request img (some (.ofExcept r)) q
  | .panicked p => ∃ q, img' = img.withQueue q ∧
      Answer S (.pooled S interrupts) request img (some (.error (.panic p))) q

/-- The image after a poll: a frame that is handed out leaves the queue. -/
def handOut : Poll (Guarded FetchStage) (Except LoadError Frame) → Image → Image
  | .ready (.ok _), img => img.advance
  | _, img => img

theorem pollNext_eq (S : Services σ) (request : FrameRequest) (g : Guarded FetchStage)
    (s : Polled σ) :
    pollNext S request g s =
      ((Guarded.poll (pollFetch S request) g s).1,
        handOut (Guarded.poll (pollFetch S request) g s).1 (Guarded.poll (pollFetch S request) g s).2.1,
        (Guarded.poll (pollFetch S request) g s).2.2) := by
  unfold pollNext
  rcases Guarded.poll (pollFetch S request) g s with ⟨p, img, w⟩
  rcases p with next | (e | frame) | p <;> rfl

theorem Progress.arrival {wrap : FetchStage → Guarded FetchStage} (hw : ∀ op, (wrap op).op = op)
    (h : Progress S interrupts request img q p) :
    Arrival S interrupts request img (handOut (p.mapNext wrap) (img.withQueue q))
      (p.mapNext wrap) := by
  rcases p with next | (e | frame) | p
  · exact ⟨q, rfl, (hw next).symm ▸ h⟩
  · exact ⟨q, rfl, h⟩
  · exact ⟨q, rfl, h⟩
  · exact ⟨q, rfl, h⟩

/-- **One poll under any guard.** -/
theorem pollNext_arrives {g : Guarded FetchStage} (hu : Underway S request img q g.op) :
    Arrival S True request img (pollNext S request g (img.withQueue q, w)).2.1
      (pollNext S request g (img.withQueue q, w)).1 := by
  rw [pollNext_eq]
  rcases hg : Guarded.poll (pollFetch S request) g (img.withQueue q, w) with ⟨p, s⟩
  rcases Guarded.poll_cases hg with ⟨rfl, hs⟩ | ⟨v, p', hp, hc⟩
  · exact ⟨q, hs, .canceled trivial hu.settles⟩
  · obtain ⟨q', hs, hq'⟩ := pollFetch_progress True hu hp
    rcases hc with rfl | ⟨wrap, hw, rfl⟩
    · exact ⟨q', hs, .canceled trivial hq'.settles⟩
    · have ha := hq'.arrival hw
      rw [← hs] at ha
      exact ha

theorem pollEach_answer {polls : List (Change σ)} {g : Guarded FetchStage}
    (hu : Underway S request img q g.op) {o : Option (Loaded Frame)}
    (h : pollEach S request polls g (img.withQueue q, w) = (o, s)) :
    ∃ q', s.1 = img.withQueue (q'.after o) ∧ Answer S (.pooled S True) request img o q' := by
  -- `q` is the queue by now: an earlier poll may have decoded the image
  induction polls generalizing q g w with
  | nil => cases h; exact ⟨q, rfl, .givenUp trivial hu.settles⟩
  | cons change rest ih =>
    have ha := pollNext_arrives (w := change w) hu
    rw [pollEach] at h
    rcases hp : pollNext S request g (img.withQueue q, change w) with ⟨p, img', w'⟩
    rw [hp] at h ha
    cases p with
    | pending next =>
      obtain ⟨q', rfl, hu'⟩ := ha
      exact ih hu' h
    | ready r => cases h; exact ha
    | panicked p => cases h; exact ha

end Image

/-! ## Either way -/

namespace Call

def circumstances (S : Services σ) (img : Image) : Call σ → Circumstances
  | direct _ _ => .onSpot img.options.policy
  | polled _ _ _ => .pooled S True

/-- **What a call does**: it changes nothing of the image but the queue, and that as `Image.Answer` says. -/
theorem run_answer (S : Services σ) (c : Call σ) (img : Image) (w : World σ)
    {o : Option (Loaded Frame)} {s : Image.Polled σ} (h : c.run S (img, w) = (o, s)) :
    ∃ q, s.1 = img.withQueue (q.after o) ∧ img.Answer S (c.circumstances S img) c.request o q := by
  cases c with
  | direct request before =>
    rcases hn : img.nextFrame S request (before w) with ⟨o', img', w'⟩
    simp only [run, hn] at h
    cases h
    exact Image.nextFrame_answer hn
  | polled request t polls =>
    refine Image.pollEach_answer (q := img.queue) ⟨.kept, ?_⟩ h
    cases t <;> trivial

end Call

end ImageLoader
