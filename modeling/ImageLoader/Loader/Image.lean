import ImageLoader.Loader.Services

/-!
# Images

A loaded image hands out its frames in order.  The frames are decoded when the first one is asked for, and a
frame leaves the queue only when it is delivered: a call that fails, is canceled or is given up leaves the
queue as it found it.  A failed decode stays failed.

There are two ways to ask.  `Image.nextFrame` works on the spot; `Image.pollNext` is one poll of the
asynchronous way, which hands its jobs to the task pool and may stand under a token.

* `Image.nextFrame`, `Image.pollNext` — the next frame, either way.
* `Image.awaitNext` — the asynchronous way from the first poll to the last.
-/

namespace ImageLoader

/-- The frames of an image that were not delivered yet. -/
inductive FrameQueue where
  | undecoded
  | decoded (frames : List RawFrame)
  | failed (e : LoadError)
deriving DecidableEq

namespace FrameQueue

def ofResult : Except LoadError (List RawFrame) → FrameQueue
  | .ok frames => decoded frames
  | .error e => failed e

def front : FrameQueue → Except LoadError RawFrame
  | undecoded => .error (.taskError "frames requested before decoding")
  | decoded [] => .error .noMoreFrames
  | decoded (f :: _) => .ok f
  | failed e => .error e

def advance : FrameQueue → FrameQueue
  | decoded frames => decoded frames.tail
  | q => q

def isUndecoded : FrameQueue → Bool
  | undecoded => true
  | _ => false

end FrameQueue

structure Image where
  mimeType : MimeType
  info : ImageInfo
  data : Bytes
  options : DecodeOptions
  accepted : FormatSet
  queue : FrameQueue := .undecoded

namespace Image

variable {σ : Type}

def mechanism (img : Image) : SandboxMechanism := img.options.policy.mechanism

def decodeJob (S : Services σ) (img : Image) : Job σ (List RawFrame) :=
  S.decode img.data img.mimeType img.options

def finishTarget (S : Services σ) (img : Image) (request : FrameRequest) : FinishTarget :=
  ⟨img.accepted, request, S.settings.maxTextureSize.toNat⟩

def finishJob (S : Services σ) (img : Image) (request : FrameRequest) (f : RawFrame) : Job σ Frame :=
  S.finish f (img.finishTarget S request)

/-- The image once its decoding has ended. -/
def settle (img : Image) (r : Except LoadError (List RawFrame)) : Image :=
  { img with queue := .ofResult r }

def advance (img : Image) : Image := { img with queue := img.queue.advance }

/-! ## On the spot -/

/-- Decodes the image unless that was done before.  A panic that is not caught leaves it as it was. -/
def ensureDecoded (S : Services σ) (img : Image) (w : World σ) : Loaded Unit × Image × World σ :=
  if img.queue.isUndecoded then
    let (r, w) := img.decodeJob S w
    match img.options.policy.run r with
    | .ok frames => (.ok (), img.settle (.ok frames), w)
    | .error (.error e) => (.ok (), img.settle (.error e), w)
    | .error (.panic p) => (.error (.panic p), img, w)
  else (.ok (), img, w)

/-- Finishes the next frame and takes it from the queue. -/
def deliverFront (S : Services σ) (img : Image) (request : FrameRequest) (w : World σ) :
    Loaded Frame × Image × World σ :=
  match img.queue.front with
  | .error e => (.error (.error e), img, w)
  | .ok f =>
    let (r, w) := img.finishJob S request f w
    match img.options.policy.run r with
    | .ok frame => (.ok frame, img.advance, w)
    | .error stop => (.error stop, img, w)

def nextFrame (S : Services σ) (request : FrameRequest) (img : Image) (w : World σ) :
    Loaded Frame × Image × World σ :=
  match img.ensureDecoded S w with
  | (.ok (), img, w) => img.deliverFront S request w
  | (.error stop, img, w) => (.error stop, img, w)

/-! ## By polling -/

/-- How far an asynchronous call has come. -/
inductive FetchStage where
  | idle
  | decoding (t : Task (List RawFrame))
  | finishing (f : RawFrame) (t : Task Frame)

namespace FetchStage

def rank : FetchStage → Nat × Nat
  | idle => (2, 0)
  | decoding t => (1, t.polls)
  | finishing _ t => (0, t.polls)

end FetchStage

abbrev Polled (σ : Type) := Image × World σ

def pollFinishing (S : Services σ) (request : FrameRequest) (f : RawFrame) (t : Task Frame)
    (img : Image) (w : World σ) : Poll FetchStage (Except LoadError Frame) × Polled σ :=
  let (p, w) := t.poll (img.finishJob S request f) w
  (p.mapNext (.finishing f), img, w)

/-- A poll that begins to finish the next frame. -/
def pollFront (S : Services σ) (request : FrameRequest) (img : Image) (w : World σ) :
    Poll FetchStage (Except LoadError Frame) × Polled σ :=
  match img.queue.front with
  | .error e => (.ready (.error e), img, w)
  | .ok f =>
    let (plan, w) := S.plan .finish w
    let (t, w) := Task.start plan (img.finishJob S request f) w
    pollFinishing S request f t img w

def pollDecoding (S : Services σ) (request : FrameRequest) (t : Task (List RawFrame))
    (img : Image) (w : World σ) : Poll FetchStage (Except LoadError Frame) × Polled σ :=
  match t.poll (img.decodeJob S) w with
  | (.pending t, w) => (.pending (.decoding t), img, w)
  | (.ready r, w) => pollFront S request (img.settle r) w
  | (.panicked p, w) => (.panicked p, img, w)

/-- One poll of a call without a token.  The frame stays in the queue. -/
def pollFetch (S : Services σ) (request : FrameRequest) (stage : FetchStage) (s : Polled σ) :
    Poll FetchStage (Except LoadError Frame) × Polled σ :=
  match stage with
  | .idle =>
    if s.1.queue.isUndecoded then
      let (plan, w) := S.plan .decode s.2
      let (t, w) := Task.start plan (s.1.decodeJob S) w
      pollDecoding S request t s.1 w
    else pollFront S request s.1 s.2
  | .decoding t => pollDecoding S request t s.1 s.2
  | .finishing f t => pollFinishing S request f t s.1 s.2

/-- One poll of a call that may stand under a token.  A frame leaves the queue when it is handed out. -/
def pollNext (S : Services σ) (request : FrameRequest) (g : Guarded FetchStage) (s : Polled σ) :
    Poll (Guarded FetchStage) (Except LoadError Frame) × Polled σ :=
  match Guarded.poll (pollFetch S request) g s with
  | (.ready (.ok frame), img, w) => (.ready (.ok frame), img.advance, w)
  | other => other

/-! ## From the first poll to the last -/

private theorem lex_iff {a b c d : Nat} :
    Prod.Lex (· < ·) (· < ·) (a, b) (c, d) ↔ a < c ∨ a = c ∧ b < d := Prod.lex_def

private theorem lex_of_fst_lt {p q : Nat × Nat} (h : p.1 < q.1) :
    Prod.Lex (· < ·) (· < ·) p q := Prod.lex_def.2 (.inl h)

private theorem rank_finishing {S : Services σ} {request : FrameRequest} {f : RawFrame}
    {t : Task Frame} {img : Image} {w : World σ} {next : FetchStage} {s : Polled σ}
    (h : pollFinishing S request f t img w = (.pending next, s)) :
    Prod.Lex (· < ·) (· < ·) next.rank (FetchStage.finishing f t).rank := by
  unfold pollFinishing at h
  rcases ht : t.poll (img.finishJob S request f) w with ⟨p, v⟩
  rw [ht] at h
  cases p with
  | pending n =>
    cases h
    exact lex_iff.2 (.inr ⟨rfl, Task.polls_lt_of_pending ht⟩)
  | ready r => cases h
  | panicked p => cases h

private theorem rank_front {S : Services σ} {request : FrameRequest} {img : Image} {w : World σ}
    {next : FetchStage} {s : Polled σ}
    (h : pollFront S request img w = (.pending next, s)) : next.rank.1 = 0 := by
  unfold pollFront at h
  split at h
  · cases h
  next f hf =>
    unfold pollFinishing at h
    rcases ht : (Task.start (S.plan .finish w).1 (img.finishJob S request f) (S.plan .finish w).2).1.poll
      (img.finishJob S request f)
      (Task.start (S.plan .finish w).1 (img.finishJob S request f) (S.plan .finish w).2).2 with ⟨p, v⟩
    simp only [ht] at h
    cases p with
    | pending n => cases h; rfl
    | ready r => cases h
    | panicked p => cases h

private theorem rank_decoding {S : Services σ} {request : FrameRequest} {t : Task (List RawFrame)}
    {img : Image} {w : World σ} {next : FetchStage} {s : Polled σ}
    (h : pollDecoding S request t img w = (.pending next, s)) :
    Prod.Lex (· < ·) (· < ·) next.rank (FetchStage.decoding t).rank := by
  unfold pollDecoding at h
  split at h
  next n v hv =>
    cases h
    exact lex_iff.2 (.inr ⟨rfl, Task.polls_lt_of_pending hv⟩)
  next r v hv => exact lex_of_fst_lt (by rw [rank_front h]; exact Nat.zero_lt_one)
  next p v hv => cases h

private theorem rank_fetch {S : Services σ} {request : FrameRequest} {stage next : FetchStage}
    {s s' : Polled σ} (h : pollFetch S request stage s = (.pending next, s')) :
    Prod.Lex (· < ·) (· < ·) next.rank stage.rank := by
  cases stage with
  | idle =>
    simp only [pollFetch] at h
    split at h
    · have := rank_decoding h
      rcases lex_iff.1 this with hlt | ⟨heq, -⟩
      · exact lex_iff.2 (.inl (Nat.lt_succ_of_lt hlt))
      · exact lex_iff.2 (.inl (by rw [heq]; exact Nat.lt_succ_self 1))
    · exact lex_of_fst_lt (by rw [rank_front h]; exact Nat.zero_lt_two)
  | decoding t => exact rank_decoding h
  | finishing f t => exact rank_finishing h

/-- Every pending poll brings a call nearer to its end. -/
theorem rank_lt_of_pending {S : Services σ} {request : FrameRequest} {g next : Guarded FetchStage}
    {s s' : Polled σ} (h : pollNext S request g s = (.pending next, s')) :
    Prod.Lex (· < ·) (· < ·) next.op.rank g.op.rank := by
  unfold pollNext at h
  split at h
  · cases h
  · obtain ⟨v, hv⟩ := Guarded.poll_pending h
    exact rank_fetch hv

/-- The next frame by polling, polled until it is there and by nobody else in between. -/
def awaitNext (S : Services σ) (request : FrameRequest) (t : Option Token) (img : Image)
    (w : World σ) : Loaded Frame × Image × World σ :=
  Poll.drive (pollNext S request) (fun g => g.op.rank) (fun _ _ _ _ h => rank_lt_of_pending h)
    (Guarded.of t .idle) (img, w)

end Image

end ImageLoader
