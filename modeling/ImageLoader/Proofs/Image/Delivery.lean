import ImageLoader.Proofs.Image.Call
import Mathlib.Data.List.Forall2

/-!
# Delivery in order

An image hands out the frames of its decoding one by one, in order, and each once.  `Ledger` ties what was
handed out over a run of calls to the queue that is left; a call adds to it (`Ledger.of_answer`), ledgers of
consecutive runs join (`Ledger.append`), and so every run keeps one (`serve_ledger`).

What follows a settled decode is stated for the calls to come: they go without the decoder
(`Call.run_withDecoder`), and when there is no frame left, or never was one, they are refused
(`Call.run_refused`).

* `InOrder`: what is promised of a run of calls.
* `serve_inOrder`: **every run of calls keeps the promise.**
-/

namespace ImageLoader

variable {σ : Type}

/-! ## Runs of calls -/

/-- What came of the calls of a run: what was asked, and the outcome of each call that was not given up. -/
abbrev Served := List (FrameRequest × Option (Loaded Frame))

/-- Calls on one image, one after another. -/
def Image.serve (S : Services σ) : List (Call σ) → Image.Polled σ → Served × Image.Polled σ
  | [], s => ([], s)
  | c :: rest, s =>
    let (o, s) := c.run S s
    let (served, s) := serve S rest s
    ((c.request, o) :: served, s)

/-- The frames that were handed out, in order, each with the request for it. -/
def Served.frames : Served → List (FrameRequest × Frame)
  | [] => []
  | (request, some (.ok frame)) :: rest => (request, frame) :: frames rest
  | _ :: rest => frames rest

theorem Served.frames_append (a b : Served) : (a ++ b).frames = a.frames ++ b.frames := by
  induction a with
  | nil => rfl
  | cons x a ih => rcases x with ⟨request, _ | (stop | frame)⟩ <;> simp [Served.frames, ih]

/-! ## Ledgers -/

/-- How a job may be run by somebody: on the spot under any policy, or by the pool of the services. -/
def Handling.anyhow (S : Services σ) (kind : TaskKind) : Handling where
  catches := True
  escapes := True
  fails := (Handling.pooled S kind).fails

def Services.withDecoder (S : Services σ)
    (decode : Bytes → MimeType → DecodeOptions → Job σ (List RawFrame)) : Services σ :=
  { S with decode }

namespace Image

/-- The frame that was handed out is what finishing the raw frame for the request gives, in a format that the image
accepts and within the limit of the settings. -/
def Finishes (S : Services σ) (img : Image) (out : FrameRequest × Frame) (f : RawFrame) : Prop :=
  ∃ v, (S.finish f { accepted := img.accepted, request := out.1, maxTextureSize := S.settings.maxTextureSize.toNat }
    v).1 = .ok out.2

/-- What was handed out of an image, and the queue that is left.  Where frames were decoded, what was handed
out are the first of them, finished, and what is left are the others. -/
inductive Ledger (S : Services σ) (img : Image) : List (FrameRequest × Frame) → FrameQueue → Prop
  | undecoded : img.queue = .undecoded → Ledger S img [] .undecoded
  | failed {e : LoadError} :
      img.Settles S (.anyhow S .decode) (.failed e) → Ledger S img [] (.failed e)
  | decoded {out : List (FrameRequest × Frame)} {rest : List RawFrame} (done : List RawFrame) :
      img.Settles S (.anyhow S .decode) (.decoded (done ++ rest)) →
        List.Forall₂ (img.Finishes S) out done → Ledger S img out (.decoded rest)

variable {S : Services σ} {img : Image} {q : FrameQueue}

theorem Settles.anyhow {hd : Handling} (h : img.Settles S hd q)
    (hf : ∀ e, hd.fails e → (Handling.anyhow S .decode).fails e) :
    img.Settles S (.anyhow S .decode) q := by
  cases h with
  | kept => exact .kept
  | decoded hu he => exact .decoded hu (he.mono (fun _ => trivial) (fun _ => trivial) hf)

theorem Ledger.of_settles (h : img.Settles S (.anyhow S .decode) q) : Ledger S img [] q := by
  cases q with
  | undecoded => exact .undecoded (h.queue_eq_undecoded rfl)
  | decoded frames => exact .decoded [] h .nil
  | failed e => exact .failed h

/-- The ledgers of two runs, the second on what the first left, make one. -/
theorem Ledger.append {out out' : List (FrameRequest × Frame)} {q' : FrameQueue}
    (h : Ledger S img out q) (h' : Ledger S (img.withQueue q) out' q') :
    Ledger S img (out ++ out') q' := by
  cases h with
  | undecoded hu =>
    have hq : img.withQueue .undecoded = img := hu ▸ img.withQueue_queue
    rw [hq] at h'
    exact h'
  | failed hs =>
    cases h' with
    | undecoded hu => cases hu
    | failed hs' =>
      cases hs'.eq_of_decoded (fun h => nomatch h)
      exact .failed hs
    | decoded _ hs' _ => cases hs'.eq_of_decoded (fun h => nomatch h)
  | @decoded out rest done hs hf =>
    cases h' with
    | undecoded hu => cases hu
    | failed hs' => cases hs'.eq_of_decoded (fun h => nomatch h)
    | @decoded _ rest' done' hs' hf' =>
      -- a queue settles once, so the second run has taken its frames from those that the first left
      have he : FrameQueue.decoded (done' ++ rest') = .decoded rest :=
        hs'.eq_of_decoded (fun h => nomatch h)
      cases he
      exact .decoded (done ++ done') (by rw [List.append_assoc]; exact hs)
        (List.rel_append hf hf')

/-- A call adds the frame that it hands out, if it hands out one. -/
theorem Ledger.of_answer {c : Circumstances} {request : FrameRequest} {o : Option (Loaded Frame)}
    (h : Answer S c request img o q)
    (hf : ∀ e, c.decoding.fails e → (Handling.anyhow S .decode).fails e) :
    Ledger S img (Served.frames [(request, o)]) (q.after o) := by
  have hs := h.settles.anyhow hf
  cases h with
  | givenUp => exact .of_settles hs
  | canceled => exact .of_settles hs
  | stopped => exact .of_settles hs
  | refused => exact .of_settles hs
  | @finished _ f o hq hfront hends =>
    cases o with
    | error stop => exact .of_settles hs
    | ok frame =>
      rcases q with _ | (_ | ⟨g, rest⟩) | e
      · cases hfront
      · cases hfront
      · cases hfront
        exact .decoded [f] hs (.cons hends.exists_ok .nil)
      · cases hfront

end Image

theorem Call.run_ledger (S : Services σ) (c : Call σ) (img : Image) (w : World σ) :
    ∃ q, (c.run S (img, w)).2.1 = img.withQueue q ∧
      img.Ledger S (Served.frames [(c.request, (c.run S (img, w)).1)]) q := by
  rcases h : c.run S (img, w) with ⟨o, s⟩
  obtain ⟨q, hs, ha⟩ := c.run_answer S img w h
  refine ⟨_, hs, .of_answer ha fun e he => ?_⟩
  cases c with
  | direct => exact absurd he id
  | polled => exact he

namespace Image

/-- **Every run of calls keeps a ledger.** -/
theorem serve_ledger (S : Services σ) (calls : List (Call σ)) (img : Image) (w : World σ) :
    ∃ q, (serve S calls (img, w)).2.1 = img.withQueue q ∧
      img.Ledger S (serve S calls (img, w)).1.frames q := by
  -- the image changes from call to call, and with it what its decoding may be: ledgers are joined, not extended
  induction calls generalizing img w with
  | nil => exact ⟨img.queue, rfl, .of_settles .kept⟩
  | cons c rest ih =>
    obtain ⟨q, hq, hl⟩ := c.run_ledger S img w
    rcases hc : c.run S (img, w) with ⟨o, img', w'⟩
    rw [hc] at hq hl
    obtain ⟨q', hq', hl'⟩ := ih img' w'
    simp only at hq
    subst hq
    refine ⟨q', ?_, ?_⟩
    · simp only [serve, hc]
      exact hq'
    · simp only [serve, hc]
      have := hl.append hl'
      rw [← Served.frames_append] at this
      exact this

/-! ## Without the decoder -/

/-- A stage with no task for a decoder. -/
def FetchStage.PastDecoding : FetchStage → Prop
  | .decoding _ => False
  | _ => True

variable {S : Services σ} {img : Image} {request : FrameRequest} {w : World σ} {s : Polled σ}
  {p : Poll FetchStage (Except LoadError Frame)}

theorem pollFinishing_past {f : RawFrame} {t : Task Frame}
    (h : pollFinishing S request f t img w = (p, s)) :
    s.1 = img ∧ ∀ next, p = .pending next → next.PastDecoding := by
  unfold pollFinishing at h
  rcases hp : t.poll (img.finishJob S request f) w with ⟨p', v⟩
  rw [hp] at h
  cases h
  refine ⟨rfl, fun next hn => ?_⟩
  cases p' with
  | pending n => cases hn; trivial
  | ready r => cases hn
  | panicked p => cases hn

theorem pollFront_past (h : pollFront S request img w = (p, s)) :
    s.1 = img ∧ ∀ next, p = .pending next → next.PastDecoding := by
  unfold pollFront at h
  split at h
  next e he => cases h; exact ⟨rfl, fun next hn => nomatch hn⟩
  next f hf => exact pollFinishing_past h

/-- On a settled image a call that is past decoding stays so, and leaves the image as it is. -/
theorem pollFetch_past {stage : FetchStage} (hq : img.queue ≠ .undecoded) (hst : stage.PastDecoding)
    (h : pollFetch S request stage (img, w) = (p, s)) :
    s.1 = img ∧ ∀ next, p = .pending next → next.PastDecoding := by
  cases stage with
  | idle =>
    rw [pollFetch_idle_of_settled hq] at h
    exact pollFront_past h
  | decoding t => exact hst.elim
  | finishing f t => exact pollFinishing_past h

theorem pollNext_past {g next : Guarded FetchStage} (hq : img.queue ≠ .undecoded)
    (hg : g.op.PastDecoding) (h : pollNext S request g (img, w) = (.pending next, s)) :
    s.1 = img ∧ next.op.PastDecoding := by
  rw [pollNext_eq] at h
  rcases hp : Guarded.poll (pollFetch S request) g (img, w) with ⟨p', s'⟩
  rw [hp] at h
  cases h
  rcases Guarded.poll_cases hp with ⟨hc, -⟩ | ⟨v, p', hi, hc | ⟨wrap, hw, hc⟩⟩
  · cases hc
  · cases hc
  · cases p' with
    | pending n =>
      cases hc
      obtain ⟨hs, hn⟩ := pollFetch_past hq hg hi
      exact ⟨hs, (hw n).symm ▸ hn n rfl⟩
    | ready r => cases hc
    | panicked p => cases hc

variable (decode : Bytes → MimeType → DecodeOptions → Job σ (List RawFrame))

theorem pollFetch_withDecoder {stage : FetchStage} (hq : img.queue ≠ .undecoded)
    (hst : stage.PastDecoding) :
    pollFetch (S.withDecoder decode) request stage (img, w) = pollFetch S request stage (img, w) := by
  cases stage with
  | idle =>
    rw [pollFetch_idle_of_settled hq, pollFetch_idle_of_settled hq]
    rfl
  | decoding t => exact hst.elim
  | finishing f t => rfl

theorem pollEach_withDecoder (polls : List (Change σ)) {g : Guarded FetchStage}
    (hq : img.queue ≠ .undecoded) (hg : g.op.PastDecoding) :
    pollEach (S.withDecoder decode) request polls g (img, w) =
      pollEach S request polls g (img, w) := by
  induction polls generalizing g w with
  | nil => rfl
  | cons change rest ih =>
    have hp : pollNext (S.withDecoder decode) request g (img, change w) =
        pollNext S request g (img, change w) := by
      rw [pollNext_eq, pollNext_eq,
        Guarded.poll_congr fun v => pollFetch_withDecoder decode hq hg]
    simp only [pollEach, hp]
    rcases hn : pollNext S request g (img, change w) with ⟨p, img', w'⟩
    cases p with
    | pending next =>
      obtain ⟨rfl, hnext⟩ := pollNext_past hq hg hn
      exact ih hnext
    | ready r => rfl
    | panicked p => rfl

theorem nextFrame_withDecoder (hq : img.queue ≠ .undecoded) :
    img.nextFrame (S.withDecoder decode) request w = img.nextFrame S request w := by
  rw [nextFrame_of_settled hq, nextFrame_of_settled hq]
  rfl

end Image

/-- **A call on a settled image goes without the decoder**: any other would do. -/
theorem Call.run_withDecoder (S : Services σ)
    (decode : Bytes → MimeType → DecodeOptions → Job σ (List RawFrame)) (c : Call σ) {img : Image}
    (hq : img.queue ≠ .undecoded) (w : World σ) :
    c.run (S.withDecoder decode) (img, w) = c.run S (img, w) := by
  cases c with
  | direct request before => simp only [run, Image.nextFrame_withDecoder decode hq]
  | polled request t polls =>
    refine Image.pollEach_withDecoder decode polls hq ?_
    cases t <;> trivial

/-! ## Refusals -/

namespace Call

/-- The world in which a call sets out. -/
def start : Call σ → World σ → World σ
  | direct _ before, w => before w
  | polled _ _ [], w => w
  | polled _ _ (change :: _), w => change w

/-- What becomes of a call that sets out in the world `w` for a frame that cannot be had because of `e`. -/
def refusal (e : LoadError) (w : World σ) : Call σ → Option (Loaded Frame)
  | direct _ _ => some (.error (.error e))
  | polled _ _ [] => none
  | polled _ t (_ :: _) =>
    some (.error (.error (if t.any w.tokens.isCanceled then .canceled else e)))

end Call

namespace Image

variable {S : Services σ} {img : Image} {request : FrameRequest} {e : LoadError}

theorem nextFrame_refused (hq : img.queue ≠ .undecoded) (he : img.queue.front = .error e)
    (w : World σ) : img.nextFrame S request w = (.error (.error e), img, w) := by
  rw [nextFrame_of_settled hq]
  simp only [deliverFront, he]

theorem pollFetch_refused (hq : img.queue ≠ .undecoded) (he : img.queue.front = .error e)
    (w : World σ) : pollFetch S request .idle (img, w) = (.ready (.error e), img, w) := by
  rw [pollFetch_idle_of_settled hq]
  simp only [pollFront, he]

end Image

/-- **A call for a frame that is not there is refused**, and leaves the image as it is. -/
theorem Call.run_refused (S : Services σ) (c : Call σ) {img : Image} (hq : img.queue ≠ .undecoded)
    {e : LoadError} (he : img.queue.front = .error e) {w : World σ}
    (tidy : (c.start w).tokens.Tidy) :
    (c.run S (img, w)).1 = c.refusal e (c.start w) ∧ (c.run S (img, w)).2.1 = img := by
  cases c with
  | direct request before => simp only [run, Image.nextFrame_refused hq he, refusal, and_self]
  | polled request t polls =>
    cases polls with
    | nil => exact ⟨by cases t <;> rfl, rfl⟩
    | cons change rest =>
      have hp : ∀ v, Image.pollFetch S request .idle (img, v) = (.ready (.error e), img, v) :=
        Image.pollFetch_refused hq he
      have tidy' : (change w).tokens.Tidy := tidy
      obtain ⟨w', hg⟩ := Guarded.poll_of_ready t hp tidy'
      have hn : Image.pollNext S request (.of t .idle) (img, change w) =
          (.ready (.error (if t.any (change w).tokens.isCanceled then .canceled else e)), img, w') := by
        rw [Image.pollNext_eq, hg]
        split <;> rfl
      rw [run, Image.pollEach, hn]
      exact ⟨rfl, rfl⟩

namespace Image

/-- What is promised of a run of calls on `img` that ends with `img'`. -/
structure InOrder (S : Services σ) (img : Image) (served : Served) (img' : Image) : Prop where
  /-- Nothing of the image changes but its queue, and the queue goes with what was handed out. -/
  ledger : ∃ q, img' = img.withQueue q ∧ img.Ledger S served.frames q
  /-- Once a decode has settled the image, calls go without the decoder. -/
  decodedOnce : img'.queue ≠ .undecoded → ∀ decode (c : Call σ) w,
    c.run (S.withDecoder decode) (img', w) = c.run S (img', w)
  /-- So does what is left of the call that settled it. -/
  decodedOnceUnderway : img'.queue ≠ .undecoded → ∀ decode request polls g w, g.op.PastDecoding →
    pollEach (S.withDecoder decode) request polls g (img', w) = pollEach S request polls g (img', w)
  /-- After the last frame every call is told that there are no more. -/
  exhausted : img'.queue = .decoded [] → ∀ (c : Call σ) w, (c.start w).tokens.Tidy →
    (c.run S (img', w)).1 = c.refusal .noMoreFrames (c.start w) ∧ (c.run S (img', w)).2.1 = img'
  /-- After a failed decode every call is told of that failure. -/
  failed : ∀ e, img'.queue = .failed e → ∀ (c : Call σ) w, (c.start w).tokens.Tidy →
    (c.run S (img', w)).1 = c.refusal e (c.start w) ∧ (c.run S (img', w)).2.1 = img'

/-- **Frames are handed out in order and each once**, whatever decoder, scaler and pool do, however calls on
the spot and by polling follow each other, and wherever they are canceled or given up. -/
theorem serve_inOrder (S : Services σ) (img : Image) (calls : List (Call σ)) (w : World σ) :
    img.InOrder S (serve S calls (img, w)).1 (serve S calls (img, w)).2.1 where
  ledger := serve_ledger S calls img w
  decodedOnce := fun hq decode c v => c.run_withDecoder S decode hq v
  decodedOnceUnderway := fun hq decode _ polls _ _ hg => pollEach_withDecoder decode polls hq hg
  exhausted := fun hq c v tidy =>
    c.run_refused S (fun h => by rw [hq] at h; cases h) (by rw [hq]; rfl) tidy
  failed := fun e hq c v tidy =>
    c.run_refused S (fun h => by rw [hq] at h; cases h) (by rw [hq]; rfl) tidy

end Image

end ImageLoader
