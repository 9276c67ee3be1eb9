import ImageLoader.Loader.Image

/-!
# Loaders

A loader turns one source into an image: it reads the source and probes the header, under the policy that its
sandbox selector resolves to.  As with frames there are two ways, on the spot and by polling.

* `Loader.load`, `Loader.pollLoad` — the image, either way.
* `Loader.awaitLoad` — the second way from the first poll to the last.
* `Loader.awaitFirstFrame` — the image and its first frame.
-/

namespace ImageLoader

structure Loader where
  source : Source
  selector : SandboxSelector
  accepted : FormatSet
  applyTransformations : Bool
deriving DecidableEq

structure LoadedSource where
  data : Bytes
  probed : ProbedImage

namespace Loader

variable {σ : Type}

def ofSource (settings : LoaderSettings) (source : Source) : Loader :=
  ⟨source, settings.sandboxSelector, settings.acceptedFormats, settings.applyTransformations⟩

/-- What decoders are told; asks the environment. -/
def options (S : Services σ) (l : Loader) (w : World σ) : DecodeOptions × World σ :=
  let (inside, w) := S.insideFlatpak w
  (⟨DecodePolicy.resolve l.selector inside S.settings, l.applyTransformations⟩, w)

def readJob (S : Services σ) (l : Loader) (options : DecodeOptions) : Job σ LoadedSource := fun w =>
  match l.source.readAll S.files with
  | .error e => (.error (.error e), w)
  | .ok data =>
    let (r, w) := S.probe data options w
    (r.map fun probed => ⟨data, probed⟩, w)

def image (l : Loader) (options : DecodeOptions) (r : LoadedSource) : Image where
  mimeType := r.probed.mimeType
  info := r.probed.info
  data := r.data
  options := options
  accepted := l.accepted

/-! ## On the spot -/

def load (S : Services σ) (l : Loader) (w : World σ) : Loaded Image × World σ :=
  let (options, w) := l.options S w
  let (r, w) := l.readJob S options w
  ((options.policy.run r).map (l.image options), w)

/-! ## By polling -/

inductive LoadStage where
  | idle
  | reading (options : DecodeOptions) (t : Task LoadedSource)

namespace LoadStage

def rank : LoadStage → Nat × Nat
  | idle => (1, 0)
  | reading _ t => (0, t.polls)

end LoadStage

def pollReading (S : Services σ) (l : Loader) (options : DecodeOptions) (t : Task LoadedSource)
    (w : World σ) : Poll LoadStage (Except LoadError Image) × World σ :=
  let (p, w) := t.poll (l.readJob S options) w
  ((p.mapNext (.reading options)).map fun r => r.map (l.image options), w)

def pollBare (S : Services σ) (l : Loader) (stage : LoadStage) (w : World σ) :
    Poll LoadStage (Except LoadError Image) × World σ :=
  match stage with
  | .idle =>
    let (options, w) := l.options S w
    let (plan, w) := S.plan .load w
    let (t, w) := Task.start plan (l.readJob S options) w
    l.pollReading S options t w
  | .reading options t => l.pollReading S options t w

def pollLoad (S : Services σ) (l : Loader) (g : Guarded LoadStage) (w : World σ) :
    Poll (Guarded LoadStage) (Except LoadError Image) × World σ :=
  Guarded.poll (l.pollBare S) g w

/-! ## From the first poll to the last -/

private theorem rank_reading {S : Services σ} {l : Loader} {options : DecodeOptions}
    {t : Task LoadedSource} {w w' : World σ} {next : LoadStage}
    (h : l.pollReading S options t w = (.pending next, w')) :
    ∃ n : Task LoadedSource, next = .reading options n ∧ n.polls < t.polls := by
  unfold pollReading at h
  rcases ht : t.poll (l.readJob S options) w with ⟨p, v⟩
  rw [ht] at h
  cases p with
  | pending n => cases h; exact ⟨n, rfl, Task.polls_lt_of_pending ht⟩
  | ready r => cases h
  | panicked p => cases h

private theorem rank_bare {S : Services σ} {l : Loader} {stage next : LoadStage} {w w' : World σ}
    (h : l.pollBare S stage w = (.pending next, w')) :
    Prod.Lex (· < ·) (· < ·) next.rank stage.rank := by
  cases stage with
  | idle =>
    obtain ⟨n, rfl, -⟩ := rank_reading h
    exact Prod.lex_def.2 (.inl Nat.zero_lt_one)
  | reading options t =>
    obtain ⟨n, rfl, hn⟩ := rank_reading h
    exact Prod.lex_def.2 (.inr ⟨rfl, hn⟩)

theorem rank_lt_of_pollLoad {S : Services σ} {l : Loader} {g next : Guarded LoadStage}
    {w w' : World σ} (h : l.pollLoad S g w = (.pending next, w')) :
    Prod.Lex (· < ·) (· < ·) next.op.rank g.op.rank := by
  obtain ⟨v, hv⟩ := Guarded.poll_pending h
  exact rank_bare hv

/-- The image by polling, polled until it is there and by nobody else in between. -/
def awaitLoad (S : Services σ) (l : Loader) (t : Option Token) (w : World σ) :
    Loaded Image × World σ :=
  Poll.drive (l.pollLoad S) (fun g => g.op.rank) (fun _ _ _ _ h => rank_lt_of_pollLoad h)
    (Guarded.of t .idle) w

def awaitFirstFrame (S : Services σ) (l : Loader) (t : Option Token) (w : World σ) :
    Loaded (Image × Frame) × World σ :=
  match l.awaitLoad S t w with
  | (.error stop, w) => (.error stop, w)
  | (.ok img, w) =>
    match img.awaitNext S {} t w with
    | (.ok frame, img, w) => (.ok (img, frame), w)
    | (.error stop, _, w) => (.error stop, w)

end Loader

end ImageLoader
