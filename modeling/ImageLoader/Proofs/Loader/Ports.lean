import ImageLoader.Loader.Standard
import ImageLoader.Proofs.Cancel.Calm

/-!
# Services with a promise

What is assumed of the foreign parts around a loader where the world must not come between a call and its
frame: they leave a token alone, or give the same answer in every world.

* `Services.Spares`, `Services.Deterministic`: the two promises.
* `Services.Spares.pollFetch`, `Services.Spares.nextFrame`, `Services.Spares.pollBare`, `Services.Spares.load`:
  **services that spare a token make calls that spare it.**
* `Services.Deterministic.finish`, `Services.Deterministic.readJob`: and so with jobs that are made of services.
-/

namespace ImageLoader

variable {σ α : Type} {S : Services σ} {t : Token}

/-- Work that gives the same in every world. -/
def Fixed (f : World σ → α × World σ) : Prop := ∀ v w, (f v).1 = (f w).1

/-- Services that leave the token alone. -/
structure Services.Spares (S : Services σ) (t : Token) : Prop where
  insideFlatpak : Sparing t S.insideFlatpak
  probe : ∀ data options, Sparing t (S.probe data options)
  decode : ∀ data mimeType options, Sparing t (S.decode data mimeType options)
  scale : ∀ f width height, Sparing t (S.scale f width height)
  plan : ∀ kind, Sparing t (S.plan kind)

/-- A decoder and a scaler whose answers do not depend on the world.  What the pool plans may. -/
structure Services.Deterministic (S : Services σ) : Prop where
  probe : ∀ data options, Fixed (S.probe data options)
  decode : ∀ data mimeType options, Fixed (S.decode data mimeType options)
  scale : ∀ f width height, Fixed (S.scale f width height)

/-- Services that decode anything to one white pixel, scale nothing, and have this pool. -/
def Services.whitePixel (plan : TaskKind → TaskPlan) : Services Unit where
  settings := ⟨.bwrap, .all, true, .ofSeconds 60, maxTextureSize, .default⟩
  files path := .error ⟨path, false⟩
  insideFlatpak w := (false, w)
  probe _ _ w := (.ok ⟨⟨"image/png"⟩, ⟨1, 1, some "png", none, false⟩⟩, w)
  decode _ _ _ w := (.ok [⟨1, 1, 4, .r8g8b8a8, ⟨#[255, 255, 255, 255]⟩, none, {}⟩], w)
  scale f _ _ w := (.ok f, w)
  plan kind w := (plan kind, w)

theorem Services.deterministic_whitePixel (plan : TaskKind → TaskPlan) :
    (whitePixel plan).Deterministic :=
  ⟨fun _ _ _ _ => rfl, fun _ _ _ _ _ => rfl, fun _ _ _ _ _ => rfl⟩

theorem Services.spares_whitePixel (plan : TaskKind → TaskPlan) (t : Token) :
    (whitePixel plan).Spares t where
  insideFlatpak w := Cancellation.spares_refl t w.tokens
  probe _ _ w := Cancellation.spares_refl t w.tokens
  decode _ _ _ w := Cancellation.spares_refl t w.tokens
  scale _ _ _ w := Cancellation.spares_refl t w.tokens
  plan _ w := Cancellation.spares_refl t w.tokens

namespace Services

section

variable (K : Codecs) (settings : LoaderSettings) (files : FileReader)

theorem deterministic_ofCodecs (insideFlatpak : World σ → Bool × World σ)
    (plan : TaskKind → World σ → TaskPlan × World σ) :
    (ofCodecs K settings files insideFlatpak plan).Deterministic :=
  ⟨fun _ _ _ _ => rfl, fun _ _ _ _ _ => rfl, fun _ _ _ _ _ => rfl⟩

theorem spares_standard (insideFlatpak : Bool) (t : Token) :
    (standard settings files insideFlatpak : Services σ).Spares t where
  insideFlatpak w := Cancellation.spares_refl t w.tokens
  probe _ _ w := Cancellation.spares_refl t w.tokens
  decode _ _ _ w := Cancellation.spares_refl t w.tokens
  scale _ _ _ w := Cancellation.spares_refl t w.tokens
  plan _ w := Cancellation.spares_refl t w.tokens

end

/-! ## Jobs -/

theorem Spares.finish (hs : S.Spares t) (f : RawFrame) (target : FinishTarget) :
    Sparing t (S.finish f target) := by
  intro w
  unfold Services.finish
  split
  · exact Cancellation.spares_refl t _
  · exact Cancellation.spares_refl t _
  next g width height hp =>
    have h := hs.scale g width height w
    split
    next stop v hv => rw [hv] at h; exact h
    next g' v hv => rw [hv] at h; exact h

theorem Deterministic.finish (hd : S.Deterministic) (f : RawFrame) (target : FinishTarget) :
    Fixed (S.finish f target) := by
  intro v w
  unfold Services.finish
  rcases (f.prepare target).loading with stop | g | ⟨g, width, height⟩
  · rfl
  · rfl
  · have h := hd.scale g width height v w
    rcases hv : S.scale g width height v with ⟨r, v'⟩
    rcases hw : S.scale g width height w with ⟨r', w'⟩
    rw [hv, hw] at h
    cases h
    simp only [hv, hw]
    cases r <;> rfl

theorem Spares.readJob (hs : S.Spares t) (l : Loader) (options : DecodeOptions) :
    Sparing t (l.readJob S options) := by
  intro w
  unfold Loader.readJob
  split
  · exact Cancellation.spares_refl t _
  next data _ => exact hs.probe data options w

theorem Deterministic.readJob (hd : S.Deterministic) (l : Loader) (options : DecodeOptions) :
    Fixed (l.readJob S options) := by
  intro v w
  unfold Loader.readJob
  split
  · rfl
  next data _ => exact congrArg (Except.map _) (hd.probe data options v w)

end Services

/-! ## Tasks -/

theorem Task.sparing_start {job : Job σ α} (hj : Sparing t job) (plan : TaskPlan) :
    Sparing t (Task.start plan job) := by
  intro w
  unfold Task.start
  split
  · exact hj w
  · exact Cancellation.spares_refl t _
  · exact Cancellation.spares_refl t _

theorem Task.sparing_poll {job : Job σ α} (hj : Sparing t job) (task : Task α) :
    Sparing t (Task.poll job task) := by
  intro w
  have h := hj w
  unfold Task.poll
  split
  · exact Cancellation.spares_refl t _
  · split
    · exact Cancellation.spares_refl t _
    · exact Cancellation.spares_refl t _
    · split
      next a v hv => rw [hv] at h; exact h
      next e v hv => rw [hv] at h; exact h
      next p v hv => rw [hv] at h; exact h

/-! ## Calls -/

namespace Services.Spares

variable (hs : S.Spares t)

include hs

theorem pollReading (l : Loader) (options : DecodeOptions) (task : Task LoadedSource) :
    Sparing t (l.pollReading S options task) :=
  Task.sparing_poll (hs.readJob l options) task

theorem pollBare (l : Loader) (stage : Loader.LoadStage) : Sparing t (l.pollBare S stage) := by
  intro w
  cases stage with
  | idle =>
    have hplan := (hs.insideFlatpak w).trans (hs.plan .load (S.insideFlatpak w).2)
    have hstart := Task.sparing_start (hs.readJob l (l.options S w).1)
      (S.plan .load (l.options S w).2).1 (S.plan .load (l.options S w).2).2
    exact (hplan.trans hstart).trans (hs.pollReading l _ _ _)
  | reading options task => exact hs.pollReading l options task w

theorem load (l : Loader) : Sparing t (l.load S) := fun w =>
  (hs.insideFlatpak w).trans (hs.readJob l (l.options S w).1 (S.insideFlatpak w).2)

variable (request : FrameRequest)

theorem pollFinishing (f : RawFrame) (task : Task Frame) :
    Sparing t fun s : Image.Polled σ => Image.pollFinishing S request f task s.1 s.2 := by
  intro s
  exact Task.sparing_poll (hs.finish f (s.1.finishTarget S request)) task s.2

theorem pollFront :
    Sparing t fun s : Image.Polled σ => Image.pollFront S request s.1 s.2 := by
  intro s
  simp only [Image.pollFront]
  split
  · exact Cancellation.spares_refl t _
  next f _ =>
    have hstart := Task.sparing_start (hs.finish f (s.1.finishTarget S request)) (S.plan .finish s.2).1
    have hpoll := hs.pollFinishing request f
    exact ((hs.plan .finish s.2).trans (hstart (S.plan .finish s.2).2)).trans (hpoll _ (s.1, _))

theorem pollDecoding (task : Task (List RawFrame)) :
    Sparing t fun s : Image.Polled σ => Image.pollDecoding S request task s.1 s.2 := by
  intro s
  have h := Task.sparing_poll (hs.decode s.1.data s.1.mimeType s.1.options) task s.2
  simp only [Image.pollDecoding, Image.decodeJob]
  split
  next n v hv => rw [hv] at h; exact h
  next r v hv => rw [hv] at h; exact h.trans (hs.pollFront request (s.1.settle r, v))
  next p v hv => rw [hv] at h; exact h

theorem pollFetch (stage : Image.FetchStage) : Sparing t (Image.pollFetch S request stage) := by
  intro s
  cases stage with
  | idle =>
    simp only [Image.pollFetch]
    split
    · have hstart := Task.sparing_start (hs.decode s.1.data s.1.mimeType s.1.options)
        (S.plan .decode s.2).1 (S.plan .decode s.2).2
      exact ((hs.plan .decode s.2).trans hstart).trans (hs.pollDecoding request _ (s.1, _))
    · exact hs.pollFront request s
  | decoding task => exact hs.pollDecoding request task s
  | finishing f task => exact hs.pollFinishing request f task s

theorem nextFrame : Sparing t fun s : Image.Polled σ => s.1.nextFrame S request s.2 := by
  have hdeliver : Sparing t fun s : Image.Polled σ => s.1.deliverFront S request s.2 := by
    intro s
    simp only [Image.deliverFront]
    split
    · exact Cancellation.spares_refl t _
    next f _ =>
      have h := hs.finish f (s.1.finishTarget S request) s.2
      split <;> exact h
  intro s
  have h := hs.decode s.1.data s.1.mimeType s.1.options s.2
  simp only [Image.nextFrame, Image.ensureDecoded]
  by_cases hu : s.1.queue.isUndecoded = true
  · rw [if_pos hu]
    simp only [Image.decodeJob]
    rcases s.1.options.policy.run (S.decode s.1.data s.1.mimeType s.1.options s.2).1 with
      (e | p) | frames
    · exact h.trans (hdeliver (s.1.settle (.error e), _))
    · exact h
    · exact h.trans (hdeliver (s.1.settle (.ok frames), _))
  · rw [if_neg hu]
    exact hdeliver s

end Services.Spares

end ImageLoader
