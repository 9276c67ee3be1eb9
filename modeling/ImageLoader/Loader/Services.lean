import ImageLoader.Frame.Finish
import ImageLoader.Loader.Info
import ImageLoader.Loader.Source
import ImageLoader.Loader.Task
import ImageLoader.Sandbox.Policy

/-!
# What loaders and images rely on

The foreign parts around a loader: the decoder, the scaler, the pool that runs tasks, the environment and the
files.  Each may read and change the world, so that a decoder may count its calls or cancel a token.

* `Services` — the foreign parts together.
* `Services.finish` — finishing a frame with the scaler at hand.
-/

namespace ImageLoader

structure Services (σ : Type) where
  settings : LoaderSettings
  files : FileReader
  insideFlatpak : World σ → Bool × World σ
  /-- What the header of encoded data says. -/
  probe : Bytes → DecodeOptions → Job σ ProbedImage
  /-- The frames of encoded data. -/
  decode : Bytes → MimeType → DecodeOptions → Job σ (List RawFrame)
  scale : RawFrame → UInt32 → UInt32 → Job σ RawFrame
  /-- What is done with a job that is handed over. -/
  plan : TaskKind → World σ → TaskPlan × World σ

namespace Services

variable {σ : Type}

def finish (S : Services σ) (f : RawFrame) (t : FinishTarget) : Job σ Frame := fun w =>
  match (f.prepare t).loading with
  | .error stop => (.error stop, w)
  | .ok (.ready f) => ((f.deliver t).loading, w)
  | .ok (.toScale f width height) =>
    match S.scale f width height w with
    | (.error stop, w) => (.error stop, w)
    | (.ok f, w) => ((f.conclude t).loading, w)

/-- With a scaler that looks at nothing but the frame, finishing is what it is for frames alone. -/
theorem finish_fst (S : Services σ) {scale : Scaler}
    (h : ∀ f width height w, (S.scale f width height w).1 = scale f width height)
    (f : RawFrame) (t : FinishTarget) (w : World σ) : (S.finish f t w).1 = f.finish scale t := by
  unfold finish RawFrame.finish
  rcases hp : (f.prepare t).loading with stop | prepared
  · rfl
  · cases prepared with
    | ready g => rfl
    | toScale g width height =>
      have hs := h g width height w
      rcases hw : S.scale g width height w with ⟨r, v⟩
      rw [hw] at hs
      simp only [hw, bind, Except.bind, ← hs]
      cases r <;> rfl

end Services

end ImageLoader
