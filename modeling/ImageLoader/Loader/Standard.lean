import ImageLoader.Codec.Builtin
import ImageLoader.Frame.Scaler
import ImageLoader.Loader.Load

/-!
# The standard services

The services of a program that brings nothing of its own: the decoder and the scaler of this library, and a
pool that runs jobs beside the caller.

* `Services.ofCodecs` — the decoder over some codecs, and the scaler of this library.
* `Services.standard` — those services over the codecs of this library and the files at hand.
-/

namespace ImageLoader.Services

variable {σ : Type}

/-- The decoder over some codecs, and the scaler of this library. -/
def ofCodecs (K : Codecs) (settings : LoaderSettings) (files : FileReader)
    (insideFlatpak : World σ → Bool × World σ) (plan : TaskKind → World σ → TaskPlan × World σ) :
    Services σ where
  settings := settings
  files := files
  insideFlatpak := insideFlatpak
  probe data options := fun w => (Outcome.ofExcept (K.probe data options), w)
  decode data mimeType options := fun w => (Outcome.ofExcept (K.decodeFrames data mimeType options), w)
  scale f width height := fun w => (RawFrame.scaler f width height, w)
  plan := plan

section

variable (K : Codecs) (settings : LoaderSettings) (files : FileReader)
  (insideFlatpak : World σ → Bool × World σ) (plan : TaskKind → World σ → TaskPlan × World σ) (w : World σ)

@[simp] theorem probe_ofCodecs (data : Bytes) (options : DecodeOptions) :
    (ofCodecs K settings files insideFlatpak plan).probe data options w =
      (Outcome.ofExcept (K.probe data options), w) := rfl

@[simp] theorem decode_ofCodecs (data : Bytes) (m : MimeType) (options : DecodeOptions) :
    (ofCodecs K settings files insideFlatpak plan).decode data m options w =
      (Outcome.ofExcept (K.decodeFrames data m options), w) := rfl

@[simp] theorem scale_ofCodecs (f : RawFrame) (width height : UInt32) :
    (ofCodecs K settings files insideFlatpak plan).scale f width height w = (f.scaler width height, w) := rfl

end

def standard (settings : LoaderSettings) (files : FileReader) (insideFlatpak : Bool) : Services σ :=
  ofCodecs .builtin settings files (fun w => (insideFlatpak, w)) fun _ w =>
    (.background settings.decodeTimeout (.ofNanoseconds 0), w)

end ImageLoader.Services
