import ImageLoader.Loader.Standard
import ImageLoader.Proofs.Errors
import ImageLoader.Proofs.Frame.Shape
import ImageLoader.Proofs.Loader.Sources

/-!
# From the probe to the decoder

A probe finds the container in the content, and hands on nothing of it but a media type.  The decoder goes by that
type alone.  It finds the container again if its type leads back to it, which is so for every container but
farbfeld, whose type stands for anything.

* `Codecs.probe_eq_ok_iff`: what a probe reads.
* `Codecs.decodeFrames_mimeType`: what the type of a container comes to.
* `Codecs.dispatches_of_probe`: **what was probed is decoded as the container that it was probed as**, but for
  farbfeld, which is refused.
-/

namespace ImageLoader

theorem Loader.readJob_eq_ok_iff {σ : Type} {S : Services σ} {l : Loader} {options : DecodeOptions}
    {v : World σ} {r : LoadedSource} : (l.readJob S options v).1 = .ok r ↔
      ∃ data, l.source.readAll S.files = .ok data ∧
        ∃ p, (S.probe data options v).1 = .ok p ∧ r = ⟨data, p⟩ := by
  unfold readJob
  rcases l.source.readAll S.files with e | data
  · simp
  · rcases hp : (S.probe data options v).1 with stop | p
    · simp [hp, Except.map]
    · simp [hp, Except.map, eq_comm]

namespace Codecs

variable {K : Codecs} {data : Bytes} {options : DecodeOptions} {p : ProbedImage}

theorem probe_eq_ok_iff : K.probe data options = .ok p ↔
    ∃ c h, Container.detect? data = some c ∧ K.header c options.policy.limits data = .ok h ∧
      p = ⟨c.mimeType, h.info c options⟩ := by
  unfold probe
  rcases hc : Container.detect? data with _ | c
  · simp
  · rcases hh : K.header c options.policy.limits data with fault | h
    · simp [hh]
    · simp [hh, eq_comm]

theorem decodeFrames_mimeType (K : Codecs) (c : Container) (data : Bytes) (options : DecodeOptions) :
    K.decodeFrames data c.mimeType options =
      if c = .farbfeld then .error (.unknownImageFormat (some c.mimeType.text) "No decoder for this mime type")
      else K.frames c data options c.mimeType := by
  by_cases hc : c = .farbfeld
  · subst hc
    rfl
  · rw [if_neg hc, decodeFrames, Container.ofMimeType?_mimeType c hc]

/-- The content shows a container, this is the type of it, and decoding by the type is decoding that container,
unless it is farbfeld. -/
def Dispatches (K : Codecs) (data : Bytes) (m : MimeType) (options : DecodeOptions) : Prop :=
  ∃ c, Container.detect? data = some c ∧ m = c.mimeType ∧
    K.decodeFrames data m options =
      if c = .farbfeld then .error (.unknownImageFormat (some m.text) "No decoder for this mime type")
      else K.frames c data options m

theorem dispatches_of_ok (h : K.probe data options = .ok p) : K.Dispatches data p.mimeType options := by
  obtain ⟨c, h, hc, -, rfl⟩ := probe_eq_ok_iff.mp h
  exact ⟨c, hc, rfl, K.decodeFrames_mimeType c data options⟩

/-! ## Images -/

variable {σ : Type} {settings : LoaderSettings} {files : FileReader} {insideFlatpak : World σ → Bool × World σ}
  {plan : TaskKind → World σ → TaskPlan × World σ} {l : Loader} {img : Image}

theorem probe_of_readFor (h : l.ReadFor (.ofCodecs K settings files insideFlatpak plan) img) :
    ∃ p, K.probe img.data img.options = .ok p ∧ img.mimeType = p.mimeType ∧ img.info = p.info := by
  obtain ⟨u, v, r, hr, rfl⟩ := h
  obtain ⟨data, -, p, hp, rfl⟩ := Loader.readJob_eq_ok_iff.mp hr
  rw [Services.probe_ofCodecs] at hp
  exact ⟨p, Outcome.ofExcept_eq_ok_iff.mp hp, rfl, rfl⟩

/-- **What was probed is decoded as the container that it was probed as**, unless that is farbfeld.  So is every
image that was loaded, by the type that it keeps. -/
theorem dispatches_of_probe (K : Codecs) :
    (∀ data options p, K.probe data options = .ok p → K.Dispatches data p.mimeType options) ∧
    ∀ (σ : Type) settings files insideFlatpak plan (l : Loader) (way : Way) (w : World σ) img,
      (l.loadBy (.ofCodecs K settings files insideFlatpak plan) way w).1 = .ok img →
        K.Dispatches img.data img.mimeType img.options := by
  refine ⟨fun data options p h => dispatches_of_ok h, ?_⟩
  intro σ settings files insideFlatpak plan l way w img h
  obtain ⟨p, hp, hm, -⟩ := probe_of_readFor (Loader.loadBy_eq_ok h)
  rw [hm]
  exact dispatches_of_ok hp

/-- A farbfeld image of one pixel is probed, and then refused. -/
theorem farbfeld_refused :
    let data : Bytes := "farbfeld".toUTF8 ++ ⟨#[0, 0, 0, 1, 0, 0, 0, 1, 18, 52, 86, 120, 154, 188, 255, 255]⟩
    let options : DecodeOptions := ⟨⟨.bwrap, some .default, true⟩, true⟩
    ∃ p, probe builtin data options = .ok p ∧ builtin.decodeFrames data p.mimeType options =
      .error (.unknownImageFormat (some "application/octet-stream") "No decoder for this mime type") := by
  intro data options
  have hprobe : probe builtin data options =
      .ok ⟨Container.farbfeld.mimeType, ⟨1, 1, some "FARBFELD", none, false⟩⟩ :=
    toOption_eq_some_iff.mp (by decide +kernel)
  refine ⟨_, hprobe, ?_⟩
  obtain ⟨c, hc, hm, hdecode⟩ := (dispatches_of_probe builtin).1 data options _ hprobe
  have hdetect : Container.detect? data = some .farbfeld := by decide +kernel
  rw [hdetect] at hc
  cases hc
  exact hdecode

end Codecs

end ImageLoader
