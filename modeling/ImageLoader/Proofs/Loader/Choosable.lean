import ImageLoader.Loader.Standard
import ImageLoader.Proofs.Frame.Choosable
import ImageLoader.Proofs.Image.Awaited
import ImageLoader.Proofs.Image.Delivery
import ImageLoader.Proofs.Loader.Sources

/-!
# Loaders whose formats can be chosen

The formats that an image was loaded with stay with it, and are what each of its frames is finished for.  So with
foreign parts that never blame the want of a format, a loader that accepts one format at least gives images whose
frames are never refused for it, however they are asked for.

* `Codecs.within_probe`, `Codecs.within_decodeFrames`: the decoder never blames the want of a format.
* `Image.Answer.choosable`: nor does an answer, from an image that may choose, and it may choose afterwards.
* `Image.serve_choosable`: **nor does any call of a run**, by induction over the calls.
* `Loader.loadBy_choosable`: **and every image of a loader that accepts a format may choose.**
-/

namespace ImageLoader

variable {σ α : Type}

/-- What is given is not refused for want of a format.  Panics are left open. -/
abbrev Choosable (o : Loaded α) : Prop := Within (Stop.Excused LoadError.HasFormat) o

/-- Foreign parts that never blame the want of a format. -/
structure Services.Choosable (S : Services σ) : Prop where
  probe : ∀ data options w, ImageLoader.Choosable (S.probe data options w).1
  decode : ∀ data m options w, ImageLoader.Choosable (S.decode data m options w).1
  scale : ∀ f width height w, ImageLoader.Choosable (S.scale f width height w).1

/-! ## The decoder -/

namespace Codecs

variable (K : Codecs) {m : MimeType}

theorem within_coded (r : Coded α) : Within LoadError.HasFormat (r.mapError (CodecFault.toLoadError m)) := by
  refine .of_renamed r fun fault => ?_
  cases fault <;> rfl

theorem within_probe (data : Bytes) (options : DecodeOptions) :
    Within LoadError.HasFormat (K.probe data options) := by
  unfold probe
  split
  · exact .error rfl
  · split
    next fault _ => cases fault <;> exact .error rfl
    · exact .ok _

theorem within_frame (p : Picture) (format : MemoryFormat) : Within LoadError.HasFormat (p.frame format) :=
  (RawFrame.within_field _).map.mapError fun _ he => he

theorem within_decodeStill (c : Container) (data : Bytes) (options : DecodeOptions) :
    Within LoadError.HasFormat (K.decodeStill c data options m) := by
  unfold decodeStill
  refine (within_coded _).bind fun h _ => ?_
  refine (within_coded _).bind fun p _ => ?_
  exact (within_frame _ _).bind fun f _ => .ok _

theorem within_collectFrom (base : FrameDetails) (turn : Option Orientation) (n : Nat) (cels : List (Coded Cel)) :
    Within LoadError.HasFormat (K.collectFrom base turn m n cels) := by
  induction cels generalizing n with
  | nil => exact .ok []
  | cons cel rest ih =>
    have hcel : Within LoadError.HasFormat (K.celFrame base turn m n cel) := by
      unfold celFrame
      refine (within_coded _).bind fun cel _ => ?_
      exact (within_frame _ _).bind fun f _ => .ok _
    unfold collectFrom
    refine hcel.bind fun f _ => ?_
    exact (ih (n + 1)).bind fun frames _ => .ok _

theorem within_decodeFrames (data : Bytes) (options : DecodeOptions) :
    Within LoadError.HasFormat (K.decodeFrames data m options) := by
  unfold decodeFrames
  split
  · exact .error rfl
  next c _ =>
    unfold frames
    refine (within_coded _).bind fun animation _ => ?_
    cases animation with
    | none => exact (K.within_decodeStill c data options).bind fun f _ => .ok _
    | some a => exact K.within_collectFrom _ _ 0 _

end Codecs

/-- **The decoder and the scaler never blame the want of a format**, whatever the codecs give. -/
theorem Services.choosable_ofCodecs (K : Codecs) (settings : LoaderSettings) (files : FileReader)
    (insideFlatpak : World σ → Bool × World σ) (plan : TaskKind → World σ → TaskPlan × World σ) :
    (ofCodecs K settings files insideFlatpak plan).Choosable where
  probe data options _ := (K.within_probe data options).ofExcept
  decode data _ options _ := (K.within_decodeFrames data options).ofExcept
  scale f width height _ := f.within_scaler width height

/-! ## Work that is handed over -/

/-- However a job ends, it does not end for want of a format if the job itself does not. -/
theorem Job.Ends.choosable {job : Job σ α} {hd : Handling} {o : Loaded α} (h : job.Ends hd o)
    (hjob : ∀ v, Choosable (job v).1) : Choosable o := by
  cases h with
  | @result v r hr =>
    rw [← hr]
    exact hjob v
  | caught => exact .error rfl
  | escaped => exact .error trivial
  | @failed e => cases e <;> exact .error rfl

/-! ## Calls -/

namespace Image

/-- The image may choose a format, and did not fail for want of one. -/
structure Choosable (img : Image) : Prop where
  accepted : img.accepted.toList ≠ []
  failed : ∀ e, img.queue = .failed e → e.HasFormat

variable {S : Services σ} {c : Circumstances} {hd : Handling} {request : FrameRequest} {img : Image}
  {q : FrameQueue}

theorem Settles.choosable (hS : S.Choosable) (himg : img.Choosable) (h : img.Settles S hd q) :
    (img.withQueue q).Choosable := by
  refine ⟨himg.accepted, fun e he => ?_⟩
  cases h with
  | kept => exact himg.failed e he
  | @decoded r hu hends =>
    cases r with
    | ok frames => cases he
    | error e' =>
      cases he
      exact hends.choosable (hS.decode img.data img.mimeType img.options) (.error e) rfl

theorem Choosable.advance (h : (img.withQueue q).Choosable) (o : Option (Loaded Frame)) :
    (img.withQueue (q.after o)).Choosable := by
  refine ⟨h.accepted, fun e he => h.failed e ?_⟩
  rcases o with _ | (stop | frame)
  · exact he
  · exact he
  · cases q <;> first | exact he | cases he

/-- **No answer blames the want of a format**, and the image may choose afterwards. -/
theorem Answer.choosable (hS : S.Choosable) (himg : img.Choosable) {o : Option (Loaded Frame)}
    (h : Answer S c request img o q) :
    (∀ r, o = some r → ImageLoader.Choosable r) ∧ (img.withQueue (q.after o)).Choosable := by
  have hq := h.settles.choosable hS himg
  refine ⟨fun r hr => ?_, hq.advance o⟩
  cases h with
  | givenUp => cases hr
  | canceled =>
    cases hr
    exact .error rfl
  | stopped =>
    cases hr
    exact .error trivial
  | @refused q e hs hne he =>
    cases hr
    refine .error ?_
    rcases q with _ | (_ | ⟨f, rest⟩) | e'
    · exact absurd rfl hne
    · cases he
      rfl
    · cases he
    · cases he
      exact hq.failed e rfl
  | @finished q f o hs hf hends =>
    cases hr
    exact hends.choosable fun v => S.within_finish hS.scale f himg.accepted v

/-- **No call of a run blames the want of a format.** -/
theorem serve_choosable (hS : S.Choosable) (himg : img.Choosable) (calls : List (Call σ)) (w : World σ) :
    (∀ a ∈ (serve S calls (img, w)).1, ∀ r, a.2 = some r → ImageLoader.Choosable r) ∧
      (serve S calls (img, w)).2.1.Choosable := by
  -- a call leaves the image as it is but for its queue, and a queue that failed keeps the error of a decoder
  induction calls generalizing img w with
  | nil => exact ⟨fun a ha => absurd ha List.not_mem_nil, himg⟩
  | cons call rest ih =>
    rcases hcall : call.run S (img, w) with ⟨o, img', w'⟩
    obtain ⟨q, rfl, ha⟩ := call.run_answer S img w hcall
    obtain ⟨ho, himg'⟩ := ha.choosable hS himg
    obtain ⟨hrest, hlast⟩ := ih himg' w'
    simp only [serve, hcall]
    refine ⟨fun a hmem => ?_, hlast⟩
    rcases List.mem_cons.mp hmem with rfl | hmem
    · exact ho
    · exact hrest a hmem

theorem nextBy_choosable (hS : S.Choosable) (himg : img.Choosable) (request : FrameRequest) (way : Way)
    (w : World σ) :
    ImageLoader.Choosable (nextBy S request way (img, w)).1 ∧ (nextBy S request way (img, w)).2.1.Choosable := by
  obtain ⟨q, hnext, ha⟩ := nextBy_ends S request way img w
  obtain ⟨ho, himg'⟩ := ha.choosable hS himg
  rw [hnext]
  exact ⟨ho _ rfl, himg'⟩

end Image

/-! ## Loads -/

theorem Source.within_readAll (read : FileReader) (s : Source) : Within LoadError.HasFormat (s.readAll read) := by
  unfold readAll
  repeat' split
  all_goals first
    | exact .ok _
    | exact .error rfl

namespace Loader

variable {S : Services σ} {l : Loader}

theorem readJob_choosable (hS : S.Choosable) (l : Loader) (options : DecodeOptions) (w : World σ) :
    Choosable (l.readJob S options w).1 := by
  have hsource := l.source.within_readAll S.files
  unfold readJob
  split
  next e he => exact .error (hsource e he)
  next data _ => exact (hS.probe data options w).map

/-- **A load does not blame the want of a format**, even if no format is accepted. -/
theorem loadBy_choosable (hS : S.Choosable) (l : Loader) (way : Way) (w : World σ) :
    Choosable (l.loadBy S way w).1 := by
  intro stop hstop
  cases stop with
  | panic p => trivial
  | error e =>
    rcases loadBy_ready (r := .error e) hstop with hr | ⟨u, hd, r, hends, hr⟩
    · cases hr
      rfl
    · have hchoosable := (hends.choosable fun v => l.readJob_choosable hS _ v).map (f := l.image (l.options S u).1)
      exact hchoosable (.error e) hr.symm

/-- **The image of a loader that accepts a format may choose one.** -/
theorem choosable_of_loadBy (hl : l.accepted.toList ≠ []) {way : Way} {w : World σ} {img : Image}
    (h : (l.loadBy S way w).1 = .ok img) : img.Choosable ∧ img.accepted = l.accepted := by
  obtain ⟨u, v, r, -, rfl⟩ := loadBy_eq_ok h
  exact ⟨⟨hl, fun e he => nomatch he⟩, rfl⟩

theorem awaitFirstFrame_choosable (hS : S.Choosable) (hl : l.accepted.toList ≠ []) (t : Option Token)
    (w : World σ) : Choosable (l.awaitFirstFrame S t w).1 := by
  have hload := l.loadBy_choosable hS (.awaited t) w
  have himage : ∀ img, (l.awaitLoad S t w).1 = .ok img → img.Choosable := fun img h =>
    (choosable_of_loadBy hl (show (l.loadBy S (.awaited t) w).1 = .ok img from h)).1
  simp only [loadBy] at hload
  unfold awaitFirstFrame
  rcases hw : l.awaitLoad S t w with ⟨stop | img, v⟩
  · rw [hw] at hload
    exact .error (hload stop rfl)
  · have himg := himage img (by rw [hw])
    obtain ⟨hframe, -⟩ := Image.nextBy_choosable hS himg {} (.awaited t) v
    simp only [Image.nextBy] at hframe
    rcases hn : img.awaitNext S {} t v with ⟨stop | frame, img', v'⟩
    · rw [hn] at hframe
      simp only [hn]
      exact .error (hframe stop rfl)
    · simp only [hn]
      exact .ok _

end Loader

end ImageLoader
