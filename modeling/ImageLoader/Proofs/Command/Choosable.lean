import ImageLoader.Command.Program
import ImageLoader.Proofs.Format.Known
import ImageLoader.Proofs.Loader.Choosable

/-!
# A valid configuration accepts a format

A configuration is refused if no format is accepted, and the arguments of the command line replace the accepted
formats by others only if they name one.  The check looks at a word and the choice at formats, but the word has
known bits only, however it was made.  So the loader of a valid configuration always has a format to choose.

* `Config.accepts_of_validate`: what validation leaves.
* `Inspection.accepts_configure`: what the arguments leave of it.
* `Inspection.run_choosable`: an inspection does not blame the want of a format.
* `Config.accepting_of_validate`: **no load, no call and no inspection does**, under a valid configuration.
* `Program.run_choosable`: nor does the program.
-/

namespace ImageLoader

/-- What is needed of accepted formats: one at least, and no unknown bits. -/
structure FormatSet.Accepts (s : FormatSet) : Prop where
  known : s.Known
  nonempty : s.toList ≠ []

theorem FormatSet.made_of_ofJson? {j : Json} {s : FormatSet} (h : ofJson? j = some s) : s.Made := by
  obtain ⟨l, -, rfl⟩ := Option.map_eq_some_iff.mp h
  exact .ofList l

theorem LoaderConfig.made_of_ofJson? {j : Json} {c : LoaderConfig} (h : ofJson? j = some c) :
    c.acceptedFormats.Made := by
  simp only [ofJson?, Option.bind_eq_bind, Option.bind_eq_some_iff] at h
  obtain ⟨fields, -, h⟩ := h
  split at h
  next selector accepted applied timeout texture limits =>
    simp only [Option.bind_eq_some_iff] at h
    obtain ⟨_, -, s, hs, _, -, _, -, _, -, _, -, hc⟩ := h
    cases hc
    cases accepted with
    | none => cases hs
    | some j => exact FormatSet.made_of_ofJson? hs
  · cases h

variable {σ : Type}

/-! ## Configurations -/

namespace Config

variable {c : Config}

theorem isEmpty_of_validate (h : c.validate = .ok ()) : c.loader.acceptedFormats.isEmpty = false := by
  unfold validate at h
  by_cases hempty : c.loader.acceptedFormats.isEmpty = true
  · rw [if_pos hempty] at h
    repeat' split at h
    all_goals cases h
  · exact Bool.eq_false_iff.mpr hempty

/-- **A valid configuration accepts a format.** -/
theorem accepts_of_validate (h : c.validate = .ok ()) (made : c.loader.acceptedFormats.Made) :
    c.loader.acceptedFormats.Accepts := by
  refine ⟨made.known, fun hnil => ?_⟩
  rw [made.known.toList_eq_nil_iff, isEmpty_of_validate h] at hnil
  cases hnil

theorem made_of_ofJson? {j : Json} (h : ofJson? j = some c) : c.loader.acceptedFormats.Made := by
  simp only [ofJson?, Option.bind_eq_bind, Option.bind_eq_some_iff] at h
  obtain ⟨fields, -, h⟩ := h
  split at h
  next loader logging environment =>
    simp only [Option.bind_eq_some_iff] at h
    obtain ⟨l, hl, _, -, _, -, hc⟩ := h
    cases hc
    cases loader with
    | none => cases hl
    | some j => exact LoaderConfig.made_of_ofJson? hl
  · cases h

end Config

/-! ## Arguments -/

namespace Inspection

/-- **The arguments leave a format to choose.** -/
theorem accepts_configure (a : Arguments) {l : Loader} (h : l.accepted.Accepts) :
    (configure a l).accepted.Accepts := by
  unfold configure
  cases hl : a.accept with
  | nil => exact h
  | cons f rest =>
    refine ⟨FormatSet.known_ofList _, fun hnil => ?_⟩
    have hmem : f ∈ (FormatSet.ofList (f :: rest)).toList :=
      List.mem_filter.mpr ⟨MemoryFormat.mem_all f, FormatSet.contains_ofList_iff.mpr List.mem_cons_self⟩
    rw [show FormatSet.toList (.ofList (f :: rest)) = [] from hnil] at hmem
    cases hmem

/-! ## Inspections -/

variable {S : Services σ} {ask : Ask σ}

/-- A way to ask that does not blame the want of a format. -/
def Ask.Choosable (ask : Ask σ) : Prop :=
  ∀ img w, img.Choosable → ImageLoader.Choosable (ask img w).1 ∧ (ask img w).2.1.Choosable

theorem record_choosable (done : List FrameReport) {o : Loaded Frame} (h : ImageLoader.Choosable o) :
    ImageLoader.Choosable (record done o) := by
  unfold record
  split
  · exact .ok _
  · split
    · exact .error rfl
    · exact .ok _
  next stop _ => exact .error (h stop rfl)

theorem collectRest_choosable (hask : Ask.Choosable ask) (n : Nat) (done : List FrameReport) {img : Image}
    (himg : img.Choosable) (w : World σ) : ImageLoader.Choosable (collectRest ask n done img w).1 := by
  induction n generalizing done img w with
  | zero => exact .ok done
  | succ n ih =>
    obtain ⟨ho, himg'⟩ := hask img w himg
    have hrecord := record_choosable done ho
    unfold collectRest
    simp only
    split
    next stop hstop => exact .error (hrecord stop hstop)
    next done' more _ =>
      cases more with
      | false => exact .ok done'
      | true => exact ih done' himg' _

theorem collect_choosable (hask : Ask.Choosable ask) (allFrames : Bool) {img : Image} (himg : img.Choosable)
    (w : World σ) : ImageLoader.Choosable (collect ask allFrames img w).1 := by
  obtain ⟨ho, himg'⟩ := hask img w himg
  have hrecord := record_choosable [] ho
  unfold collect
  simp only
  split
  next stop hstop => exact .error (hrecord stop hstop)
  next done more _ =>
    split
    · exact collectRest_choosable hask _ done himg' _
    · exact .ok done

theorem finish_choosable (hask : Ask.Choosable ask) (path : String) (allFrames : Bool)
    {loaded : Loaded Image × World σ} (hload : ImageLoader.Choosable loaded.1)
    (himg : ∀ img, loaded.1 = .ok img → img.Choosable) :
    ImageLoader.Choosable (finish path allFrames ask loaded).1 := by
  obtain ⟨stop | img, w⟩ := loaded
  · exact .error (hload stop rfl)
  · exact (collect_choosable hask allFrames (himg img rfl) w).map

theorem contain_choosable {α : Type} {o : Loaded α} (h : ImageLoader.Choosable o) :
    ImageLoader.Choosable (contain o) := by
  rcases o with (e | p) | a
  · exact h
  · exact .error rfl
  · exact h

theorem within_source (files : FileReader) (feed : Feed) (path : String) :
    Within LoadError.HasFormat (source files feed path) := by
  unfold source
  cases feed with
  | path => exact .ok _
  | stream =>
    rcases files path with fault | b
    · simp only
      split
      · exact .ok _
      · exact .error rfl
    · exact .ok _
  | bytes =>
    rcases files path with fault | b
    · exact .error rfl
    · exact .ok _

theorem runLoader_choosable (hS : S.Choosable) (a : Arguments) (path : String) (t : Token) {l : Loader}
    (hl : l.accepted.toList ≠ []) (w : World σ) : ImageLoader.Choosable (runLoader S a path t l w).1 := by
  have hfinish : ∀ way, ImageLoader.Choosable (finish path a.allFrames
      (fun img w => Image.nextBy S a.request way (img, w)) (l.loadBy S way w)).1 := fun way =>
    finish_choosable (fun img w himg => Image.nextBy_choosable hS himg a.request way w) path a.allFrames
      (l.loadBy_choosable hS way w) fun img h => (Loader.choosable_of_loadBy hl h).1
  unfold runLoader
  split
  · exact hfinish (.awaited (some t))
  · split
    · exact .error rfl
    · exact contain_choosable (hfinish .onSpot)

/-- **The report on the image that a path names.** -/
theorem run_choosable (hS : S.Choosable) (h : S.settings.acceptedFormats.Accepts) (a : Arguments)
    (path : String) (t : Token) (w : World σ) : ImageLoader.Choosable (run S a path t w).1 := by
  have hopened := within_source S.files a.feed path
  unfold run
  cases hsource : source S.files a.feed path with
  | error e => exact .error (hopened e hsource)
  | ok s =>
    exact runLoader_choosable hS a path t (accepts_configure a (l := Loader.ofSource S.settings s) h).nonempty w

end Inspection

/-! ## What is promised -/

/-- A frame was refused for want of a format. -/
def Unaccepted {α : Type} (o : Loaded α) : Prop := ∃ native, o = .error (.error (.frame (.noAcceptedFormat native)))

theorem not_unaccepted {α : Type} {o : Loaded α} (h : Choosable o) : ¬Unaccepted o := by
  rintro ⟨native, ho⟩
  exact LoadError.not_hasFormat native (h _ ho)

/-- What is promised of a loader whose formats can be chosen. -/
structure Loader.Accepting (S : Services σ) (l : Loader) : Prop where
  load : ∀ way w, ¬Unaccepted (l.loadBy S way w).1
  firstFrame : ∀ t w, ¬Unaccepted (l.awaitFirstFrame S t w).1
  /-- Frames are finished for a selection that has a member and no unknown bits, however often they were asked for. -/
  finishing : ∀ way w img, (l.loadBy S way w).1 = .ok img → ∀ calls v request,
    ((Image.serve S calls (img, v)).2.1.finishTarget S request).accepted.Accepts
  calls : ∀ way w img, (l.loadBy S way w).1 = .ok img → ∀ calls v,
    ∀ a ∈ (Image.serve S calls (img, v)).1, ∀ o, a.2 = some o → ¬Unaccepted o
  next : ∀ way w img, (l.loadBy S way w).1 = .ok img → ∀ calls v request way',
    ¬Unaccepted (Image.nextBy S request way' (Image.serve S calls (img, v)).2).1
  inspection : ∀ a path t w, ¬Unaccepted (Inspection.runLoader S a path t l w).1

theorem Loader.accepting {S : Services σ} (hS : S.Choosable) {l : Loader} (hl : l.accepted.Accepts) :
    l.Accepting S where
  load way w := not_unaccepted (l.loadBy_choosable hS way w)
  firstFrame t w := not_unaccepted (l.awaitFirstFrame_choosable hS hl.nonempty t w)
  finishing way w img h calls v request := by
    obtain ⟨-, himg⟩ := choosable_of_loadBy hl.nonempty h
    obtain ⟨q, hq, -⟩ := Image.serve_ledger S calls img v
    rw [hq]
    show img.accepted.Accepts
    rw [himg]
    exact hl
  calls way w img h calls v a ha o ho := by
    obtain ⟨himg, -⟩ := choosable_of_loadBy hl.nonempty h
    exact not_unaccepted ((Image.serve_choosable hS himg calls v).1 a ha o ho)
  next way w img h calls v request way' := by
    obtain ⟨himg, -⟩ := choosable_of_loadBy hl.nonempty h
    have hserved := (Image.serve_choosable hS himg calls v).2
    exact not_unaccepted (Image.nextBy_choosable hS hserved request way' _).1
  inspection a path t w := not_unaccepted (Inspection.runLoader_choosable hS a path t hl.nonempty w)

/-- **Under a valid configuration no frame is refused for want of a format**, whatever the image, the arguments, the
request and the way of asking. -/
theorem Config.accepting_of_validate (c : Config) (valid : c.validate = .ok ())
    (made : c.loader.acceptedFormats.Made) (a : Arguments) (K : Codecs) (files : FileReader)
    (insideFlatpak : World σ → Bool × World σ) (plan : TaskKind → World σ → TaskPlan × World σ) :
    (∀ source, (Inspection.configure a (.ofSource c.loader.settings source)).Accepting
        (.ofCodecs K c.loader.settings files insideFlatpak plan)) ∧
      ∀ path t w,
        ¬Unaccepted (Inspection.run (.ofCodecs K c.loader.settings files insideFlatpak plan) a path t w).1 := by
  have hS := Services.choosable_ofCodecs K c.loader.settings files insideFlatpak plan
  have haccepts := accepts_of_validate valid made
  refine ⟨fun source => ?_, fun path t w => ?_⟩
  · exact Loader.accepting hS (Inspection.accepts_configure a (l := .ofSource c.loader.settings source) haccepts)
  · exact not_unaccepted (Inspection.run_choosable hS haccepts a path t w)

/-- A gray pixel, inspected where colour alone is accepted. -/
theorem Config.accepting_gray :
    let files : FileReader := fun _ => .ok ("P5 1 1 255\n".toUTF8.push 7)
    let c : Config := { Config.default with loader.acceptedFormats := .of .r16g16b16 }
    let S : Services Unit := .ofCodecs .builtin c.loader.settings files (fun w => (false, w)) fun _ w => ({}, w)
    c.validate = .ok () ∧ c.loader.acceptedFormats.Made ∧
      ¬Unaccepted (Inspection.run S { accept := [.r8g8b8] } "gray.pgm" ⟨0⟩ { state := () }).1 := by
  intro files c S
  have valid : c.validate = .ok () := toOption_eq_some_iff.mp (by decide +kernel)
  have made : c.loader.acceptedFormats.Made := .of .r16g16b16
  exact ⟨valid, made,
    (Config.accepting_of_validate c valid made { accept := [.r8g8b8] } .builtin files _ _).2 _ _ _⟩

/-! ## The program -/

namespace Config

theorem within_validate (c : Config) : Within LoadError.HasFormat c.validate := by
  unfold validate
  repeat' split
  all_goals first
    | exact .ok ()
    | exact .error rfl

theorem within_layer (read : FileReader) (parse? : List Char → Option Json) (path : String) :
    Within LoadError.HasFormat (layer? read parse? path) := by
  unfold layer?
  repeat' split
  all_goals first
    | exact .ok _
    | exact .error rfl

theorem within_load (read : FileReader) (directory : String) (environment : List (String × String)) :
    Within LoadError.HasFormat (load read directory environment) := by
  unfold load
  refine (within_layer read _ _).bind fun toml _ => ?_
  refine (within_layer read _ _).bind fun json _ => ?_
  split
  · exact .error rfl
  next c _ => exact c.within_validate.bind fun _ _ => .ok c

/-- A configuration that was loaded is valid, and its sets are made of what the layers name. -/
theorem accepts_of_load {read : FileReader} {directory : String} {environment : List (String × String)}
    {c : Config} (h : load read directory environment = .ok c) : c.loader.acceptedFormats.Accepts := by
  simp only [load, bind_eq_ok_iff] at h
  obtain ⟨toml, -, json, -, h⟩ := h
  split at h
  · cases h
  next c' hread =>
    obtain ⟨_, valid, hc⟩ := bind_eq_ok_iff.mp h
    cases hc
    exact accepts_of_validate valid (made_of_ofJson? hread)

end Config

theorem Program.hasFormat_of_inspect {c : Config} (h : c.loader.acceptedFormats.Accepts) {files : FileReader}
    {insideFlatpak : Bool} {a : Arguments} {path : String} {e : LoadError}
    (he : (inspect files insideFlatpak a c path).failure? = some e) : e.HasFormat := by
  have hS : (Services.standard c.loader.settings files insideFlatpak : Services Unit).Choosable :=
    Services.choosable_ofCodecs _ _ _ _ _
  have hrun := Inspection.run_choosable hS h a path ⟨0⟩ { state := () }
  unfold inspect at he
  simp only at he
  split at he
  · cases he
  next e' hr =>
    cases he
    exact hrun _ hr
  · cases he

/-- **The program never ends for want of a format.** -/
theorem Program.run_choosable (words : List String) (files : FileReader) (environment : List (String × String))
    (insideFlatpak : Bool) (e : LoadError) (h : (run words files environment insideFlatpak).failure? = some e) :
    e.HasFormat := by
  unfold run at h
  have hload := Config.within_load files "." (extendedEnvironment files environment)
  split at h
  · cases h
  · cases h
  · cases h
  next a _ =>
    split at h
    next e' he =>
      cases h
      exact hload e he
    next c hc =>
      split at h
      · cases h
      · split at h
        next path _ => exact hasFormat_of_inspect (Config.accepts_of_load hc) h
        · cases h

end ImageLoader
