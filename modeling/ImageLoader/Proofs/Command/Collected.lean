import ImageLoader.Proofs.Command.Collecting
import ImageLoader.Proofs.Errors
import ImageLoader.Proofs.Loader.Sources

/-!
# What an inspection collects

An image that was decoded to some frames is inspected frame by frame.  What comes of it depends on how each frame
is finished, and on nothing else: `Collected` lists the cases.  The end of the frames and a missing first frame
are told by the same error, and no finished frame gives it, so the loop never takes the one for the other.

* `FrameReport.Describes`, `ImageReport.Describes`: what a report says of a frame, and of an image.
* `Inspection.Collected`: what an inspection gives, from what the frames are finished to.
* `Inspection.ask_of_holds`: a turn of the loop takes the next frame, finished.
* `Inspection.ends_of_collected`: **the loop ends with what is to be collected**, on the spot and by polling.
* `Inspection.runLoader_collects`: **and so does an inspection, either way.**
-/

namespace ImageLoader

variable {σ : Type}

/-! ## How frames are finished -/

/-- A frame of the image, finished with the scaler of this library; panics are caught. -/
def Image.finished (S : Services σ) (request : FrameRequest) (img : Image) (f : RawFrame) : Loaded Frame :=
  Outcome.isolate true (f.finish RawFrame.scaler
    { accepted := img.accepted, request := request, maxTextureSize := S.settings.maxTextureSize.toNat })

theorem loading_ne_noMoreFrames {α : Type} (o : Outcome FrameError α) :
    o.loading ≠ .error (.error .noMoreFrames) := by
  rcases o with (e | p) | a <;> exact fun h => nomatch h

theorem RawFrame.finish_ne_noMoreFrames (f : RawFrame) (t : FinishTarget) :
    f.finish scaler t ≠ .error (.error .noMoreFrames) := by
  unfold finish
  rcases hprepare : (f.prepare t).loading with stop | g | ⟨g, width, height⟩
  · intro h
    cases h
    exact loading_ne_noMoreFrames (f.prepare t) hprepare
  · exact loading_ne_noMoreFrames (g.deliver t)
  · show (scaler g width height >>= fun g => (g.conclude t).loading) ≠ _
    rcases hscale : scaler g width height with stop | g'
    · intro h
      cases h
      exact loading_ne_noMoreFrames (g.scaled width height) hscale
    · exact loading_ne_noMoreFrames (g'.conclude t)

theorem Image.finished_ne_noMoreFrames (S : Services σ) (request : FrameRequest) (img : Image) (f : RawFrame) :
    img.finished S request f ≠ .error (.error .noMoreFrames) := by
  unfold finished
  intro h
  have hne := f.finish_ne_noMoreFrames
    { accepted := img.accepted, request := request, maxTextureSize := S.settings.maxTextureSize.toNat }
  generalize f.finish RawFrame.scaler _ = o at h hne
  rcases o with (e | p) | g
  · exact hne h
  · cases h
  · cases h

namespace FrameQueue

variable {finished : RawFrame → Loaded Frame} {g : RawFrame} (rest : List RawFrame)

theorem take_nothing (finished : RawFrame → Loaded Frame) :
    (decoded []).take finished = (.error (.error .noMoreFrames), .decoded []) := rfl

theorem take_finished {f : Frame} (hg : finished g = .ok f) :
    (decoded (g :: rest)).take finished = (.ok f, .decoded rest) := by
  rw [take_of_ok rfl, hg]
  rfl

theorem take_unfinished {stop : Stop LoadError} (hg : finished g = .error stop) :
    (decoded (g :: rest)).take finished = (.error stop, .decoded (g :: rest)) := by
  rw [take_of_ok rfl, hg]
  rfl

end FrameQueue

/-! ## What reports say -/

/-- The report is on frame number `i`: it gives the number, the geometry of the frame, its details, and its delay in
whole milliseconds if there is one that fits 64 bits. -/
structure FrameReport.Describes (r : FrameReport) (i : Nat) (f : Frame) : Prop where
  index : r.index = i
  width : r.width = f.width
  height : r.height = f.height
  stride : r.stride = f.stride
  format : r.format = f.format
  delay : ∀ n, r.delay = some n ↔ ∃ d ∈ f.delay,
    n = d.seconds.toNat * 1000 + d.nanoseconds.toNat / 1000000 ∧ n < 18446744073709551616
  details : r.details = f.details

theorem FrameReport.describes_of (i : Nat) (f : Frame) : (of i f).Describes i f where
  index := rfl
  width := rfl
  height := rfl
  stride := rfl
  format := rfl
  delay n := by
    simp only [of, Option.filter_eq_some_iff, Option.map_eq_some_iff, decide_eq_true_eq, Option.mem_def]
    constructor
    · rintro ⟨⟨d, hd, rfl⟩, hlt⟩
      exact ⟨d, hd, rfl, hlt⟩
    · rintro ⟨d, hd, rfl, hlt⟩
      exact ⟨⟨d, hd, rfl⟩, hlt⟩
  details := rfl

/-- There is one report on a frame. -/
theorem FrameReport.Describes.eq_of {r : FrameReport} {i : Nat} {f : Frame} (h : r.Describes i f) : r = .of i f := by
  have hof := describes_of i f
  have hdelay : r.delay = (of i f).delay := Option.ext fun n => (h.delay n).trans (hof.delay n).symm
  cases r
  simp only [of, mk.injEq] at hdelay ⊢
  exact ⟨h.index, h.width, h.height, h.stride, h.format, hdelay, h.details⟩

/-- The report is on the image that a path names: it gives the path, what the image is, and what it was decoded under,
and lists these reports on its frames. -/
structure ImageReport.Describes (r : ImageReport) (path : String) (img : Image) (frames : List FrameReport) :
    Prop where
  source : r.source = path
  mimeType : r.mimeType = img.mimeType
  info : r.info = img.info
  mechanism : r.mechanism = img.options.policy.mechanism
  frames : r.frames = frames

namespace Inspection

/-! ## What is collected -/

/-- What inspecting an image gives whose frames are finished to these outcomes. -/
inductive Collected : Bool → List (Loaded Frame) → Loaded (List FrameReport) → Prop
  | none {allFrames : Bool} : Collected allFrames [] (.error (.error .noMoreFrames))
  /-- The first frame is enough, whatever the others are. -/
  | first {f : Frame} {r : FrameReport} (rest : List (Loaded Frame)) : r.Describes 0 f →
      Collected false (.ok f :: rest) (.ok [r])
  /-- All frames are finished, and there is a report on each in its place. -/
  | all {fs : List Frame} {reports : List FrameReport} : fs ≠ [] → reports.length = fs.length →
      (∀ (i : Nat) f, fs[i]? = some f → ∃ r, reports[i]? = some r ∧ r.Describes i f) →
        Collected true (fs.map .ok) (.ok reports)
  | firstFailed (stop : Stop LoadError) (rest : List (Loaded Frame)) :
      Collected false (.error stop :: rest) (.error stop)
  /-- A frame is not finished, and all before it are. -/
  | failed (fs : List Frame) (stop : Stop LoadError) (rest : List (Loaded Frame)) :
      Collected true (fs.map .ok ++ .error stop :: rest) (.error stop)

theorem outcomes_cases {α : Type} (outcomes : List (Loaded α)) :
    (∃ as : List α, outcomes = as.map .ok) ∨
      ∃ (as : List α) (stop : Stop LoadError) (rest : List (Loaded α)),
        outcomes = as.map .ok ++ .error stop :: rest := by
  induction outcomes with
  | nil => exact .inl ⟨[], rfl⟩
  | cons o outcomes ih =>
    cases o with
    | error stop => exact .inr ⟨[], stop, outcomes, rfl⟩
    | ok a =>
      rcases ih with ⟨as, rfl⟩ | ⟨as, stop, rest, rfl⟩
      · exact .inl ⟨a :: as, rfl⟩
      · exact .inr ⟨a :: as, stop, rest, rfl⟩

theorem Collected.all_of {fs : List Frame} (hne : fs ≠ []) :
    Collected true (fs.map .ok) (.ok (fs.mapIdx FrameReport.of)) := by
  refine .all hne List.length_mapIdx fun i f hf => ⟨.of i f, ?_, FrameReport.describes_of i f⟩
  rw [List.getElem?_mapIdx, hf, Option.map_some]

/-- The reports on all frames are the reports on each. -/
theorem eq_mapIdx {fs : List Frame} {reports : List FrameReport} (hlength : reports.length = fs.length)
    (h : ∀ (i : Nat) f, fs[i]? = some f → ∃ r, reports[i]? = some r ∧ r.Describes i f) :
    reports = fs.mapIdx FrameReport.of := by
  refine List.ext_getElem? fun i => ?_
  rw [List.getElem?_mapIdx]
  cases hf : fs[i]? with
  | none =>
    rw [List.getElem?_eq_none_iff] at hf
    exact List.getElem?_eq_none (hlength ▸ hf)
  | some f =>
    obtain ⟨r, hr, hdescribes⟩ := h i f hf
    rw [hr, hdescribes.eq_of, Option.map_some]

theorem exists_collected (allFrames : Bool) (outcomes : List (Loaded Frame)) :
    ∃ r, Collected allFrames outcomes r := by
  cases outcomes with
  | nil => exact ⟨_, .none⟩
  | cons o outcomes =>
    cases allFrames with
    | false =>
      cases o with
      | ok f => exact ⟨_, .first outcomes (FrameReport.describes_of 0 f)⟩
      | error stop => exact ⟨_, .firstFailed stop outcomes⟩
    | true =>
      rcases outcomes_cases (o :: outcomes) with ⟨fs, hfs⟩ | ⟨fs, stop, rest, hfs⟩
      · rw [hfs]
        refine ⟨_, .all_of fun h => ?_⟩
        rw [h] at hfs
        cases hfs
      · rw [hfs]
        exact ⟨_, .failed fs stop rest⟩

theorem Collected.ne_panic {allFrames : Bool} {outcomes : List (Loaded Frame)} {r : Loaded (List FrameReport)}
    (h : Collected allFrames outcomes r) (hpanic : ∀ o ∈ outcomes, ∀ p, o ≠ .error (.panic p)) (p : Panic) :
    r ≠ .error (.panic p) := by
  cases h with
  | none => exact fun h => nomatch h
  | first => exact fun h => nomatch h
  | all => exact fun h => nomatch h
  | firstFailed stop rest =>
    intro hr
    cases hr
    exact hpanic _ List.mem_cons_self p rfl
  | failed fs stop rest =>
    intro hr
    cases hr
    exact hpanic _ (List.mem_append_right _ List.mem_cons_self) p rfl

/-! ## One turn -/

/-- The queue of an image that is decoded to these frames, before its first call or after. -/
inductive Holds (S : Services σ) (img : Image) (frames : List RawFrame) : FrameQueue → Prop
  | undecoded {v : World σ} : (img.decodeJob S v).1 = .ok frames → Holds S img frames .undecoded
  | decoded : Holds S img frames (.decoded frames)

/-- From this queue of the image on the loop ends with `r`, and leaves of the image all but the queue. -/
def Ends (S : Services σ) (request : FrameRequest) (way : Way) (allFrames : Bool) (done : List FrameReport)
    (img : Image) (q : FrameQueue) (w : World σ) (r : Loaded (List FrameReport)) : Prop :=
  ∃ q' v, Loop (askBy S request way) allFrames done (img.withQueue q) w (r, img.withQueue q', v)

variable {S : Services σ} {request : FrameRequest} {way : Way} {img : Image} {frames rest : List RawFrame}
  {g : RawFrame} {q : FrameQueue} {w : World σ} {done : List FrameReport} {allFrames : Bool}

section

variable (det : S.Deterministic) (pool : S.Completes true)
  (scale : ∀ f width height v, (S.scale f width height v).1 = RawFrame.scaler f width height)

include det scale

/-- What a call on the image gives outright is its next frame, finished. -/
theorem outright_of_holds (hq : Holds S img frames q) (v : World σ) :
    (img.withQueue q).outright S true request v = (FrameQueue.decoded frames).take (img.finished S request) := by
  have hfinish : (fun f => Outcome.isolate true (img.finishJob S request f v).1) = img.finished S request := by
    funext f
    exact congrArg (Outcome.isolate true) (S.finish_fst scale f (img.finishTarget S request) v)
  unfold Image.outright
  simp only [Image.queue_withQueue, Image.decodeJob_withQueue, Image.finishJob_withQueue, hfinish]
  cases hq with
  | @undecoded u hu =>
    rw [Image.fixed_decodeJob det img v u, hu]
    rfl
  | decoded => rfl

variable (isolates : img.options.policy.isolatePanics = true) (quiet : Undisturbed S way w)

include pool isolates quiet

/-- **A call that nothing disturbs gives the next frame, finished**, and disturbs nothing that comes after it. -/
theorem ask_of_holds (hq : Holds S img frames q) {o : Loaded Frame} {q' : FrameQueue}
    (htake : (FrameQueue.decoded frames).take (img.finished S request) = (o, q')) :
    ∃ v, askBy S request way (img.withQueue q) w = (o, img.withQueue q', v) ∧ Undisturbed S way v := by
  obtain ⟨ho, himg⟩ := Image.nextBy_outright det pool quiet request (img.withQueue q) w
  rw [Image.options_withQueue, Way.catches_isolating isolates, outright_of_holds det scale hq, htake] at ho himg
  obtain ⟨hs, hc⟩ := quiet
  refine ⟨_, Prod.ext ho (Prod.ext himg rfl), hs, fun t ht => ?_⟩
  exact (Image.sparing_nextBy (hs t ht) request way (img.withQueue q, w) (hc t ht)).1

theorem ends_none (hq : Holds S img [] q) (hdone : done ≠ []) :
    Ends S request way allFrames done img q w (.ok done) := by
  have htake := FrameQueue.take_nothing (img.finished S request)
  obtain ⟨v, hask, -⟩ := ask_of_holds det pool scale isolates quiet hq htake
  exact ⟨_, v, .ended hask (record_exhausted hdone) rfl⟩

theorem ends_next (hq : Holds S img (g :: rest) q) {f : Frame} (hg : img.finished S request g = .ok f)
    {r : Loaded (List FrameReport)}
    (hrest : ∀ v, Undisturbed S way v →
      Ends S request way true (done ++ [.of done.length f]) img (.decoded rest) v r) :
    Ends S request way true done img q w r := by
  obtain ⟨v, hask, hquiet⟩ := ask_of_holds det pool scale isolates quiet hq (FrameQueue.take_finished rest hg)
  obtain ⟨q', v', hloop⟩ := hrest v hquiet
  exact ⟨q', v', .again hask (record_ok done f) rfl hloop⟩

theorem ends_stopped (hq : Holds S img (g :: rest) q) {stop : Stop LoadError}
    (hg : img.finished S request g = .error stop) :
    Ends S request way allFrames done img q w (.error stop) := by
  -- else the loop would take the failure for the end of the frames
  have hstop : stop ≠ .error .noMoreFrames := by
    rintro rfl
    exact img.finished_ne_noMoreFrames S request g hg
  obtain ⟨v, hask, -⟩ := ask_of_holds det pool scale isolates quiet hq (FrameQueue.take_unfinished rest hg)
  exact ⟨_, v, .stopped hask (record_error hstop)⟩

end

/-! ## All turns -/

section

variable (det : S.Deterministic) (pool : S.Completes true)
  (scale : ∀ f width height v, (S.scale f width height v).1 = RawFrame.scaler f width height)
  (isolates : img.options.policy.isolatePanics = true)

include det pool scale isolates

theorem ends_all (quiet : Undisturbed S way w) (hq : Holds S img frames q) {fs : List Frame}
    (hfs : frames.map (img.finished S request) = fs.map .ok) (done : List FrameReport)
    (hne : done ≠ [] ∨ fs ≠ []) :
    Ends S request way true done img q w (.ok (done ++ fs.mapIdx fun i f => .of (done.length + i) f)) := by
  -- only the first turn can meet an image that is not decoded; the turns behind it begin at the queue of the rest
  induction fs generalizing frames q w done with
  | nil =>
    obtain rfl := List.map_eq_nil_iff.mp hfs
    rw [List.mapIdx_nil, List.append_nil]
    exact ends_none det pool scale isolates quiet hq (hne.resolve_right fun h => h rfl)
  | cons f fs ih =>
    obtain ⟨g, rest, rfl, hg, hrest⟩ := List.map_eq_cons_iff.mp hfs
    refine ends_next det pool scale isolates quiet hq hg fun v hquiet => ?_
    have h := ih hquiet .decoded hrest (done ++ [.of done.length f])
      (.inl (List.append_ne_nil_of_right_ne_nil _ (List.cons_ne_nil _ _)))
    simpa only [List.mapIdx_cons, List.length_append, List.length_singleton, List.append_assoc,
      List.singleton_append, Nat.add_assoc, Nat.add_comm 1, Nat.add_zero] using h

theorem ends_failed (quiet : Undisturbed S way w) (hq : Holds S img frames q) {fs : List Frame}
    {stop : Stop LoadError} {outcomes : List (Loaded Frame)}
    (hfs : frames.map (img.finished S request) = fs.map .ok ++ .error stop :: outcomes) :
    Ends S request way true done img q w (.error stop) := by
  induction fs generalizing frames q w done with
  | nil =>
    obtain ⟨g, rest, rfl, hg, -⟩ := List.map_eq_cons_iff.mp hfs
    exact ends_stopped det pool scale isolates quiet hq hg
  | cons f fs ih =>
    obtain ⟨g, rest, rfl, hg, hrest⟩ := List.map_eq_cons_iff.mp hfs
    exact ends_next det pool scale isolates quiet hq hg fun v hquiet => ih hquiet .decoded hrest

/-- **The loop ends with what is to be collected.** -/
theorem ends_of_collected (quiet : Undisturbed S way w) (hq : Holds S img frames q)
    {r : Loaded (List FrameReport)} (h : Collected allFrames (frames.map (img.finished S request)) r) :
    Ends S request way allFrames [] img q w r := by
  generalize houtcomes : frames.map (img.finished S request) = outcomes at h
  cases h with
  | none =>
    obtain rfl := List.map_eq_nil_iff.mp houtcomes
    have htake := FrameQueue.take_nothing (img.finished S request)
    obtain ⟨v, hask, -⟩ := ask_of_holds det pool scale isolates quiet hq htake
    exact ⟨_, v, .stopped hask rfl⟩
  | @first f _ outcomes hdescribes =>
    obtain ⟨g, rest, rfl, hg, -⟩ := List.map_eq_cons_iff.mp houtcomes
    rw [hdescribes.eq_of]
    obtain ⟨v, hask, -⟩ := ask_of_holds det pool scale isolates quiet hq (FrameQueue.take_finished rest hg)
    exact ⟨_, v, .ended hask (record_ok [] f) rfl⟩
  | @all fs reports hne hlength hreports =>
    rw [eq_mapIdx hlength hreports]
    have h := ends_all det pool scale isolates quiet hq houtcomes [] (.inr hne)
    simpa only [List.nil_append, List.length_nil, Nat.zero_add] using h
  | firstFailed stop outcomes =>
    obtain ⟨g, rest, rfl, hg, -⟩ := List.map_eq_cons_iff.mp houtcomes
    exact ends_stopped det pool scale isolates quiet hq hg
  | failed fs stop outcomes => exact ends_failed det pool scale isolates quiet hq houtcomes

end

/-! ## The whole inspection -/

def waiting (t : Token) : Bool → Way
  | true => .awaited (some t)
  | false => .onSpot

theorem undisturbed_onSpot (S : Services σ) (w : World σ) : Undisturbed S .onSpot w := ⟨nofun, nofun⟩

theorem undisturbed_waiting {t : Token} (spares : S.Spares t) (calm : w.tokens.Calm t) (asynchronous : Bool) :
    Undisturbed S (waiting t asynchronous) w := by
  cases asynchronous with
  | true =>
    refine ⟨fun u hu => ?_, fun u hu => ?_⟩
    · cases hu
      exact spares
    · cases hu
      exact calm
  | false => exact undisturbed_onSpot S w

variable {l : Loader}

theorem queue_of_load (loaded : (l.load S w).1 = .ok img) : img.queue = .undecoded := by
  have hspot : (l.loadBy S .onSpot w).1 = .ok img := loaded
  obtain ⟨u, v, r, -, rfl⟩ := Loader.loadBy_eq_ok hspot
  rfl

theorem isolates_of_sandboxed (resolved : (l.options S w).1 = img.options)
    (sandboxed : img.mechanism.isSandboxed = true) : img.options.policy.isolatePanics = true := by
  rw [Image.mechanism, ← resolved] at sandboxed
  rw [← resolved]
  exact (DecodePolicy.isolatePanics_resolve _ _ _).trans sandboxed

/-- An image that is loaded on the spot is loaded either way, and what is undisturbed stays so. -/
theorem loadBy_of_load (det : S.Deterministic) (pool : S.Completes true)
    (isolates : img.options.policy.isolatePanics = true) (resolved : ∀ v, (l.options S v).1 = img.options)
    (loaded : (l.load S w).1 = .ok img) (quiet : Undisturbed S way w) :
    (l.loadBy S way w).1 = .ok img ∧ Undisturbed S way (l.loadBy S way w).2 := by
  have hspot := Loader.loadBy_outright det pool resolved (undisturbed_onSpot S w) w
  have hway := Loader.loadBy_outright det pool resolved quiet w
  rw [Way.catches_isolating isolates] at hspot hway
  obtain ⟨hs, hc⟩ := quiet
  refine ⟨hway.trans (hspot.symm.trans loaded), hs, fun u hu => ?_⟩
  exact (Loader.sparing_loadBy (hs u hu) l way w (hc u hu)).1

/-- An inspection reports on the image what the loop over its frames ends with. -/
theorem finish_of_ends {path : String} {loaded : Loaded Image × World σ} (hload : loaded.1 = .ok img)
    {r : Loaded (List FrameReport)} (h : Ends S request way allFrames [] img img.queue loaded.2 r) :
    (finish path allFrames (askBy S request way) loaded).1 = r.map (report path img) := by
  obtain ⟨o, v⟩ := loaded
  obtain rfl : o = .ok img := hload
  obtain ⟨q, v', hloop⟩ := h
  have hcollect := (collect_loop S request way allFrames img v).unique hloop
  unfold finish
  simp only [hcollect]
  rfl

/-- An inspection under a token that is not raised ends as it finishes, unless that is by a panic. -/
theorem runLoader_of_finish {a : Arguments} {path : String} {t : Token} (raised : w.tokens.isCanceled t = false)
    {asynchronous : Bool} {o : Loaded ImageReport} (ho : ∀ p, o ≠ .error (.panic p))
    (h : (finish path a.allFrames (askBy S a.request (waiting t asynchronous))
      (l.loadBy S (waiting t asynchronous) w)).1 = o) :
    (runLoader S { a with asynchronous := asynchronous } path t l w).1 = o := by
  cases asynchronous with
  | true => exact h
  | false =>
    have hcontain : contain o = o := by
      rcases o with (e | p) | report
      · rfl
      · exact absurd rfl (ho p)
      · rfl
    unfold runLoader
    simp only [Bool.false_eq_true, if_false, raised]
    exact (congrArg contain h).trans hcontain

/-- An inspection answers with a report on the image that lists what was collected, or with the error. -/
inductive Answers (path : String) (img : Image) : Loaded (List FrameReport) → Loaded ImageReport → Prop
  | ok {reports : List FrameReport} {r : ImageReport} : r.Describes path img reports →
      Answers path img (.ok reports) (.ok r)
  | error (stop : Stop LoadError) : Answers path img (.error stop) (.error stop)

theorem answers_map (path : String) (img : Image) (r : Loaded (List FrameReport)) :
    Answers path img r (r.map (report path img)) := by
  cases r with
  | ok reports => exact .ok ⟨rfl, rfl, rfl, rfl, rfl⟩
  | error stop => exact .error stop

/-- With nothing that disturbs it and under a sandbox, an inspection ends with what is to be collected. -/
theorem runLoader_of_collected (det : S.Deterministic) (pool : S.Completes true)
    (scale : ∀ f width height v, (S.scale f width height v).1 = RawFrame.scaler f width height)
    (a : Arguments) (path : String) {t : Token} {l : Loader} {w : World σ}
    (spares : S.Spares t) (calm : w.tokens.Calm t)
    (loaded : (l.load S w).1 = .ok img) (resolved : ∀ v, (l.options S v).1 = img.options)
    (sandboxed : img.mechanism.isSandboxed = true) (decoded : (img.decodeJob S w).1 = .ok frames)
    {r : Loaded (List FrameReport)} (hr : Collected a.allFrames (frames.map (img.finished S a.request)) r)
    (asynchronous : Bool) :
    (l.loadBy S (waiting t asynchronous) w).1 = .ok img ∧
      Ends S a.request (waiting t asynchronous) a.allFrames [] img img.queue
        (l.loadBy S (waiting t asynchronous) w).2 r ∧
      (runLoader S { a with asynchronous := asynchronous } path t l w).1 = r.map (report path img) := by
  have isolates := isolates_of_sandboxed (resolved w) sandboxed
  have quiet := undisturbed_waiting spares calm asynchronous
  obtain ⟨hload, hquiet⟩ := loadBy_of_load det pool isolates resolved loaded quiet
  have hends : Ends S a.request (waiting t asynchronous) a.allFrames [] img img.queue
      (l.loadBy S (waiting t asynchronous) w).2 r := by
    rw [queue_of_load loaded]
    exact ends_of_collected det pool scale isolates hquiet (.undecoded decoded) hr
  have hpanic : ∀ p, r.map (report path img) ≠ .error (.panic p) := by
    intro p hp
    have hr' : ∀ p, r ≠ .error (.panic p) := hr.ne_panic fun o ho => by
      obtain ⟨f, -, rfl⟩ := List.mem_map.mp ho
      exact Outcome.isolate_ne_panic _
    cases r with
    | ok reports => cases hp
    | error stop =>
      cases hp
      exact hr' p rfl
  exact ⟨hload, hends, runLoader_of_finish calm.raised hpanic (finish_of_ends hload hends)⟩

/-- **An inspection collects the frames of the image, either way.**  With nothing that disturbs it and under a
sandbox, the loop over the frames ends, on the spot and by polling, with the one outcome that is to be collected from
the frames, and the report says so. -/
theorem runLoader_collects (det : S.Deterministic) (pool : S.Completes true)
    (scale : ∀ f width height v, (S.scale f width height v).1 = RawFrame.scaler f width height)
    (a : Arguments) (path : String) (t : Token) (l : Loader) (w : World σ)
    (spares : S.Spares t) (calm : w.tokens.Calm t)
    (loaded : (l.load S w).1 = .ok img) (resolved : ∀ v, (l.options S v).1 = img.options)
    (sandboxed : img.mechanism.isSandboxed = true) (decoded : (img.decodeJob S w).1 = .ok frames) :
    (∃ r, Collected a.allFrames (frames.map (img.finished S a.request)) r) ∧
      (∀ r, Collected a.allFrames (frames.map (img.finished S a.request)) r → ∀ asynchronous,
        (l.loadBy S (waiting t asynchronous) w).1 = .ok img ∧
          (∃ q v, Loop (askBy S a.request (waiting t asynchronous)) a.allFrames [] img
            (l.loadBy S (waiting t asynchronous) w).2 (r, img.withQueue q, v)) ∧
          Answers path img r (runLoader S { a with asynchronous := asynchronous } path t l w).1) ∧
      (runLoader S { a with asynchronous := true } path t l w).1 =
        (runLoader S { a with asynchronous := false } path t l w).1 := by
  have hrun := fun {r} (hr : Collected a.allFrames (frames.map (img.finished S a.request)) r) =>
    runLoader_of_collected det pool scale a path spares calm loaded resolved sandboxed decoded hr
  obtain ⟨r, hr⟩ := exists_collected a.allFrames (frames.map (img.finished S a.request))
  refine ⟨⟨r, hr⟩, fun r hr asynchronous => ?_, ?_⟩
  · obtain ⟨hload, hends, hanswer⟩ := hrun hr asynchronous
    rw [hanswer]
    exact ⟨hload, hends, answers_map path img r⟩
  · rw [(hrun hr true).2.2, (hrun hr false).2.2]

/-- A picture that blinks, with the services of the library: two frames, and two reports on them either way. -/
theorem runLoader_collects_blink :
    let gif : Bytes := ⟨#[
      71, 73, 70, 56, 57, 97, 1, 0, 1, 0, 128, 0, 0, 0, 0, 0, 255, 255, 255, 33, 249, 4, 0, 5, 0, 0, 0, 44, 0,
      0, 0, 0, 1, 0, 1, 0, 0, 2, 2, 68, 1, 0, 33, 249, 4, 0, 5, 0, 0, 0, 44, 0, 0, 0, 0, 1, 0, 1, 0, 0, 2, 2,
      76, 1, 0, 59]⟩
    let settings : LoaderSettings := ⟨.auto, .all, true, .ofSeconds 60, maxTextureSize, .default⟩
    let S : Services Unit := .standard settings (fun path => .error ⟨path, false⟩) false
    let l := Loader.ofSource settings (.bytes gif)
    let w : World Unit := { state := () }
    S.Deterministic ∧ S.Completes true ∧ S.Spares ⟨0⟩ ∧ w.tokens.Calm ⟨0⟩ ∧
      ∃ img frames, (l.load S w).1 = .ok img ∧ (∀ v, (l.options S v).1 = img.options) ∧
        img.mechanism.isSandboxed = true ∧ (img.decodeJob S w).1 = .ok frames ∧
        ∃ fs : List Frame, fs.length = 2 ∧ ∀ asynchronous,
          Answers "blink.gif" img (.ok (fs.mapIdx FrameReport.of))
            (runLoader S { allFrames := true, asynchronous := asynchronous } "blink.gif" ⟨0⟩ l w).1 := by
  intro gif settings S l w
  let a : Arguments := { allFrames := true }
  have hall : (l.load S w).1.toOption.any (fun img => img.options = (l.options S w).1 ∧
      img.mechanism.isSandboxed = true ∧ (img.decodeJob S w).1.toOption.any fun frames =>
        frames.length = 2 ∧ ∀ o ∈ frames.map (img.finished S a.request), o.toOption.isSome = true) = true := by
    decide +kernel
  obtain ⟨img, hload, himg⟩ := (Option.any_eq_true _ _).mp hall
  obtain ⟨hoptions, sandboxed, hdecode⟩ := of_decide_eq_true himg
  obtain ⟨frames, hframes, hfinish⟩ := (Option.any_eq_true _ _).mp hdecode
  obtain ⟨hlength, hfinished⟩ := of_decide_eq_true hfinish
  rw [toOption_eq_some_iff] at hload hframes
  have det : S.Deterministic := Services.deterministic_ofCodecs ..
  have pool : S.Completes true := Services.completes_standard settings _ false
  have spares : S.Spares ⟨0⟩ := Services.spares_standard ..
  have calm : w.tokens.Calm ⟨0⟩ := Cancellation.calm_empty _
  have resolved : ∀ v, (l.options S v).1 = img.options := fun _ => hoptions.symm
  refine ⟨det, pool, spares, calm, img, frames, hload, resolved, sandboxed, hframes, ?_⟩
  rcases outcomes_cases (frames.map (img.finished S a.request)) with ⟨fs, hfs⟩ | ⟨fs, stop, rest, hfs⟩
  · have hfslength : fs.length = 2 := by
      have h := congrArg List.length hfs
      rw [List.length_map, List.length_map] at h
      exact h.symm.trans hlength
    have hne : fs ≠ [] := fun h => by
      rw [h] at hfslength
      cases hfslength
    have h := runLoader_collects det pool (fun _ _ _ _ => rfl) a "blink.gif" ⟨0⟩ l w spares calm hload resolved
      sandboxed hframes
    have hcollected : Collected true (frames.map (img.finished S a.request)) (.ok (fs.mapIdx FrameReport.of)) := by
      rw [hfs]
      exact .all_of hne
    exact ⟨fs, hfslength, fun asynchronous => (h.2.1 _ hcollected asynchronous).2.2⟩
  · have hsome := hfinished (.error stop) (hfs ▸ List.mem_append_right _ List.mem_cons_self)
    cases hsome

end Inspection

end ImageLoader
