import ImageLoader.Proofs.Image.Outright

/-!
# The two ways agree

Loading and asking for frames can be done on the spot or by polling, and every time anew the one way or the
other.  Under a policy that catches panics and with a pool that does so too, this makes no difference to what
comes of it: a session gives what it gives outright, and that does not speak of ways.

* `Loader.loadBy_outright`: an undisturbed load gives what it gives outright.
* `Image.ask_outright`: so do any number of calls after it, whatever way each is made.
* `Loader.session_agree`: **sessions with the same requests have the same course**, and no panic gets out.
-/

namespace ImageLoader

variable {σ : Type}

theorem DecodePolicy.isolatePanics_resolve (selector : SandboxSelector) (inside : Bool)
    (settings : LoaderSettings) :
    (resolve selector inside settings).isolatePanics =
      (resolve selector inside settings).mechanism.isSandboxed := by
  unfold resolve of
  by_cases h : (selector.resolve inside).isSandboxed = true
  · rw [if_pos h]
    exact h.symm
  · rw [if_neg h]
    exact (Bool.eq_false_iff.mpr h).symm

theorem Outcome.isolate_ne_panic {α : Type} (o : Loaded α) (p : Panic) :
    isolate true o ≠ .error (.panic p) := by
  rcases o with (e | q) | a <;> exact fun h => nomatch h

theorem Outcome.map_ofExcept {α β : Type} (f : α → β) (r : Except LoadError α) :
    (ofExcept (r.map f) : Loaded β) = (ofExcept r).map f := by
  cases r <;> rfl

namespace Loader

/-! ## Loading -/

def loadBy (S : Services σ) (l : Loader) : Way → World σ → Loaded Image × World σ
  | .onSpot, w => l.load S w
  | .awaited t, w => l.awaitLoad S t w

/-- The image that reading and probing give under these options. -/
def outright (S : Services σ) (l : Loader) (options : DecodeOptions) (caught : Bool) (w : World σ) :
    Loaded Image :=
  (Outcome.isolate caught (l.readJob S options w).1).map (l.image options)

variable {S : Services σ} {l : Loader} {options : DecodeOptions} {t : Option Token} {w : World σ}
  {b : Bool}

/-- A load has ended with an image, or failed, as reading and probing may end. -/
def Reads (S : Services σ) (l : Loader) (options : DecodeOptions) (hd : Handling)
    (o : Loaded Image) : Prop :=
  ∃ r, (l.readJob S options).Ends hd r ∧ o = r.map (l.image options)

theorem Reads.eq_outright {hd : Handling} {o : Loaded Image} (h : l.Reads S options hd o)
    (steady : hd.Steady b) (det : S.Deterministic) (w : World σ) : o = l.outright S options b w := by
  obtain ⟨r, hr, rfl⟩ := h
  rw [hr.eq_isolate steady (det.readJob l options) w]
  rfl

/-- A stage of a load under these options. -/
def LoadStage.Fits (S : Services σ) (l : Loader) (options : DecodeOptions) : LoadStage → Prop
  | .idle => True
  | .reading options' task => options' = options ∧ task.Sound (l.readJob S options) (.pooled S .load)

/-- What a poll may leave of a load: a stage of it, or its end. -/
def Progress (S : Services σ) (l : Loader) (options : DecodeOptions) :
    Poll LoadStage (Except LoadError Image) → Prop
  | .pending next => next.Fits S l options
  | .ready r => l.Reads S options (.pooled S .load) (.ofExcept r)
  | .panicked p => l.Reads S options (.pooled S .load) (.error (.panic p))

theorem pollReading_progress {task : Task LoadedSource}
    (ht : task.Sound (l.readJob S options) (.pooled S .load)) (w : World σ) :
    l.Progress S options (l.pollReading S options task w).1 := by
  unfold pollReading
  rcases hp : task.poll (l.readJob S options) w with ⟨p, v⟩
  cases p with
  | pending next => exact ⟨rfl, Task.sound_of_pending ht hp⟩
  | ready r => exact ⟨_, Task.ends_of_ready ht hp, Outcome.map_ofExcept _ r⟩
  | panicked p => exact ⟨_, Task.ends_of_panicked ht hp, rfl⟩

theorem pollBare_progress {stage : LoadStage} {v : World σ} (hfit : stage.Fits S l (l.options S v).1)
    (w : World σ) : ∃ u, l.Progress S (l.options S u).1 (l.pollBare S stage w).1 := by
  cases stage with
  | idle => exact ⟨w, pollReading_progress (Task.sound_start _ _ _) _⟩
  | reading options' task =>
    obtain ⟨rfl, ht⟩ := hfit
    exact ⟨v, pollReading_progress ht w⟩

/-- A load by polling that nothing disturbs ends as reading and probing may end, under the options that it began
with. -/
theorem awaitLoad_reads (hs : ∀ u ∈ t, S.Spares u) (hc : ∀ u ∈ t, w.tokens.Calm u) :
    ∃ u, l.Reads S (l.options S u).1 (.pooled S .load) (l.awaitLoad S t w).1 := by
  have hpoll : ∀ (g : Guarded LoadStage) (v : World σ),
      (∃ u, g.op.Fits S l (l.options S u).1) ∧ g.Quiet v.tokens t →
      ∃ p wrap, (∃ u, l.Progress S (l.options S u).1 p) ∧ (l.pollLoad S g v).1 = p.mapNext wrap ∧
        ∀ op, (wrap op).op = op ∧ (wrap op).Quiet (l.pollLoad S g v).2.tokens t := by
    rintro g v ⟨⟨u, hfit⟩, hq⟩
    have hq' : g.Quiet (cancellation v) t := hq
    obtain ⟨c, wrap, hwrap, hp⟩ :=
      Guarded.poll_of_quiet hq' fun u hu => (hs u hu).pollBare l g.op
    refine ⟨_, wrap, pollBare_progress hfit (withCancellation c v), ?_, ?_⟩
    · rw [pollLoad, hp]
    · rw [pollLoad, hp]
      exact hwrap
  refine Poll.drive_of_invariant
    (fun (g : Guarded LoadStage) (v : World σ) =>
      (∃ u, g.op.Fits S l (l.options S u).1) ∧ g.Quiet v.tokens t)
    (fun o _ => ∃ u, l.Reads S (l.options S u).1 (.pooled S .load) o) ?_ ?_ ?_ _ _ ?_
  · intro g v next v' hg hp
    obtain ⟨p, wrap, ⟨u, hprogress⟩, hp', hwrap⟩ := hpoll g v hg
    rw [hp] at hp' hwrap
    cases p with
    | pending op =>
      cases hp'
      exact ⟨⟨u, (hwrap op).1.symm ▸ hprogress⟩, (hwrap op).2⟩
    | ready r => cases hp'
    | panicked q => cases hp'
  · intro g v r v' hg hp
    obtain ⟨p, wrap, hprogress, hp', -⟩ := hpoll g v hg
    rw [hp] at hp'
    cases p with
    | pending op => cases hp'
    | ready r => cases hp'; exact hprogress
    | panicked q => cases hp'
  · intro g v q v' hg hp
    obtain ⟨p, wrap, hprogress, hp', -⟩ := hpoll g v hg
    rw [hp] at hp'
    cases p with
    | pending op => cases hp'
    | ready r => cases hp'
    | panicked q => cases hp'; exact hprogress
  · refine ⟨⟨w, ?_⟩, Guarded.quiet_of hc LoadStage.idle⟩
    cases t <;> trivial

/-- **An undisturbed load gives the image that it gives outright.** -/
theorem loadBy_outright (det : S.Deterministic) (pool : S.Completes b)
    (resolved : ∀ v, (l.options S v).1 = options) {way : Way} (quiet : Undisturbed S way w)
    (v : World σ) :
    (l.loadBy S way w).1 = l.outright S options (way.catches options.policy b) v := by
  cases way with
  | onSpot =>
    have ho := resolved w
    subst ho
    have hr := DecodePolicy.ends_run (l.options S w).1.policy (l.readJob S (l.options S w).1)
      (l.options S w).2
    have hreads : l.Reads S (l.options S w).1 (.onSpot (l.options S w).1.policy) (l.load S w).1 :=
      ⟨_, hr, rfl⟩
    exact hreads.eq_outright (Handling.steady_onSpot _) det v
  | awaited t =>
    obtain ⟨hs, hc⟩ := quiet
    simp only [Way.token?] at hs hc
    obtain ⟨u, hreads⟩ := awaitLoad_reads (l := l) hs hc
    rw [resolved u] at hreads
    exact hreads.eq_outright (Handling.steady_pooled fun v => pool .load v) det v

theorem sparing_loadBy {u : Token} (hs : S.Spares u) (l : Loader) (way : Way) :
    Sparing u (l.loadBy S way) := by
  cases way with
  | onSpot => exact hs.load l
  | awaited t =>
    have hpoll : ∀ g, Sparing u (l.pollLoad S g) := fun g => Guarded.sparing_poll g (hs.pollBare l g.op)
    exact Poll.sparing_drive hpoll (Guarded.of t .idle)

end Loader

/-! ## Asking -/

/-- What is asked for, and how the caller waits for it. -/
abbrev Asked := List (FrameRequest × Way)

/-- What came of calls, one after another: the outcome of each, and the image after it. -/
abbrev Course := List (Loaded Frame × Image)

namespace Image

def ask (S : Services σ) : Asked → Polled σ → Course
  | [], _ => []
  | (request, way) :: rest, s =>
    ((nextBy S request way s).1, (nextBy S request way s).2.1) :: ask S rest (nextBy S request way s).2

def askOutright (S : Services σ) (caught : Bool) (w : World σ) : List FrameRequest → Image → Course
  | [], _ => []
  | request :: rest, img =>
    ((img.outright S caught request w).1, img.withQueue (img.outright S caught request w).2) ::
      askOutright S caught w rest (img.withQueue (img.outright S caught request w).2)

variable {S : Services σ} {img : Image} {w : World σ}

/-- **Calls that nothing disturbs have the course that they have outright**, whatever way each is made. -/
theorem ask_outright (det : S.Deterministic) (pool : S.Completes true) {asked : Asked}
    (hi : img.options.policy.isolatePanics = true)
    (quiet : ∀ a ∈ asked, Undisturbed S a.2 w) (v : World σ) :
    ask S asked (img, w) = askOutright S true v (asked.map Prod.fst) img := by
  induction asked generalizing img w with
  | nil => rfl
  | cons a rest ih =>
    obtain ⟨request, way⟩ := a
    have hway : Undisturbed S way w := quiet (request, way) List.mem_cons_self
    obtain ⟨ho, himg⟩ := nextBy_outright det pool hway request img v
    rw [Way.catches_isolating hi] at ho himg
    -- the first call spares the tokens of all others
    have hrest : ∀ a ∈ rest, Undisturbed S a.2 (nextBy S request way (img, w)).2.2 := by
      intro a ha
      obtain ⟨hs, hc⟩ := quiet a (List.mem_cons_of_mem _ ha)
      exact ⟨hs, fun t ht => (sparing_nextBy (hs t ht) request way (img, w) (hc t ht)).1⟩
    have hi' : (nextBy S request way (img, w)).2.1.options.policy.isolatePanics = true := by
      rw [himg]
      exact hi
    have hnext := ih hi' hrest
    simp only [ask, askOutright, List.map_cons]
    rw [hnext, ho, himg]

theorem outright_ne_panic (request : FrameRequest) (p : Panic) :
    (img.outright S true request w).1 ≠ .error (.panic p) := by
  have htake : ∀ q : FrameQueue, (q.take fun f =>
      Outcome.isolate true (img.finishJob S request f w).1).1 ≠ .error (.panic p) := by
    intro q
    unfold FrameQueue.take
    cases q.front with
    | error e => exact fun h => nomatch h
    | ok f => exact Outcome.isolate_ne_panic _ p
  unfold outright FrameQueue.next
  cases img.queue with
  | undecoded =>
    have hd := Outcome.isolate_ne_panic (img.decodeJob S w).1
    rcases ho : Outcome.isolate true (img.decodeJob S w).1 with (e | q) | frames
    · exact htake _
    · exact absurd ho (hd q)
    · exact htake _
  | decoded frames => exact htake _
  | failed e => exact htake _

theorem askOutright_ne_panic (requests : List FrameRequest) (img : Image) :
    ∀ a ∈ askOutright S true w requests img, ∀ p, a.1 ≠ .error (.panic p) := by
  induction requests generalizing img with
  | nil => exact fun a ha => nomatch ha
  | cons request rest ih =>
    intro a ha p
    rcases List.mem_cons.mp ha with rfl | ha
    · exact outright_ne_panic request p
    · exact ih _ a ha p

end Image

/-! ## Sessions -/

namespace Loader

/-- A load, and calls on the image if there is one: the outcome of the load, and the course of the calls. -/
def session (S : Services σ) (l : Loader) (way : Way) (asked : Asked) (w : World σ) :
    Loaded Image × Course :=
  match l.loadBy S way w with
  | (.error stop, _) => (.error stop, [])
  | (.ok img, w) => (.ok img, Image.ask S asked (img, w))

def sessionOutright (S : Services σ) (l : Loader) (options : DecodeOptions)
    (requests : List FrameRequest) (v : World σ) : Loaded Image × Course :=
  match l.outright S options true v with
  | .error stop => (.error stop, [])
  | .ok img => (.ok img, Image.askOutright S true v requests img)

variable {S : Services σ} {l : Loader} {options : DecodeOptions} {w : World σ}

theorem options_of_outright {caught : Bool} {img : Image}
    (h : l.outright S options caught w = .ok img) : img.options = options := by
  unfold outright at h
  rcases ho : Outcome.isolate caught (l.readJob S options w).1 with stop | r
  · rw [ho] at h
    cases h
  · rw [ho] at h
    cases h
    rfl

/-- A session that nothing disturbs has the course that it has outright. -/
theorem session_outright (det : S.Deterministic) (pool : S.Completes true)
    (resolved : ∀ v, (l.options S v).1 = options) (hi : options.policy.isolatePanics = true)
    {way : Way} {asked : Asked} (quiet : ∀ y ∈ way :: asked.map Prod.snd, Undisturbed S y w)
    (v : World σ) :
    l.session S way asked w = l.sessionOutright S options (asked.map Prod.fst) v := by
  have hway : Undisturbed S way w := quiet way List.mem_cons_self
  have hload := loadBy_outright det pool resolved hway v
  rw [Way.catches_isolating hi] at hload
  have hasked : ∀ a ∈ asked, Undisturbed S a.2 (l.loadBy S way w).2 := by
    intro a ha
    obtain ⟨hs, hc⟩ := quiet a.2 (List.mem_cons_of_mem _ (List.mem_map_of_mem ha))
    exact ⟨hs, fun t ht => (sparing_loadBy (hs t ht) l way w (hc t ht)).1⟩
  unfold session sessionOutright
  rcases hl : l.loadBy S way w with ⟨stop | img, w'⟩
  · rw [hl] at hload
    rw [← hload]
  · rw [hl] at hload hasked
    have himg : img.options = options := options_of_outright hload.symm
    rw [← hload]
    simp only
    rw [Image.ask_outright det pool (by rw [himg]; exact hi) hasked v]

theorem outright_ne_panic (l : Loader) (options : DecodeOptions) (w : World σ) (p : Panic) :
    l.outright S options true w ≠ .error (.panic p) := by
  unfold outright
  have h := Outcome.isolate_ne_panic (l.readJob S options w).1
  rcases ho : Outcome.isolate true (l.readJob S options w).1 with (e | q) | r
  · exact fun h => nomatch h
  · exact absurd ho (h q)
  · exact fun h => nomatch h

theorem sessionOutright_ne_panic (requests : List FrameRequest) :
    (∀ p, (l.sessionOutright S options requests w).1 ≠ .error (.panic p)) ∧
      ∀ a ∈ (l.sessionOutright S options requests w).2, ∀ p, a.1 ≠ .error (.panic p) := by
  unfold sessionOutright
  have h := outright_ne_panic (S := S) l options w
  rcases ho : l.outright S options true w with stop | img
  · refine ⟨fun p hp => ?_, fun a ha => nomatch ha⟩
    cases hp
    exact h p ho
  · exact ⟨fun _ => nofun, Image.askOutright_ne_panic requests img⟩

/-- **Under a sandbox, sessions with the same requests have the same course**, whatever way the image is loaded
and each frame is waited for, and no panic gets out of them. -/
theorem session_agree (det : S.Deterministic) (pool : S.Completes true) (l : Loader)
    (options : DecodeOptions) (resolved : ∀ v, (l.options S v).1 = options)
    (sandboxed : options.policy.mechanism.isSandboxed = true) (way way' : Way) {asked asked' : Asked}
    (same : asked.map Prod.fst = asked'.map Prod.fst) {w w' : World σ}
    (quiet : ∀ y ∈ way :: asked.map Prod.snd, Undisturbed S y w)
    (quiet' : ∀ y ∈ way' :: asked'.map Prod.snd, Undisturbed S y w') :
    l.session S way asked w = l.session S way' asked' w' ∧
      (∀ p, (l.session S way asked w).1 ≠ .error (.panic p)) ∧
      ∀ a ∈ (l.session S way asked w).2, ∀ p, a.1 ≠ .error (.panic p) := by
  have hi : options.policy.isolatePanics = true := by
    have hw := resolved w
    subst hw
    exact (DecodePolicy.isolatePanics_resolve _ _ _).trans sandboxed
  have h := session_outright det pool resolved hi quiet w
  have h' := session_outright det pool resolved hi quiet' w
  rw [← same] at h'
  obtain ⟨hload, hasked⟩ := l.sessionOutright_ne_panic (asked.map Prod.fst)
  rw [h, h']
  exact ⟨rfl, hload, hasked⟩

/-- A white pixel, on the spot and by polling under a token. -/
theorem session_agree_whitePixel :
    let S := Services.whitePixel fun _ => { polls := 1, inBackground := true }
    let l := Loader.ofSource S.settings (.bytes ByteArray.empty)
    let asked : Asked := [({}, .onSpot), ({}, .awaited none)]
    let asked' : Asked := [({}, .awaited (some ⟨0⟩)), ({}, .onSpot)]
    (∀ y ∈ Way.awaited (some ⟨0⟩) :: asked'.map Prod.snd, Undisturbed S y { state := () }) ∧
      l.session S .onSpot asked { state := () } =
        l.session S (.awaited (some ⟨0⟩)) asked' { state := () } := by
  intro S l asked asked'
  have quiet : ∀ y, Undisturbed S y { state := () } := fun y =>
    ⟨fun t _ => Services.spares_whitePixel _ t, fun t _ => Cancellation.calm_empty t⟩
  have same : asked.map Prod.fst = asked'.map Prod.fst := rfl
  have pool : S.Completes true := fun _ _ => ⟨rfl, rfl⟩
  have h := Loader.session_agree (Services.deterministic_whitePixel _) pool l
    ⟨⟨.bwrap, some .default, true⟩, true⟩ (fun _ => rfl) rfl .onSpot (.awaited (some ⟨0⟩)) same
    (fun y _ => quiet y) (fun y _ => quiet y)
  exact ⟨fun y _ => quiet y, h.1⟩

end Loader

end ImageLoader
