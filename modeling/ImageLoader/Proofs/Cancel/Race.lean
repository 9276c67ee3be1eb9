import ImageLoader.Proofs.Cancel.Calm

/-!
# Canceling and registering at the same time

Any number of callers cancel one token or register handles under it, and their atomic steps interleave in any
order.  A race is the state of the tokens together with the stage at which each call stands.

* `tokens_run_cancel`, `tokens_run_register`: a call that nobody disturbs does what `Cancellation.cancel` and
  `Cancellation.register` do.
* `Sound.step`, `Sound.run`: a handle that went on the list is aborted, or taken to be aborted, or still on the
  list, where somebody minds it once the token was canceled.
* `aborted_of_settled`: **no cancellation is lost, and none is made up.**
-/

namespace ImageLoader.Race

inductive Call where
  | cancel
  | register (h : AbortHandle)
deriving DecidableEq

inductive Stage where
  /-- It has not started. -/
  | idle (call : Call)
  /-- A cancellation that has raised the token. -/
  | raised
  /-- A cancellation that has taken the list, with the handles that it has still to abort. -/
  | aborting (l : List AbortHandle)
  /-- A registration whose handle went on the list. -/
  | enlisted (h : AbortHandle)
  /-- A registration that has seen the token raised. -/
  | doomed (h : AbortHandle)
  /-- A registration that is over. -/
  | registered (h : AbortHandle)
deriving DecidableEq

variable {t : Token} {c : Cancellation} {h : AbortHandle}

/-! ## One call -/

namespace Stage

variable {st : Stage}

def call : Stage → Call
  | idle call => call
  | raised | aborting _ => .cancel
  | enlisted h | doomed h | registered h => .register h

def started : Stage → Bool
  | idle _ => false
  | _ => true

/-- Is the call over, if it has started? -/
def settled : Stage → Bool
  | idle _ | aborting [] | registered _ => true
  | raised | aborting (_ :: _) | enlisted _ | doomed _ => false

def step (t : Token) (c : Cancellation) : Stage → Stage × Cancellation
  | idle .cancel => (raised, c.raise t)
  | raised => (aborting (c.take t).1, (c.take t).2)
  | aborting [] => (aborting [], c)
  | aborting (h :: l) => (aborting l, c.abort h)
  | idle (.register h) => (enlisted h, c.enlist t h)
  | enlisted h => (if c.isCanceled t then doomed h else registered h, c)
  | doomed h => (registered h, c.abort h)
  | registered h => (registered h, c)

theorem eq_idle (hs : st.started = false) : st = .idle st.call := by
  cases st with
  | idle call => rfl
  | _ => cases hs

theorem call_step (t : Token) (c : Cancellation) (st : Stage) : (st.step t c).1.call = st.call := by
  fun_cases Stage.step t c st <;> try rfl
  split <;> rfl

theorem started_step (t : Token) (c : Cancellation) (st : Stage) : (st.step t c).1.started = true := by
  fun_cases Stage.step t c st <;> try rfl
  split <;> rfl

/-- Only the first step of a cancellation raises the token, and no step lowers it. -/
theorem isCanceled_step (t : Token) (c : Cancellation) (st : Stage) :
    (st.step t c).2.isCanceled t = (c.isCanceled t || st == .idle .cancel) := by
  fun_cases Stage.step t c st <;>
    simp [Cancellation.isCanceled, Cancellation.raise, Cancellation.take, Cancellation.abort,
      Cancellation.enlist, Cancellation.token_setToken]

theorem aborted_step (t : Token) (c : Cancellation) (st : Stage) (h : AbortHandle) :
    (st.step t c).2.aborted h = true ↔
      (st = .doomed h ∨ ∃ l, st = .aborting (h :: l)) ∨ c.aborted h = true := by
  fun_cases Stage.step t c st <;>
    simp [Cancellation.abort, Cancellation.raise, Cancellation.take, Cancellation.setToken,
      Cancellation.enlist, eq_comm (a := h)]

theorem isCanceled_of_doomed (hd : (st.step t c).1 = .doomed h) : c.isCanceled t = true := by
  fun_cases Stage.step t c st <;> try cases hd
  cases hc : c.isCanceled t with
  | true => rfl
  | false =>
    simp only [Stage.step, hc, Bool.false_eq_true, if_false] at hd
    cases hd

/-! ### Who looks after a handle -/

/-- The cancellation has taken the handle, and will abort it. -/
def Holds (h : AbortHandle) : Stage → Prop
  | aborting l => h ∈ l
  | _ => False

/-- The call has still to take the list, or to abort the handle if the token is raised. -/
def Minds (h : AbortHandle) : Stage → Prop
  | raised => True
  | enlisted k | doomed k => k = h
  | _ => False

theorem not_holds_of_settled (hs : st.settled = true) : ¬ st.Holds h := by
  fun_cases Stage.settled st <;> simp_all [Holds, settled]

theorem not_minds_of_settled (hs : st.settled = true) : ¬ st.Minds h := by
  fun_cases Stage.settled st <;> simp_all [Minds, settled]

theorem Holds.step (hh : st.Holds h) (t : Token) (c : Cancellation) :
    (st.step t c).1.Holds h ∨ (st.step t c).2.aborted h = true := by
  cases st with
  | aborting l =>
    cases l with
    | nil => exact nomatch hh
    | cons k l =>
      rcases List.mem_cons.mp hh with rfl | hl
      · exact .inr ((aborted_step ..).mpr (.inl (.inr ⟨l, rfl⟩)))
      · exact .inl hl
  | _ => exact hh.elim

/-- Under a raised token, whoever minds a handle takes the list, or minds the handle until it is aborted. -/
theorem Minds.step (hm : st.Minds h) (hc : c.isCanceled t = true) (hr : st ≠ .raised) :
    (st.step t c).1.Minds h ∨ (st.step t c).2.aborted h = true := by
  cases st with
  | raised => exact absurd rfl hr
  | enlisted k =>
    simp only [Stage.step, hc, if_true]
    exact .inl hm
  | doomed k => exact .inr ((aborted_step ..).mpr (.inl (.inl (congrArg doomed hm))))
  | _ => exact hm.elim

/-- A handle leaves the list when it was aborted, or when a cancellation takes the list. -/
theorem mem_inFlight_step (st : Stage) (hm : h ∈ (c.token t).inFlight) (ha : c.aborted h = false) :
    (st.step t c).1.Holds h ∨ st ≠ .raised ∧ h ∈ ((st.step t c).2.token t).inFlight := by
  fun_cases Stage.step t c st <;>
    simp_all [Holds, Cancellation.raise, Cancellation.take, Cancellation.enlist, Cancellation.abort,
      Cancellation.token_setToken]

end Stage

end ImageLoader.Race

namespace ImageLoader

/-! ## All calls -/

/-- The tokens, and the calls that are made on one of them. -/
structure Race (ι : Type) where
  tokens : Cancellation
  stage : ι → Race.Stage

namespace Race

variable {ι : Type} {s : Race ι} {i j : ι} {t : Token} {h : AbortHandle} {c : Cancellation}
  {calls : ι → Call}

def start (c : Cancellation) (calls : ι → Call) : Race ι := ⟨c, fun i => .idle (calls i)⟩

/-- Has somebody started this call? -/
def Started (s : Race ι) (call : Call) : Prop :=
  ∃ i, (s.stage i).call = call ∧ (s.stage i).started = true

/-- The handle is aborted, or taken to be aborted, or on the list: and there, once the token was canceled,
somebody minds it. -/
def Held (t : Token) (s : Race ι) (h : AbortHandle) : Prop :=
  s.tokens.aborted h = true ∨ (∃ i, (s.stage i).Holds h) ∨
    h ∈ (s.tokens.token t).inFlight ∧ (s.Started .cancel → ∃ i, (s.stage i).Minds h)

/-- What holds at every point of a race that began with the tokens `c`. -/
structure Sound (c : Cancellation) (t : Token) (s : Race ι) : Prop where
  canceled : s.tokens.isCanceled t = true ↔ c.isCanceled t = true ∨ s.Started .cancel
  doomed : ∀ i h, s.stage i = .doomed h → s.tokens.isCanceled t = true
  spared : s.tokens.isCanceled t = false → ∀ h, s.tokens.aborted h = c.aborted h
  held : ∀ h, h ∈ (c.token t).inFlight ∨ s.Started (.register h) → s.Held t h

theorem not_started_start (c : Cancellation) (calls : ι → Call) (call : Call) :
    ¬ (start c calls).Started call := by
  rintro ⟨i, -, hs⟩
  cases hs

theorem sound_start (c : Cancellation) (t : Token) (calls : ι → Call) :
    (start c calls).Sound c t where
  canceled := ⟨.inl, fun h => h.resolve_right (not_started_start c calls _)⟩
  doomed _ _ hd := nomatch hd
  spared _ _ := rfl
  held _ hl := .inr (.inr ⟨hl.resolve_right (not_started_start c calls _),
    fun hc => (not_started_start c calls _ hc).elim⟩)

theorem Sound.isCanceled_of_started (sound : s.Sound c t) (hi : (s.stage i).call = .cancel)
    (hs : (s.stage i).started = true) : s.tokens.isCanceled t = true :=
  sound.canceled.mpr (.inr ⟨i, hi, hs⟩)

/-- In a sound race that nobody is in the middle of, a handle that is held is aborted once the token was
canceled. -/
theorem Held.aborted (hh : s.Held t h) (settled : ∀ i, (s.stage i).settled = true)
    (hc : s.Started .cancel) : s.tokens.aborted h = true := by
  rcases hh with ha | ⟨i, hi⟩ | ⟨-, hm⟩
  · exact ha
  · exact absurd hi (Stage.not_holds_of_settled (settled i))
  · obtain ⟨i, hi⟩ := hm hc
    exact absurd hi (Stage.not_minds_of_settled (settled i))

variable [DecidableEq ι]

def step (t : Token) (s : Race ι) (i : ι) : Race ι :=
  let (st, c) := (s.stage i).step t s.tokens
  ⟨c, fun j => if j = i then st else s.stage j⟩

/-- The callers take steps in the order of the schedule. -/
def run (t : Token) (s : Race ι) (schedule : List ι) : Race ι := schedule.foldl (step t) s

@[simp] theorem tokens_step (t : Token) (s : Race ι) (i : ι) :
    (s.step t i).tokens = ((s.stage i).step t s.tokens).2 := rfl

@[simp] theorem stage_step_self (t : Token) (s : Race ι) (i : ι) :
    (s.step t i).stage i = ((s.stage i).step t s.tokens).1 := if_pos rfl

theorem stage_step_of_ne (hj : j ≠ i) : (s.step t i).stage j = s.stage j := if_neg hj

@[simp] theorem run_cons (t : Token) (s : Race ι) (i : ι) (l : List ι) :
    s.run t (i :: l) = (s.step t i).run t l := rfl

/-! ### A call that nobody disturbs -/

theorem tokens_run_aborting {l : List AbortHandle} (hi : s.stage i = .aborting l) :
    (s.run t (List.replicate l.length i)).tokens = s.tokens.abortAll l := by
  induction l generalizing s with
  | nil => rfl
  | cons h l ih =>
    have hs : (s.step t i).stage i = .aborting l := by rw [stage_step_self, hi]; rfl
    rw [List.length_cons, List.replicate_succ, run_cons, ih hs, tokens_step, hi]
    rfl

/-- A cancellation that nobody disturbs. -/
theorem tokens_run_cancel (hi : s.stage i = .idle .cancel) :
    (s.run t (i :: i :: List.replicate (s.tokens.token t).inFlight.length i)).tokens =
      s.tokens.cancel t := by
  have h1 : (s.step t i).stage i = .raised := by rw [stage_step_self, hi]; rfl
  have h2 : ((s.step t i).step t i).stage i = .aborting (s.tokens.token t).inFlight := by
    rw [stage_step_self, h1, tokens_step, hi]
    simp [Stage.step, Cancellation.take, Cancellation.raise, Cancellation.token_setToken]
  rw [run_cons, run_cons, tokens_run_aborting h2, tokens_step, h1, tokens_step, hi]
  simp [Stage.step, Cancellation.cancel, Cancellation.take, Cancellation.raise,
    Cancellation.token_setToken]

/-- A registration that nobody disturbs, of a handle that is new. -/
theorem tokens_run_register (hs : s.tokens = c.newHandle.2)
    (hi : s.stage i = .idle (.register c.newHandle.1)) :
    (s.run t [i, i, i]).tokens = (c.register t).2 := by
  have h1 : (s.step t i).stage i = .enlisted c.newHandle.1 := by rw [stage_step_self, hi]; rfl
  have t1 : (s.step t i).tokens = c.newHandle.2.enlist t c.newHandle.1 := by
    rw [tokens_step, hi, hs]; rfl
  have h2 : ((s.step t i).step t i).stage i =
      if c.isCanceled t then .doomed c.newHandle.1 else .registered c.newHandle.1 := by
    rw [stage_step_self, h1, t1]
    simp only [Stage.step, Cancellation.isCanceled_enlist]
    rfl
  have t2 : ((s.step t i).step t i).tokens = c.newHandle.2.enlist t c.newHandle.1 := by
    rw [tokens_step, h1, t1]; rfl
  show (((s.step t i).step t i).step t i).tokens = _
  rw [tokens_step, h2, t2, Cancellation.register_eq]
  split <;> rfl

/-! ### Every step keeps the race sound -/

theorem call_stage_step (t : Token) (s : Race ι) (i j : ι) :
    ((s.step t i).stage j).call = (s.stage j).call := by
  by_cases hj : j = i
  · rw [hj, stage_step_self, Stage.call_step]
  · rw [stage_step_of_ne hj]

theorem started_step (t : Token) (s : Race ι) (i : ι) (call : Call) :
    (s.step t i).Started call ↔ s.Started call ∨ (s.stage i).call = call := by
  constructor
  · rintro ⟨j, hc, hs⟩
    rw [call_stage_step] at hc
    by_cases hj : j = i
    · exact .inr (hj ▸ hc)
    · rw [stage_step_of_ne hj] at hs
      exact .inl ⟨j, hc, hs⟩
  · have hi : ((s.step t i).stage i).started = true := by rw [stage_step_self, Stage.started_step]
    rintro (⟨j, hc, hs⟩ | hc)
    · refine ⟨j, by rw [call_stage_step, hc], ?_⟩
      by_cases hj : j = i
      · rw [hj, hi]
      · rw [stage_step_of_ne hj, hs]
    · exact ⟨i, by rw [call_stage_step, hc], hi⟩

theorem started_run (t : Token) (s : Race ι) (schedule : List ι) (call : Call) :
    (s.run t schedule).Started call ↔ s.Started call ∨ ∃ i ∈ schedule, (s.stage i).call = call := by
  induction schedule generalizing s with
  | nil => simp [run]
  | cons i l ih =>
    rw [run_cons, ih, started_step]
    simp only [call_stage_step, List.mem_cons, exists_eq_or_imp, or_assoc]

theorem started_start_run (c : Cancellation) (calls : ι → Call) (t : Token) (schedule : List ι)
    (call : Call) :
    ((start c calls).run t schedule).Started call ↔ ∃ i ∈ schedule, calls i = call := by
  rw [started_run]
  exact or_iff_right (not_started_start c calls call)

theorem isCanceled_step (i : ι) (hc : s.tokens.isCanceled t = true) :
    (s.step t i).tokens.isCanceled t = true := by
  rw [tokens_step, Stage.isCanceled_step, hc, Bool.true_or]

theorem held_enlist (hi : s.stage i = .idle (.register h)) : (s.step t i).Held t h := by
  refine .inr (.inr ⟨?_, fun _ => ⟨i, ?_⟩⟩)
  · rw [tokens_step, hi]
    simp [Stage.step, Cancellation.enlist, Cancellation.token_setToken]
  · rw [stage_step_self, hi]
    exact rfl

namespace Sound

variable (sound : s.Sound c t)
include sound

theorem canceled_step (i : ι) :
    (s.step t i).tokens.isCanceled t = true ↔
      c.isCanceled t = true ∨ (s.step t i).Started .cancel := by
  rw [tokens_step, Stage.isCanceled_step, started_step, ← or_assoc, ← sound.canceled, Bool.or_eq_true,
    beq_iff_eq]
  constructor
  · exact Or.imp_right fun hi => hi ▸ rfl
  · rintro (hc | hi)
    · exact .inl hc
    · cases hs : (s.stage i).started with
      | true => exact .inl (sound.isCanceled_of_started hi hs)
      | false => exact .inr (hi ▸ Stage.eq_idle hs)

theorem spared_step (i : ι) (hc : (s.step t i).tokens.isCanceled t = false) (h : AbortHandle) :
    (s.step t i).tokens.aborted h = c.aborted h := by
  rw [tokens_step, Stage.isCanceled_step, Bool.or_eq_false_iff] at hc
  have ha := Stage.aborted_step t s.tokens (s.stage i) h
  -- whoever could abort a handle has seen that the token is raised
  have hn : ¬ (s.stage i = .doomed h ∨ ∃ l, s.stage i = .aborting (h :: l)) := by
    rintro (hd | ⟨l, hl⟩)
    · exact absurd (sound.doomed i h hd) (by simp [hc.1])
    · exact absurd (sound.isCanceled_of_started (congrArg _ hl) (congrArg _ hl)) (by simp [hc.1])
  rw [← sound.spared hc.1 h, tokens_step, Bool.eq_iff_iff, ha]
  exact or_iff_right hn

/-- A handle that is on the list stays there, minded, unless it is taken or aborted. -/
theorem held_step (i : ι) (hh : s.Held t h) : (s.step t i).Held t h := by
  by_cases ha : (s.step t i).tokens.aborted h = true
  · exact .inl ha
  have ha₀ : s.tokens.aborted h = false :=
    Bool.eq_false_iff.mpr fun h' => ha ((Stage.aborted_step ..).mpr (.inr h'))
  rcases hh with ha' | ⟨j, hj⟩ | ⟨hm, hw⟩
  · exact absurd ha' (by simp [ha₀])
  · refine .inr (.inl ⟨j, ?_⟩)
    by_cases hji : j = i
    · subst hji
      rw [stage_step_self]
      exact (hj.step t s.tokens).resolve_right ha
    · rwa [stage_step_of_ne hji]
  · -- off the list, a cancellation has taken it; on the list, somebody must still mind it
    rcases Stage.mem_inFlight_step (s.stage i) hm ha₀ with hi | ⟨hr, hm'⟩
    · exact .inr (.inl ⟨i, by rwa [stage_step_self]⟩)
    refine .inr (.inr ⟨hm', fun hc => ?_⟩)
    by_cases hid : s.stage i = .idle .cancel
    · -- the first cancellation has just raised the token
      exact ⟨i, by rw [stage_step_self, hid]; trivial⟩
    have hs : s.Started .cancel := ((started_step t s i _).mp hc).elim id fun hi => by
      cases hs : (s.stage i).started with
      | true => exact ⟨i, hi, hs⟩
      | false => exact absurd (hi ▸ Stage.eq_idle hs) hid
    -- the token is raised, so whoever minded the handle minds it still, or has just aborted it
    obtain ⟨j, hj⟩ := hw hs
    refine ⟨j, ?_⟩
    by_cases hji : j = i
    · subst hji
      rw [stage_step_self]
      exact (hj.step (sound.canceled.mpr (.inr hs)) hr).resolve_right ha
    · rwa [stage_step_of_ne hji]

/-- **One step of one caller keeps the race sound.** -/
theorem step (i : ι) : (s.step t i).Sound c t where
  canceled := sound.canceled_step i
  doomed j h hd := by
    refine isCanceled_step i ?_
    by_cases hj : j = i
    · rw [hj, stage_step_self] at hd
      exact Stage.isCanceled_of_doomed hd
    · rw [stage_step_of_ne hj] at hd
      exact sound.doomed j h hd
  spared := sound.spared_step i
  held h hl := by
    rw [started_step, ← or_assoc] at hl
    rcases hl with hl | hi
    · exact sound.held_step i (sound.held h hl)
    · -- a registration that has not started puts its handle on the list now
      cases hs : (s.stage i).started with
      | true => exact sound.held_step i (sound.held h (.inr ⟨i, hi, hs⟩))
      | false => exact held_enlist (hi ▸ Stage.eq_idle hs)

/-- **So do all steps of all callers.** -/
theorem run (schedule : List ι) : (s.run t schedule).Sound c t := by
  induction schedule generalizing s with
  | nil => exact sound
  | cons i l ih => exact ih (sound.step i)

end Sound

/-- **In every state of the race in which no call is half done**: if one of the calls was a cancellation, every
handle that was registered is aborted, before the race or in it; and if none was, and the token was not raised
before, no handle is aborted that was not. -/
theorem aborted_of_settled (c : Cancellation) (t : Token) (calls : ι → Call) (schedule : List ι)
    (settled : ∀ i, (((start c calls).run t schedule).stage i).settled = true) :
    ((∃ i ∈ schedule, calls i = .cancel) →
      ∀ h, h ∈ (c.token t).inFlight ∨ (∃ i ∈ schedule, calls i = .register h) →
        ((start c calls).run t schedule).tokens.aborted h = true) ∧
    ((∀ i ∈ schedule, calls i ≠ .cancel) → c.isCanceled t = false →
      ∀ h, ((start c calls).run t schedule).tokens.aborted h = c.aborted h) := by
  have sound := (sound_start c t calls).run schedule
  simp only [← started_start_run c calls t]
  refine ⟨fun hc h hl => (sound.held h hl).aborted settled hc, fun hn hc => sound.spared ?_⟩
  rw [Bool.eq_false_iff, Ne, sound.canceled, started_start_run]
  rintro (h | ⟨i, hi, hk⟩)
  · rw [hc] at h
    cases h
  · exact hn i hi hk

/-- A registration puts its handle on the list, the token is raised, and the registration sees that before the
cancellation gets to the list.  Without the cancellation the handle is spared. -/
theorem aborted_of_settled_close :
    let calls (canceling : Bool) : Call := if canceling then .cancel else .register ⟨7⟩
    ((start {} calls).run ⟨0⟩ [false, true, false, true, true, false]).tokens.aborted ⟨7⟩ = true ∧
      ((start {} calls).run ⟨0⟩ [false, false]).tokens.aborted ⟨7⟩ = false :=
  ⟨(aborted_of_settled {} ⟨0⟩ _ [false, true, false, true, true, false] (by decide)).1
      (by decide) ⟨7⟩ (by decide),
    (aborted_of_settled {} ⟨0⟩ _ [false, false] (by decide)).2 (by decide) rfl ⟨7⟩⟩

end Race

end ImageLoader
