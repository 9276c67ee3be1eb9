import ImageLoader.Loader.Services

/-!
# How handed-over work ends

A job is run on the spot under a policy, or handed to a pool.  Either way what comes back is one of four
things, and `Job.Ends` is the list of them: the result of the job itself, a panic turned into an error, a panic
that got out, or a failure of the pool that has nothing to do with the job.  Which of them are possible is the
`Handling` of the job.

* `DecodePolicy.ends_run`: a job on the spot ends by its own result or its own panic.
* `Task.sound_start`, `Task.ends_of_ready`, `Task.ends_of_panicked`: so does a task, up to failures of its pool.
* `Job.Ends.eq_isolate`: **a job whose outcome does not depend on the world, handled by someone who never
  fails, ends in one way only.**
-/

namespace ImageLoader

variable {σ α : Type}

/-- An outcome with its panic turned into an error, if panics are caught. -/
def Outcome.isolate (caught : Bool) : Loaded α → Loaded α
  | .error (.panic p) => if caught then .error (.error (.ofPanic p.message)) else .error (.panic p)
  | other => other

theorem Outcome.isolate_ofExcept (b : Bool) (r : Except LoadError α) :
    Outcome.isolate b (Outcome.ofExcept r) = Outcome.ofExcept r := by
  cases r <;> rfl

/-- What those who run a job may do with it. -/
structure Handling where
  /-- A panic may be caught and reported as an error. -/
  catches : Prop
  /-- A panic may get out. -/
  escapes : Prop
  /-- The job may be given up with this failure. -/
  fails : TaskError → Prop

namespace Handling

def onSpot (policy : DecodePolicy) : Handling where
  catches := policy.isolatePanics = true
  escapes := policy.isolatePanics = false
  fails _ := False

/-- Work that is handed to the pool of the services: whatever one of its plans says. -/
def pooled (S : Services σ) (kind : TaskKind) : Handling where
  catches := ∃ v, (S.plan kind v).1.inBackground = true
  escapes := ∃ v, (S.plan kind v).1.inBackground = false
  fails e := ∃ v, (S.plan kind v).1.failure = some e

/-- Whoever catches panics when `caught` says so, lets them out otherwise, and never fails. -/
structure Steady (hd : Handling) (caught : Bool) : Prop where
  catches : hd.catches → caught = true
  escapes : hd.escapes → caught = false
  fails : ∀ e, ¬hd.fails e

theorem steady_onSpot (policy : DecodePolicy) : (onSpot policy).Steady policy.isolatePanics :=
  ⟨id, id, fun _ h => h⟩

theorem steady_pooled {S : Services σ} {kind : TaskKind} {caught : Bool}
    (h : ∀ v, (S.plan kind v).1.failure = none ∧ (S.plan kind v).1.inBackground = caught) :
    (pooled S kind).Steady caught where
  catches := fun ⟨v, hv⟩ => (h v).2.symm.trans hv
  escapes := fun ⟨v, hv⟩ => (h v).2.symm.trans hv
  fails := fun e ⟨v, hv⟩ => by
    rw [(h v).1] at hv
    cases hv

end Handling

/-- The ways in which a job may end for the one who handed it over. -/
inductive Job.Ends (job : Job σ α) (hd : Handling) : Loaded α → Prop
  | result {v : World σ} {r : Except LoadError α} :
      (job v).1 = .ofExcept r → Ends job hd (.ofExcept r)
  | caught {v : World σ} {p : Panic} :
      hd.catches → (job v).1 = .error (.panic p) → Ends job hd (.error (.error (.ofPanic p.message)))
  | escaped {v : World σ} {p : Panic} :
      hd.escapes → (job v).1 = .error (.panic p) → Ends job hd (.error (.panic p))
  | failed {e : TaskError} : hd.fails e → Ends job hd (.error (.error e.toLoadError))

namespace Job.Ends

variable {job : Job σ α} {hd : Handling}

/-- More may be done with a job. -/
theorem mono {hd' : Handling} (hc : hd.catches → hd'.catches) (he : hd.escapes → hd'.escapes)
    (hf : ∀ e, hd.fails e → hd'.fails e) {o : Loaded α} (h : job.Ends hd o) : job.Ends hd' o := by
  cases h with
  | result hr => exact .result hr
  | caught h hp => exact .caught (hc h) hp
  | escaped h hp => exact .escaped (he h) hp
  | failed h => exact .failed (hf _ h)

theorem exists_ok {a : α} (h : job.Ends hd (.ok a)) : ∃ v, (job v).1 = .ok a := by
  generalize ho : (.ok a : Loaded α) = o at h
  cases h with
  | @result v r hr =>
    cases r with
    | ok b => cases ho; exact ⟨v, hr⟩
    | error e => cases ho
  | caught => cases ho
  | escaped => cases ho
  | failed => cases ho

/-- **A job whose outcome is the same in every world ends in one way under a steady handling.** -/
theorem eq_isolate {b : Bool} (hs : hd.Steady b) (fixed : ∀ v w, (job v).1 = (job w).1)
    {o : Loaded α} (h : job.Ends hd o) (w : World σ) : o = Outcome.isolate b (job w).1 := by
  cases h with
  | @result v r hr => rw [fixed w v, hr, Outcome.isolate_ofExcept]
  | @caught v p hc hp => rw [fixed w v, hp, hs.catches hc]; rfl
  | @escaped v p he hp => rw [fixed w v, hp, hs.escapes he]; rfl
  | failed hf => exact absurd hf (hs.fails _)

end Job.Ends

theorem DecodePolicy.ends_run (policy : DecodePolicy) (job : Job σ α) (w : World σ) :
    job.Ends (.onSpot policy) (policy.run (job w).1) := by
  rcases h : (job w).1 with (e | p) | a
  · exact .result (r := .error e) h
  · cases hb : policy.isolatePanics with
    | false =>
      have he : job.Ends (.onSpot policy) (.error (.panic p)) := .escaped hb h
      simpa [DecodePolicy.run, hb] using he
    | true =>
      have hc : job.Ends (.onSpot policy) (.error (.error (.ofPanic p.message))) := .caught hb h
      simpa [DecodePolicy.run, hb] using hc
  · exact .result (r := .ok a) h

/-! ## Tasks -/

/-- What the caller is told of a task that has its outcome. -/
def TaskEnd.report : Except TaskError (Except LoadError α) → Except LoadError α
  | .error e => .error e.toLoadError
  | .ok r => r

namespace Task

/-- A task that stands for this job: the outcome that it holds, if it holds one, is a way for the job to end,
and it runs the job in place only where panics may get out. -/
structure Sound (job : Job σ α) (hd : Handling) (t : Task α) : Prop where
  done : ∀ x, t.ending = .done x → job.Ends hd (.ofExcept (TaskEnd.report x))
  run : t.ending = .run → hd.escapes

/-- The outcome of a job in the background is a way for the job to end. -/
theorem ends_contain {job : Job σ α} {hd : Handling} (hc : hd.catches) (w : World σ) :
    job.Ends hd (.ofExcept (TaskEnd.report (contain (job w).1))) := by
  rcases h : (job w).1 with (e | p) | a
  · exact .result (r := .error e) h
  · exact .caught hc h
  · exact .result (r := .ok a) h

theorem sound_start {S : Services σ} {kind : TaskKind} (job : Job σ α) (v w : World σ) :
    (start (S.plan kind v).1 job w).1.Sound job (.pooled S kind) := by
  rcases hp : S.plan kind v with ⟨⟨polls, failure, inBackground⟩, v'⟩
  have hf : ∀ e, failure = some e → (Handling.pooled S kind).fails e := fun e he => ⟨v, by rw [hp, he]⟩
  cases inBackground with
  | true =>
    have hc : (Handling.pooled S kind).catches := ⟨v, by rw [hp]⟩
    refine ⟨fun x hx => ?_, fun hr => ?_⟩
    · cases failure with
      | none => cases hx; exact ends_contain hc w
      | some e => cases hx; exact .failed (hf e rfl)
    · cases failure <;> cases hr
  | false =>
    refine ⟨fun x hx => ?_, fun _ => ⟨v, by rw [hp]⟩⟩
    cases failure with
    | none => cases hx
    | some e => cases hx; exact .failed (hf e rfl)

variable {job : Job σ α} {hd : Handling} {t : Task α} {w w' : World σ}

theorem sound_of_pending {next : Task α} (hs : t.Sound job hd)
    (h : t.poll job w = (.pending next, w')) : next.Sound job hd := by
  unfold poll at h
  split at h
  · cases h; exact ⟨hs.done, hs.run⟩
  · split at h
    · cases h
    · cases h
    · split at h <;> cases h

theorem ends_of_ready {r : Except LoadError α} (hs : t.Sound job hd)
    (h : t.poll job w = (.ready r, w')) : job.Ends hd (.ofExcept r) := by
  unfold poll at h
  split at h
  · cases h
  · split at h
    next e he => cases h; exact hs.done _ he
    next x he => cases h; exact hs.done _ he
    next he =>
      split at h
      next a v ha => cases h; exact .result (v := w) (by rw [ha]; rfl)
      next e v ha => cases h; exact .result (v := w) (by rw [ha]; rfl)
      next p v ha => cases h

theorem ends_of_panicked {p : Panic} (hs : t.Sound job hd)
    (h : t.poll job w = (.panicked p, w')) : job.Ends hd (.error (.panic p)) := by
  unfold poll at h
  split at h
  · cases h
  · split at h
    next e he => cases h
    next x he => cases h
    next he =>
      split at h
      next a v ha => cases h
      next e v ha => cases h
      next q v ha => cases h; exact .escaped (v := w) (hs.run he) (by rw [ha])

end Task

end ImageLoader
