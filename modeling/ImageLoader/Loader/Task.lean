import ImageLoader.Cancel.Guard
import ImageLoader.Duration

/-!
# Tasks

A job of a decoder is handed to a pool that runs it as a task.  The pool decides how often the task is
pending, whether it fails instead of giving the result of its job, and where the job runs: in the poll that
ends the task, or in the background from the start, where a panic ends the task and nothing else.

* `Task.start`, `Task.poll` — a task from its start to its end.
* `TaskPlan.background` — what a pool of threads with a time limit does.
* `polls_lt_of_pending` — a task comes nearer to its end with every poll.
-/

namespace ImageLoader

/-- Why a task gave no result of its job. -/
inductive TaskError where
  | timedOut (seconds : UInt64)
  | panicked (text : String)
  | failed (text : String)
deriving DecidableEq

def TaskError.toLoadError : TaskError → LoadError
  | timedOut seconds => .timeout seconds
  | panicked text => .ofPanic text
  | failed text => .taskError text

inductive TaskKind where
  | load
  | decode
  | finish
deriving DecidableEq

structure TaskPlan where
  /-- How many polls find the task pending. -/
  polls : Nat := 0
  /-- The task fails with this error and gives no result. -/
  failure : Option TaskError := none
  /-- The job runs from the start, beside the caller. -/
  inBackground : Bool := false

/-- What a pool of threads does, for at most `limit`, with a job that takes `time`. -/
def TaskPlan.background (limit time : Duration) : TaskPlan where
  polls := 1
  failure :=
    if limit.isShorter time then some (.timedOut limit.seconds) else none
  inBackground := true

abbrev Job (σ α : Type) := World σ → Loaded α × World σ

inductive TaskEnd (α : Type) where
  /-- By running its job in place. -/
  | run
  /-- With this. -/
  | done (r : Except TaskError (Except LoadError α))

structure Task (α : Type) where
  polls : Nat
  ending : TaskEnd α

namespace Task

variable {σ α : Type}

/-- What becomes of the outcome of a job in the background: a panic is an error of the task. -/
def contain : Loaded α → Except TaskError (Except LoadError α)
  | .ok a => .ok (.ok a)
  | .error (.error e) => .ok (.error e)
  | .error (.panic p) => .error (.panicked p.message)

def start (plan : TaskPlan) (job : Job σ α) (w : World σ) : Task α × World σ :=
  match plan.inBackground, plan.failure with
  | true, failure =>
    let (r, w) := job w
    (⟨plan.polls, .done (match failure with | some e => .error e | none => contain r)⟩, w)
  | false, some e => (⟨plan.polls, .done (.error e)⟩, w)
  | false, none => (⟨plan.polls, .run⟩, w)

def poll (job : Job σ α) (t : Task α) (w : World σ) :
    Poll (Task α) (Except LoadError α) × World σ :=
  match t.polls with
  | n + 1 => (.pending { t with polls := n }, w)
  | 0 =>
    match t.ending with
    | .done (.error e) => (.ready (.error e.toLoadError), w)
    | .done (.ok r) => (.ready r, w)
    | .run =>
      match job w with
      | (.ok a, w) => (.ready (.ok a), w)
      | (.error (.error e), w) => (.ready (.error e), w)
      | (.error (.panic p), w) => (.panicked p, w)

theorem polls_lt_of_pending {job : Job σ α} {t next : Task α} {w w' : World σ}
    (h : t.poll job w = (.pending next, w')) : next.polls < t.polls := by
  unfold poll at h
  split at h
  next n hn => cases h; simp [hn]
  next hn =>
    split at h
    · cases h
    · cases h
    · split at h <;> cases h

end Task

end ImageLoader
