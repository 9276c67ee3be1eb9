import ImageLoader.Error

/-!
# Cancellation tokens

A token is raised once and stays raised.  While work runs under a token, the token keeps an abort handle
for it; raising the token aborts the handles it keeps.  `Cancellation` is the state of all tokens and
handles of a process.

The operations come in two layers.  The atomic steps `raise`, `take`, `abort` and `enlist` are what a
process does without being interrupted; `cancel` and `register` are made of them.

* `isCanceled_cancel` — canceling raises the token.
* `isCanceled_cancel_of_ne` — and no other.
* `aborted_register` — a handle that is registered under a raised token is aborted at once.
-/

namespace ImageLoader

/-- The name of a token.  Copies of a token have the same name. -/
structure Token where
  id : Nat
deriving DecidableEq, Inhabited

structure AbortHandle where
  id : Nat
deriving DecidableEq, Inhabited

structure TokenState where
  canceled : Bool := false
  inFlight : List AbortHandle := []

structure Cancellation where
  token : Token → TokenState := fun _ => {}
  aborted : AbortHandle → Bool := fun _ => false
  /-- The handles with smaller names have been given out. -/
  handles : Nat := 0

namespace Cancellation

def isCanceled (c : Cancellation) (t : Token) : Bool := (c.token t).canceled

/-- Refuses to go on under a raised token. -/
def check (c : Cancellation) (t : Token) : Except LoadError Unit :=
  if c.isCanceled t then .error .canceled else .ok ()

/-! ## Atomic steps -/

def setToken (c : Cancellation) (t : Token) (s : TokenState) : Cancellation :=
  { c with token := fun u => if u = t then s else c.token u }

def raise (c : Cancellation) (t : Token) : Cancellation :=
  c.setToken t { c.token t with canceled := true }

def take (c : Cancellation) (t : Token) : List AbortHandle × Cancellation :=
  ((c.token t).inFlight, c.setToken t { c.token t with inFlight := [] })

def abort (c : Cancellation) (h : AbortHandle) : Cancellation :=
  { c with aborted := fun k => k = h || c.aborted k }

/-- Puts a handle on the list of a token, from which aborted handles are dropped. -/
def enlist (c : Cancellation) (t : Token) (h : AbortHandle) : Cancellation :=
  let s := c.token t
  c.setToken t { s with inFlight := s.inFlight.filter (fun k => !c.aborted k) ++ [h] }

/-- A handle that was never given out. -/
def newHandle (c : Cancellation) : AbortHandle × Cancellation :=
  (⟨c.handles⟩, { c with handles := c.handles + 1 })

/-! ## Operations -/

def abortAll (c : Cancellation) (l : List AbortHandle) : Cancellation := l.foldl abort c

/-- Cancels a token: it is raised, and the handles it keeps are aborted. -/
def cancel (c : Cancellation) (t : Token) : Cancellation :=
  let (l, c) := (c.raise t).take t
  c.abortAll l

/-- Registers work under a token: its handle goes on the list, and is aborted if the token is raised. -/
def register (c : Cancellation) (t : Token) : AbortHandle × Cancellation :=
  let (h, c) := c.newHandle
  let c := c.enlist t h
  (h, if c.isCanceled t then c.abort h else c)

/-! ## What the operations do to tokens and handles -/

@[simp] theorem token_abort (c : Cancellation) (h : AbortHandle) : (c.abort h).token = c.token := rfl

@[simp] theorem token_abortAll (c : Cancellation) (l : List AbortHandle) :
    (c.abortAll l).token = c.token := by
  induction l generalizing c with
  | nil => rfl
  | cons h r ih => exact ih (c.abort h)

theorem token_setToken (c : Cancellation) (t u : Token) (s : TokenState) :
    (c.setToken t s).token u = if u = t then s else c.token u := rfl

theorem isCanceled_cancel (c : Cancellation) (t : Token) : (c.cancel t).isCanceled t = true := by
  simp [cancel, isCanceled, take, raise, token_setToken]

theorem isCanceled_cancel_of_ne (c : Cancellation) {t u : Token} (h : u ≠ t) :
    (c.cancel t).isCanceled u = c.isCanceled u := by
  simp [cancel, isCanceled, take, raise, token_setToken, h]

theorem isCanceled_register (c : Cancellation) (t u : Token) :
    (c.register t).2.isCanceled u = c.isCanceled u := by
  have h : (c.newHandle.2.enlist t c.newHandle.1).isCanceled u = c.isCanceled u := by
    simp only [newHandle, enlist, isCanceled, token_setToken]
    split
    next hu => rw [hu]
    next => rfl
  show (if _ then _ else _ : Cancellation).isCanceled u = _
  split <;> exact h

theorem aborted_register {c : Cancellation} {t : Token} (h : c.isCanceled t = true) :
    (c.register t).2.aborted (c.register t).1 = true := by
  have h' : (c.token t).canceled = true := h
  simp [register, newHandle, enlist, isCanceled, token_setToken, abort, h']

end Cancellation

class HasCancellation (ω : Type) where
  cancellation : ω → Cancellation
  withCancellation : Cancellation → ω → ω

export HasCancellation (cancellation withCancellation)

instance {α ω : Type} [HasCancellation ω] : HasCancellation (α × ω) where
  cancellation w := cancellation w.2
  withCancellation c w := (w.1, withCancellation c w.2)

/-- Tokens, and whatever else the work reads and changes. -/
structure World (σ : Type) where
  tokens : Cancellation := {}
  state : σ

instance {σ : Type} : HasCancellation (World σ) where
  cancellation w := w.tokens
  withCancellation c w := { w with tokens := c }

end ImageLoader
