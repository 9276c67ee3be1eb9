import ImageLoader.Cancel.Token

/-!
# Work under a token

Asynchronous work is polled: each poll either ends it or leaves what is to be polled next.  Work under a
token is not begun when the token is raised, is not polled again once it is, and does not report success
for a poll during which the token was raised.

* `Guarded.poll` — one poll of work under a token, or of work without one.
* `Poll.drive` — polls until the work ends, with a measure that every pending poll lowers.
-/

namespace ImageLoader

inductive Poll (F α : Type) where
  | pending (next : F)
  | ready (a : α)
  | panicked (p : Panic)

namespace Poll

variable {F G α β ω : Type}

def mapNext (f : F → G) : Poll F α → Poll G α
  | pending next => pending (f next)
  | ready a => ready a
  | panicked p => panicked p

def map (f : α → β) : Poll F α → Poll F β
  | pending next => pending next
  | ready a => ready (f a)
  | panicked p => panicked p

/-- Polls again and again until the work ends.  A pending poll has to lower the rank. -/
def drive (poll : F → ω → Poll F (Except LoadError α) × ω) (rank : F → Nat × Nat)
    (lower : ∀ f w next w', poll f w = (.pending next, w') →
      Prod.Lex (· < ·) (· < ·) (rank next) (rank f)) (f : F) (w : ω) : Loaded α × ω :=
  match h : poll f w with
  | (.pending next, w') =>
    have := lower f w next w' h
    drive poll rank lower next w'
  | (.ready r, w') => (Outcome.ofExcept r, w')
  | (.panicked p, w') => (.error (.panic p), w')
termination_by rank f
decreasing_by exact this

end Poll

/-- Work that may stand under a token. -/
inductive Guarded (F : Type) where
  /-- Work without a token. -/
  | bare (op : F)
  /-- Work under a token that was not polled yet. -/
  | waiting (t : Token) (op : F)
  /-- Work under a token, with its abort handle. -/
  | underway (t : Token) (h : AbortHandle) (op : F)

namespace Guarded

variable {F α ω : Type} [HasCancellation ω]

def of (t : Option Token) (op : F) : Guarded F :=
  match t with
  | some t => .waiting t op
  | none => .bare op

def op : Guarded F → F
  | bare op => op
  | waiting _ op => op
  | underway _ _ op => op

/-- A poll of work that is registered: the handle is looked at before and after, and the token once more
before a result is handed out. -/
def pollUnderway (poll : F → ω → Poll F (Except LoadError α) × ω) (t : Token) (h : AbortHandle)
    (op : F) (w : ω) : Poll (Guarded F) (Except LoadError α) × ω :=
  if (cancellation w).aborted h then (.ready (.error .canceled), w)
  else
    match poll op w with
    | (.pending next, w) =>
      if (cancellation w).aborted h then (.ready (.error .canceled), w)
      else (.pending (.underway t h next), w)
    | (.ready r, w) =>
      if (cancellation w).isCanceled t then (.ready (.error .canceled), w) else (.ready r, w)
    | (.panicked p, w) => (.panicked p, w)

def poll (poll : F → ω → Poll F (Except LoadError α) × ω) (g : Guarded F) (w : ω) :
    Poll (Guarded F) (Except LoadError α) × ω :=
  match g with
  | .bare op =>
    let (p, w) := poll op w
    (p.mapNext .bare, w)
  | .waiting t op =>
    if (cancellation w).isCanceled t then (.ready (.error .canceled), w)
    else
      let (h, c) := (cancellation w).register t
      pollUnderway poll t h op (withCancellation c w)
  | .underway t h op => pollUnderway poll t h op w

theorem pollUnderway_pending {inner : F → ω → Poll F (Except LoadError α) × ω} {t : Token}
    {h : AbortHandle} {op : F} {w w' : ω} {next : Guarded F}
    (hp : pollUnderway inner t h op w = (.pending next, w')) :
    inner op w = (.pending next.op, w') := by
  unfold pollUnderway at hp
  split at hp
  · cases hp
  · split at hp
    next n v hv =>
      split at hp
      · cases hp
      · cases hp; exact hv
    next r v hv => split at hp <;> cases hp
    next p v hv => cases hp

theorem poll_pending {inner : F → ω → Poll F (Except LoadError α) × ω} {g : Guarded F} {w w' : ω}
    {next : Guarded F} (hp : poll inner g w = (.pending next, w')) :
    ∃ v, inner g.op v = (.pending next.op, w') := by
  cases g with
  | bare op =>
    refine ⟨w, ?_⟩
    simp only [poll] at hp
    rcases hi : inner op w with ⟨q, v⟩
    rw [hi] at hp
    cases q with
    | pending n => cases hp; exact hi
    | ready r => cases hp
    | panicked p => cases hp
  | waiting t op =>
    simp only [poll] at hp
    split at hp
    · cases hp
    · exact ⟨_, pollUnderway_pending hp⟩
  | underway t h op => exact ⟨w, pollUnderway_pending hp⟩

end Guarded

end ImageLoader
