import ImageLoader.Proofs.Cancel.Ideal

/-!
# Work under tokens, side by side

Any number of operations run, each under a token or under none.  They are polled in any order, tokens are
canceled between the polls, and a future may cancel tokens while it is polled.

* `Sound.step`, `Sound.run`: **the guarded operations do what is meant**; seen without guards and handles,
  they do what the ideal ones do.
* `Sound.slot_run`: what becomes of an operation is decided by its future and its own token.
* `heeded_after`: **what cancellation comes to**, for any operations and after any events.
-/

namespace ImageLoader

/-- Operations that run side by side.  The state of the world is how often the future of each was polled. -/
structure Jobs (ι F α : Type) where
  world : World (ι → Nat)
  /-- What the last poll of the guarded future left. -/
  slot : ι → Poll (Guarded F) (Except LoadError α)

namespace Jobs

variable {ι F α : Type} [DecidableEq ι]

/-! ## The operations -/

variable (react : F → (F ⊕ Except LoadError α) × List Token) (token : ι → Option Token) (future : ι → F)

def pollFuture (i : ι) (f : F) (w : World (ι → Nat)) : Poll F (Except LoadError α) × World (ι → Nat) :=
  ((react f).1.elim .pending .ready,
    { tokens := w.tokens.cancelAll (react f).2, state := put w.state i (w.state i + 1) })

def start : Jobs ι F α where
  world := { state := fun _ => 0 }
  slot i := .pending (.of (token i) (future i))

/-- One event.  An operation that has ended is not polled again. -/
def step (s : Jobs ι F α) : Event ι → Jobs ι F α
  | .poll i =>
    match s.slot i with
    | .pending g =>
      let (p, w) := g.poll (pollFuture react i) s.world
      ⟨w, put s.slot i p⟩
    | _ => s
  | .cancel t => { s with world := { s.world with tokens := s.world.tokens.cancel t } }

def run (s : Jobs ι F α) (es : List (Event ι)) : Jobs ι F α := es.foldl (step react) s

/-- What is seen of the operations without guards and handles. -/
def view (s : Jobs ι F α) : Ideal ι F α :=
  ⟨s.world.tokens.isCanceled, s.world.state, fun i => (s.slot i).mapNext Guarded.op⟩

/-- The tokens are orderly, and the operations are under their tokens, with their handles on track. -/
structure Sound (s : Jobs ι F α) : Prop where
  orderly : s.world.tokens.Orderly
  tracked : ∀ i g, s.slot i = .pending g → g.token = token i ∧ g.Tracked s.world.tokens

variable {react token future} {s : Jobs ι F α} {a : Ideal ι F α} {e : Event ι} {i j : ι} {f : F}
  {g : Guarded F} {r : Except LoadError α}

omit [DecidableEq ι] in
theorem sound_start : (start token future : Jobs ι F α).Sound token where
  orderly := Cancellation.orderly_empty
  tracked i g hg := by
    cases hg
    cases token i <;> exact ⟨rfl, trivial⟩

namespace Sound

variable (sound : s.Sound token)
include sound

theorem step_raised (hi : s.slot i = .pending g) (hr : (token i).any s.world.tokens.isCanceled = true) :
    s.step react (.poll i) = ⟨s.world, put s.slot i (.ready (.error .canceled))⟩ := by
  obtain ⟨ht, hg⟩ := sound.tracked i g hi
  simp only [Jobs.step, hi, Guarded.poll_of_raised hg (ht ▸ hr)]

theorem step_unraised (hi : s.slot i = .pending g)
    (hr : (token i).any s.world.tokens.isCanceled = false) :
    ∃ p w, s.step react (.poll i) = ⟨w, put s.slot i p⟩ ∧
      s.world.tokens.Follows w.tokens ∧ w.state = put s.world.state i (s.world.state i + 1) ∧
      w.tokens.isCanceled = (s.view.raise (react g.op).2).raised ∧
      p.mapNext Guarded.op = Ideal.outcome react g.op ((token i).any w.tokens.isCanceled) ∧
      ∀ g', p = .pending g' → g'.token = token i ∧ g'.Tracked w.tokens := by
  obtain ⟨ht, hg⟩ := sound.tracked i g hi
  have hcancel (v : World (ι → Nat)) : v.tokens.Follows (pollFuture react i g.op v).2.tokens :=
    Cancellation.follows_cancelAll v.tokens _
  obtain ⟨v, wrap, hstate, hraised, hreg, hwrap, hp⟩ :=
    Guarded.poll_of_unraised sound.orderly hg (ht ▸ hr) hcancel
  refine ⟨_, _, by simp only [Jobs.step, hi, hp]; rfl, hreg.trans (hcancel v), ?_, ?_, ?_, ?_⟩
  · simp only [pollFuture, hstate]
  · funext u
    exact (Cancellation.isCanceled_cancelAll v.tokens _ u).trans (by rw [hraised]; rfl)
  · rw [Poll.mapNext_mapNext fun op => (hwrap op).1, ht]
    exact Ideal.endedBy_elim ..
  · intro g' hg'
    obtain ⟨op, rfl⟩ := Poll.eq_of_mapNext_eq_pending hg'
    exact ⟨(hwrap op).2.1.trans ht, (hwrap op).2.2⟩

theorem of_put {p : Poll (Guarded F) (Except LoadError α)} {w : World (ι → Nat)}
    (hf : s.world.tokens.Follows w.tokens)
    (hp : ∀ g, p = .pending g → g.token = token i ∧ g.Tracked w.tokens) :
    (⟨w, put s.slot i p⟩ : Jobs ι F α).Sound token where
  orderly := hf.orderly sound.orderly
  tracked j g hj := by
    by_cases hji : j = i
    · subst hji
      exact hp g (by simpa using hj)
    · replace hj : put s.slot i p j = .pending g := hj
      rw [put_of_ne hji] at hj
      exact ⟨(sound.tracked j g hj).1, (sound.tracked j g hj).2.follow hf⟩

variable (react)

/-- **One event keeps the operations sound, and they do what the ideal ones do.** -/
theorem step (e : Event ι) :
    (s.step react e).Sound token ∧ (s.step react e).view = s.view.step react token e := by
  cases e with
  | cancel t =>
    have hf := s.world.tokens.follows_cancel t
    refine ⟨⟨hf.orderly sound.orderly, fun i g hi => ?_⟩, ?_⟩
    · exact ⟨(sound.tracked i g hi).1, (sound.tracked i g hi).2.follow hf⟩
    · have hr : (s.world.tokens.cancel t).isCanceled = (s.view.raise [t]).raised :=
        funext (s.world.tokens.isCanceled_cancelAll [t])
      simp only [Jobs.step, Ideal.step, view, hr]
      rfl
  | poll i =>
    cases hi : s.slot i with
    | pending g =>
      have hv : s.view.slot i = .pending g.op := by simp only [view, hi]; rfl
      cases hr : (token i).any s.world.tokens.isCanceled with
      | true =>
        rw [sound.step_raised hi hr]
        refine ⟨sound.of_put (Cancellation.follows_refl _) (fun g h => by cases h), ?_⟩
        simp only [Ideal.step, hv, show (token i).any s.view.raised = true from hr, if_true]
        simp only [view, put_map]
        rfl
      | false =>
        -- the guard polls the future, and what it looks at afterwards is where the token stands
        obtain ⟨p, w, hs, hf, hstate, hraised, hp, hp'⟩ := sound.step_unraised hi hr
        rw [hs]
        refine ⟨sound.of_put hf hp', ?_⟩
        simp only [Ideal.step, hv, show (token i).any s.view.raised = false from hr, Bool.false_eq_true,
          if_false]
        rw [← hraised, ← hp]
        simp only [view, put_map, hstate]
    | ready r =>
      have hv : s.view.slot i = .ready r := by simp only [view, hi]; rfl
      simp only [Jobs.step, Ideal.step, hi, hv, and_true]
      exact sound
    | panicked p =>
      have hv : s.view.slot i = .panicked p := by simp only [view, hi]; rfl
      simp only [Jobs.step, Ideal.step, hi, hv, and_true]
      exact sound

/-- **So do all events.** -/
theorem run (es : List (Event ι)) :
    (s.run react es).Sound token ∧ (s.run react es).view = s.view.run react token es := by
  induction es generalizing s with
  | nil => exact ⟨sound, rfl⟩
  | cons e es ih =>
    obtain ⟨hs, hv⟩ := sound.step react e
    obtain ⟨hs', hv'⟩ := ih hs
    exact ⟨hs', hv'.trans (congrArg (fun a => Ideal.run react token a es) hv)⟩

end Sound

/-! ## What cancellation comes to -/

def raised (token : ι → Option Token) (s : Jobs ι F α) (i : ι) : Bool :=
  (token i).any s.world.tokens.isCanceled

/-- Whether the token of the operation is raised at the end of each of its polls. -/
def history (react : F → (F ⊕ Except LoadError α) × List Token) (token : ι → Option Token) (i : ι) :
    Jobs ι F α → List (Event ι) → List Bool
  | _, [] => []
  | s, e :: es =>
    let s := s.step react e
    (if e = .poll i then [s.raised token i] else []) ++ history react token i s es

/-- What becomes of an operation with such a history: its polls are those of the future, up to the first at
whose end its token is raised. -/
def fate (react : F → (F ⊕ Except LoadError α) × List Token) (f : F) :
    List Bool → Poll F (Except LoadError α)
  | [] => .pending f
  | true :: _ => .ready (.error .canceled)
  | false :: l =>
    match (react f).1 with
    | .inl next => fate react next l
    | .inr r => .ready r

theorem Sound.slot_run_ready (sound : s.Sound token) (hi : s.view.slot i = .ready r)
    (es : List (Event ι)) : (s.run react es).view.slot i = .ready r := by
  rw [(sound.run react es).2]
  exact Ideal.run_induction (P := (·.slot i = .ready r)) (fun _ e h => Ideal.slot_step_ready h e) hi es

theorem Sound.slot_run (sound : s.Sound token) (hi : s.view.slot i = .pending f) (es : List (Event ι)) :
    (s.run react es).view.slot i = fate react f (history react token i s es) := by
  induction es generalizing s f with
  | nil => exact hi
  | cons e es ih =>
    obtain ⟨sound', hv⟩ := sound.step react e
    show ((s.step react e).run react es).view.slot i = _
    by_cases he : e = .poll i
    · -- a poll of the operation: the history begins with where the token stands at its end
      subst he
      have hp : (s.step react (.poll i)).view.slot i =
          Ideal.outcome react f ((s.step react (.poll i)).raised token i) := by
        show _ = Ideal.outcome react f ((token i).any (s.step react (.poll i)).view.raised)
        rw [hv]
        exact Ideal.slot_step_poll hi
      rw [history, if_pos rfl, List.singleton_append]
      cases hr : (s.step react (.poll i)).raised token i with
      | true =>
        rw [hr] at hp
        exact sound'.slot_run_ready hp es
      | false =>
        rw [hr] at hp
        cases hf : (react f).1 with
        | inl next =>
          replace hp : (s.step react (.poll i)).view.slot i = .pending next := by
            simp [hp, Ideal.outcome, hf]
          simp only [fate, hf]
          exact ih sound' hp
        | inr r =>
          replace hp : (s.step react (.poll i)).view.slot i = .ready r := by
            simp [hp, Ideal.outcome, hf]
          simp only [fate, hf]
          exact sound'.slot_run_ready hp es
    · have hi' : (s.step react e).view.slot i = .pending f := by
        rw [hv, (Ideal.step_of_ne he).1, hi]
      rw [ih sound' hi', history, if_neg he, List.nil_append]

def after (react : F → (F ⊕ Except LoadError α) × List Token) (token : ι → Option Token) (future : ι → F)
    (es : List (Event ι)) : Jobs ι F α := (start token future).run react es

theorem after_append (es es' : List (Event ι)) :
    after react token future (es ++ es') = (after react token future es).run react es' :=
  List.foldl_append

theorem sound_after (es : List (Event ι)) : (after react token future es).Sound token :=
  (sound_start.run react es).1

omit [DecidableEq ι] in
theorem slot_start (i : ι) : (start token future : Jobs ι F α).view.slot i = .pending (future i) := by
  show Poll.pending (Guarded.of (token i) (future i)).op = _
  cases token i <;> rfl

omit [DecidableEq ι] in
theorem staged_start : (start token future : Jobs ι F α).view.Staged react future := by
  intro i f hf
  rw [slot_start] at hf
  cases hf
  exact .start

theorem view_after (es : List (Event ι)) :
    (after react token future es).view = (start token future).view.run react token es :=
  (sound_start.run react es).2

theorem view_after_append (es es' : List (Event ι)) :
    (after react token future (es ++ es')).view =
      (after react token future es).view.run react token es' := by
  rw [after_append]
  exact ((sound_after es).run react es').2

/-- What cancellation comes to, for operations that have seen these events. -/
structure Heeded (react : F → (F ⊕ Except LoadError α) × List Token) (token : ι → Option Token)
    (future : ι → F) (es : List (Event ι)) : Prop where
  /-- A poll of an operation that has not ended: it ends as canceled if its token is raised at the end of the
  poll, whether that happened before or in the poll.  Otherwise the poll is that of the future, and the result of
  the future is the result. -/
  polled : ∀ i f, (after react token future es).view.slot i = .pending f →
    (after react token future (es ++ [.poll i])).view.slot i =
      if (after react token future (es ++ [.poll i])).raised token i then .ready (.error .canceled)
      else (react f).1.elim .pending .ready
  /-- Before the first event no token is raised. -/
  lowered : ∀ t, (after react token future []).view.raised t = false
  /-- Canceling a token raises it. -/
  raises : ∀ u t, (after react token future (es ++ [.cancel u])).view.raised t = true ↔
    t = u ∨ (after react token future es).view.raised t = true
  /-- A poll under a token that is not raised comes to the future: it is one poll more, and raises the tokens that
  the future cancels in it. -/
  reaches : ∀ i f, (after react token future es).view.slot i = .pending f →
    (after react token future es).raised token i = false →
      (after react token future (es ++ [.poll i])).view.polls i = (after react token future es).view.polls i + 1 ∧
      ∀ t, (after react token future (es ++ [.poll i])).view.raised t = true ↔
        t ∈ (react f).2 ∨ (after react token future es).view.raised t = true
  /-- Under a raised token, and where the operation has ended, no future is polled and no token raised. -/
  stills : ∀ i, ((after react token future es).raised token i = true ∨
      ∀ f, (after react token future es).view.slot i ≠ .pending f) →
    (after react token future (es ++ [.poll i])).view.raised = (after react token future es).view.raised ∧
      (after react token future (es ++ [.poll i])).view.polls = (after react token future es).view.polls
  /-- An operation whose token is canceled between its polls ends as canceled at its next poll. -/
  canceledBetween : ∀ i f u es', token i = some u → (after react token future es).view.slot i = .pending f →
    .poll i ∉ es' →
      (after react token future (es ++ .cancel u :: es' ++ [.poll i])).view.slot i = .ready (.error .canceled)
  /-- An operation whose token is canceled in its own poll ends as canceled in that poll. -/
  canceledWithin : ∀ i f u, token i = some u → (after react token future es).view.slot i = .pending f →
    u ∈ (react f).2 → (after react token future (es ++ [.poll i])).view.slot i = .ready (.error .canceled)
  /-- The result stands. -/
  stands : ∀ i r es', (after react token future es).view.slot i = .ready r →
    (after react token future (es ++ es')).view.slot i = .ready r
  /-- Once its token is raised a future is not polled any more, and not at all if it was not polled before. -/
  rests : ∀ i es', (after react token future es).raised token i = true →
    (after react token future (es ++ es')).view.polls i = (after react token future es).view.polls i ∧
      (.poll i ∉ es → (after react token future (es ++ es')).view.polls i = 0)
  /-- A raised token stays raised. -/
  stays : ∀ t es', (after react token future es).view.raised t = true →
    (after react token future (es ++ es')).view.raised t = true
  /-- Canceling a token changes nothing in the operations, and raises no other token. -/
  spares : ∀ u, (after react token future (es ++ [.cancel u])).slot = (after react token future es).slot ∧
    ∀ t, t ≠ u → (after react token future (es ++ [.cancel u])).view.raised t =
      (after react token future es).view.raised t
  /-- What becomes of an operation is a function of its future and of where its own token stands at the end of its
  own polls: no other token has a part in it. -/
  decided : ∀ i, (after react token future es).view.slot i =
    fate react (future i) (history react token i (start token future) es)
  /-- Canceling tokens of a set, or not, and at other times, makes no difference to operations that are not under
  one of them, and to other tokens.  Futures under a token of the set must keep to it: one that is not polled any
  more no longer cancels what it would have canceled. -/
  apart : ∀ U, Ideal.Confined U react token future → ∀ es',
    es.filter (Ideal.outside U token) = es'.filter (Ideal.outside U token) →
      Ideal.Agree U token (after react token future es).view (after react token future es').view

theorem view_after_step (es : List (Event ι)) (e : Event ι) :
    (after react token future (es ++ [e])).view = (after react token future es).view.step react token e :=
  view_after_append es [e]

theorem raised_after_append {es : List (Event ι)} {t : Token}
    (ht : (after react token future es).view.raised t = true) (es' : List (Event ι)) :
    (after react token future (es ++ es')).view.raised t = true := by
  rw [view_after_append]
  exact Ideal.run_induction (P := (·.raised t = true)) (fun _ e h => Ideal.raised_step h e) ht es'

/-- A poll of an operation whose token is raised in the end leaves it canceled. -/
theorem slot_after_poll_canceled {es : List (Event ι)} {u : Token} (ht : token i = some u)
    (hi : (after react token future es).view.slot i = .pending f)
    (hu : (after react token future (es ++ [.poll i])).view.raised u = true) :
    (after react token future (es ++ [.poll i])).view.slot i = .ready (.error .canceled) := by
  rw [view_after_step] at hu ⊢
  rw [Ideal.slot_step_poll hi, ht, Option.any_some, hu]
  rfl

/-- An operation whose token is canceled ends as canceled at its next poll, whatever happens between the two. -/
theorem slot_after_cancel_poll {es : List (Event ι)} {u : Token} (ht : token i = some u)
    (hi : (after react token future es).view.slot i = .pending f) (es' : List (Event ι)) (hes' : .poll i ∉ es') :
    (after react token future (es ++ .cancel u :: es' ++ [.poll i])).view.slot i = .ready (.error .canceled) := by
  have hlist : es ++ .cancel u :: es' ++ [.poll i] = (es ++ [.cancel u] ++ es') ++ [.poll i] := by simp
  have hraised : (after react token future (es ++ [.cancel u])).view.raised u = true := by
    rw [view_after_step]
    exact Ideal.raised_raise_iff.mpr (.inl List.mem_cons_self)
  have hslot : (after react token future (es ++ [.cancel u] ++ es')).view.slot i = .pending f := by
    have hmem : .poll i ∉ .cancel u :: es' := by simpa using hes'
    rw [List.append_assoc, List.singleton_append, view_after_append, (Ideal.run_of_not_mem hmem).1, hi]
  rw [hlist]
  refine slot_after_poll_canceled ht hslot ?_
  rw [List.append_assoc (es ++ [Event.cancel u])]
  exact raised_after_append hraised (es' ++ [.poll i])

/-- An operation whose future cancels its own token ends as canceled in that poll. -/
theorem slot_after_canceling_poll {es : List (Event ι)} {u : Token} (ht : token i = some u)
    (hi : (after react token future es).view.slot i = .pending f) (hu : u ∈ (react f).2) :
    (after react token future (es ++ [.poll i])).view.slot i = .ready (.error .canceled) := by
  refine slot_after_poll_canceled ht hi ?_
  cases hr : (after react token future es).raised token i with
  | true =>
    have hany : (token i).any (after react token future es).view.raised = true := hr
    rw [ht, Option.any_some] at hany
    exact raised_after_append hany [.poll i]
  | false =>
    rw [view_after_step]
    exact ((Ideal.step_poll_of_unraised hi hr).2 u).mpr (.inl hu)

/-- **Cancellation is heeded**, by any operations and after any events. -/
theorem heeded_after (react : F → (F ⊕ Except LoadError α) × List Token) (token : ι → Option Token)
    (future : ι → F) (es : List (Event ι)) : Heeded react token future es where
  polled i f hi := by
    show _ = Ideal.outcome react f ((token i).any (after react token future (es ++ [.poll i])).view.raised)
    rw [view_after_step]
    exact Ideal.slot_step_poll hi
  lowered t := rfl
  raises u t := by
    rw [view_after_step]
    exact Ideal.raised_raise_iff.trans (or_congr_left List.mem_singleton)
  reaches i f hi hr := by
    rw [view_after_step]
    exact Ideal.step_poll_of_unraised hi hr
  stills i h := by
    rw [view_after_step]
    exact Ideal.step_poll_of_still h
  canceledBetween _ _ _ es' ht hi hes' := slot_after_cancel_poll ht hi es' hes'
  canceledWithin _ _ _ ht hi hu := slot_after_canceling_poll ht hi hu
  stands i r es' hi := by
    rw [after_append]
    exact (sound_after es).slot_run_ready hi es'
  rests i es' hr := by
    have hkeep : (after react token future (es ++ es')).view.polls i =
        (after react token future es).view.polls i := by
      replace hr : (token i).any (after react token future es).view.raised = true := hr
      rw [view_after_append]
      exact Ideal.polls_run_of_raised hr es'
    refine ⟨hkeep, fun hn => hkeep.trans ?_⟩
    rw [view_after]
    exact (Ideal.run_of_not_mem hn).2
  stays t es' ht := raised_after_append ht es'
  spares u := by
    have hs : after react token future (es ++ [.cancel u]) =
        (after react token future es).step react (.cancel u) := after_append es [.cancel u]
    rw [hs]
    exact ⟨rfl, fun t ht => Cancellation.isCanceled_cancel_of_ne _ ht⟩
  decided i := sound_start.slot_run (slot_start i) es
  apart U confined es' he := by
    have agree := Ideal.agree_run_filter confined staged_start
      (Ideal.agree_refl (start token future : Jobs ι F α).view)
    rw [view_after, view_after]
    exact (agree es).trans (he ▸ (agree es').symm)

/-- Of two operations, each under a token of its own, one cancels its own in its first poll, which leaves it
pending.  It ends in that poll, and what happens to its token makes no difference to the other.  The other ends as
canceled if its own token is canceled before its poll. -/
theorem heeded_after_pair :
    let react : Nat → (Nat ⊕ Except LoadError Nat) × List Token
      | 0 => (.inr (.ok 7), [])
      | n + 1 => (.inl n, [⟨n⟩])
    let token (i : Bool) : Option Token := some ⟨if i then 1 else 0⟩
    let future (i : Bool) : Nat := if i then 0 else 1
    (after react token future [.poll false]).view.slot false = .ready (.error .canceled) ∧
      (after react token future [.poll false, .poll false]).view.polls false = 1 ∧
      (after react token future [.poll false, .poll true]).view.slot true =
        (after react token future [.cancel ⟨0⟩, .poll true]).view.slot true ∧
      (after react token future [.cancel ⟨1⟩, .poll false, .poll true]).view.slot true =
        .ready (.error .canceled) := by
  intro react token future
  have confined : Ideal.Confined (· = ⟨0⟩) react token future := by
    intro i hi f hf t ht
    cases i with
    | true => cases hi
    | false =>
      have hle : f ≤ 1 := by
        clear ht
        induction hf with
        | start => exact Nat.le_refl 1
        | @next g h _ hg ih =>
          cases g with
          | zero => cases hg
          | succ n => cases hg; omega
      obtain rfl | rfl : f = 0 ∨ f = 1 := by omega
      · cases ht
      · exact decide_eq_true (List.mem_singleton.mp ht)
  refine ⟨?_, ?_, ?_, ?_⟩
  · exact (heeded_after react token future []).polled false 1 rfl
  · exact ((heeded_after react token future [.poll false]).rests false [.poll false] rfl).1
  · exact ((heeded_after react token future [.poll false, .poll true]).apart _ confined
      [.cancel ⟨0⟩, .poll true] (by decide)).slot true rfl
  · exact (heeded_after react token future []).canceledBetween true 0 ⟨1⟩ [.poll false] rfl rfl (by decide)

end Jobs

end ImageLoader
