import ImageLoader.Proofs.Cancel.Tracked

/-!
# Work under tokens, as it is meant

Operations run side by side, each under a token or under none.  Seen without guards and handles, a token is
raised or is not, and an operation ends as canceled in the first of its polls at whose end its token is raised.

* `step_cases`: what an event does.
* `slot_step_poll`, `polls_run_of_raised`: an operation ends in a poll at whose end its token is raised, and
  the future of an operation under a raised token is not polled.
* `agree_run_filter`: **events inside of a set of tokens make no difference outside of it.**
-/

namespace ImageLoader.Jobs

variable {ι F α β : Type}

/-- What happens: an operation is polled, or a token is canceled. -/
inductive Event (ι : Type) where
  | poll (i : ι)
  | cancel (t : Token)
deriving DecidableEq

structure Ideal (ι F α : Type) where
  raised : Token → Bool
  /-- How often the future of an operation was polled. -/
  polls : ι → Nat
  /-- What the last poll of an operation left. -/
  slot : ι → Poll F (Except LoadError α)

namespace Ideal

variable {react : F → (F ⊕ Except LoadError α) × List Token} {token : ι → Option Token} {future : ι → F}
  {a b c : Ideal ι F α} {e : Event ι} {i j : ι} {t : Token} {f : F} {r : Except LoadError α}
  {U : Token → Bool}

/-! ## Tokens and futures

A future is what its polls do: each leaves the future to be polled next, or gives the result, and cancels
tokens. -/

def raise (a : Ideal ι F α) (ts : List Token) : Ideal ι F α :=
  { a with raised := fun t => ts.contains t || a.raised t }

/-- What is left of an operation whose future is polled, when its token is raised then or is not. -/
def outcome (react : F → (F ⊕ Except LoadError α) × List Token) (f : F) (raised : Bool) :
    Poll F (Except LoadError α) :=
  if raised then .ready (.error .canceled) else (react f).1.elim .pending .ready

theorem endedBy_elim (react : F → (F ⊕ Except LoadError α) × List Token) (f : F) (raised : Bool) :
    ((react f).1.elim Poll.pending Poll.ready).endedBy raised = outcome react f raised := by
  unfold outcome
  cases (react f).1 <;> rfl

theorem raised_raise_iff {ts : List Token} : (a.raise ts).raised t = true ↔ t ∈ ts ∨ a.raised t = true := by
  simp [raise]

theorem raised_raise (hr : a.raised t = true) (ts : List Token) : (a.raise ts).raised t = true := by
  simp [raise, hr]

theorem raised_raise_of_not_mem {ts : List Token} (h : t ∉ ts) : (a.raise ts).raised t = a.raised t := by
  simp [raise, h]

inductive Comes (react : F → (F ⊕ Except LoadError α) × List Token) (f : F) : F → Prop
  | start : Comes react f f
  | next {g h : F} : Comes react f g → (react g).1 = .inl h → Comes react f h

/-- What is left of every operation is a stage of its future. -/
def Staged (react : F → (F ⊕ Except LoadError α) × List Token) (future : ι → F) (a : Ideal ι F α) : Prop :=
  ∀ i f, a.slot i = .pending f → Comes react (future i) f

/-- Futures of operations under a token in the set cancel no token outside of it. -/
def Confined (U : Token → Bool) (react : F → (F ⊕ Except LoadError α) × List Token)
    (token : ι → Option Token) (future : ι → F) : Prop :=
  ∀ i, (token i).any U = true → ∀ f, Comes react (future i) f → ∀ t ∈ (react f).2, U t = true

/-! ## The view from outside of a set of tokens -/

/-- Is the event about a token outside of the set, or about an operation that is not under one in it? -/
def outside (U : Token → Bool) (token : ι → Option Token) : Event ι → Bool
  | .poll i => !(token i).any U
  | .cancel t => !U t

/-- The same, as far as the tokens in the set and the operations under them are not concerned. -/
structure Agree (U : Token → Bool) (token : ι → Option Token) (a b : Ideal ι F α) : Prop where
  raised : ∀ t, U t = false → a.raised t = b.raised t
  polls : ∀ i, (token i).any U = false → a.polls i = b.polls i
  slot : ∀ i, (token i).any U = false → a.slot i = b.slot i

theorem agree_refl (a : Ideal ι F α) : Agree U token a a := ⟨fun _ _ => rfl, fun _ _ => rfl, fun _ _ => rfl⟩

namespace Agree

variable (agree : Agree U token a b)
include agree

theorem symm : Agree U token b a where
  raised t ht := (agree.raised t ht).symm
  polls i hi := (agree.polls i hi).symm
  slot i hi := (agree.slot i hi).symm

theorem trans (agree' : Agree U token b c) : Agree U token a c where
  raised t ht := (agree.raised t ht).trans (agree'.raised t ht)
  polls i hi := (agree.polls i hi).trans (agree'.polls i hi)
  slot i hi := (agree.slot i hi).trans (agree'.slot i hi)

theorem raised_raise (ts : List Token) (ht : U t = false) : (a.raise ts).raised t = (b.raise ts).raised t :=
  congrArg (ts.contains t || ·) (agree.raised t ht)

theorem any_raised_raise (ts : List Token) (hi : (token i).any U = false) :
    (token i).any (a.raise ts).raised = (token i).any (b.raise ts).raised := by
  cases ht : token i with
  | none => rfl
  | some t => exact agree.raised_raise ts (by rwa [ht] at hi)

end Agree

end Ideal

/-! ## Events -/

variable [DecidableEq ι]

/-- Puts another value at one place. -/
def put (f : ι → β) (i : ι) (b : β) : ι → β := fun j => if j = i then b else f j

@[simp] theorem put_self (f : ι → β) (i : ι) (b : β) : put f i b i = b := if_pos rfl

theorem put_of_ne {f : ι → β} {i j : ι} {b : β} (h : j ≠ i) : put f i b j = f j := if_neg h

theorem put_congr {f g : ι → β} {i j : ι} {b c : β} (h : f j = g j) (hb : b = c) :
    put f i b j = put g i c j := by
  unfold put
  rw [h, hb]

theorem put_map {γ : Type} (f : ι → β) (i : ι) (b : β) (m : β → γ) :
    (fun j => m (put f i b j)) = put (fun j => m (f j)) i (m b) := by
  funext j
  exact apply_ite m ..

namespace Ideal

variable {react : F → (F ⊕ Except LoadError α) × List Token} {token : ι → Option Token} {future : ι → F}
  {a b : Ideal ι F α} {e : Event ι} {i : ι} {t : Token} {f : F} {r : Except LoadError α} {U : Token → Bool}

/-- One event.  An operation whose token is raised ends as canceled, at once or after the poll of its
future. -/
def step (react : F → (F ⊕ Except LoadError α) × List Token) (token : ι → Option Token)
    (a : Ideal ι F α) : Event ι → Ideal ι F α
  | .poll i =>
    match a.slot i with
    | .pending f =>
      if (token i).any a.raised then { a with slot := put a.slot i (.ready (.error .canceled)) }
      else
        { raised := (a.raise (react f).2).raised
          polls := put a.polls i (a.polls i + 1)
          slot := put a.slot i (outcome react f ((token i).any (a.raise (react f).2).raised)) }
    | _ => a
  | .cancel t => a.raise [t]

def run (react : F → (F ⊕ Except LoadError α) × List Token) (token : ι → Option Token)
    (a : Ideal ι F α) (es : List (Event ι)) : Ideal ι F α := es.foldl (step react token) a

theorem step_cases (react : F → (F ⊕ Except LoadError α) × List Token) (token : ι → Option Token)
    (a : Ideal ι F α) (e : Event ι) :
    (∃ t, e = .cancel t ∧ a.step react token e = a.raise [t]) ∨
    ∃ i, e = .poll i ∧
      ((∀ f, a.slot i ≠ .pending f) ∧ a.step react token e = a ∨
        ∃ f, a.slot i = .pending f ∧
          ((token i).any a.raised = true ∧
              a.step react token e = { a with slot := put a.slot i (.ready (.error .canceled)) } ∨
            (token i).any a.raised = false ∧
              a.step react token e =
                { raised := (a.raise (react f).2).raised
                  polls := put a.polls i (a.polls i + 1)
                  slot := put a.slot i
                    (outcome react f ((token i).any (a.raise (react f).2).raised)) })) := by
  cases e with
  | cancel t => exact .inl ⟨t, rfl, rfl⟩
  | poll i =>
    refine .inr ⟨i, rfl, ?_⟩
    cases hi : a.slot i with
    | pending f =>
      refine .inr ⟨f, rfl, ?_⟩
      cases hr : (token i).any a.raised with
      | true => exact .inl ⟨rfl, by simp only [step, hi, hr, if_true]⟩
      | false => exact .inr ⟨rfl, by simp only [step, hi, hr, Bool.false_eq_true, if_false]⟩
    | ready r => exact .inl ⟨fun f h => (nomatch h), by simp only [step, hi]⟩
    | panicked p => exact .inl ⟨fun f h => (nomatch h), by simp only [step, hi]⟩

theorem raised_step (hr : a.raised t = true) (e : Event ι) : (a.step react token e).raised t = true := by
  rcases step_cases react token a e with ⟨u, -, hs⟩ | ⟨i, -, ⟨-, hs⟩ | ⟨f, -, ⟨-, hs⟩ | ⟨-, hs⟩⟩⟩ <;>
    rw [hs]
  · exact raised_raise hr _
  · exact hr
  · exact hr
  · exact raised_raise hr _

theorem any_raised_step (o : Option Token) (hr : o.any a.raised = true) (e : Event ι) :
    o.any (a.step react token e).raised = true := by
  cases o with
  | none => exact hr
  | some t => exact raised_step hr e

/-- Only a poll of the operation changes what is left of it, or polls its future. -/
theorem step_of_ne (he : e ≠ .poll i) :
    (a.step react token e).slot i = a.slot i ∧ (a.step react token e).polls i = a.polls i := by
  rcases step_cases react token a e with
    ⟨u, -, hs⟩ | ⟨j, rfl, ⟨-, hs⟩ | ⟨f, -, ⟨-, hs⟩ | ⟨-, hs⟩⟩⟩ <;> rw [hs]
  · exact ⟨rfl, rfl⟩
  · exact ⟨rfl, rfl⟩
  all_goals
    have hij : i ≠ j := fun h => he (h ▸ rfl)
    simp only [put_of_ne hij, and_self]

/-- A poll that comes to the future is one more of it, and raises the tokens that the future cancels. -/
theorem step_poll_of_unraised (hi : a.slot i = .pending f) (hr : (token i).any a.raised = false) :
    (a.step react token (.poll i)).polls i = a.polls i + 1 ∧
      ∀ t, (a.step react token (.poll i)).raised t = true ↔ t ∈ (react f).2 ∨ a.raised t = true := by
  have hs : a.step react token (.poll i) =
      { raised := (a.raise (react f).2).raised
        polls := put a.polls i (a.polls i + 1)
        slot := put a.slot i (outcome react f ((token i).any (a.raise (react f).2).raised)) } := by
    simp only [step, hi, hr, Bool.false_eq_true, if_false]
  rw [hs]
  exact ⟨put_self .., fun t => raised_raise_iff⟩

/-- A poll that does not come to the future raises nothing, and counts for nothing. -/
theorem step_poll_of_still (h : (token i).any a.raised = true ∨ ∀ f, a.slot i ≠ .pending f) :
    (a.step react token (.poll i)).raised = a.raised ∧ (a.step react token (.poll i)).polls = a.polls := by
  rcases step_cases react token a (.poll i) with
    ⟨u, he, -⟩ | ⟨j, he, ⟨-, hs⟩ | ⟨f, hf, ⟨-, hs⟩ | ⟨hr, -⟩⟩⟩ <;> cases he
  · rw [hs]
    exact ⟨rfl, rfl⟩
  · rw [hs]
    exact ⟨rfl, rfl⟩
  · rcases h with h | h
    · rw [h] at hr
      cases hr
    · exact absurd hf (h f)

theorem slot_step_poll (hi : a.slot i = .pending f) :
    (a.step react token (.poll i)).slot i =
      outcome react f ((token i).any (a.step react token (.poll i)).raised) := by
  cases hr : (token i).any a.raised with
  | true => simp [step, hi, hr, outcome]
  | false => simp [step, hi, hr]

theorem slot_step_ready (hi : a.slot i = .ready r) (e : Event ι) :
    (a.step react token e).slot i = .ready r := by
  by_cases he : e = .poll i
  · subst he
    simp only [step, hi]
  · rw [(step_of_ne he).1, hi]

theorem polls_step_of_raised (hr : (token i).any a.raised = true) (e : Event ι) :
    (a.step react token e).polls i = a.polls i := by
  by_cases he : e = .poll i
  · subst he
    rcases step_cases react token a (.poll i) with
      ⟨u, he, -⟩ | ⟨j, he, ⟨-, hs⟩ | ⟨f, -, ⟨-, hs⟩ | ⟨hr', hs⟩⟩⟩ <;> cases he
    · rw [hs]
    · rw [hs]
    · rw [hr] at hr'
      cases hr'
  · exact (step_of_ne he).2

theorem run_induction {P : Ideal ι F α → Prop} (h : ∀ a e, P a → P (a.step react token e)) (ha : P a)
    (es : List (Event ι)) : P (a.run react token es) := by
  induction es generalizing a with
  | nil => exact ha
  | cons e es ih => exact ih (h a e ha)

theorem polls_run_of_raised (hr : (token i).any a.raised = true) (es : List (Event ι)) :
    (a.run react token es).polls i = a.polls i :=
  (run_induction (P := fun b => (token i).any b.raised = true ∧ b.polls i = a.polls i)
    (fun _ e h => ⟨any_raised_step _ h.1 e, (polls_step_of_raised h.1 e).trans h.2⟩) ⟨hr, rfl⟩ es).2

theorem run_of_not_mem {es : List (Event ι)} (he : .poll i ∉ es) :
    (a.run react token es).slot i = a.slot i ∧ (a.run react token es).polls i = a.polls i := by
  induction es generalizing a with
  | nil => exact ⟨rfl, rfl⟩
  | cons e es ih =>
    rw [List.mem_cons, not_or] at he
    obtain ⟨hne, hes⟩ := he
    have hstep : (a.step react token e).slot i = a.slot i ∧ (a.step react token e).polls i = a.polls i :=
      step_of_ne (Ne.symm hne)
    obtain ⟨hslot, hpolls⟩ := ih (a := a.step react token e) hes
    exact ⟨hslot.trans hstep.1, hpolls.trans hstep.2⟩

theorem staged_step (h : a.Staged react future) (e : Event ι) :
    (a.step react token e).Staged react future := by
  intro i f hf
  by_cases he : e = .poll i
  · subst he
    cases hi : a.slot i with
    | pending g =>
      rw [slot_step_poll hi, outcome] at hf
      split at hf
      · cases hf
      · cases hg : (react g).1 with
        | inl next =>
          rw [hg] at hf
          cases hf
          exact .next (h i g hi) hg
        | inr r =>
          rw [hg] at hf
          cases hf
    | ready r =>
      rw [slot_step_ready hi] at hf
      cases hf
    | panicked p =>
      simp only [step, hi] at hf
      cases hf
  · rw [(step_of_ne he).1] at hf
    exact h i f hf

/-- An event outside of the set does the same to states that are the same there. -/
theorem Agree.step (agree : Agree U token a b) (he : outside U token e = true) :
    Agree U token (a.step react token e) (b.step react token e) := by
  cases e with
  | cancel t => exact ⟨fun u => agree.raised_raise [t], agree.polls, agree.slot⟩
  | poll i =>
    have hi : (token i).any U = false := by simpa [outside] using he
    have hslot := agree.slot i hi
    cases ha : a.slot i with
    | pending f =>
      have hany : (token i).any a.raised = (token i).any b.raised := agree.any_raised_raise [] hi
      rw [ha] at hslot
      cases hr : (token i).any a.raised with
      | true =>
        simp only [Ideal.step, ha, ← hslot, ← hany, hr, if_true]
        exact ⟨agree.raised, agree.polls, fun j hj => put_congr (agree.slot j hj) rfl⟩
      | false =>
        have hraise := agree.any_raised_raise (react f).2 hi
        simp only [Ideal.step, ha, ← hslot, ← hany, hr, Bool.false_eq_true, if_false]
        refine ⟨fun u => agree.raised_raise _, fun j hj => ?_, fun j hj => ?_⟩
        · exact put_congr (agree.polls j hj) (congrArg (· + 1) (agree.polls i hi))
        · exact put_congr (agree.slot j hj) (congrArg (outcome react f) hraise)
    | ready r =>
      simp only [Ideal.step, ha, ← hslot]
      exact agree
    | panicked p =>
      simp only [Ideal.step, ha, ← hslot]
      exact agree

/-- An event inside of the set changes nothing outside: it cancels tokens of the set, and at most polls an
operation under one of them. -/
theorem agree_step (confined : Confined U react token future) (h : a.Staged react future)
    (he : outside U token e = false) : Agree U token a (a.step react token e) := by
  rcases step_cases react token a e with
    ⟨u, rfl, hs⟩ | ⟨i, rfl, ⟨-, hs⟩ | ⟨f, hf, ⟨-, hs⟩ | ⟨-, hs⟩⟩⟩ <;> rw [hs]
  · have hu : U u = true := by simpa [outside] using he
    refine ⟨fun t ht => (raised_raise_of_not_mem ?_).symm, fun _ _ => rfl, fun _ _ => rfl⟩
    rw [List.mem_singleton]
    rintro rfl
    rw [hu] at ht
    cases ht
  · exact ⟨fun _ _ => rfl, fun _ _ => rfl, fun _ _ => rfl⟩
  all_goals
    have hi : (token i).any U = true := by simpa [outside] using he
    have hne (j : ι) (hj : (token j).any U = false) : j ≠ i := by
      rintro rfl
      rw [hi] at hj
      cases hj
  · exact ⟨fun _ _ => rfl, fun _ _ => rfl, fun j hj => (put_of_ne (hne j hj)).symm⟩
  · -- the future that is polled here is a stage of one that is confined
    refine ⟨fun t ht => (raised_raise_of_not_mem fun hm => ?_).symm,
      fun j hj => (put_of_ne (hne j hj)).symm, fun j hj => (put_of_ne (hne j hj)).symm⟩
    rw [confined i hi f (h i f hf) t hm] at ht
    cases ht

/-- Outside of the set, the events inside of it could as well be left out. -/
theorem agree_run_filter (confined : Confined U react token future) (h : a.Staged react future)
    (agree : Agree U token a b) (es : List (Event ι)) :
    Agree U token (a.run react token es) (b.run react token (es.filter (outside U token))) := by
  induction es generalizing a b with
  | nil => exact agree
  | cons e es ih =>
    cases he : outside U token e with
    | true =>
      rw [List.filter_cons_of_pos he]
      exact ih (staged_step h e) (agree.step he)
    | false =>
      -- the event is left out on the one side, and changes nothing outside on the other
      rw [List.filter_cons_of_neg (by simp [he])]
      exact ih (staged_step h e) ((agree_step confined h he).symm.trans agree)

end Ideal

end ImageLoader.Jobs
