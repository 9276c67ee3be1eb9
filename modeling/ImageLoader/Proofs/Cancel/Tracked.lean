import ImageLoader.Proofs.Cancel.Guarded

/-!
# Handles follow their tokens

In every state that the operations on tokens lead to, a token that is not raised is calm: the state is orderly.
There the handle of registered work tracks its token: it is aborted from the moment when the token is raised, and
not before.  So the three looks of a guarded poll, at the token before the work begins, at the handle before and
after a poll of the work, and at the token before a result is handed out, come to one question: is the token
raised?

* `Follows`: what keeps a state orderly and handles on track; canceling and registering do (`follows_cancel`,
  `follows_register`).
* `Guarded.poll_of_raised`: **work under a raised token ends as canceled, and is not polled.**
* `Guarded.poll_of_unraised`: **other work is polled, and ends as canceled if that raised its token.**
-/

namespace ImageLoader

namespace Cancellation

variable {c c' c'' : Cancellation} {t u : Token} {h : AbortHandle}

/-! ## Orderly states -/

/-- Every token that is not raised is calm. -/
def Orderly (c : Cancellation) : Prop := ∀ t, c.isCanceled t = false → c.Calm t

theorem orderly_empty : ({} : Cancellation).Orderly := fun t _ => calm_empty t

/-- The handle of work under the token: aborted with the token, and on its list until then. -/
def Tracks (c : Cancellation) (t : Token) (h : AbortHandle) : Prop :=
  c.isCanceled t = true ∧ c.aborted h = true ∨ c.Calm t ∧ h ∈ (c.token t).inFlight

theorem Tracks.aborted_eq (ht : c.Tracks t h) : c.aborted h = c.isCanceled t := by
  rcases ht with ⟨hc, ha⟩ | ⟨calm, hm⟩
  · rw [hc, ha]
  · rw [calm.raised, calm.running h hm]

/-- What leads from one state to another keeps it orderly, and keeps handles on the track of their tokens. -/
structure Follows (c c' : Cancellation) : Prop where
  orderly : c.Orderly → c'.Orderly
  tracks : ∀ t h, c.Tracks t h → c'.Tracks t h

theorem follows_refl (c : Cancellation) : Follows c c := ⟨id, fun _ _ => id⟩

theorem Follows.trans (h : Follows c c') (h' : Follows c' c'') : Follows c c'' :=
  ⟨h'.orderly ∘ h.orderly, fun t k => h'.tracks t k ∘ h.tracks t k⟩

theorem follows_cancel (c : Cancellation) (u : Token) : Follows c (c.cancel u) where
  orderly orderly t hc := by
    have hne : t ≠ u := by
      rintro rfl
      rw [isCanceled_cancel] at hc
      cases hc
    rw [isCanceled_cancel_of_ne c hne] at hc
    exact (spares_cancel c (Ne.symm hne) (orderly t hc)).1
  tracks t h := by
    have habort : h ∈ (c.token u).inFlight ∨ c.aborted h = true → (c.cancel u).aborted h = true :=
      (aborted_cancel c u h).mpr
    by_cases hu : t = u
    · subst hu
      rintro (⟨-, ha⟩ | ⟨-, hm⟩)
      · exact .inl ⟨isCanceled_cancel c t, habort (.inr ha)⟩
      · exact .inl ⟨isCanceled_cancel c t, habort (.inl hm)⟩
    · rintro (⟨hc, ha⟩ | ⟨calm, hm⟩)
      · exact .inl ⟨(isCanceled_cancel_of_ne c hu).trans hc, habort (.inr ha)⟩
      · obtain ⟨calm', hkeep⟩ := spares_cancel c (Ne.symm hu) calm
        exact .inr ⟨calm', hkeep h hm⟩

theorem follows_register (c : Cancellation) (u : Token) : Follows c (c.register u).2 where
  orderly orderly t hc := by
    rw [isCanceled_register] at hc
    exact (spares_register c t u (orderly t hc)).1
  tracks t h := by
    rintro (⟨hc, ha⟩ | ⟨calm, hm⟩)
    · exact .inl ⟨(isCanceled_register c u t).trans hc, (aborted_register_iff c u h).mpr (.inr ha)⟩
    · obtain ⟨calm', hkeep⟩ := spares_register c t u calm
      exact .inr ⟨calm', hkeep h hm⟩

theorem tracks_register (orderly : c.Orderly) (t : Token) :
    (c.register t).2.Tracks t (c.register t).1 := by
  cases hc : c.isCanceled t with
  | true => exact .inl ⟨(isCanceled_register c t t).trans hc, aborted_register hc⟩
  | false => exact .inr ⟨(spares_register c t t (orderly t hc)).1, mem_register c t⟩

def cancelAll (c : Cancellation) (ts : List Token) : Cancellation := ts.foldl cancel c

theorem follows_cancelAll (c : Cancellation) (ts : List Token) : Follows c (c.cancelAll ts) := by
  induction ts generalizing c with
  | nil => exact follows_refl c
  | cons t ts ih => exact (follows_cancel c t).trans (ih (c.cancel t))

theorem isCanceled_cancelAll (c : Cancellation) (ts : List Token) (u : Token) :
    (c.cancelAll ts).isCanceled u = (ts.contains u || c.isCanceled u) := by
  induction ts generalizing c with
  | nil => simp [cancelAll]
  | cons t ts ih =>
    show ((c.cancel t).cancelAll ts).isCanceled u = _
    rw [ih, List.contains_cons]
    by_cases hu : u = t
    · subst hu
      rw [isCanceled_cancel]
      simp
    · rw [isCanceled_cancel_of_ne c hu, beq_eq_false_iff_ne.mpr hu, Bool.false_or]

end Cancellation

/-! ## Polls of work whose handle is on track -/

namespace Poll

variable {F G α : Type}

/-- What a poll of the work comes to, when the token is raised or is not at its end. -/
def endedBy (raised : Bool) : Poll F (Except LoadError α) → Poll F (Except LoadError α)
  | panicked p => panicked p
  | p => if raised then ready (.error .canceled) else p

theorem endedBy_false (p : Poll F (Except LoadError α)) : p.endedBy false = p := by
  cases p <;> rfl

theorem mapNext_mapNext {wrap : F → G} {unwrap : G → F} (h : ∀ f, unwrap (wrap f) = f) (p : Poll F α) :
    (p.mapNext wrap).mapNext unwrap = p := by
  cases p with
  | pending f => exact congrArg pending (h f)
  | _ => rfl

theorem eq_of_mapNext_eq_pending {wrap : F → G} {p : Poll F α} {g : G} (h : p.mapNext wrap = .pending g) :
    ∃ f, wrap f = g := by
  cases p with
  | pending f => exact ⟨f, Poll.pending.inj h⟩
  | _ => cases h

end Poll

namespace Guarded

variable {F α σ : Type} {inner : F → World σ → Poll F (Except LoadError α) × World σ}
  {g : Guarded F} {w : World σ}

def token : Guarded F → Option Token
  | bare _ => none
  | waiting t _ | underway t _ _ => some t

/-- The handle of the work, once it has one, is on the track of the token. -/
def Tracked (c : Cancellation) : Guarded F → Prop
  | bare _ | waiting _ _ => True
  | underway t h _ => c.Tracks t h

theorem Tracked.follow {c c' : Cancellation} (hf : c.Follows c') (hg : g.Tracked c) : g.Tracked c' := by
  cases g with
  | underway t h op => exact hf.tracks t h hg
  | _ => trivial

theorem poll_of_raised (hg : g.Tracked w.tokens) (hr : g.token.any w.tokens.isCanceled = true) :
    poll inner g w = (.ready (.error .canceled), w) := by
  cases g with
  | bare op => cases hr
  | waiting t op =>
    replace hr : w.tokens.isCanceled t = true := hr
    simp [poll, cancellation, hr]
  | underway t h op =>
    have ha : w.tokens.aborted h = true := (Cancellation.Tracks.aborted_eq hg).trans hr
    simp [poll, pollUnderway, cancellation, ha]

/-- Where the token stands decides what a poll of registered work comes to. -/
theorem pollUnderway_of_tracks {t : Token} {h : AbortHandle} {op : F} (ht : w.tokens.Tracks t h)
    (hr : w.tokens.isCanceled t = false) (hf : w.tokens.Follows (inner op w).2.tokens) :
    pollUnderway inner t h op w =
      (((inner op w).1.endedBy ((inner op w).2.tokens.isCanceled t)).mapNext (underway t h),
        (inner op w).2) := by
  have ha : w.tokens.aborted h = false := ht.aborted_eq.trans hr
  have ha' := (hf.tracks t h ht).aborted_eq
  rcases hi : inner op w with ⟨p, w'⟩
  replace ha' : w'.tokens.aborted h = w'.tokens.isCanceled t := by rwa [hi] at ha'
  simp only [pollUnderway, cancellation, ha, hi, Bool.false_eq_true, if_false]
  cases p with
  | pending next => simp only [ha', Poll.endedBy]; split <;> rfl
  | ready r => simp only [Poll.endedBy]; split <;> rfl
  | panicked q => rfl

/-- A poll of work without a token, or under one that is not raised: the work is polled, where it sees its own
registration, and ends as canceled if its token is then raised. -/
theorem poll_of_unraised (orderly : w.tokens.Orderly) (hg : g.Tracked w.tokens)
    (hr : g.token.any w.tokens.isCanceled = false)
    (hf : ∀ v : World σ, v.tokens.Follows (inner g.op v).2.tokens) :
    ∃ v : World σ, ∃ wrap : F → Guarded F,
      v.state = w.state ∧ v.tokens.isCanceled = w.tokens.isCanceled ∧ w.tokens.Follows v.tokens ∧
      (∀ op, (wrap op).op = op ∧ (wrap op).token = g.token ∧ (wrap op).Tracked (inner g.op v).2.tokens) ∧
      poll inner g w = (((inner g.op v).1.endedBy
        (g.token.any (inner g.op v).2.tokens.isCanceled)).mapNext wrap, (inner g.op v).2) := by
  -- the future sees the world as it is, or with the registration that its first poll makes
  cases g with
  | bare op =>
    refine ⟨w, bare, rfl, rfl, Cancellation.follows_refl _, fun _ => ⟨rfl, rfl, trivial⟩, ?_⟩
    rw [token, Option.any_none, Poll.endedBy_false]
    rfl
  | waiting t op =>
    replace hr : w.tokens.isCanceled t = false := hr
    have hreg := w.tokens.follows_register t
    have ht := Cancellation.tracks_register orderly t
    let v : World σ := { w with tokens := (w.tokens.register t).2 }
    have hv : v.tokens.isCanceled = w.tokens.isCanceled :=
      funext (Cancellation.isCanceled_register w.tokens t)
    refine ⟨v, underway t (w.tokens.register t).1, rfl, hv, hreg,
      fun _ => ⟨rfl, rfl, (hf v).tracks _ _ ht⟩, ?_⟩
    simp only [poll, cancellation, hr, Bool.false_eq_true, if_false]
    exact pollUnderway_of_tracks (w := v) ht ((congrFun hv t).trans hr) (hf v)
  | underway t h op =>
    refine ⟨w, underway t h, rfl, rfl, Cancellation.follows_refl _,
      fun _ => ⟨rfl, rfl, (hf w).tracks t h hg⟩, ?_⟩
    exact pollUnderway_of_tracks hg hr (hf w)

end Guarded

end ImageLoader
