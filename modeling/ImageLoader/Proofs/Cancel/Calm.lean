import ImageLoader.Cancel.Token

/-!
# Tidy and calm states of the tokens

In every state that the operations on tokens lead to, handles that were not given out are not aborted, and no
two tokens keep the same handle: the state is tidy.  A token is calm while it is not raised and none of the
handles that it keeps is aborted.

* `tidy_empty`, `Tidy.cancel`, `Tidy.register`: the operations keep the state tidy.
* `spares_cancel`, `spares_register`: **canceling another token, and registering work under any, spares a calm
  token** and keeps the handles of the work under it.
* `Tidy.aborted_register`: work that is registered under a token that is not raised is not aborted.
-/

namespace ImageLoader.Cancellation

variable {c c' : Cancellation} {t u : Token} {h : AbortHandle}

/-! ## What the operations change -/

@[simp] theorem handles_abortAll (c : Cancellation) (l : List AbortHandle) :
    (c.abortAll l).handles = c.handles := by
  induction l generalizing c with
  | nil => rfl
  | cons h r ih => exact ih (c.abort h)

theorem aborted_abortAll (c : Cancellation) (l : List AbortHandle) (h : AbortHandle) :
    (c.abortAll l).aborted h = true ↔ h ∈ l ∨ c.aborted h = true := by
  induction l generalizing c with
  | nil => simp [abortAll]
  | cons k r ih =>
    have hk : (c.abortAll (k :: r)).aborted h = ((c.abort k).abortAll r).aborted h := rfl
    rw [hk, ih (c.abort k)]
    simp only [abort, Bool.or_eq_true, decide_eq_true_eq, List.mem_cons]
    exact or_left_comm.trans or_assoc.symm

theorem aborted_cancel (c : Cancellation) (t : Token) (h : AbortHandle) :
    (c.cancel t).aborted h = true ↔ h ∈ (c.token t).inFlight ∨ c.aborted h = true := by
  have hl : ((c.raise t).take t).1 = (c.token t).inFlight := by simp [take, raise, token_setToken]
  simp only [cancel, aborted_abortAll, hl]
  rfl

theorem inFlight_cancel (c : Cancellation) (t u : Token) :
    ((c.cancel t).token u).inFlight = if u = t then [] else (c.token u).inFlight := by
  simp only [cancel, token_abortAll, take, raise, token_setToken]
  split <;> simp

theorem handles_cancel (c : Cancellation) (t : Token) : (c.cancel t).handles = c.handles := by
  simp [cancel, take, raise, setToken]

theorem isCanceled_enlist (c : Cancellation) (t u : Token) (h : AbortHandle) :
    (c.enlist t h).isCanceled u = c.isCanceled u := by
  simp only [enlist, isCanceled, token_setToken]
  split
  next hu => rw [hu]
  next => rfl

/-- A registration is a handle that is new, on the list of its token, and aborted if that is raised. -/
theorem register_eq (c : Cancellation) (t : Token) :
    c.register t = (⟨c.handles⟩,
      if c.isCanceled t then (c.newHandle.2.enlist t ⟨c.handles⟩).abort ⟨c.handles⟩
      else c.newHandle.2.enlist t ⟨c.handles⟩) := by
  have hc : (c.newHandle.2.enlist t ⟨c.handles⟩).isCanceled t = c.isCanceled t :=
    isCanceled_enlist c.newHandle.2 t t ⟨c.handles⟩
  rw [← hc]
  rfl

theorem handles_register (c : Cancellation) (t : Token) :
    (c.register t).2.handles = c.handles + 1 := by
  rw [register_eq]
  split <;> rfl

theorem aborted_register_iff (c : Cancellation) (t : Token) (h : AbortHandle) :
    (c.register t).2.aborted h = true ↔
      c.isCanceled t = true ∧ h = ⟨c.handles⟩ ∨ c.aborted h = true := by
  rw [register_eq]
  by_cases hc : c.isCanceled t = true
  · simp [hc, abort, enlist, newHandle, setToken]
  · simp [hc, enlist, newHandle, setToken]

theorem inFlight_register (c : Cancellation) (t u : Token) :
    ((c.register t).2.token u).inFlight =
      if u = t then (c.token t).inFlight.filter (fun k => !c.aborted k) ++ [⟨c.handles⟩]
      else (c.token u).inFlight := by
  have he : ((c.newHandle.2.enlist t ⟨c.handles⟩).token u).inFlight =
      if u = t then (c.token t).inFlight.filter (fun k => !c.aborted k) ++ [⟨c.handles⟩]
      else (c.token u).inFlight := by
    simp only [enlist, token_setToken]
    split <;> rfl
  rw [register_eq, ← he]
  split <;> rfl

/-! ## Tidy states -/

/-- Handles that were not given out are neither aborted nor kept, and no handle is kept by two tokens. -/
structure Tidy (c : Cancellation) : Prop where
  fresh : ∀ h : AbortHandle, c.handles ≤ h.id → c.aborted h = false
  kept : ∀ t, ∀ h ∈ (c.token t).inFlight, h.id < c.handles
  apart : ∀ t u h, h ∈ (c.token t).inFlight → h ∈ (c.token u).inFlight → t = u

theorem tidy_empty : ({} : Cancellation).Tidy where
  fresh _ _ := rfl
  kept _ _ h := nomatch h
  apart _ _ _ h := nomatch h

theorem Tidy.cancel (tidy : c.Tidy) (t : Token) : (c.cancel t).Tidy where
  fresh h hh := by
    rw [handles_cancel] at hh
    rw [Bool.eq_false_iff, Ne, aborted_cancel]
    rintro (hm | ha)
    · exact absurd (tidy.kept t h hm) (by omega)
    · rw [tidy.fresh h hh] at ha
      cases ha
  kept u h hm := by
    rw [inFlight_cancel] at hm
    rw [handles_cancel]
    split at hm
    · cases hm
    · exact tidy.kept u h hm
  apart u v h hu hv := by
    rw [inFlight_cancel] at hu hv
    split at hu
    · cases hu
    · split at hv
      · cases hv
      · exact tidy.apart u v h hu hv

/-- Registering adds the new handle to the list of its token, and nothing else to any list. -/
theorem mem_of_mem_register {t u : Token} (hm : h ∈ ((c.register t).2.token u).inFlight) :
    h ∈ (c.token u).inFlight ∨ u = t ∧ h = ⟨c.handles⟩ := by
  rw [inFlight_register] at hm
  split at hm
  next hu =>
    rcases List.mem_append.mp hm with hf | hl
    · exact .inl (hu ▸ (List.mem_filter.mp hf).1)
    · exact .inr ⟨hu, List.mem_singleton.mp hl⟩
  next => exact .inl hm

theorem Tidy.register (tidy : c.Tidy) (t : Token) : (c.register t).2.Tidy where
  fresh h hh := by
    rw [handles_register] at hh
    rw [Bool.eq_false_iff, Ne, aborted_register_iff]
    rintro (⟨-, rfl⟩ | ha)
    · exact absurd hh (by simp)
    · rw [tidy.fresh h (by omega)] at ha
      cases ha
  kept u h hm := by
    rw [handles_register]
    rcases mem_of_mem_register hm with hu | ⟨-, rfl⟩
    · exact Nat.lt_succ_of_lt (tidy.kept u h hu)
    · exact Nat.lt_succ_self c.handles
  apart u v h hu hv := by
    rcases mem_of_mem_register hu with hu | ⟨hut, rfl⟩
    · rcases mem_of_mem_register hv with hv | ⟨-, rfl⟩
      · exact tidy.apart u v h hu hv
      · exact absurd (tidy.kept u _ hu) (Nat.lt_irrefl _)
    · rcases mem_of_mem_register hv with hv | ⟨hvt, -⟩
      · exact absurd (tidy.kept v _ hv) (Nat.lt_irrefl _)
      · exact hut.trans hvt.symm

theorem Tidy.aborted_register (tidy : c.Tidy) (hc : c.isCanceled t = false) :
    (c.register t).2.aborted (c.register t).1 = false := by
  rw [Bool.eq_false_iff, Ne, aborted_register_iff, hc, register_eq]
  rintro (⟨hf, -⟩ | ha)
  · cases hf
  · rw [tidy.fresh _ (Nat.le_refl _)] at ha
    cases ha

/-! ## Calm tokens -/

/-- In a tidy state, the token is not raised, and the work under it is not aborted. -/
structure Calm (c : Cancellation) (t : Token) : Prop where
  tidy : c.Tidy
  raised : c.isCanceled t = false
  running : ∀ h ∈ (c.token t).inFlight, c.aborted h = false

theorem calm_empty (t : Token) : ({} : Cancellation).Calm t := ⟨tidy_empty, rfl, fun _ h => nomatch h⟩

/-- What happened between two states leaves the token calm, if it was, with the work under it. -/
def Spares (t : Token) (c c' : Cancellation) : Prop :=
  c.Calm t → c'.Calm t ∧ ∀ h ∈ (c.token t).inFlight, h ∈ (c'.token t).inFlight

theorem spares_refl (t : Token) (c : Cancellation) : Spares t c c := fun calm => ⟨calm, fun _ => id⟩

theorem Spares.trans {c'' : Cancellation} (h : Spares t c c') (h' : Spares t c' c'') :
    Spares t c c'' := by
  intro calm
  obtain ⟨calm', hm⟩ := h calm
  obtain ⟨calm'', hm'⟩ := h' calm'
  exact ⟨calm'', fun k hk => hm' k (hm k hk)⟩

theorem spares_cancel (c : Cancellation) (hne : u ≠ t) : Spares t c (c.cancel u) := by
  intro calm
  have hin : ((c.cancel u).token t).inFlight = (c.token t).inFlight := by
    rw [inFlight_cancel, if_neg (Ne.symm hne)]
  refine ⟨⟨calm.tidy.cancel u, ?_, fun k hk => ?_⟩, fun k hk => hin ▸ hk⟩
  · rw [isCanceled_cancel_of_ne c (Ne.symm hne)]
    exact calm.raised
  · rw [hin] at hk
    rw [Bool.eq_false_iff, Ne, aborted_cancel]
    rintro (hu | ha)
    · exact hne (calm.tidy.apart u t k hu hk)
    · rw [calm.running k hk] at ha
      cases ha

theorem spares_register (c : Cancellation) (t u : Token) : Spares t c (c.register u).2 := by
  intro calm
  have hkeep : ∀ k ∈ (c.token t).inFlight, k ∈ ((c.register u).2.token t).inFlight := by
    intro k hk
    rw [inFlight_register]
    split
    next ht =>
      subst ht
      exact List.mem_append_left _ (List.mem_filter.mpr ⟨hk, by rw [calm.running k hk]; rfl⟩)
    next => exact hk
  refine ⟨⟨calm.tidy.register u, ?_, fun k hk => ?_⟩, hkeep⟩
  · rw [isCanceled_register]
    exact calm.raised
  · rw [Bool.eq_false_iff, Ne, aborted_register_iff]
    rcases mem_of_mem_register hk with hk | ⟨rfl, rfl⟩
    · rintro (⟨-, rfl⟩ | ha)
      · exact absurd (calm.tidy.kept t _ hk) (Nat.lt_irrefl _)
      · rw [calm.running k hk] at ha
        cases ha
    · rintro (⟨hc, -⟩ | ha)
      · rw [calm.raised] at hc
        cases hc
      · rw [calm.tidy.fresh _ (Nat.le_refl _)] at ha
        cases ha

/-- The handle of work that is registered under a calm token is kept. -/
theorem mem_register (c : Cancellation) (t : Token) :
    (c.register t).1 ∈ ((c.register t).2.token t).inFlight := by
  rw [inFlight_register, if_pos rfl, register_eq]
  exact List.mem_append_right _ (List.mem_singleton.mpr rfl)

end ImageLoader.Cancellation

namespace ImageLoader

/-! ## Work that spares a token -/

/-- A world whose tokens are what was last put into it. -/
class LawfulCancellation (ω : Type) [HasCancellation ω] : Prop where
  cancellation_with : ∀ (c : Cancellation) (w : ω), cancellation (withCancellation c w) = c
  with_cancellation : ∀ w : ω, withCancellation (cancellation w) w = w

instance {σ : Type} : LawfulCancellation (World σ) where
  cancellation_with _ _ := rfl
  with_cancellation _ := rfl

instance {β ω : Type} [HasCancellation ω] [LawfulCancellation ω] : LawfulCancellation (β × ω) where
  cancellation_with c w := LawfulCancellation.cancellation_with c w.2
  with_cancellation w := by
    show (w.1, withCancellation (cancellation w.2) w.2) = w
    rw [LawfulCancellation.with_cancellation]

/-- Work that spares the token in every world. -/
def Sparing {ω α : Type} [HasCancellation ω] (t : Token) (f : ω → α × ω) : Prop :=
  ∀ w, Cancellation.Spares t (cancellation w) (cancellation (f w).2)

end ImageLoader
