import ImageLoader.Cancel.Guard
import ImageLoader.Proofs.Cancel.Calm

/-!
# What a guard does to a poll

A poll under a token either passes the poll of the work on, or ends the work as canceled.

* `Guarded.poll_cases`: **those are the two cases**, for any token and any work.
* `Guarded.poll_of_quiet`: **under a calm token that the work spares, only the first is left.**
* `Poll.drive_of_invariant`: what holds of work that is polled to its end.
-/

namespace ImageLoader

variable {F α β σ : Type}

namespace Guarded

variable {inner : F → β × World σ → Poll F (Except LoadError α) × β × World σ}
  {g : Guarded F} {b : β} {w : World σ} {p : Poll (Guarded F) (Except LoadError α)}
  {s : β × World σ}

theorem pollUnderway_cases {t : Token} {h : AbortHandle} {op : F}
    (hp : pollUnderway inner t h op (b, w) = (p, s)) :
    (p = .ready (.error .canceled) ∧ s.1 = b) ∨
      ∃ p', inner op (b, w) = (p', s) ∧
        (p = .ready (.error .canceled) ∨ p = p'.mapNext (.underway t h)) := by
  unfold pollUnderway at hp
  split at hp
  · cases hp; exact .inl ⟨rfl, rfl⟩
  · rcases hi : inner op (b, w) with ⟨p', s'⟩
    rw [hi] at hp
    cases p' with
    | pending next =>
      simp only at hp
      split at hp
      · cases hp; exact .inr ⟨_, rfl, .inl rfl⟩
      · cases hp; exact .inr ⟨_, rfl, .inr rfl⟩
    | ready r =>
      simp only at hp
      split at hp
      · cases hp; exact .inr ⟨_, rfl, .inl rfl⟩
      · cases hp; exact .inr ⟨_, rfl, .inr rfl⟩
    | panicked q => cases hp; exact .inr ⟨_, rfl, .inr rfl⟩

/-- **A guarded poll ends as canceled, or passes on what the poll of the work gives.**  It leaves what stands
beside the world to the work. -/
theorem poll_cases (hp : poll inner g (b, w) = (p, s)) :
    (p = .ready (.error .canceled) ∧ s.1 = b) ∨
      ∃ v p', inner g.op (b, v) = (p', s) ∧
        (p = .ready (.error .canceled) ∨
          ∃ wrap : F → Guarded F, (∀ op, (wrap op).op = op) ∧ p = p'.mapNext wrap) := by
  cases g with
  | bare op =>
    rcases hi : inner op (b, w) with ⟨p', s'⟩
    simp only [poll, hi] at hp
    cases hp
    exact .inr ⟨w, p', hi, .inr ⟨.bare, fun _ => rfl, rfl⟩⟩
  | waiting t op =>
    simp only [poll] at hp
    split at hp
    · cases hp; exact .inl ⟨rfl, rfl⟩
    · rcases pollUnderway_cases hp with hc | ⟨p', hi, hc | hc⟩
      · exact .inl hc
      · exact .inr ⟨_, p', hi, .inl hc⟩
      · exact .inr ⟨_, p', hi, .inr ⟨_, fun _ => rfl, hc⟩⟩
  | underway t h op =>
    rcases pollUnderway_cases hp with hc | ⟨p', hi, hc | hc⟩
    · exact .inl hc
    · exact .inr ⟨_, p', hi, .inl hc⟩
    · exact .inr ⟨_, p', hi, .inr ⟨_, fun _ => rfl, hc⟩⟩

/-- A guard asks no more of the work than its polls at the stage where it stands. -/
theorem poll_congr {inner' : F → β × World σ → Poll F (Except LoadError α) × β × World σ}
    (h : ∀ v, inner g.op (b, v) = inner' g.op (b, v)) :
    poll inner g (b, w) = poll inner' g (b, w) := by
  cases g with
  | bare op => simp only [poll, show inner op (b, w) = inner' op (b, w) from h w]
  | waiting t op =>
    have hi : ∀ v, inner op (b, v) = inner' op (b, v) := h
    simp only [poll, pollUnderway, withCancellation, hi]
  | underway t a op => simp only [poll, pollUnderway, show inner op (b, w) = inner' op (b, w) from h w]

/-- Work that ends at once and touches nothing, under a token if one is given. -/
theorem poll_of_ready (t : Option Token) {op : F} {r : Except LoadError α}
    (h : ∀ v, inner op (b, v) = (.ready r, b, v)) (tidy : w.tokens.Tidy) :
    ∃ w', poll inner (.of t op) (b, w) =
      (.ready (if t.any w.tokens.isCanceled then .error .canceled else r), b, w') := by
  cases t with
  | none => exact ⟨w, by simp [Guarded.of, poll, h, Poll.mapNext]⟩
  | some t =>
    simp only [Guarded.of, poll, cancellation, Option.any_some]
    by_cases hc : w.tokens.isCanceled t = true
    · rw [if_pos hc, if_pos hc]
      exact ⟨w, rfl⟩
    · rw [if_neg hc, if_neg hc]
      have hf : w.tokens.isCanceled t = false := Bool.eq_false_iff.mpr hc
      have ha := tidy.aborted_register hf
      have hr := (Cancellation.isCanceled_register w.tokens t t).trans hf
      refine ⟨{ w with tokens := (w.tokens.register t).2 }, ?_⟩
      simp [pollUnderway, cancellation, withCancellation, h, ha, hr]

/-! ## Under a calm token -/

/-- Nothing stands in the way of the work: it has no token, or one that is calm and keeps its handle. -/
inductive Quiet (c : Cancellation) : Option Token → Guarded F → Prop
  | bare (op : F) : Quiet c none (.bare op)
  | waiting {t : Token} (op : F) : c.Calm t → Quiet c (some t) (.waiting t op)
  | underway {t : Token} {h : AbortHandle} (op : F) :
      c.Calm t → h ∈ (c.token t).inFlight → Quiet c (some t) (.underway t h op)

theorem quiet_of {c : Cancellation} {t : Option Token} (h : ∀ u ∈ t, c.Calm u) (op : F) :
    Quiet c t (.of t op) := by
  cases t with
  | none => exact .bare op
  | some t => exact .waiting op (h t rfl)

variable {ω : Type} [HasCancellation ω] {poll' : F → ω → Poll F (Except LoadError α) × ω}

/-- A poll whose handle stays on the list of a token that stays calm is the poll of the work. -/
theorem pollUnderway_of_calm {t : Token} {h : AbortHandle} {op : F} {w : ω}
    (calm : (cancellation w).Calm t) (hm : h ∈ ((cancellation w).token t).inFlight)
    (hs : Sparing t (poll' op)) :
    pollUnderway poll' t h op w = ((poll' op w).1.mapNext (.underway t h), (poll' op w).2) := by
  obtain ⟨calm', hkeep⟩ := hs w calm
  have ha := calm.running h hm
  have ha' := calm'.running h (hkeep h hm)
  have hc := calm'.raised
  unfold pollUnderway
  rw [ha]
  rcases hp : poll' op w with ⟨p, v⟩
  rw [hp] at ha' hc
  cases p with
  | pending next => simp [ha', Poll.mapNext]
  | ready r => simp [hc, Poll.mapNext]
  | panicked p => simp [Poll.mapNext]

/-- **A guard that nothing disturbs passes the poll of the work on**, and nothing disturbs what is left. -/
theorem poll_of_quiet [LawfulCancellation ω] {t : Option Token} {g : Guarded F} {w : ω}
    (hq : g.Quiet (cancellation w) t) (hs : ∀ u ∈ t, Sparing u (poll' g.op)) :
    ∃ c, ∃ wrap : F → Guarded F,
      (∀ op, (wrap op).op = op ∧
        (wrap op).Quiet (cancellation (poll' g.op (withCancellation c w)).2) t) ∧
      poll poll' g w = ((poll' g.op (withCancellation c w)).1.mapNext wrap,
        (poll' g.op (withCancellation c w)).2) := by
  cases hq with
  | bare op =>
    refine ⟨cancellation w, .bare, fun op => ⟨rfl, .bare op⟩, ?_⟩
    rw [LawfulCancellation.with_cancellation]
    rfl
  | @waiting t op calm =>
    -- the work is registered first: what it sees is the state with its own handle on the list
    obtain ⟨calm', -⟩ := Cancellation.spares_register (cancellation w) t t calm
    have hm := Cancellation.mem_register (cancellation w) t
    rw [← LawfulCancellation.cancellation_with ((cancellation w).register t).2 w] at calm' hm
    obtain ⟨calm'', hkeep⟩ := hs t rfl _ calm'
    refine ⟨((cancellation w).register t).2, .underway t ((cancellation w).register t).1,
      fun op => ⟨rfl, .underway op calm'' (hkeep _ hm)⟩, ?_⟩
    simp only [poll, calm.raised, Bool.false_eq_true, if_false]
    exact pollUnderway_of_calm calm' hm (hs t rfl)
  | @underway t h op calm hm =>
    obtain ⟨calm', hkeep⟩ := hs t rfl w calm
    refine ⟨cancellation w, .underway t h, ?_, ?_⟩
    · rw [LawfulCancellation.with_cancellation]
      exact fun op => ⟨rfl, .underway op calm' (hkeep h hm)⟩
    · rw [LawfulCancellation.with_cancellation]
      exact pollUnderway_of_calm calm hm (hs t rfl)

/-- A guard does no more to a token than the work does. -/
theorem sparing_poll [LawfulCancellation ω] {u : Token} (g : Guarded F)
    (hs : Sparing u (poll' g.op)) : Sparing u (poll poll' g) := by
  have hu : ∀ t h w, Cancellation.Spares u (cancellation w)
      (cancellation (pollUnderway poll' t h g.op w).2) := by
    intro t h w
    have hw := hs w
    unfold pollUnderway
    by_cases ha : (cancellation w).aborted h = true
    · rw [if_pos ha]
      exact Cancellation.spares_refl u _
    · rw [if_neg ha]
      rcases hp : poll' g.op w with ⟨p, v⟩
      rw [hp] at hw
      cases p with
      | pending next => simp only; split <;> exact hw
      | ready r => simp only; split <;> exact hw
      | panicked p => exact hw
  intro w
  cases g with
  | bare op => exact hs w
  | waiting t op =>
    simp only [poll]
    by_cases hc : (cancellation w).isCanceled t = true
    · rw [if_pos hc]
      exact Cancellation.spares_refl u _
    · rw [if_neg hc]
      have hr := Cancellation.spares_register (cancellation w) u t
      rw [← LawfulCancellation.cancellation_with ((cancellation w).register t).2 w] at hr
      exact hr.trans (hu t _ _)
  | underway t h op => exact hu t h w

end Guarded

/-! ## From the first poll to the last -/

/-- What every pending poll keeps, and what then follows from the last poll, holds of a whole drive. -/
theorem Poll.drive_of_invariant {ω : Type} {poll : F → ω → Poll F (Except LoadError α) × ω}
    {rank : F → Nat × Nat}
    {lower : ∀ f w next w', poll f w = (.pending next, w') →
      Prod.Lex (· < ·) (· < ·) (rank next) (rank f)}
    (P : F → ω → Prop) (Q : Loaded α → ω → Prop)
    (pending : ∀ f w next w', P f w → poll f w = (.pending next, w') → P next w')
    (ready : ∀ f w r w', P f w → poll f w = (.ready r, w') → Q (.ofExcept r) w')
    (panicked : ∀ f w p w', P f w → poll f w = (.panicked p, w') → Q (.error (.panic p)) w')
    (f : F) (w : ω) (h : P f w) :
    Q (drive poll rank lower f w).1 (drive poll rank lower f w).2 := by
  fun_induction drive poll rank lower f w with
  | case1 f w next w' hp this ih => exact ih (pending f w next w' h hp)
  | case2 f w r w' hp => exact ready f w r w' h hp
  | case3 f w p w' hp => exact panicked f w p w' h hp

/-- Work spares a token if each of its polls does. -/
theorem Poll.sparing_drive {ω : Type} [HasCancellation ω] {t : Token}
    {poll : F → ω → Poll F (Except LoadError α) × ω} {rank : F → Nat × Nat}
    {lower : ∀ f w next w', poll f w = (.pending next, w') →
      Prod.Lex (· < ·) (· < ·) (rank next) (rank f)}
    (hs : ∀ f, Sparing t (poll f)) (f : F) : Sparing t (drive poll rank lower f) := by
  intro w
  have hstep : ∀ f v p v', Cancellation.Spares t (cancellation w) (cancellation v) →
      poll f v = (p, v') → Cancellation.Spares t (cancellation w) (cancellation v') := by
    intro f v p v' hv hp
    have h := hs f v
    rw [hp] at h
    exact hv.trans h
  exact drive_of_invariant (fun _ v => Cancellation.Spares t (cancellation w) (cancellation v))
    (fun _ v => Cancellation.Spares t (cancellation w) (cancellation v))
    (fun f v _ v' => hstep f v _ v') (fun f v _ v' => hstep f v _ v') (fun f v _ v' => hstep f v _ v')
    f w (Cancellation.spares_refl t _)

end ImageLoader
