import Mathlib.Data.Set.Card
import ImageLoader.Proofs.Cancel.Together

/-!
# How long a token keeps a handle

Operations run side by side under tokens, and the caller may drop one at any time.  A token that is not raised keeps
a handle for every operation that was begun under it, and nothing but its cancellation takes one off the list:
neither the end of an operation, in whatever way, nor its being dropped, nor later registrations, which only pass
over handles that are aborted.  So the list is as long as the operations that run are many only while none that was
begun has ended.

* `Cancellation.Files`: the length of the list of a token, and what cancellations and registrations do to it.
* `Tended.Filed.step`, `Tended.Filed.run`: the list has one handle for each operation that was begun.
* `Tended.kept_after`: **what the lists of the tokens hold**, after any events.
-/

namespace ImageLoader

/-! ## The list of one token -/

namespace Cancellation

variable {c : Cancellation} {t u : Token} {n : Nat}

/-- The list of the token is empty once the token is raised, and has that length before. -/
structure Files (c : Cancellation) (t : Token) (n : Nat) : Prop where
  raised : c.isCanceled t = true → (c.token t).inFlight = []
  length : c.isCanceled t = false → (c.token t).inFlight.length = n

theorem Files.cancel (h : c.Files t n) (u : Token) : (c.cancel u).Files t n := by
  by_cases hu : t = u
  · subst hu
    exact ⟨fun _ => by rw [inFlight_cancel, if_pos rfl], fun hc => by rw [isCanceled_cancel] at hc; cases hc⟩
  · have hin : ((c.cancel u).token t).inFlight = (c.token t).inFlight := by rw [inFlight_cancel, if_neg hu]
    exact ⟨fun hc => hin.trans (h.raised (isCanceled_cancel_of_ne c hu ▸ hc)),
      fun hc => hin ▸ h.length (isCanceled_cancel_of_ne c hu ▸ hc)⟩

theorem Files.cancelAll (h : c.Files t n) (ts : List Token) : (c.cancelAll ts).Files t n := by
  induction ts generalizing c with
  | nil => exact h
  | cons u ts ih => exact ih (h.cancel u)

theorem Files.register_of_ne (h : c.Files t n) (hu : t ≠ u) : (c.register u).2.Files t n := by
  have hin : ((c.register u).2.token t).inFlight = (c.token t).inFlight := by rw [inFlight_register, if_neg hu]
  exact ⟨fun hc => hin.trans (h.raised (isCanceled_register c u t ▸ hc)),
    fun hc => hin ▸ h.length (isCanceled_register c u t ▸ hc)⟩

/-- A registration adds a handle, and passes over none: under a calm token no handle is aborted. -/
theorem Files.register (h : c.Files t n) (calm : c.Calm t) : (c.register t).2.Files t (n + 1) where
  raised hc := by
    rw [isCanceled_register, calm.raised] at hc
    cases hc
  length _ := by
    have hall : (c.token t).inFlight.filter (fun k => !c.aborted k) = (c.token t).inFlight :=
      List.filter_eq_self.mpr fun k hk => by rw [calm.running k hk]; rfl
    rw [inFlight_register, if_pos rfl, hall, List.length_append, h.length calm.raised]
    rfl

theorem countP_aborted_eq_zero {l : List AbortHandle} (h : ∀ k ∈ l, c.aborted k = false) :
    l.countP c.aborted = 0 :=
  List.countP_eq_zero.mpr fun k hk => by rw [h k hk]; exact Bool.false_ne_true

end Cancellation

/-! ## The tokens in a poll -/

namespace Guarded

variable {F α σ : Type} {inner : F → World σ → Poll F (Except LoadError α) × World σ} {g : Guarded F} {w : World σ}

/-- The tokens as the work finds them in a poll: its first poll registers it. -/
def enter (c : Cancellation) : Guarded F → Cancellation
  | waiting t _ => (c.register t).2
  | _ => c

theorem snd_pollUnderway {t : Token} {h : AbortHandle} {op : F} (ha : w.tokens.aborted h = false) :
    (pollUnderway inner t h op w).2 = (inner op w).2 := by
  rcases hi : inner op w with ⟨p, w'⟩
  simp only [pollUnderway, cancellation, ha, hi, Bool.false_eq_true, if_false]
  cases p with
  | pending next => simp only; split <;> rfl
  | ready r => simp only; split <;> rfl
  | panicked q => rfl

/-- What a poll of work that is not under a raised token does to the world is its registration, and what the work
does. -/
theorem snd_poll_of_unraised (orderly : w.tokens.Orderly) (hg : g.Tracked w.tokens)
    (hr : g.token.any w.tokens.isCanceled = false) :
    (poll inner g w).2 = (inner g.op { w with tokens := g.enter w.tokens }).2 := by
  cases g with
  | bare op => rfl
  | waiting t op =>
    replace hr : w.tokens.isCanceled t = false := hr
    have ht := (Cancellation.tracks_register orderly t).aborted_eq
    rw [Cancellation.isCanceled_register, hr] at ht
    simp only [poll, cancellation, hr, Bool.false_eq_true, if_false]
    exact snd_pollUnderway (w := { w with tokens := (w.tokens.register t).2 }) ht
  | underway t h op => exact snd_pollUnderway ((Cancellation.Tracks.aborted_eq hg).trans hr)

theorem fst_poll_ne_waiting (t : Token) (op : F) : (poll inner g w).1 ≠ .pending (waiting t op) := by
  have hunder (w : World σ) (u : Token) (h : AbortHandle) (f : F) :
      (pollUnderway inner u h f w).1 ≠ .pending (waiting t op) := by
    intro hp
    unfold pollUnderway at hp
    split at hp
    · cases hp
    · split at hp
      · split at hp <;> cases hp
      · split at hp <;> cases hp
      · cases hp
  cases g with
  | bare f =>
    intro hp
    obtain ⟨f', hf⟩ := Poll.eq_of_mapNext_eq_pending hp
    cases hf
  | waiting u f =>
    simp only [poll]
    split
    · intro hp
      cases hp
    · exact hunder _ u _ f
  | underway u h f => exact hunder w u h f

end Guarded

/-! ## One handle for each operation that was begun -/

namespace Jobs

variable {ι F α : Type} {token : ι → Option Token} {future : ι → F} {s : Jobs ι F α} {i : ι} {t : Token}
  {g : Guarded F}

/-- The operations that were begun under the token: their futures were polled. -/
def begun (token : ι → Option Token) (s : Jobs ι F α) (t : Token) : Set ι :=
  {i | token i = some t ∧ s.view.polls i ≠ 0}

/-- How often the future was polled shows whether its work is registered. -/
def Entered (n : Nat) : Guarded F → Prop
  | .bare _ => True
  | .waiting _ _ => n = 0
  | .underway _ _ _ => n ≠ 0

/-- The list of each token has one handle for each operation that was begun under it, until it is raised. -/
structure Filed (token : ι → Option Token) (s : Jobs ι F α) : Prop where
  sound : s.Sound token
  entered : ∀ i g, s.slot i = .pending g → Entered (s.world.state i) g
  finite : ∀ t, (s.begun token t).Finite
  files : ∀ t, s.world.tokens.Files t (s.begun token t).ncard

theorem begun_start (t : Token) : (start token future : Jobs ι F α).begun token t = ∅ :=
  Set.eq_empty_of_forall_notMem fun _ hi => hi.2 rfl

theorem filed_start : (start token future : Jobs ι F α).Filed token where
  sound := sound_start
  entered i g hg := by
    cases hg
    show Entered 0 (.of (token i) (future i))
    cases token i with
    | none => trivial
    | some t => rfl
  finite t := by
    rw [begun_start]
    exact Set.finite_empty
  files t := by
    rw [begun_start, Set.ncard_empty]
    exact ⟨fun _ => rfl, fun _ => rfl⟩

variable [DecidableEq ι] {react : F → (F ⊕ Except LoadError α) × List Token}

theorem begun_put {w : World (ι → Nat)} {slot : ι → Poll (Guarded F) (Except LoadError α)}
    (hw : w.state = put s.world.state i (s.world.state i + 1)) (t : Token) :
    begun token ⟨w, slot⟩ t = if token i = some t then insert i (s.begun token t) else s.begun token t := by
  ext j
  have hj : j ∈ begun token ⟨w, slot⟩ t ↔ token j = some t ∧ w.state j ≠ 0 := Iff.rfl
  by_cases hji : j = i
  · subst hji
    rw [hj, hw, put_self]
    split <;> simp_all [begun]
  · rw [hj, hw, put_of_ne hji]
    split <;> simp [begun, hji, view]

namespace Filed

variable (filed : s.Filed token)
include filed

omit [DecidableEq ι] in
/-- What the first poll of an operation adds to the list of its token, it adds to the operations that were begun. -/
theorem files_enter (hi : s.slot i = .pending g) (hr : (token i).any s.world.tokens.isCanceled = false) (t : Token) :
    (g.enter s.world.tokens).Files t
      (if token i = some t then insert i (s.begun token t) else s.begun token t).ncard := by
  have htoken := (filed.sound.tracked i g hi).1.symm
  have hentered := filed.entered i g hi
  have hfiles := filed.files t
  cases g with
  | bare f =>
    have hn : token i ≠ some t := by rw [htoken]; exact nofun
    rwa [if_neg hn]
  | waiting u f =>
    by_cases ht : t = u
    · subst ht
      have hnew : i ∉ s.begun token t := fun h => h.2 hentered
      replace htoken : token i = some t := htoken
      rw [if_pos htoken, Set.ncard_insert_of_notMem hnew (filed.finite t)]
      rw [htoken] at hr
      exact hfiles.register (filed.sound.orderly t hr)
    · have hn : token i ≠ some t := fun h => ht (Option.some.inj (h.symm.trans htoken))
      rw [if_neg hn]
      exact hfiles.register_of_ne ht
  | underway u h f =>
    by_cases ht : token i = some t
    · have hold : i ∈ s.begun token t := ⟨ht, hentered⟩
      rwa [if_pos ht, Set.insert_eq_of_mem hold]
    · rwa [if_neg ht]

variable (react) in
/-- **One event keeps one handle for each operation that was begun.** -/
theorem step (e : Event ι) : (s.step react e).Filed token := by
  have sound' := (filed.sound.step react e).1
  cases e with
  | cancel t => exact ⟨sound', filed.entered, filed.finite, fun u => (filed.files u).cancel t⟩
  | poll i =>
    cases hi : s.slot i with
    | ready r => simp only [Jobs.step, hi]; exact filed
    | panicked p => simp only [Jobs.step, hi]; exact filed
    | pending g =>
      cases hr : (token i).any s.world.tokens.isCanceled with
      | true =>
        rw [filed.sound.step_raised hi hr] at sound' ⊢
        refine ⟨sound', fun j g' hj => ?_, filed.finite, filed.files⟩
        by_cases hji : j = i
        · subst hji
          cases (put_self s.slot j _).symm.trans hj
        · exact filed.entered j g' ((put_of_ne hji).symm.trans hj)
      | false =>
        obtain ⟨htoken, htracked⟩ := filed.sound.tracked i g hi
        have hw : (g.poll (pollFuture react i) s.world).2 = _ :=
          Guarded.snd_poll_of_unraised filed.sound.orderly htracked (htoken ▸ hr)
        have hs : s.step react (.poll i) = ⟨(g.poll (pollFuture react i) s.world).2,
            put s.slot i (g.poll (pollFuture react i) s.world).1⟩ := by
          simp only [Jobs.step, hi]
        rw [hs, hw] at sound' ⊢
        refine ⟨sound', fun j g' hj => ?_, fun t => ?_, fun t => ?_⟩
        · by_cases hji : j = i
          · subst hji
            replace hj := (put_self s.slot j _).symm.trans hj
            simp only [pollFuture, put_self]
            cases g' with
            | bare f => trivial
            | waiting u f => exact absurd hj (Guarded.fst_poll_ne_waiting u f)
            | underway u h f => exact Nat.succ_ne_zero _
          · simp only [pollFuture, put_of_ne hji]
            exact filed.entered j g' ((put_of_ne hji).symm.trans hj)
        · rw [begun_put rfl]
          split
          · exact (filed.finite t).insert i
          · exact filed.finite t
        · rw [begun_put rfl]
          exact (filed.files_enter hi hr t).cancelAll _

end Filed

end Jobs

/-! ## Operations that may be dropped -/

/-- Operations that run side by side, and which of them the caller has dropped. -/
structure Tended (ι F α : Type) where
  jobs : Jobs ι F α
  dropped : ι → Bool

namespace Tended

variable {ι F α : Type}

/-- What happens: an operation is polled, a token is canceled, or the caller drops an operation. -/
inductive Event (ι : Type) where
  | poll (i : ι)
  | cancel (t : Token)
  | drop (i : ι)
deriving DecidableEq

/-- The operations under the token that run: they were begun, are pending, and were not dropped. -/
def running (token : ι → Option Token) (s : Tended ι F α) (t : Token) : Set ι :=
  {i | i ∈ s.jobs.begun token t ∧ s.dropped i = false ∧ ∃ f, s.jobs.view.slot i = .pending f}

/-- The handles on the list of the token. -/
def kept (s : Tended ι F α) (t : Token) : List AbortHandle := (s.jobs.world.tokens.token t).inFlight

/-- Apart from aborted handles the list is no longer than the operations that run are many. -/
def Tight (token : ι → Option Token) (s : Tended ι F α) (t : Token) : Prop :=
  (s.kept t).length ≤ (s.running token t).ncard + (s.kept t).countP s.jobs.world.tokens.aborted

variable [DecidableEq ι]
variable (react : F → (F ⊕ Except LoadError α) × List Token) (token : ι → Option Token) (future : ι → F)

/-- One event.  An operation that was dropped is not polled again, and dropping it touches no token. -/
def step (s : Tended ι F α) : Event ι → Tended ι F α
  | .poll i => if s.dropped i then s else { s with jobs := s.jobs.step react (.poll i) }
  | .cancel t => { s with jobs := s.jobs.step react (.cancel t) }
  | .drop i => { s with dropped := Jobs.put s.dropped i true }

def after (es : List (Event ι)) : Tended ι F α :=
  es.foldl (step react) ⟨.start token future, fun _ => false⟩

variable {react token future} {s : Tended ι F α}

theorem filed_step (filed : s.jobs.Filed token) (e : Event ι) : (s.step react e).jobs.Filed token := by
  cases e with
  | poll i =>
    simp only [step]
    split
    · exact filed
    · exact filed.step react (.poll i)
  | cancel t => exact filed.step react (.cancel t)
  | drop i => exact filed

theorem filed_after (es : List (Event ι)) : (after react token future es).jobs.Filed token := by
  induction es using List.reverseRecOn with
  | nil => exact Jobs.filed_start
  | append_singleton es e ih =>
    rw [after, List.foldl_append]
    exact filed_step ih e

/-- What the list of a token holds. -/
structure Kept (token : ι → Option Token) (s : Tended ι F α) (t : Token) : Prop where
  /-- Cancellation empties the list, for good. -/
  raised : s.jobs.view.raised t = true → s.kept t = []
  /-- Until then it has a handle for each operation that was begun under the token, whether that still runs, has
  completed, has failed or was dropped. -/
  length : s.jobs.view.raised t = false → (s.kept t).length = (s.jobs.begun token t).ncard
  /-- No handle on it is aborted. -/
  spared : ∀ h ∈ s.kept t, s.jobs.world.tokens.aborted h = false
  /-- So it is longer than the operations that run are many as soon as one that was begun has ended. -/
  tight : s.Tight token t ↔ s.jobs.view.raised t = true ∨ s.jobs.begun token t ⊆ s.running token t

/-- **What the lists of the tokens hold**, after any events. -/
theorem kept_after (react : F → (F ⊕ Except LoadError α) × List Token) (token : ι → Option Token) (future : ι → F)
    (es : List (Event ι)) (t : Token) : Kept token (after react token future es) t := by
  have filed : (after react token future es).jobs.Filed token := filed_after es
  generalize after react token future es = s at filed
  have spared : ∀ h ∈ s.kept t, s.jobs.world.tokens.aborted h = false := by
    intro h hh
    cases hr : s.jobs.world.tokens.isCanceled t with
    | true =>
      rw [kept, (filed.files t).raised hr] at hh
      cases hh
    | false => exact (filed.sound.orderly t hr).running h hh
  have hsub : s.running token t ⊆ s.jobs.begun token t := fun _ hi => hi.1
  refine ⟨(filed.files t).raised, (filed.files t).length, spared, ?_⟩
  rw [Tight, Cancellation.countP_aborted_eq_zero spared, Nat.add_zero]
  cases hr : s.jobs.view.raised t with
  | true =>
    have hnil : s.kept t = [] := (filed.files t).raised hr
    simp [hnil]
  | false =>
    have hlength : (s.kept t).length = (s.jobs.begun token t).ncard := (filed.files t).length hr
    rw [hlength]
    constructor
    · intro hle
      exact .inr (Set.eq_of_subset_of_ncard_le hsub hle (filed.finite t)).ge
    · rintro (h | h)
      · cases h
      · exact Set.ncard_le_ncard h ((filed.finite t).subset hsub)

/-- Of three operations under a token that is never canceled, one has completed, one has failed and one was dropped.
None of them runs, and the list still has three handles, of which none is aborted. -/
theorem kept_after_three :
    let react : Fin 3 → (Fin 3 ⊕ Except LoadError Unit) × List Token
      | 0 => (.inr (.ok ()), [])
      | 1 => (.inr (.error .canceled), [])
      | 2 => (.inl 2, [])
    let token (_ : Fin 3) : Option Token := some ⟨0⟩
    let s := after react token id [.poll 0, .poll 1, .poll 2, .drop 2]
    s.running token ⟨0⟩ = ∅ ∧ (s.kept ⟨0⟩).length = 3 ∧
      (s.kept ⟨0⟩).countP s.jobs.world.tokens.aborted = 0 ∧ ¬ s.Tight token ⟨0⟩ := by
  intro react token s
  have kept : Kept token s ⟨0⟩ := kept_after react token id [.poll 0, .poll 1, .poll 2, .drop 2] ⟨0⟩
  have hrunning : s.running token ⟨0⟩ = ∅ := by
    refine Set.eq_empty_of_forall_notMem fun i hi => ?_
    obtain ⟨-, hd, f, hf⟩ := hi
    match i with
    | 0 => cases hf
    | 1 => cases hf
    | 2 => cases hd
  have hbegun : (0 : Fin 3) ∈ s.jobs.begun token ⟨0⟩ := ⟨rfl, by decide⟩
  refine ⟨hrunning, rfl, Cancellation.countP_aborted_eq_zero kept.spared, ?_⟩
  rw [kept.tight]
  rintro (hr | hsub)
  · cases hr
  · rw [hrunning] at hsub
    exact hsub hbegun

end Tended

end ImageLoader
