import ImageLoader.Proofs.Image.Outright

/-!
# Calls that are waited for

A caller who waits for a frame gets one of the answers that a call may have, whatever becomes of tokens and tasks
meanwhile.

* `Image.awaitNext_ends`: a call by polling, from the first poll to the last.
* `Image.nextBy_ends`: **either way of waiting.**
-/

namespace ImageLoader

variable {σ : Type} {S : Services σ} {request : FrameRequest} {img : Image} {w : World σ}

def Way.circumstances (S : Services σ) (img : Image) : Way → Circumstances
  | .onSpot => .onSpot img.options.policy
  | .awaited _ => .pooled S True

namespace Image

theorem awaitNext_ends (S : Services σ) (request : FrameRequest) (t : Option Token) (img : Image)
    (w : World σ) :
    ∃ q, (img.awaitNext S request t w).2.1 = img.withQueue (q.after (some (img.awaitNext S request t w).1)) ∧
      Answer S (.pooled S True) request img (some (img.awaitNext S request t w).1) q := by
  refine Poll.drive_of_invariant
    (fun (g : Guarded FetchStage) (s : Polled σ) => ∃ q, s.1 = img.withQueue q ∧ Underway S request img q g.op)
    (fun o (s : Polled σ) => ∃ q, s.1 = img.withQueue (q.after (some o)) ∧
      Answer S (.pooled S True) request img (some o) q) ?_ ?_ ?_ _ _ ?_
  · rintro g ⟨img', v⟩ next ⟨img'', v'⟩ ⟨q, rfl, hu⟩ hp
    have ha := pollNext_arrives (w := v) hu
    rw [hp] at ha
    exact ha
  · rintro g ⟨img', v⟩ r ⟨img'', v'⟩ ⟨q, rfl, hu⟩ hp
    have ha := pollNext_arrives (w := v) hu
    rw [hp] at ha
    exact ha
  · rintro g ⟨img', v⟩ p ⟨img'', v'⟩ ⟨q, rfl, hu⟩ hp
    have ha := pollNext_arrives (w := v) hu
    rw [hp] at ha
    exact ha
  · refine ⟨img.queue, rfl, .kept, ?_⟩
    cases t <;> trivial

/-- **Either way of waiting** ends with an answer. -/
theorem nextBy_ends (S : Services σ) (request : FrameRequest) (way : Way) (img : Image) (w : World σ) :
    ∃ q, (nextBy S request way (img, w)).2.1 =
        img.withQueue (q.after (some (nextBy S request way (img, w)).1)) ∧
      Answer S (way.circumstances S img) request img (some (nextBy S request way (img, w)).1) q := by
  cases way with
  | onSpot =>
    rcases hn : img.nextFrame S request w with ⟨o, img', w'⟩
    obtain ⟨q, rfl, ha⟩ := nextFrame_answer hn
    simp only [nextBy, hn]
    exact ⟨q, rfl, ha⟩
  | awaited t => exact awaitNext_ends S request t img w

end Image

end ImageLoader
