import ImageLoader.Error

/-!
# Which errors there can be

Most steps of the loader can fail in a few ways only.  `Within` says so of a step, and is carried from the parts of
a computation to the whole.

* `bind_eq_ok_iff`, `bind_eq_error_iff`, `mapError_eq_ok_iff`, `toOption_eq_some_iff`: where a result comes from.
* `Within.bind`, `Within.mapError`: a computation has the errors of its parts.
* `Within.loading`, `Within.ofExcept`: so has work that may panic; panics are left open.
-/

namespace ImageLoader

variable {ε δ α β : Type} {r : Except ε α} {k : α → Except ε β} {g : ε → δ} {may : ε → Prop}

theorem bind_eq_ok_iff {b : β} : (r >>= k) = .ok b ↔ ∃ a, r = .ok a ∧ k a = .ok b := by
  cases r <;> simp [bind, Except.bind]

theorem bind_eq_error_iff {e : ε} : (r >>= k) = .error e ↔ r = .error e ∨ ∃ a, r = .ok a ∧ k a = .error e := by
  cases r <;> simp [bind, Except.bind]

theorem toOption_eq_some_iff {a : α} : r.toOption = some a ↔ r = .ok a := by
  cases r <;> simp [Except.toOption]

/-- The result is a value, or an error that there may be. -/
def Within (may : ε → Prop) (r : Except ε α) : Prop := ∀ e, r = .error e → may e

namespace Within

theorem ok (a : α) : Within may (.ok a) := fun _ h => nomatch h

theorem error {e : ε} (h : may e) : Within may (.error e : Except ε α) := by
  intro e' he
  cases he
  exact h

theorem bind (h : Within may r) (hk : ∀ a, r = .ok a → Within may (k a)) : Within may (r >>= k) := by
  cases r with
  | ok a => exact hk a rfl
  | error e => exact error (h e rfl)

theorem map {f : α → β} (h : Within may r) : Within may (r.map f) := by
  cases r with
  | ok a => exact ok (f a)
  | error e => exact error (h e rfl)

theorem mapError {may' : δ → Prop} (h : Within may r) (hg : ∀ e, may e → may' (g e)) :
    Within may' (r.mapError g) := by
  cases r with
  | ok a => exact ok a
  | error e => exact error (hg e (h e rfl))

/-- Nothing is said of an error that is renamed to one that there may be. -/
theorem of_renamed {may' : δ → Prop} (r : Except ε α) (hg : ∀ e, may' (g e)) :
    Within may' (r.mapError g) :=
  Within.mapError (fun _ _ => trivial) fun e (_ : True) => hg e

end Within

/-! ## Work that may panic -/

/-- A panic, or an error that there may be. -/
def Stop.Excused (may : ε → Prop) : Stop ε → Prop
  | .error e => may e
  | .panic _ => True

namespace Within

theorem ofExcept (h : Within may r) : Within (Stop.Excused may) (Outcome.ofExcept r) := by
  cases r with
  | ok a => exact ok a
  | error e => exact error (h e rfl)

theorem loading {may : FrameError → Prop} {may' : LoadError → Prop} {o : Outcome FrameError α}
    (h : Within (Stop.Excused may) o) (hm : ∀ e, may e → may' (.frame e)) :
    Within (Stop.Excused may') o.loading := by
  rcases o with (e | p) | a
  · exact error (hm e (h (.error e) rfl))
  · exact error trivial
  · exact ok a

end Within

end ImageLoader
