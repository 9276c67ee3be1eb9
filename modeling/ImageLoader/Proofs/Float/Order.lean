import ImageLoader.Proofs.Float.Single

/-!
# Rounding keeps order

Of two exact numbers, the greater is not rounded to less.  So what an exact number bounds is still bounded after it is
rounded, where the bound is a single itself, and this goes through arithmetic on all singles, negative, infinite or no
number at all.

* `Rounding.Rounds.magnitude_mono`: **rounding keeps order.**
* `Single.AtMost`: a single is no positive number above the bound; `AtMost.add`, `AtMost.mul`, `AtMost.div`.
* `Single.Rounded.nearest_mono`: so are the natural numbers nearest to the results in order.
-/

namespace ImageLoader.Rounding

open Float.Model (Format UnpackedFloat totalExponent)
open Float.Model.UnpackedFloat

variable {spec : Format} {s s' : Sign} {m n : ℕ} {e t T : ℤ} {q r r' : ℚ} {u v : UnpackedFloat}

def magnitude : UnpackedFloat → ℚ
  | .finite _ m e _ => m * 2 ^ e
  | _ => 0

theorem magnitude_settled (spec : Format) (s : Sign) (t : ℤ) (n : ℕ) : magnitude (settled spec s t n) = n * 2 ^ t := by
  unfold settled
  split
  next hfull =>
    rw [hfull, magnitude, zpow_add_one₀ (by norm_num), Format.mantissaBits, pow_add]
    push_cast
    ring
  next =>
    split
    next => rfl
    next hzero =>
      obtain rfl : n = 0 := by omega
      simp [magnitude]

theorem Rounds.zero_or (h : Rounds spec s r u) :
    u = .zero s ∨ ∃ m e, ∃ hc : Canonical spec m e, u = .finite s m e hc.pos := by
  obtain ⟨T, n, hT, hn, rfl⟩ := h.result
  have hmin := minExponent_le_target spec T
  have hle := hn.le_two_pow (div_two_pow_lt hT)
  by_cases hlow : 2 ^ spec.mantissaBitsWithoutImplicit ≤ n
  · obtain ⟨m, e, hm, hu, hc, -⟩ := canonical_settled s hlow hle hmin
    exact .inr ⟨m, e, hc, hu⟩
  · -- too short a mantissa has the least exponent
    have hshort : n < 2 ^ spec.mantissaBitsWithoutImplicit := Nat.lt_of_not_le hlow
    have htarget : spec.targetExponent T = spec.minExponent := by
      by_contra hne
      have ht : spec.targetExponent T = T - spec.mantissaBits := by
        simp only [Format.targetExponent] at hne ⊢
        omega
      have hdigits : ((2 ^ spec.mantissaBitsWithoutImplicit : ℕ) : ℚ) ≤ r / 2 ^ spec.targetExponent T := by
        rw [ht, le_div_iff₀ (zpow_pos (by norm_num) _)]
        refine le_trans (le_of_eq ?_) hT.le
        push_cast
        rw [← zpow_natCast, ← zpow_add₀ (by norm_num), Format.mantissaBits]
        congr 1
        push_cast
        ring
      exact hlow ((nearest_natCast _).mono hn hdigits)
    have hbits : spec.mantissaBits = 1 + spec.mantissaBitsWithoutImplicit := rfl
    rw [settled, if_neg (by rw [hbits, pow_add]; omega)]
    split
    next hpos =>
      refine .inr ⟨n, _, ⟨hpos, ?_⟩, rfl⟩
      have hlog := (Nat.log2_lt (Nat.ne_of_gt hpos)).mpr hshort
      rw [htarget]
      simp only [Format.targetExponent, totalExponent]
      omega
    next => exact .inl rfl

theorem Rounds.pos (h : Rounds spec s r u) : 0 < r := by
  obtain ⟨T, n, hT, -⟩ := h.result
  exact lt_of_lt_of_le (zpow_pos (by norm_num) _) hT.le

/-- **Rounding keeps order.** -/
theorem Rounds.magnitude_mono (hu : Rounds spec s r u) (hv : Rounds spec s' r' v) (h : r ≤ r') :
    magnitude u ≤ magnitude v := by
  obtain ⟨T, n, hT, hn, rfl⟩ := hu.result
  obtain ⟨T', n', hT', hn', rfl⟩ := hv.result
  rw [magnitude_settled, magnitude_settled]
  have hTT : T ≤ T' := hT.le_of_lt_two_pow (lt_of_le_of_lt h hT'.lt)
  by_cases htarget : spec.targetExponent T = spec.targetExponent T'
  · -- at one exponent, the mantissas are in order
    rw [htarget] at hn ⊢
    have hpow : (0 : ℚ) < 2 ^ spec.targetExponent T' := zpow_pos (by norm_num) _
    have hmant : (n : ℚ) ≤ n' := by exact_mod_cast hn.mono hn' (div_le_div_of_nonneg_right h (le_of_lt hpow))
    exact mul_le_mul_of_nonneg_right hmant (le_of_lt hpow)
  · -- at two exponents, the power of two at the lower end of the greater binade lies between
    obtain ⟨hlt, hend⟩ : T < T' ∧ spec.targetExponent T' ≤ T' - 1 ∧ spec.targetExponent T ≤ T' - 1 := by
      simp only [Format.targetExponent, Format.mantissaBits] at htarget ⊢
      omega
    generalize spec.targetExponent T = t at *
    generalize spec.targetExponent T' = t' at *
    have hsplit : ∀ t : ℤ, t ≤ T' - 1 → (2 : ℚ) ^ (T' - 1) = ((2 ^ (T' - 1 - t).toNat : ℕ) : ℚ) * 2 ^ t := by
      intro t ht
      push_cast
      rw [← zpow_natCast, ← zpow_add₀ (by norm_num), Int.toNat_of_nonneg (by omega)]
      congr 1
      ring
    have hbelow : r ≤ 2 ^ (T' - 1) :=
      le_trans (le_of_lt hT.lt) (zpow_le_zpow_right₀ (by norm_num) (by omega))
    have hpow := fun t : ℤ => zpow_pos (by norm_num : (0 : ℚ) < 2) t
    have hn₁ : (n : ℚ) * 2 ^ t ≤ 2 ^ (T' - 1) := by
      rw [hsplit t hend.2] at hbelow ⊢
      exact mul_le_mul_of_nonneg_right
        (by exact_mod_cast hn.mono (nearest_natCast _) ((div_le_iff₀ (hpow t)).mpr hbelow)) (le_of_lt (hpow t))
    have hn₂ : (2 : ℚ) ^ (T' - 1) ≤ n' * 2 ^ t' := by
      have habove := hT'.le
      rw [hsplit t' hend.1] at habove ⊢
      exact mul_le_mul_of_nonneg_right
        (by exact_mod_cast (nearest_natCast _).mono hn' ((le_div_iff₀ (hpow t')).mpr habove)) (le_of_lt (hpow t'))
    exact le_trans hn₁ hn₂

/-- What is bounded by a number of the format is bounded by it when it is rounded. -/
theorem Rounds.magnitude_le (h : Rounds spec s r u) (hc : Canonical spec m e) (hr : r ≤ m * 2 ^ e) :
    magnitude u ≤ m * 2 ^ e := h.magnitude_mono (hc.rounds .positive) hr

/-! ## Bounds from above -/

/-- No positive number above `q`, and not infinity. -/
def Below (q : ℚ) : UnpackedFloat → Prop
  | .finite .positive m e _ => m * 2 ^ e ≤ q
  | .infinity .positive => False
  | _ => True

theorem Below.mono (h : Below q u) (hq : q ≤ r) : Below r u := by
  cases u with
  | finite s m e hm =>
    cases s with
    | negative => trivial
    | positive => exact le_trans h hq
  | infinity s =>
    cases s with
    | negative => trivial
    | positive => exact h
  | zero s => trivial
  | notANumber => trivial

theorem below_pack_negative (q : ℚ) (hm : 0 < m) : Below q (unpack spec (pack spec (.finite .negative m e hm))) := by
  obtain ⟨x, w, hpack⟩ : ∃ x w, pack spec (.finite .negative m e hm) = packComponents spec .negative x w := by
    simp only [pack]
    split
    · exact ⟨_, _, rfl⟩
    · split
      · exact ⟨_, _, rfl⟩
      · exact ⟨_, _, rfl⟩
  rw [hpack, unpack_packComponents]
  split
  · split
    · trivial
    · trivial
  · split
    · split
      · trivial
      · trivial
    · trivial

/-- A result that is bounded before it is rounded. -/
inductive Bounded (spec : Format) (q : ℚ) : UnpackedFloat → Prop
  | positive {u : UnpackedFloat} (r : ℚ) (h : Rounds spec .positive r u) (hr : r ≤ q) : Bounded spec q u
  | negative {u : UnpackedFloat} (r : ℚ) (h : Rounds spec .negative r u) : Bounded spec q u
  | zero (s : Sign) : Bounded spec q (.zero s)
  | infinity : Bounded spec q (.infinity .negative)
  | notANumber : Bounded spec q .notANumber

theorem Stored.bounded (h : Stored spec u) (hu : Below q u) : Bounded spec q u := by
  cases u with
  | finite s m e hm =>
    cases s with
    | negative => exact .negative _ (h.1.rounds .negative)
    | positive => exact .positive _ (h.1.rounds .positive) hu
  | infinity s =>
    cases s with
    | negative => exact .infinity
    | positive => exact hu.elim
  | zero s => exact .zero s
  | notANumber => exact .notANumber

/-! ## Bounds through arithmetic -/

theorem bounded_mul (hu : Stored spec u) (h : Below q u) (hm : Canonical spec m e) :
    Bounded spec (q * (m * 2 ^ e)) (mul spec u (.finite .positive m e hm.pos)) := by
  have hpos : (0 : ℚ) ≤ m * 2 ^ e := by positivity
  cases u with
  | finite s n f hn =>
    cases s with
    | negative => exact .negative _ (rounds_mul .negative .positive hu.1 hm)
    | positive => exact .positive _ (rounds_mul .positive .positive hu.1 hm) (mul_le_mul_of_nonneg_right h hpos)
  | infinity s =>
    cases s with
    | negative => exact .infinity
    | positive => exact h.elim
  | zero s => exact .zero _
  | notANumber => exact .notANumber

/-- Whatever is multiplied by zero is zero, or no number. -/
theorem bounded_mul_zero (u : UnpackedFloat) (s : Sign) : Bounded spec q (mul spec u (.zero s)) := by
  cases u with
  | finite s n f hn => exact .zero _
  | infinity s => exact .notANumber
  | zero s => exact .zero _
  | notANumber => exact .notANumber

theorem bounded_div (h : Below q u) (hm : 0 < m) :
    Bounded spec (q / (m * 2 ^ e)) (div spec u (.finite .positive m e hm)) := by
  have hpos : (0 : ℚ) ≤ m * 2 ^ e := by positivity
  cases u with
  | finite s n f hn =>
    cases s with
    | negative => exact .negative _ (rounds_div .negative .positive hn hm)
    | positive => exact .positive _ (rounds_div .positive .positive hn hm) (div_le_div_of_nonneg_right h hpos)
  | infinity s =>
    cases s with
    | negative => exact .infinity
    | positive => exact h.elim
  | zero s => exact .zero _
  | notANumber => exact .notANumber

/-- A sum of numbers with signs, at one exponent. -/
theorem bounded_normalize {k : ℤ} (h : (k : ℚ) * 2 ^ e ≤ q) :
    Bounded spec q (UnpackedFloat.normalize spec k e .positive) := by
  unfold UnpackedFloat.normalize
  rcases lt_trichotomy k 0 with hneg | rfl | hpos
  · rw [Int.compare_eq_lt.mpr hneg]
    exact .negative _ (rounds_round .negative (by omega) e)
  · exact .zero _
  · rw [Int.compare_eq_gt.mpr hpos]
    refine .positive _ (rounds_round .positive (by omega) e) (le_trans (le_of_eq ?_) h)
    congr 1
    exact_mod_cast Int.toNat_of_nonneg (le_of_lt hpos)

theorem Below.apply_le (hm : 0 < m) (h : Below q (.finite s m e hm)) (hq : 0 ≤ q) (ht : t ≤ e) :
    ((s.apply (decreaseExponent m e t).1 : ℤ) : ℚ) * 2 ^ t ≤ q := by
  have hvalue : ((decreaseExponent m e t).1 : ℚ) * 2 ^ t = m * 2 ^ e := decreaseExponent_value ht
  cases s with
  | negative =>
    have hpos : (0 : ℚ) ≤ m * 2 ^ e := by positivity
    rw [Sign.apply]
    push_cast
    linarith
  | positive =>
    rw [Sign.apply]
    push_cast
    rw [hvalue]
    exact h

theorem bounded_add (hu : Stored spec u) (hv : Stored spec v) (h₁ : Below q u) (h₂ : Below r v) (hq : 0 ≤ q)
    (hr : 0 ≤ r) : Bounded spec (q + r) (add spec u v) := by
  have hleft : Bounded spec (q + r) u := hu.bounded (h₁.mono (by linarith))
  have hright : Bounded spec (q + r) v := hv.bounded (h₂.mono (by linarith))
  cases u with
  | finite s m e hm =>
    cases v with
    | finite s' n f hn =>
      refine bounded_normalize ?_
      rw [Int.cast_add, add_mul]
      exact add_le_add (h₁.apply_le hm hq (min_le_left e f)) (h₂.apply_le hn hr (min_le_right e f))
    | infinity s' => exact hright
    | zero s' => exact hleft
    | notANumber => exact .notANumber
  | infinity s =>
    cases v with
    | infinity s' =>
      cases s with
      | positive => exact h₁.elim
      | negative =>
        cases s' with
        | positive => exact h₂.elim
        | negative => exact .infinity
    | finite => exact hleft
    | zero => exact hleft
    | notANumber => exact .notANumber
  | zero s =>
    cases v with
    | finite => exact hright
    | infinity => exact hright
    | zero s' => cases s <;> cases s' <;> exact .zero _
    | notANumber => exact .notANumber
  | notANumber => exact .notANumber

end ImageLoader.Rounding

namespace ImageLoader.Single

open Float.Model (Format UnpackedFloat)
open Rounding

variable {x y z c : Float32} {p q r t : ℚ} {n : ℕ} {u : UnpackedFloat}

/-! ## Singles that are bounded -/

/-- The single is no positive number above `q`, and not infinity. -/
def AtMost (x : Float32) (q : ℚ) : Prop := Below q x.toModel.unpack

/-- There is a single for the number, if it is positive. -/
def Exact (q : ℚ) : Prop := 0 < q → ∃ c, Holds c q

theorem Holds.exact (h : Holds x q) : Exact q := fun _ => ⟨x, h⟩

theorem exact_zero : Exact 0 := fun h => absurd h (lt_irrefl 0)

theorem Holds.lt_two_pow (h : Holds x q) : q < 2 ^ (128 : ℤ) := by
  obtain ⟨m, e, hc, hx, rfl⟩ := h.number
  exact (hc.stored_iff (by decide) .positive).mp (hx ▸ stored x)

theorem Holds.atMost (h : Holds x q) (hr : q ≤ r) : AtMost x r := by
  obtain ⟨m, e, hc, hx, rfl⟩ := h.number
  rw [AtMost, hx]
  exact hr

theorem Holds.le_of_atMost (hx : Holds x q) (h : AtMost x r) : q ≤ r := by
  obtain ⟨m, e, hc, hxu, rfl⟩ := hx.number
  rw [AtMost, hxu] at h
  exact h

theorem AtMost.mono (h : AtMost x q) (hr : q ≤ r) : AtMost x r := Below.mono h hr

/-- What is positive and bounded holds a number that is bounded. -/
theorem AtMost.holds_or (h : AtMost x q) : (∃ p, Holds x p ∧ p ≤ q) ∨ AtMost x 0 := by
  have hx := stored x
  unfold AtMost at h ⊢
  cases hu : x.toModel.unpack with
  | finite s m e hm =>
    rw [hu] at h hx
    cases s with
    | negative => exact .inr trivial
    | positive => exact .inl ⟨_, ⟨m, e, hx.1, hu, rfl⟩, h⟩
  | infinity s =>
    rw [hu] at h
    cases s with
    | negative => exact .inr trivial
    | positive => exact h.elim
  | zero s => exact .inr trivial
  | notANumber => exact .inr trivial

theorem atMost_of_stored (hu : Stored Format.binary32 u) (h : Below q u) : AtMost (.ofModel (.pack u)) q := by
  unfold AtMost
  rwa [unpack_ofModel hu]

theorem atMost_ofModel (h : Bounded Format.binary32 q u) (hq : Exact q) : AtMost (.ofModel (.pack u)) q := by
  cases h with
  | positive r h hr =>
    rcases h.zero_or with rfl | ⟨m, e, hc, rfl⟩
    · exact atMost_of_stored (u := .zero .positive) trivial trivial
    · obtain ⟨c, hcq⟩ := hq (lt_of_lt_of_le h.pos hr)
      have hlt := hcq.lt_two_pow
      obtain ⟨n, f, hn, -, rfl⟩ := hcq.number
      have hle : (m : ℚ) * 2 ^ e ≤ n * 2 ^ f := h.magnitude_le hn hr
      exact atMost_of_stored ((hc.stored_iff (by decide) .positive).mpr (lt_of_le_of_lt hle hlt)) hle
  | negative r h =>
    rcases h.zero_or with rfl | ⟨m, e, hc, rfl⟩
    · exact atMost_of_stored (u := .zero .negative) trivial trivial
    · exact below_pack_negative q hc.pos
  | zero s => exact atMost_of_stored (u := .zero s) trivial trivial
  | infinity => exact atMost_of_stored (u := .infinity .negative) trivial trivial
  | notANumber => exact atMost_of_stored (u := .notANumber) trivial trivial

theorem AtMost.add (hx : AtMost x p) (hy : AtMost y q) (hp : 0 ≤ p) (hq : 0 ≤ q) (hsum : Exact (p + q)) :
    AtMost (x + y) (p + q) :=
  atMost_ofModel (bounded_add (stored x) (stored y) hx hy hp hq) hsum

theorem AtMost.mul (hx : AtMost x p) (hy : Holds y q) (hprod : Exact (p * q)) : AtMost (x * y) (p * q) := by
  obtain ⟨m, e, hc, hyu, rfl⟩ := hy.number
  have h : AtMost (.ofModel (.pack (.mul Format.binary32 x.toModel.unpack y.toModel.unpack))) (p * (m * 2 ^ e)) := by
    rw [hyu]
    exact atMost_ofModel (bounded_mul (stored x) hx hc) hprod
  exact h

theorem AtMost.div (hx : AtMost x p) (hy : Holds y q) (hquot : Exact (p / q)) : AtMost (x / y) (p / q) := by
  obtain ⟨m, e, hc, hyu, rfl⟩ := hy.number
  have h : AtMost (.ofModel (.pack (.div Format.binary32 x.toModel.unpack y.toModel.unpack))) (p / (m * 2 ^ e)) := by
    rw [hyu]
    exact atMost_ofModel (bounded_div hx hc.pos) hquot
  exact h

theorem atMost_mul_zero (x : Float32) {s : UnpackedFloat.Sign} (hy : y.toModel.unpack = .zero s) :
    AtMost (x * y) 0 := by
  have h : AtMost (.ofModel (.pack (.mul Format.binary32 x.toModel.unpack y.toModel.unpack))) 0 := by
    rw [hy]
    exact atMost_ofModel (bounded_mul_zero _ s) exact_zero
  exact h

theorem holds_one : Holds (ofNat 1) 1 := by
  have h : Holds (ofNat 1) ((1 : ℕ) : ℚ) := holds_ofNat (by decide) (by decide)
  rwa [Nat.cast_one] at h

theorem unpack_zero : (ofNat 0).toModel.unpack = .zero .positive := rfl

theorem atMost_zero (q : ℚ) : AtMost (ofNat 0) q := by
  rw [AtMost, unpack_zero]
  trivial

theorem exact_natCast (hn : n < 2 ^ 24) : Exact n :=
  fun h => ⟨ofNat n, holds_ofNat (by exact_mod_cast h) hn⟩

theorem AtMost.mean (hn : 3 * n < 2 ^ 24) (hx : AtMost x n) (hy : AtMost y n) (hz : AtMost z n) :
    AtMost ((x + y + z) / ofNat 3) n := by
  have hpos : (0 : ℚ) ≤ n := Nat.cast_nonneg n
  have hthree : Holds (ofNat 3) ((3 : ℕ) : ℚ) := holds_ofNat (by decide) (by decide)
  have hcancel : ((n : ℚ) + n + n) / ((3 : ℕ) : ℚ) = n := by
    push_cast
    ring
  have htwice : Exact ((n : ℚ) + n) := by exact_mod_cast exact_natCast (by omega : n + n < 2 ^ 24)
  have hthrice : Exact ((n : ℚ) + n + n) := by exact_mod_cast exact_natCast (by omega : n + n + n < 2 ^ 24)
  have h := ((hx.add hy hpos hpos htwice).add hz (by linarith) hpos hthrice).div hthree
    (by rw [hcancel]; exact exact_natCast (by omega))
  rwa [hcancel] at h

/-! ## Comparisons -/

theorem lt_iff_unpack : x < y ↔ UnpackedFloat.lt x.toModel.unpack y.toModel.unpack = true :=
  ⟨unpack_lt, fun h => decide_eq_true h⟩

theorem unpack_le (h : x ≤ y) : UnpackedFloat.le x.toModel.unpack y.toModel.unpack = true := of_decide_eq_true h

theorem atMost_iff (hy : Holds y q) : AtMost x q ↔ ¬ y < x := by
  have hx := stored x
  obtain ⟨m, e, hc, hyu, rfl⟩ := hy.number
  rw [lt_iff_unpack, AtMost, hyu]
  generalize x.toModel.unpack = u at hx
  cases u with
  | finite s n f hn =>
    cases s with
    | negative => simp [Below, UnpackedFloat.lt, UnpackedFloat.compare]
    | positive => simp [Below, UnpackedFloat.lt, UnpackedFloat.compare, hc.compare_eq hx.1, compare_lt_iff_lt]
  | infinity s => cases s <;> simp [Below, UnpackedFloat.lt, UnpackedFloat.compare]
  | zero s => simp [Below, UnpackedFloat.lt, UnpackedFloat.compare]
  | notANumber => simp [Below, UnpackedFloat.lt, UnpackedFloat.compare]

theorem atMost_of_le (hy : Holds y q) (h : x ≤ y) : AtMost x q := by
  have hx := stored x
  have hle := unpack_le h
  obtain ⟨m, e, hc, hyu, rfl⟩ := hy.number
  rw [hyu] at hle
  unfold AtMost
  generalize x.toModel.unpack = u at hx hle
  cases u with
  | finite s n f hn =>
    cases s with
    | negative => trivial
    | positive =>
      by_contra hgt
      rw [UnpackedFloat.le, UnpackedFloat.compare, hx.1.compare_eq hc, compare_gt_iff_gt.mpr (not_le.mp hgt)] at hle
      cases hle
  | infinity s =>
    cases s with
    | negative => trivial
    | positive => cases hle
  | zero s => trivial
  | notANumber => trivial

theorem Holds.zero_lt (h : Holds x q) : ofNat 0 < x := by
  obtain ⟨m, e, hm, hx, -⟩ := h.number
  rw [lt_iff_unpack, hx, unpack_zero]
  rfl

theorem Holds.not_le_zero (h : Holds x q) : ¬ x ≤ ofNat 0 := by
  obtain ⟨m, e, hm, hx, -⟩ := h.number
  intro hle
  have hless := unpack_le hle
  rw [hx, unpack_zero] at hless
  cases hless

/-! ## The unit interval -/

/-- A zero, or a positive number up to one. -/
def InUnit (x : Float32) : Prop := (∃ s, x.toModel.unpack = .zero s) ∨ ∃ q, Holds x q ∧ q ≤ 1

theorem InUnit.atMost (h : InUnit x) : AtMost x 1 := by
  rcases h with ⟨s, hs⟩ | ⟨q, hq, hle⟩
  · rw [AtMost, hs]
    trivial
  · exact hq.atMost hle

theorem inUnit_zero : InUnit (ofNat 0) := .inl ⟨_, unpack_zero⟩

theorem inUnit_one : InUnit (ofNat 1) := .inr ⟨1, holds_one, le_rfl⟩

theorem inUnit_of_le (h₀ : ofNat 0 ≤ x) (h₁ : x ≤ ofNat 1) : InUnit x := by
  rcases (atMost_of_le holds_one h₁).holds_or with hpos | hzero
  · exact .inr hpos
  · left
    have hle := unpack_le h₀
    rw [unpack_zero] at hle
    unfold AtMost at hzero
    generalize x.toModel.unpack = u at hle hzero
    cases u with
    | finite s m e hm =>
      cases s with
      | negative => cases hle
      | positive => exact absurd hzero (not_le.mpr (mul_pos (by exact_mod_cast hm) (zpow_pos (by norm_num) e)))
    | infinity s =>
      cases s with
      | negative => cases hle
      | positive => exact hzero.elim
    | zero s => exact ⟨s, rfl⟩
    | notANumber => cases hle

/-- What is not positive stays so in a product with a number of the unit interval. -/
theorem AtMost.mul_inUnit (hx : AtMost x 0) (hy : InUnit y) : AtMost (x * y) 0 := by
  rcases hy with ⟨s, hs⟩ | ⟨q, hq, -⟩
  · exact atMost_mul_zero x hs
  · have h := hx.mul hq (by rw [zero_mul]; exact exact_zero)
    rwa [zero_mul] at h

theorem atMost_clamp (x : Float32) : AtMost (clamp x (ofNat 0) (ofNat 1)) 1 := by
  rw [Single.clamp]
  generalize (if x < ofNat 0 then ofNat 0 else x) = y
  show AtMost (if ofNat 1 < y then ofNat 1 else y) 1
  split
  next => exact holds_one.atMost le_rfl
  next h => exact (atMost_iff holds_one).mpr h

/-- Below its upper end, nothing is moved but what is negative. -/
theorem AtMost.clamp_eq (h : AtMost x q) (hq : q ≤ 1) :
    clamp x (ofNat 0) (ofNat 1) = if x < ofNat 0 then ofNat 0 else x := by
  have hle : ¬ ofNat 1 < if x < ofNat 0 then ofNat 0 else x := by
    refine (atMost_iff holds_one).mp ?_
    split
    next => exact atMost_zero 1
    next => exact h.mono hq
  exact if_neg hle

theorem AtMost.clamp (h : AtMost x q) (hq : q ≤ 1) : AtMost (clamp x (ofNat 0) (ofNat 1)) q := by
  rw [h.clamp_eq hq]
  split
  next => exact atMost_zero q
  next => exact h

theorem Holds.clamp_eq (h : Holds x q) (hq : q ≤ 1) : Single.clamp x (ofNat 0) (ofNat 1) = x := by
  rw [(h.atMost le_rfl).clamp_eq hq, if_neg h.not_lt_zero]

/-! ## Nearest natural numbers -/

theorem AtMost.nearest_eq_zero (h : AtMost x 0) : nearest x = 0 := by
  unfold AtMost at h
  unfold nearest
  cases hu : x.toModel.unpack with
  | finite s m e hm =>
    rw [hu] at h
    cases s with
    | negative => rfl
    | positive => exact absurd h (not_le.mpr (mul_pos (by exact_mod_cast hm) (zpow_pos (by norm_num) e)))
  | infinity s => rfl
  | zero s => rfl
  | notANumber => rfl

theorem AtMost.nearest_le (h : AtMost x n) : nearest x ≤ n := by
  rcases h.holds_or with ⟨p, hp, hle⟩ | hzero
  · have hpos := hp.pos
    rw [hp.nearest_eq]
    exact Nat.lt_succ_iff.mp ((Nat.floor_lt (by linarith)).mpr (by push_cast; linarith))
  · rw [hzero.nearest_eq_zero]
    exact Nat.zero_le n

theorem nearest_ofModel (h : Rounds Format.binary32 .positive r u) (hr : r ≤ q) (hc : Holds c q) :
    nearest (.ofModel (.pack u)) = ⌊magnitude u + 1 / 2⌋₊ := by
  rcases h.zero_or with rfl | ⟨m, e, hm, rfl⟩
  · rw [(atMost_of_stored (u := .zero .positive) (q := 0) trivial trivial).nearest_eq_zero, eq_comm, Nat.floor_eq_zero]
    show (0 : ℚ) + 1 / 2 < 1
    norm_num
  · have hlt := hc.lt_two_pow
    obtain ⟨n, f, hn, -, rfl⟩ := hc.number
    exact (holds_ofModel hm (lt_of_le_of_lt (h.magnitude_le hn hr) hlt)).nearest_eq

/-- **The nearest natural numbers are in the order of the exact results.** -/
theorem Rounded.nearest_mono (hx : Rounded r x) (hy : Rounded t y) (h : r ≤ t) (ht : t ≤ q) (hc : Holds c q) :
    nearest x ≤ nearest y := by
  obtain ⟨u, hu, rfl⟩ := hx.result
  obtain ⟨v, hv, rfl⟩ := hy.result
  rw [nearest_ofModel hu (le_trans h ht) hc, nearest_ofModel hv ht hc]
  exact Nat.floor_mono (add_le_add_left (hu.magnitude_mono hv h) _)

/-- A product with a bounded number is nearest to no greater a number. -/
theorem AtMost.nearest_mul_le (hx : AtMost x p) (hy : Holds y p) (hp : p ≤ 1) (hc : Holds c q) :
    nearest (x * c) ≤ nearest (y * c) := by
  rcases hx.holds_or with ⟨p', hx', hle⟩ | hzero
  · have hq := le_of_lt hc.pos
    exact (hx'.mul hc).nearest_mono (hy.mul hc) (mul_le_mul_of_nonneg_right hle hq)
      (mul_le_of_le_one_left hq hp) hc
  · have hprod := hzero.mul hc (by rw [zero_mul]; exact exact_zero)
    rw [zero_mul] at hprod
    rw [hprod.nearest_eq_zero]
    exact Nat.zero_le _

end ImageLoader.Single
