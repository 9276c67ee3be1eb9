import Mathlib

/-!
# Rounding to a floating-point format

The numbers of a format are `m * 2 ^ e`, with a mantissa of so many bits.  An exact number between two of them is
rounded to the nearer one, and a tie goes to the even mantissa.  The work is done on a mantissa with two residual
bits, which is shifted to the exponent that the format wants; here it is related to the exact number.

* `Nearest`: a natural number nearest to a rational one; `Nearest.unique`, `Nearest.mono`: there is one, and it grows
  with the number.
* `Marks`: a mantissa with residual bits stands for a rational number; `Marks.shift`: shifting it divides.
* `Binade`: the place of the most significant digit of a rational number.
* `roundWithAccuracy_eq`: **rounding gives the mantissa nearest to the exact one**, at the exponent of its binade.
-/

namespace ImageLoader.Rounding

open Float.Model Float.Model.UnpackedFloat

/-! ## Nearest natural numbers -/

/-- No natural number is nearer, and of two that are as near, this is the even one. -/
structure Nearest (q : ℚ) (n : ℕ) : Prop where
  near : |q - n| ≤ 1 / 2
  even : |q - n| = 1 / 2 → n % 2 = 0

theorem nearest_natCast (n : ℕ) : Nearest n n where
  near := by simp
  even h := by norm_num at h

theorem nearest_of_lt {q : ℚ} {n : ℕ} (h : |q - n| < 1 / 2) : Nearest q n where
  near := le_of_lt h
  even he := absurd he (ne_of_lt h)

theorem Nearest.le_succ {q : ℚ} {m n : ℕ} (hm : Nearest q m) (hn : Nearest q n) : m ≤ n + 1 := by
  have h₁ := abs_le.mp hm.near
  have h₂ := abs_le.mp hn.near
  have h : (m : ℚ) ≤ (n + 1 : ℕ) := by push_cast; linarith
  exact_mod_cast h

theorem Nearest.ne_succ {q : ℚ} {m n : ℕ} (hm : Nearest q m) (hn : Nearest q n) : m ≠ n + 1 := by
  rintro rfl
  -- the number lies in the middle of two neighbours, which are both even
  have h₁ := abs_le.mp hm.near
  have h₂ := abs_le.mp hn.near
  push_cast at h₁
  have hmid : q - n = 1 / 2 := by linarith
  have hmid' : q - (n + 1 : ℕ) = -(1 / 2) := by push_cast; linarith
  have hn₀ := hn.even (by rw [hmid]; norm_num)
  have hn₁ := hm.even (by rw [hmid']; norm_num)
  omega

theorem Nearest.unique {q : ℚ} {m n : ℕ} (hm : Nearest q m) (hn : Nearest q n) : m = n := by
  have h₁ := hm.le_succ hn
  have h₂ := hn.le_succ hm
  have h₃ := hm.ne_succ hn
  have h₄ := hn.ne_succ hm
  omega

theorem Nearest.mono {q r : ℚ} {m n : ℕ} (hm : Nearest q m) (hn : Nearest r n) (h : q ≤ r) : m ≤ n := by
  by_contra hlt
  -- a greater result needs a tie that both are rounded from
  have hsucc : (n : ℚ) + 1 ≤ m := by exact_mod_cast Nat.lt_of_not_le hlt
  have h₁ := abs_le.mp hm.near
  have h₂ := abs_le.mp hn.near
  obtain rfl : q = r := le_antisymm h (by linarith)
  exact hlt (le_of_eq (hm.unique hn))

/-! ## Mantissas with residual bits -/

/-- The mantissa and its residual bits stand for the number: the round bit counts a half, and the sticky bit says
whether there is anything less. -/
structure Marks (em : ExtendedMantissa) (q : ℚ) : Prop where
  split : ∃ rest : ℚ, q = em.mantissa + (if em.roundBit then 1 / 2 else 0) + rest ∧ 0 ≤ rest ∧ rest < 1 / 2 ∧
    (em.stickyBit = true ↔ 0 < rest)

namespace Marks

variable {em : ExtendedMantissa} {q : ℚ}

theorem mantissa_le (h : Marks em q) : (em.mantissa : ℚ) ≤ q := by
  obtain ⟨rest, rfl, h₀, -⟩ := h.split
  split <;> linarith

theorem lt_mantissa (h : Marks em q) : q < em.mantissa + 1 := by
  obtain ⟨rest, rfl, -, h₁, -⟩ := h.split
  split <;> linarith

theorem shiftRightOne (h : Marks em q) : Marks em.shiftRightOne (q / 2) := by
  obtain ⟨m, round, sticky⟩ := em
  obtain ⟨rest, rfl, h₀, h₁, hs⟩ := h.split
  simp only at hs
  have hm : (m : ℚ) = 2 * (m / 2 : ℕ) + (m % 2 : ℕ) := by exact_mod_cast (Nat.div_add_mod m 2).symm
  -- the digit that is shifted out is the new round bit, and the old residual bits join in the sticky bit
  refine ⟨((if round then 1 / 2 else 0) + rest) / 2, ?_, ?_, ?_, ?_⟩
  · rcases Nat.mod_two_eq_zero_or_one m with hb | hb <;> rw [hm, hb] <;>
      simp only [ExtendedMantissa.shiftRightOne, hb] <;> push_cast <;> simp <;> ring
  · split <;> linarith
  · split <;> linarith
  · cases round with
    | true =>
      simp only [ExtendedMantissa.shiftRightOne, Bool.true_or, if_true, true_iff]
      linarith
    | false =>
      simp only [ExtendedMantissa.shiftRightOne, Bool.false_or, hs, Bool.false_eq_true, if_false, zero_add]
      constructor <;> intro hr <;> linarith

theorem shiftRight (h : Marks em q) (k : ℕ) : Marks (em >>> k) (q / 2 ^ k) := by
  induction k with
  | zero =>
    rw [pow_zero, div_one]
    exact h
  | succ k ih =>
    rw [pow_succ, ← div_div]
    exact ih.shiftRightOne

theorem nearest (h : Marks em q) : Nearest q em.roundedMantissa := by
  obtain ⟨m, round, sticky⟩ := em
  obtain ⟨rest, rfl, h₀, h₁, hs⟩ := h.split
  simp only at hs
  cases round <;> cases sticky
  · -- exact
    have hr : rest = 0 := le_antisymm (not_lt.mp fun hp => Bool.false_ne_true (hs.mpr hp)) h₀
    subst hr
    simpa [ExtendedMantissa.roundedMantissa, ExtendedMantissa.accuracy, Accuracy.roundToNearestEven] using
      nearest_natCast m
  · -- less than a half
    have hd : |(m : ℚ) + 0 + rest - m| < 1 / 2 := by
      rw [show (m : ℚ) + 0 + rest - m = rest by ring, abs_of_nonneg h₀]
      exact h₁
    exact nearest_of_lt hd
  · -- a half
    have hr : rest = 0 := le_antisymm (not_lt.mp fun hp => Bool.false_ne_true (hs.mpr hp)) h₀
    subst hr
    simp only [ExtendedMantissa.roundedMantissa, ExtendedMantissa.accuracy, Accuracy.roundToNearestEven, if_true]
    rcases Nat.mod_two_eq_zero_or_one m with hm | hm
    · refine ⟨?_, fun _ => by omega⟩
      rw [hm, show (m : ℚ) + 1 / 2 + 0 - (m + 0 : ℕ) = 1 / 2 by push_cast; ring]
      norm_num
    · refine ⟨?_, fun _ => by omega⟩
      rw [hm, show (m : ℚ) + 1 / 2 + 0 - (m + 1 : ℕ) = -(1 / 2) by push_cast; ring]
      norm_num
  · -- more than a half
    have hr : 0 < rest := hs.mp rfl
    have hd : |(m : ℚ) + 1 / 2 + rest - (m + 1 : ℕ)| < 1 / 2 := by
      rw [abs_lt]
      push_cast
      constructor <;> linarith
    exact nearest_of_lt hd

end Marks

theorem marks_exact (m : ℕ) : Marks (.ofMantissaAndAccuracy m .exact) m :=
  ⟨0, by simp [ExtendedMantissa.ofMantissaAndAccuracy], le_rfl, by norm_num,
    by simp [ExtendedMantissa.ofMantissaAndAccuracy]⟩

theorem marks_fraction (m : ℕ) {num den : ℕ} (h : num < den) :
    Marks (.ofMantissaAndAccuracy m (accuracyOfFraction num den)) (m + num / den) := by
  have hden : (0 : ℚ) < den := by exact_mod_cast Nat.zero_lt_of_lt h
  unfold accuracyOfFraction
  by_cases hz : num = 0
  · subst hz
    simpa using marks_exact m
  rw [if_neg hz]
  have hnum : (0 : ℚ) < num := by exact_mod_cast Nat.pos_of_ne_zero hz
  rcases lt_trichotomy (2 * num) den with hlt | heq | hgt
  · have hq : (2 * num : ℚ) < den := by exact_mod_cast hlt
    rw [Nat.compare_eq_lt.mpr hlt]
    refine ⟨num / den, by simp [ExtendedMantissa.ofMantissaAndAccuracy], by positivity, ?_, ?_⟩
    · rw [div_lt_iff₀ hden]
      linarith
    · simp only [ExtendedMantissa.ofMantissaAndAccuracy, true_iff]
      positivity
  · have hq : (2 * num : ℚ) = den := by exact_mod_cast heq
    rw [Nat.compare_eq_eq.mpr heq]
    refine ⟨0, ?_, le_rfl, by norm_num, by simp [ExtendedMantissa.ofMantissaAndAccuracy]⟩
    simp only [ExtendedMantissa.ofMantissaAndAccuracy, if_true, add_zero]
    rw [← hq]
    field_simp
  · have hq : (den : ℚ) < 2 * num := by exact_mod_cast hgt
    have hlt : (num : ℚ) < den := by exact_mod_cast h
    rw [Nat.compare_eq_gt.mpr hgt]
    refine ⟨num / den - 1 / 2, ?_, ?_, ?_, ?_⟩
    · simp only [ExtendedMantissa.ofMantissaAndAccuracy, if_true]
      ring
    · rw [sub_nonneg, le_div_iff₀ hden]
      linarith
    · rw [sub_lt_iff_lt_add, div_lt_iff₀ hden]
      linarith
    · simp only [ExtendedMantissa.ofMantissaAndAccuracy, true_iff]
      rw [sub_pos, lt_div_iff₀ hden]
      linarith

/-! ## Binades -/

/-- The most significant digit of the number is at this place. -/
structure Binade (q : ℚ) (place : ℤ) : Prop where
  le : 2 ^ (place - 1) ≤ q
  lt : q < 2 ^ place

theorem Binade.le_of_lt_two_pow {q : ℚ} {i j : ℤ} (h : Binade q i) (hj : q < 2 ^ j) : i ≤ j := by
  have hlt : (2 : ℚ) ^ (i - 1) < 2 ^ j := lt_of_le_of_lt h.le hj
  have := (zpow_lt_zpow_iff_right₀ (by norm_num : (1 : ℚ) < 2)).mp hlt
  omega

theorem Binade.unique {q : ℚ} {i j : ℤ} (hi : Binade q i) (hj : Binade q j) : i = j :=
  le_antisymm (hi.le_of_lt_two_pow hj.lt) (hj.le_of_lt_two_pow hi.lt)

theorem binade_total {m : ℕ} (hm : 0 < m) {q : ℚ} (hle : (m : ℚ) ≤ q) (hlt : q < m + 1) (e : ℤ) :
    Binade (q * 2 ^ e) (totalExponent m e) := by
  have h2 : (0 : ℚ) < 2 ^ e := zpow_pos (by norm_num) e
  have hlow : (2 : ℚ) ^ m.log2 ≤ m := by exact_mod_cast Nat.log2_self_le (Nat.ne_of_gt hm)
  have hhigh : (m : ℚ) + 1 ≤ 2 ^ (m.log2 + 1) := by exact_mod_cast Nat.lt_log2_self
  constructor
  · rw [totalExponent, show (m.log2 : ℤ) + 1 + e - 1 = m.log2 + e by ring, zpow_add₀ (by norm_num), zpow_natCast]
    exact mul_le_mul_of_nonneg_right (le_trans hlow hle) (le_of_lt h2)
  · rw [totalExponent, zpow_add₀ (by norm_num), show ((m.log2 : ℤ) + 1) = ((m.log2 + 1 : ℕ) : ℤ) by push_cast; rfl,
      zpow_natCast]
    exact mul_lt_mul_of_pos_right (lt_of_lt_of_le hlt hhigh) h2

/-! ## Rounding -/

variable {spec : Format} {s : Sign} {m n : ℕ} {e t T : ℤ} {q : ℚ}

/-- A nearest mantissa at its exponent.  One that has become too long by being rounded up moves one place. -/
def settled (spec : Format) (s : Sign) (t : ℤ) (n : ℕ) : UnpackedFloat :=
  if n = 2 ^ spec.mantissaBits then .finite s (2 ^ spec.mantissaBitsWithoutImplicit) (t + 1) (Nat.two_pow_pos _)
  else if h : 0 < n then .finite s n t h
  else .zero s

theorem minExponent_le_target (spec : Format) (T : ℤ) : spec.minExponent ≤ spec.targetExponent T := le_max_right _ _

theorem shift_of_lt (hn : n < 2 ^ spec.mantissaBits) (ht : spec.minExponent ≤ t) :
    shiftToTargetExponent spec n t .exact = (⟨n, false, false⟩, t) := by
  have hlog : n.log2 + 1 ≤ spec.mantissaBits := by
    by_cases hz : n = 0
    · subst hz
      simp [Format.mantissaBits]
    · exact (Nat.log2_lt hz).mpr hn
  have htarget : spec.targetExponent (totalExponent n t) ≤ t := by
    simp only [Format.targetExponent, totalExponent]
    omega
  have hzero : (spec.targetExponent (totalExponent n t) - t).toNat = 0 := by omega
  simp only [shiftToTargetExponent, shiftToExponent, hzero]
  exact congrArg _ (add_zero t)

theorem shift_of_eq (ht : spec.minExponent ≤ t) :
    shiftToTargetExponent spec (2 ^ spec.mantissaBits) t .exact =
      (⟨2 ^ spec.mantissaBitsWithoutImplicit, false, false⟩, t + 1) := by
  have htarget : spec.targetExponent (totalExponent (2 ^ spec.mantissaBits) t) = t + 1 := by
    simp only [Format.targetExponent, totalExponent, Nat.log2_two_pow]
    omega
  have hone : (t + 1 - t).toNat = 1 := by omega
  have hhalf : 2 ^ spec.mantissaBits / 2 = 2 ^ spec.mantissaBitsWithoutImplicit := by
    simp [Format.mantissaBits, pow_add]
  have hodd : 2 ^ spec.mantissaBits % 2 = 0 := by
    simp [Format.mantissaBits, pow_add]
  simp only [shiftToTargetExponent, htarget, shiftToExponent, hone]
  show (ExtendedMantissa.shiftRightOne ⟨2 ^ spec.mantissaBits, false, false⟩, t + 1) = _
  simp only [ExtendedMantissa.shiftRightOne, hhalf, hodd]
  rfl

/-- At the exponent of its binade, a number has no more digits than the format. -/
theorem div_two_pow_lt (h : Binade q T) : q / 2 ^ spec.targetExponent T < 2 ^ spec.mantissaBits := by
  have hT : T ≤ spec.mantissaBits + spec.targetExponent T := by
    simp only [Format.targetExponent]
    omega
  rw [div_lt_iff₀ (zpow_pos (by norm_num) _), ← zpow_natCast, ← zpow_add₀ (by norm_num)]
  exact lt_of_lt_of_le h.lt (zpow_le_zpow_right₀ (by norm_num) hT)

theorem Nearest.le_two_pow {k : ℕ} (h : Nearest q n) (hq : q < 2 ^ k) : n ≤ 2 ^ k := by
  have hn := (abs_le.mp h.near).1
  have hlt : (n : ℚ) < (2 ^ k + 1 : ℕ) := by push_cast; linarith
  exact Nat.lt_succ_iff.mp (by exact_mod_cast hlt)

/-- What a mantissa that was shifted to its exponent is as a number. -/
def finished (s : Sign) (x : ExtendedMantissa × ℤ) : UnpackedFloat :=
  if h : x.1.mantissa = 0 then .zero s else .finite s x.1.mantissa x.2 (Nat.pos_of_ne_zero h)

theorem roundWithAccuracy_eq_finished (spec : Format) (s : Sign) (m : ℕ) (e : ℤ) (a : Accuracy) :
    roundWithAccuracy spec s m e a =
      finished s (shiftToTargetExponent spec (shiftToTargetExponent spec m e a).1.roundedMantissa
        (shiftToTargetExponent spec m e a).2 .exact) := rfl

theorem finished_shift (hn : n ≤ 2 ^ spec.mantissaBits) (ht : spec.minExponent ≤ t) :
    finished s (shiftToTargetExponent spec n t .exact) = settled spec s t n := by
  unfold settled
  by_cases hfull : n = 2 ^ spec.mantissaBits
  · subst hfull
    rw [shift_of_eq ht, if_pos rfl, finished, dif_neg (Nat.ne_of_gt (Nat.two_pow_pos _))]
  · rw [shift_of_lt (by omega) ht, if_neg hfull, finished]
    by_cases hz : n = 0
    · rw [dif_pos hz, dif_neg (by omega)]
    · rw [dif_neg hz, dif_pos (Nat.pos_of_ne_zero hz)]

theorem binade_of_marks {a : Accuracy} (hm : 0 < m) (hq : Marks (.ofMantissaAndAccuracy m a) q) (e : ℤ) :
    Binade (q * 2 ^ e) (totalExponent m e) := by
  have hmant : (ExtendedMantissa.ofMantissaAndAccuracy m a).mantissa = m := by
    cases a with
    | exact => rfl
    | inexact o => cases o <;> rfl
  exact binade_total hm (hmant ▸ hq.mantissa_le) (hmant ▸ hq.lt_mantissa) e

/-- Rounding at the exponent `t`, at which the exact mantissa has no more digits than the format. -/
theorem roundWithAccuracy_of_lt {a : Accuracy} (s : Sign) (hq : Marks (.ofMantissaAndAccuracy m a) q)
    (ht : spec.targetExponent (totalExponent m e) = t) (he : e ≤ t)
    (hlt : q * 2 ^ e / 2 ^ t < 2 ^ spec.mantissaBits) :
    ∃ n, Nearest (q * 2 ^ e / 2 ^ t) n ∧ roundWithAccuracy spec s m e a = settled spec s t n := by
  have hmin := minExponent_le_target spec (totalExponent m e)
  rw [ht] at hmin
  obtain ⟨k, rfl⟩ : ∃ k : ℕ, t = e + k := ⟨(t - e).toNat, by omega⟩
  have hscale : q * 2 ^ e / 2 ^ (e + (k : ℤ)) = q / 2 ^ k := by
    rw [zpow_add₀ (by norm_num), zpow_natCast, mul_comm q, mul_div_mul_left _ _ (zpow_ne_zero e (by norm_num))]
  rw [hscale] at hlt ⊢
  have hnear := (hq.shiftRight k).nearest
  have hle := hnear.le_two_pow hlt
  generalize hn : (ExtendedMantissa.ofMantissaAndAccuracy m a >>> k).roundedMantissa = n at hnear hle
  have hfirst : shiftToTargetExponent spec m e a =
      (ExtendedMantissa.ofMantissaAndAccuracy m a >>> k, e + k) := by
    simp only [shiftToTargetExponent, shiftToExponent, ht, show (e + (k : ℤ) - e).toNat = k by omega]
  exact ⟨n, hnear, by rw [roundWithAccuracy_eq_finished, hfirst, hn, finished_shift hle hmin]⟩

/-- **Rounding gives the mantissa nearest to the exact one**, at the exponent that its binade has in the format. -/
theorem roundWithAccuracy_eq {a : Accuracy} (s : Sign) (hm : 0 < m) (hq : Marks (.ofMantissaAndAccuracy m a) q)
    (he : e ≤ spec.targetExponent (totalExponent m e)) :
    ∃ n, Nearest (q * 2 ^ e / 2 ^ spec.targetExponent (totalExponent m e)) n ∧
      roundWithAccuracy spec s m e a = settled spec s (spec.targetExponent (totalExponent m e)) n :=
  roundWithAccuracy_of_lt s hq rfl he (div_two_pow_lt (binade_of_marks hm hq e))

end ImageLoader.Rounding
