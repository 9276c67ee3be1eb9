import ImageLoader.Proofs.Float.Rounding

/-!
# Canonical numbers of a format

Of the ways to write a number as `m * 2 ^ e`, a format wants one: its exponent is that of the binade.  Rounding gives
canonical numbers, a canonical number is rounded to itself however it is written, and what an exact number is rounded
to depends on nothing but the number.

* `Rounds`: what an exact number is rounded to; `Rounds.unique`: **there is one result.**
* `Canonical.rounds`: **a canonical number is rounded to itself.**
* `Rounds.near`: above the least normal number, the error is less than a unit in the last place.
* `exists_canonical`: what has few enough digits has a canonical form.
-/

namespace ImageLoader.Rounding

open Float.Model Float.Model.UnpackedFloat

variable {spec : Format} {s : Sign} {m n : ℕ} {e t T : ℤ} {q r : ℚ} {x y : UnpackedFloat}

/-! ## Canonical numbers -/

/-- The mantissa has the exponent that its format wants. -/
structure Canonical (spec : Format) (m : ℕ) (e : ℤ) : Prop where
  pos : 0 < m
  target : spec.targetExponent (totalExponent m e) = e

theorem binade_of_pos (hm : 0 < m) (e : ℤ) : Binade (m * 2 ^ e) (totalExponent m e) :=
  binade_total hm le_rfl (lt_add_one _) e

/-- The place of the first digit does not depend on how the number is written. -/
theorem totalExponent_eq {m' : ℕ} {e' : ℤ} (hm : 0 < m) (hm' : 0 < m') (h : (m : ℚ) * 2 ^ e = m' * 2 ^ e') :
    totalExponent m e = totalExponent m' e' := by
  have hb := binade_of_pos hm e
  rw [h] at hb
  exact hb.unique (binade_of_pos hm' e')

namespace Canonical

variable (h : Canonical spec m e)
include h

theorem minExponent_le : spec.minExponent ≤ e := by
  have hmin := minExponent_le_target spec (totalExponent m e)
  rwa [h.target] at hmin

theorem lt_two_pow : m < 2 ^ spec.mantissaBits := by
  have ht := h.target
  simp only [Format.targetExponent, totalExponent] at ht
  exact (Nat.log2_lt (Nat.ne_of_gt h.pos)).mp (by omega)

theorem settled_eq : settled spec s e m = .finite s m e h.pos := by
  rw [settled, if_neg (Nat.ne_of_lt h.lt_two_pow), dif_pos h.pos]

theorem le_sub_of_lt {k : ℤ} (hlt : (m : ℚ) * 2 ^ e < 2 ^ k) (hk : spec.minExponent + spec.mantissaBits ≤ k) :
    e ≤ k - spec.mantissaBits := by
  have hT := (binade_of_pos h.pos e).le_of_lt_two_pow hlt
  have ht := h.target
  simp only [Format.targetExponent] at ht
  omega

/-- A canonical number is normal, or it has the least exponent. -/
theorem normal_or : 2 ^ spec.mantissaBitsWithoutImplicit ≤ m ∨ e = spec.minExponent := by
  have ht := h.target
  simp only [Format.targetExponent, totalExponent] at ht
  by_cases he : e = spec.minExponent
  · exact .inr he
  · refine .inl ((Nat.le_log2 (Nat.ne_of_gt h.pos)).mp ?_)
    have hbits : spec.mantissaBits = 1 + spec.mantissaBitsWithoutImplicit := rfl
    omega

end Canonical

/-- What has no more digits than the format, and is not below its least exponent, has a canonical form. -/
theorem exists_canonical (hm : 0 < m) (hlt : m < 2 ^ spec.mantissaBits) (he : spec.minExponent ≤ e) :
    ∃ m' e', Canonical spec m' e' ∧ (m' : ℚ) * 2 ^ e' = m * 2 ^ e := by
  have hlog : m.log2 + 1 ≤ spec.mantissaBits := (Nat.log2_lt (Nat.ne_of_gt hm)).mpr hlt
  have hle : spec.targetExponent (totalExponent m e) ≤ e := by
    simp only [Format.targetExponent, totalExponent]
    omega
  obtain ⟨k, hk⟩ : ∃ k : ℕ, e = spec.targetExponent (totalExponent m e) + k :=
    ⟨(e - spec.targetExponent (totalExponent m e)).toNat, by omega⟩
  have hvalue : ((m * 2 ^ k : ℕ) : ℚ) * 2 ^ (e - k) = m * 2 ^ e := by
    rw [zpow_sub₀ (by norm_num), zpow_natCast]
    push_cast
    field_simp
  have hpos : 0 < m * 2 ^ k := Nat.mul_pos hm (Nat.two_pow_pos k)
  refine ⟨m * 2 ^ k, e - k, ⟨hpos, ?_⟩, hvalue⟩
  rw [totalExponent_eq hpos hm hvalue]
  omega

/-! ## What a number is rounded to -/

/-- Rounding the number, with this sign, to the format gives `x`. -/
structure Rounds (spec : Format) (s : Sign) (r : ℚ) (x : UnpackedFloat) : Prop where
  result : ∃ T n, Binade r T ∧ Nearest (r / 2 ^ spec.targetExponent T) n ∧
    x = settled spec s (spec.targetExponent T) n

/-- **The result of rounding depends on the number alone.** -/
theorem Rounds.unique (hx : Rounds spec s r x) (hy : Rounds spec s r y) : x = y := by
  obtain ⟨T, n, hT, hn, rfl⟩ := hx.result
  obtain ⟨T', n', hT', hn', rfl⟩ := hy.result
  obtain rfl := hT.unique hT'
  rw [hn.unique hn']

theorem rounds_roundWithAccuracy {a : Accuracy} (s : Sign) (hm : 0 < m)
    (hq : Marks (.ofMantissaAndAccuracy m a) q) (he : e ≤ spec.targetExponent (totalExponent m e)) :
    Rounds spec s (q * 2 ^ e) (roundWithAccuracy spec s m e a) := by
  obtain ⟨n, hn, hround⟩ := roundWithAccuracy_eq s hm hq he
  exact ⟨_, n, binade_of_marks hm hq e, hn, hround⟩

theorem exists_binade (h : 0 < r) : ∃ T, Binade r T := by
  refine ⟨Int.log 2 r + 1, ?_, ?_⟩
  · rw [add_sub_cancel_right]
    exact_mod_cast Int.zpow_log_le_self (by norm_num) h
  · exact_mod_cast Int.lt_zpow_succ_log_self (by norm_num) r

/-- What is below every mantissa of the least exponent is rounded at that exponent. -/
theorem rounds_tiny {a : Accuracy} (s : Sign) (hq : Marks (.ofMantissaAndAccuracy 0 a) q) (hpos : 0 < q)
    (he : e ≤ spec.minExponent) : Rounds spec s (q * 2 ^ e) (roundWithAccuracy spec s 0 e a) := by
  have hlt : q * 2 ^ e < 2 ^ spec.minExponent := by
    have hone : q < 1 := by
      have h := hq.lt_mantissa
      cases a with
      | exact => simpa [ExtendedMantissa.ofMantissaAndAccuracy] using h
      | inexact o => cases o <;> simpa [ExtendedMantissa.ofMantissaAndAccuracy] using h
    calc q * 2 ^ e < 1 * 2 ^ e := mul_lt_mul_of_pos_right hone (zpow_pos (by norm_num) e)
      _ ≤ 2 ^ spec.minExponent := by
        rw [one_mul]
        exact zpow_le_zpow_right₀ (by norm_num) he
  obtain ⟨T, hT⟩ := exists_binade (mul_pos hpos (zpow_pos (by norm_num : (0 : ℚ) < 2) e))
  have hTmin := hT.le_of_lt_two_pow hlt
  have htarget : spec.targetExponent T = spec.minExponent := by
    simp only [Format.targetExponent]
    omega
  have hzero : spec.targetExponent (totalExponent 0 e) = spec.minExponent := by
    simp only [Format.targetExponent, totalExponent, Nat.log2_zero, Format.mantissaBits]
    omega
  have hdigits : q * 2 ^ e / 2 ^ spec.minExponent < 2 ^ spec.mantissaBits := htarget ▸ div_two_pow_lt hT
  obtain ⟨n, hn, hround⟩ := roundWithAccuracy_of_lt s hq hzero he hdigits
  exact ⟨T, n, hT, by rwa [htarget], by rwa [htarget]⟩

/-- **A canonical number is rounded to itself.** -/
theorem Canonical.rounds (h : Canonical spec m e) (s : Sign) :
    Rounds spec s (m * 2 ^ e) (.finite s m e h.pos) := by
  refine ⟨_, m, binade_of_pos h.pos e, ?_, ?_⟩
  · rw [h.target, mul_div_cancel_right₀ _ (zpow_ne_zero e (by norm_num))]
    exact nearest_natCast m
  · rw [h.target, h.settled_eq]

theorem rounds_round (s : Sign) (hm : 0 < m) (e : ℤ) :
    Rounds spec s (m * 2 ^ e) (UnpackedFloat.round spec s m e) := by
  generalize ht : spec.targetExponent (totalExponent m e) = t
  have hround : UnpackedFloat.round spec s m e =
      roundWithAccuracy spec s (m <<< (e - t).toNat) (e - (e - t).toNat) .exact := by
    rw [← ht]
    rfl
  have hvalue : ((m <<< (e - t).toNat : ℕ) : ℚ) * 2 ^ (e - (e - t).toNat) = m * 2 ^ e := by
    rw [Nat.shiftLeft_eq, zpow_sub₀ (by norm_num), zpow_natCast]
    push_cast
    field_simp
  have hpos : 0 < m <<< (e - t).toNat := by
    rw [Nat.shiftLeft_eq]
    exact Nat.mul_pos hm (Nat.two_pow_pos _)
  rw [hround, ← hvalue]
  exact rounds_roundWithAccuracy s hpos (marks_exact _) (by rw [totalExponent_eq hpos hm hvalue, ht]; omega)

/-! ## Above the least normal number -/

theorem canonical_settled (s : Sign) (hlow : 2 ^ spec.mantissaBitsWithoutImplicit ≤ n)
    (hhigh : n ≤ 2 ^ spec.mantissaBits) (ht : spec.minExponent ≤ t) :
    ∃ m e, ∃ hm : 0 < m, settled spec s t n = .finite s m e hm ∧ Canonical spec m e ∧
      (m : ℚ) * 2 ^ e = n * 2 ^ t := by
  have hbits : spec.mantissaBits = 1 + spec.mantissaBitsWithoutImplicit := rfl
  have hpos : 0 < n := Nat.lt_of_lt_of_le (Nat.two_pow_pos _) hlow
  by_cases hfull : n = 2 ^ spec.mantissaBits
  · refine ⟨2 ^ spec.mantissaBitsWithoutImplicit, t + 1, Nat.two_pow_pos _, ?_, ⟨Nat.two_pow_pos _, ?_⟩, ?_⟩
    · rw [settled, if_pos hfull]
    · simp only [Format.targetExponent, totalExponent, Nat.log2_two_pow]
      omega
    · rw [hfull, hbits, zpow_add_one₀ (by norm_num), pow_add]
      push_cast
      ring
  · have hlog : n.log2 = spec.mantissaBitsWithoutImplicit := by
      have h₁ := (Nat.le_log2 (Nat.ne_of_gt hpos)).mpr hlow
      have h₂ := (Nat.log2_lt (Nat.ne_of_gt hpos)).mpr (show n < 2 ^ spec.mantissaBits by omega)
      omega
    refine ⟨n, t, hpos, ?_, ⟨hpos, ?_⟩, rfl⟩
    · rw [settled, if_neg hfull, dif_pos hpos]
    · simp only [Format.targetExponent, totalExponent, hlog]
      omega

/-- **Above the least normal number, rounding gives a canonical number**, with an error of at most half a unit in the
last place. -/
theorem Rounds.near (h : Rounds spec s r x) (hr : 2 ^ (spec.minExponent + spec.mantissaBits - 1) ≤ r) :
    ∃ m e, ∃ hm : 0 < m, x = .finite s m e hm ∧ Canonical spec m e ∧
      |(m : ℚ) * 2 ^ e - r| ≤ r / 2 ^ spec.mantissaBits := by
  obtain ⟨T, n, hT, hn, rfl⟩ := h.result
  have htarget : spec.targetExponent T = T - spec.mantissaBits := by
    have hlt : (2 : ℚ) ^ (spec.minExponent + spec.mantissaBits - 1) < 2 ^ T := lt_of_le_of_lt hr hT.lt
    have hlt' := (zpow_lt_zpow_iff_right₀ (by norm_num : (1 : ℚ) < 2)).mp hlt
    simp only [Format.targetExponent]
    omega
  have hmin := minExponent_le_target spec T
  have hhigh := hn.le_two_pow (div_two_pow_lt hT)
  rw [htarget] at hn hmin ⊢
  generalize ht : T - (spec.mantissaBits : ℤ) = t at hn hmin ⊢
  have hpow : (0 : ℚ) < 2 ^ t := zpow_pos (by norm_num) t
  have hlow : (2 : ℚ) ^ spec.mantissaBitsWithoutImplicit * 2 ^ t ≤ r := by
    refine le_trans (le_of_eq ?_) hT.le
    rw [← zpow_natCast, ← zpow_add₀ (by norm_num)]
    congr 1
    rw [← ht, show spec.mantissaBits = 1 + spec.mantissaBitsWithoutImplicit from rfl]
    push_cast
    ring
  have hnear := abs_le.mp hn.near
  have hfull : 2 ^ spec.mantissaBitsWithoutImplicit ≤ n := by
    have hq : (2 : ℚ) ^ spec.mantissaBitsWithoutImplicit ≤ r / 2 ^ t := (le_div_iff₀ hpow).mpr hlow
    have hlt : ((2 ^ spec.mantissaBitsWithoutImplicit : ℕ) : ℚ) < (n + 1 : ℕ) := by push_cast; linarith
    exact Nat.lt_succ_iff.mp (by exact_mod_cast hlt)
  obtain ⟨m, e, hm, hx, hc, hvalue⟩ := canonical_settled s hfull hhigh hmin
  refine ⟨m, e, hm, hx, hc, ?_⟩
  -- half a unit in the last place is no more than the number divided by the greatest mantissa
  have hhalf : 2 ^ t / 2 ≤ r / 2 ^ spec.mantissaBits := by
    rw [le_div_iff₀ (by positivity), show spec.mantissaBits = 1 + spec.mantissaBitsWithoutImplicit from rfl, pow_add]
    linarith
  have hsplit : (m : ℚ) * 2 ^ e - r = -((r / 2 ^ t - n) * 2 ^ t) := by
    rw [hvalue]
    field_simp
    ring
  rw [hsplit, abs_neg, abs_mul, abs_of_pos hpow]
  have := mul_le_mul_of_nonneg_right hn.near (le_of_lt hpow)
  linarith

end ImageLoader.Rounding
