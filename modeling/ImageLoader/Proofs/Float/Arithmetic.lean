import ImageLoader.Proofs.Float.Packing

/-!
# Arithmetic is rounded

Sums, products and quotients of the numbers of a format are worked out exactly, up to the residual bits, and rounded
once.

* `rounds_ofNat`, `rounds_add`, `rounds_mul`, `rounds_div`: **the result is the exact result, rounded.**
* `Canonical.compare_eq`: canonical numbers are compared as numbers.
-/

namespace ImageLoader.Rounding

open Float.Model (Format UnpackedFloat totalExponent)
open Float.Model.UnpackedFloat

variable {spec : Format} {m m₁ m₂ n : ℕ} {e e₁ e₂ t : ℤ}

theorem rounds_ofNat (spec : Format) (hn : 0 < n) : Rounds spec .positive n (UnpackedFloat.ofNat spec n) := by
  have hround : UnpackedFloat.ofNat spec n = UnpackedFloat.round spec .positive n 0 := by
    rw [UnpackedFloat.ofNat, ofInt, UnpackedFloat.normalize, Int.compare_eq_gt.mpr (by omega)]
    rfl
  have h : Rounds spec .positive (n * 2 ^ (0 : ℤ)) (UnpackedFloat.round spec .positive n 0) :=
    rounds_round .positive hn 0
  rw [zpow_zero, mul_one] at h
  rw [hround]
  exact h

/-! ## Sums -/

theorem decreaseExponent_value (h : t ≤ e) : ((decreaseExponent m e t).1 : ℚ) * 2 ^ t = m * 2 ^ e := by
  obtain ⟨k, rfl⟩ : ∃ k : ℕ, e = t + k := ⟨(e - t).toNat, by omega⟩
  have hk : (t + (k : ℤ) - t).toNat = k := by omega
  simp only [decreaseExponent, hk, Nat.shiftLeft_eq]
  rw [zpow_add₀ (by norm_num), zpow_natCast]
  push_cast
  ring

theorem decreaseExponent_pos (hm : 0 < m) : 0 < (decreaseExponent m e t).1 := by
  simp only [decreaseExponent, Nat.shiftLeft_eq]
  exact Nat.mul_pos hm (Nat.two_pow_pos _)

theorem rounds_add (h₁ : 0 < m₁) (h₂ : 0 < m₂) :
    Rounds spec .positive (m₁ * 2 ^ e₁ + m₂ * 2 ^ e₂)
      (add spec (.finite .positive m₁ e₁ h₁) (.finite .positive m₂ e₂ h₂)) := by
  generalize ht : min e₁ e₂ = t
  have hsum : add spec (.finite .positive m₁ e₁ h₁) (.finite .positive m₂ e₂ h₂) =
      UnpackedFloat.round spec .positive ((decreaseExponent m₁ e₁ t).1 + (decreaseExponent m₂ e₂ t).1) t := by
    have hpos : 0 < (decreaseExponent m₁ e₁ t).1 := decreaseExponent_pos h₁
    simp only [add, UnpackedFloat.normalize, Sign.apply, ht]
    rw [Int.compare_eq_gt.mpr (by omega)]
    rfl
  have hvalue : (((decreaseExponent m₁ e₁ t).1 + (decreaseExponent m₂ e₂ t).1 : ℕ) : ℚ) * 2 ^ t =
      m₁ * 2 ^ e₁ + m₂ * 2 ^ e₂ := by
    push_cast
    rw [add_mul, decreaseExponent_value (by omega), decreaseExponent_value (by omega)]
  rw [hsum, ← hvalue]
  exact rounds_round .positive (Nat.add_pos_left (decreaseExponent_pos h₁) _) t

/-! ## Products -/

/-- A product has digits enough to be rounded, unless it is below everything. -/
theorem mul_exponent_le (h₁ : Canonical spec m₁ e₁) (h₂ : Canonical spec m₂ e₂) :
    e₁ + e₂ ≤ spec.targetExponent (totalExponent (m₁ * m₂) (e₁ + e₂)) := by
  have hpos := Nat.mul_pos h₁.pos h₂.pos
  by_cases hfull : 2 ^ spec.mantissaBitsWithoutImplicit ≤ m₁ * m₂
  · have hlog := (Nat.le_log2 (Nat.ne_of_gt hpos)).mpr hfull
    simp only [Format.targetExponent, totalExponent, Format.mantissaBits]
    omega
  · have hle₁ : m₁ ≤ m₁ * m₂ := Nat.le_mul_of_pos_right m₁ h₂.pos
    have hle₂ : m₂ ≤ m₁ * m₂ := Nat.le_mul_of_pos_left m₂ h₁.pos
    have he₁ : e₁ = spec.minExponent := h₁.normal_or.resolve_left (by omega)
    have he₂ : e₂ = spec.minExponent := h₂.normal_or.resolve_left (by omega)
    have htarget := minExponent_le_target spec (totalExponent (m₁ * m₂) (e₁ + e₂))
    have hmin := minExponent_eq spec
    have hbits := spec.hm
    omega

theorem rounds_mul (s₁ s₂ : Sign) (h₁ : Canonical spec m₁ e₁) (h₂ : Canonical spec m₂ e₂) :
    Rounds spec (s₁ * s₂) (m₁ * 2 ^ e₁ * (m₂ * 2 ^ e₂))
      (mul spec (.finite s₁ m₁ e₁ h₁.pos) (.finite s₂ m₂ e₂ h₂.pos)) := by
  have hvalue : ((m₁ * m₂ : ℕ) : ℚ) * 2 ^ (e₁ + e₂) = m₁ * 2 ^ e₁ * (m₂ * 2 ^ e₂) := by
    rw [zpow_add₀ (by norm_num)]
    push_cast
    ring
  rw [← hvalue]
  exact rounds_roundWithAccuracy _ (Nat.mul_pos h₁.pos h₂.pos) (marks_exact _) (mul_exponent_le h₁ h₂)

/-! ## Quotients -/

theorem marks_div (m : ℕ) (hn : 0 < n) :
    Marks (.ofMantissaAndAccuracy (m / n) (accuracyOfFraction (m % n) n)) ((m : ℚ) / n) := by
  have hpos : (n : ℚ) ≠ 0 := by exact_mod_cast Nat.ne_of_gt hn
  have hsplit : (m : ℚ) = n * (m / n : ℕ) + (m % n : ℕ) := by exact_mod_cast (Nat.div_add_mod m n).symm
  have hquot : (m : ℚ) / n = (m / n : ℕ) + (m % n : ℕ) / n := by
    conv_lhs => rw [hsplit, add_div, mul_div_cancel_left₀ _ hpos]
  rw [hquot]
  exact marks_fraction _ (Nat.mod_lt m hn)

theorem Binade.div {p q : ℚ} {i j : ℤ} (hp : Binade p i) (hq : Binade q j) :
    2 ^ (i - j - 1) < p / q ∧ p / q < 2 ^ (i - j + 1) := by
  have hqpos : 0 < q := lt_of_lt_of_le (zpow_pos (by norm_num) _) hq.le
  have hi := zpow_pos (by norm_num : (0 : ℚ) < 2) i
  constructor
  · rw [lt_div_iff₀ hqpos]
    calc (2 : ℚ) ^ (i - j - 1) * q < 2 ^ (i - j - 1) * 2 ^ j :=
          mul_lt_mul_of_pos_left hq.lt (zpow_pos (by norm_num) _)
      _ = 2 ^ (i - 1) := by rw [← zpow_add₀ (by norm_num)]; congr 1; ring
      _ ≤ p := hp.le
  · rw [div_lt_iff₀ hqpos]
    calc p < 2 ^ i := hp.lt
      _ = 2 ^ (i - j + 1) * 2 ^ (j - 1) := by rw [← zpow_add₀ (by norm_num)]; congr 1; ring
      _ ≤ 2 ^ (i - j + 1) * q := mul_le_mul_of_nonneg_left hq.le (le_of_lt (zpow_pos (by norm_num) _))

theorem rounds_div (s₁ s₂ : Sign) (h₁ : 0 < m₁) (h₂ : 0 < m₂) :
    Rounds spec (s₁ / s₂) (m₁ * 2 ^ e₁ / (m₂ * 2 ^ e₂))
      (div spec (.finite s₁ m₁ e₁ h₁) (.finite s₂ m₂ e₂ h₂)) := by
  obtain ⟨hlow, -⟩ := (binade_of_pos h₁ e₁).div (binade_of_pos h₂ e₂)
  generalize hd : totalExponent m₁ e₁ - totalExponent m₂ e₂ = d at hlow
  generalize ht : min (e₁ - e₂) (spec.targetExponent d) = t
  obtain ⟨k, hk⟩ : ∃ k : ℕ, (e₁ - e₂ - t).toNat = k := ⟨_, rfl⟩
  have hcore : divCore spec m₁ e₁ m₂ e₂ =
      (m₁ * 2 ^ k / m₂, t, accuracyOfFraction (m₁ * 2 ^ k % m₂) m₂) := by
    simp only [divCore, hd, ht, hk, Nat.shiftLeft_eq]
  have hvalue : ((m₁ * 2 ^ k : ℕ) : ℚ) / m₂ * 2 ^ t = m₁ * 2 ^ e₁ / (m₂ * 2 ^ e₂) := by
    have he : (2 : ℚ) ^ e₁ = 2 ^ k * 2 ^ t * 2 ^ e₂ := by
      rw [← zpow_natCast, ← zpow_add₀ (by norm_num), ← zpow_add₀ (by norm_num)]
      congr 1
      omega
    rw [he]
    push_cast
    field_simp
  have hmarks := marks_div (m₁ * 2 ^ k) h₂
  have hm₂ : (0 : ℚ) < m₂ := by exact_mod_cast h₂
  have hquot : 0 < ((m₁ * 2 ^ k : ℕ) : ℚ) / m₂ :=
    div_pos (by exact_mod_cast Nat.mul_pos h₁ (Nat.two_pow_pos k)) hm₂
  have hmin : spec.targetExponent d = max (d - spec.mantissaBits) spec.minExponent := rfl
  simp only [UnpackedFloat.div, hcore]
  rw [← hvalue] at hlow ⊢
  rcases Nat.eq_zero_or_pos (m₁ * 2 ^ k / m₂) with hzero | hfull
  · -- no digit stands before the point, so the first one is below the least exponent
    rw [hzero] at hmarks ⊢
    have hone : ((m₁ * 2 ^ k : ℕ) : ℚ) / m₂ < 1 := by
      rw [div_lt_one hm₂]
      exact_mod_cast (Nat.div_eq_zero_iff_lt h₂).mp hzero
    have hlt : (2 : ℚ) ^ (d - 1) < 2 ^ t :=
      lt_trans hlow (mul_lt_of_lt_one_left (zpow_pos (by norm_num) t) hone)
    have hdt := (zpow_lt_zpow_iff_right₀ (by norm_num : (1 : ℚ) < 2)).mp hlt
    have hbits : 1 ≤ spec.mantissaBits := by
      rw [Format.mantissaBits]
      omega
    exact rounds_tiny _ hmarks hquot (by omega)
  · -- the exponent is not above the one that the first digit wants
    have hb := (binade_of_marks hfull hmarks t).lt
    have hplace := (zpow_lt_zpow_iff_right₀ (by norm_num : (1 : ℚ) < 2)).mp (lt_trans hlow hb)
    have hexp : spec.targetExponent d ≤ spec.targetExponent (totalExponent (m₁ * 2 ^ k / m₂) t) := by
      simp only [Format.targetExponent]
      omega
    exact rounds_roundWithAccuracy _ hfull hmarks (by omega)

/-! ## Comparison -/

theorem Canonical.compare_eq_lt (h₁ : Canonical spec m₁ e₁) (h₂ : Canonical spec m₂ e₂)
    (h : (compare e₁ e₂).then (compare m₁ m₂) = .lt) : (m₁ : ℚ) * 2 ^ e₁ < m₂ * 2 ^ e₂ := by
  have hpow : (0 : ℚ) < 2 ^ e₁ := zpow_pos (by norm_num) e₁
  rcases Ordering.then_eq_lt.mp h with he | ⟨he, hm⟩
  · -- the one with the greater exponent is normal, and the other has no more digits
    have hlt : e₁ < e₂ := Int.compare_eq_lt.mp he
    have hnormal : 2 ^ spec.mantissaBitsWithoutImplicit ≤ m₂ :=
      h₂.normal_or.resolve_right (by have := h₁.minExponent_le; omega)
    have hdigits : (m₁ : ℚ) < 2 ^ spec.mantissaBits := by exact_mod_cast h₁.lt_two_pow
    calc (m₁ : ℚ) * 2 ^ e₁ < 2 ^ spec.mantissaBits * 2 ^ e₁ := mul_lt_mul_of_pos_right hdigits hpow
      _ = 2 ^ spec.mantissaBitsWithoutImplicit * 2 ^ (e₁ + 1) := by
        rw [Format.mantissaBits, pow_add, zpow_add_one₀ (by norm_num)]
        ring
      _ ≤ m₂ * 2 ^ e₂ := by
        have hle : (2 : ℚ) ^ (e₁ + 1) ≤ 2 ^ e₂ := zpow_le_zpow_right₀ (by norm_num) (by omega)
        exact mul_le_mul (by exact_mod_cast hnormal) hle (le_of_lt (zpow_pos (by norm_num) _)) (Nat.cast_nonneg _)
  · obtain rfl : e₁ = e₂ := Int.compare_eq_eq.mp he
    have hlt : (m₁ : ℚ) < m₂ := by exact_mod_cast Nat.compare_eq_lt.mp hm
    exact mul_lt_mul_of_pos_right hlt hpow

theorem Canonical.compare_eq (h₁ : Canonical spec m₁ e₁) (h₂ : Canonical spec m₂ e₂) :
    (compare e₁ e₂).then (compare m₁ m₂) = compare ((m₁ : ℚ) * 2 ^ e₁) (m₂ * 2 ^ e₂) := by
  cases h : (compare e₁ e₂).then (compare m₁ m₂) with
  | lt => exact (compare_lt_iff_lt.mpr (h₁.compare_eq_lt h₂ h)).symm
  | eq =>
    obtain ⟨he, hm⟩ := Ordering.then_eq_eq.mp h
    rw [Int.compare_eq_eq.mp he, Nat.compare_eq_eq.mp hm, compare_eq_iff_eq.mpr rfl]
  | gt =>
    have hswap : (compare e₂ e₁).then (compare m₂ m₁) = .lt := by
      rw [← Int.compare_swap e₁, ← Nat.compare_swap m₁, ← Ordering.swap_then, h]
      rfl
    exact (compare_gt_iff_gt.mpr (h₂.compare_eq_lt h₁ hswap)).symm

end ImageLoader.Rounding
