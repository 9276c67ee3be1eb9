import ImageLoader.Proofs.Format.Associated

/-!
# Words by way of straight colour

Colour that was multiplied by alpha is divided by it, stored as a word, read, multiplied and stored again.  Storing the
straight value moves it by half a word, and the product by as much less as alpha is less than one; singles move both by
a few units more.  So the word that comes back is the one that there was, or next to it.

* `Single.straight`: the number that is read from a word beside the word of alpha.
* `ChannelType.Recovers`: where the way back is safe; `recovers_u8`: with eight bits it always is.
* `ChannelType.quantize_back`: **a word comes back within one word, and as it was where it is safe.**
-/

namespace ImageLoader

open Single

/-! ## Straight colour -/

namespace Single

variable {x y : Float32} {r : ℚ} {k w a M : ℕ}

/-- The number, or the mean of three that are equal to it. -/
def Averaged (x y : Float32) : Prop := y = x ∨ y = mean x

theorem Averaged.atMost_zero (h : Averaged x y) (hx : AtMost x 0) : AtMost y 0 := by
  rcases h with rfl | rfl
  · exact hx
  · rw [← Nat.cast_zero] at hx ⊢
    exact AtMost.mean (by decide) hx hx hx

theorem Averaged.approximates (h : Averaged x y) (hx : Approximates x r k) (hk : k ≤ 2 ^ 20) (hlow : 1 / 2 ^ 24 ≤ r)
    (hhigh : r ≤ 1) : Approximates y r (k + 3) := by
  rcases h with rfl | rfl
  · exact hx.mono (le_trans (by norm_num) hlow) (by omega)
  · exact hx.mean hk hlow hhigh

/-- The number that is read from the word `w` of a colour beside the word `a` of alpha. -/
def straight (w a M : ℕ) : Float32 :=
  if ofNat 0 < fraction a M then fraction w M / fraction a M else ofNat 0

theorem fraction_holds (ha : 0 < a) (hle : a ≤ M) (hlt : M < 2 ^ 24) : ∃ q, Holds (fraction a M) q := by
  obtain ⟨q, hq, -⟩ := (approximates_fraction ⟨ha, hle, hlt⟩).near
  exact ⟨q, hq⟩

theorem fraction_eq_zero (hM : 0 < M) (hle : a ≤ M) (hlt : M < 2 ^ 24) (h : ¬ ofNat 0 < fraction a M) :
    fraction a M = ofNat 0 := by
  rcases Nat.eq_zero_or_pos a with rfl | ha
  · exact fraction_zero hM hlt
  · obtain ⟨q, hq⟩ := fraction_holds ha hle hlt
    exact absurd hq.zero_lt h

theorem straight_of_pos (ha : 0 < a) (hle : a ≤ M) (hlt : M < 2 ^ 24) :
    straight w a M = fraction w M / fraction a M := by
  obtain ⟨q, hq⟩ := fraction_holds ha hle hlt
  exact if_pos hq.zero_lt

theorem straight_zero (hM : 0 < M) (hle : a ≤ M) (hlt : M < 2 ^ 24) : AtMost (straight 0 a M) 0 := by
  rcases Nat.eq_zero_or_pos a with rfl | ha
  · rw [straight, fraction_zero hM hlt]
    exact atMost_zero 0
  · obtain ⟨q, hq⟩ := fraction_holds ha hle hlt
    have h := (atMost_zero 0).div hq (by rw [zero_div]; exact exact_zero)
    rw [zero_div] at h
    rwa [straight_of_pos ha hle hlt, fraction_zero hM hlt]

theorem approximates_straight (hw : 0 < w) (hwa : w ≤ a) (hle : a ≤ M) (hlt : M < 2 ^ 24) :
    Approximates (straight w a M) (w / a) 4 := by
  have ha : 0 < a := Nat.lt_of_lt_of_le hw hwa
  have hM : (M : ℚ) ≠ 0 := by exact_mod_cast Nat.ne_of_gt (Nat.lt_of_lt_of_le ha hle)
  have hcancel : (w : ℚ) / M / (a / M) = w / a := div_div_div_cancel_right₀ hM _ _
  have hproper : Proper w a := ⟨hw, hwa, Nat.lt_of_le_of_lt hle hlt⟩
  have hnum := approximates_fraction ⟨hw, Nat.le_trans hwa hle, hlt⟩
  have hden : Approximates (fraction a M) (a / M) 1 := approximates_fraction ⟨ha, hle, hlt⟩
  have hpos : (0 : ℚ) < a / M := lt_of_lt_of_le (by norm_num) (Proper.low ⟨ha, hle, hlt⟩)
  have h := hnum.div_approximates hden (by decide) (by positivity) hpos (by rw [hcancel]; exact hproper.moderate)
  rw [hcancel] at h
  rwa [straight_of_pos ha hle hlt]

end Single

/-! ## Words that come back -/

namespace ChannelType

variable {t : ChannelType} {x y z : Float32} {r : ℚ} {k w a q b : ℕ}

/-- A colour is sure to come back if its straight value is clear of the middle between two words, or if it is small
beside what alpha is short of the greatest word. -/
def Recovers (t : ChannelType) (w a : ℕ) : Prop :=
  (∃ q : ℕ, 16 * |(w * t.top : ℤ) - q * a| ≤ 7 * a) ∨ w * t.top ≤ 2 ^ 17 * (t.top - a)

theorem recovers_self (t : ChannelType) (a : ℕ) : t.Recovers a a := by
  refine .inl ⟨t.top, ?_⟩
  rw [mul_comm (a : ℤ), sub_self, abs_zero]
  omega

theorem recovers_u8 (hwa : w ≤ a) (ha : a ≤ top .u8) : Recovers .u8 w a := by
  by_cases hfull : a = 255
  · subst hfull
    exact .inl ⟨w, by simp [top]⟩
  by_cases hsame : w = a
  · subst hsame
    exact recovers_self _ w
  · right
    simp only [top] at ha ⊢
    omega

theorem quantize_near (h : Approximates x r k) (hk : k ≤ 2 ^ 5) (hm : Moderate r) (hr : r ≤ 1) :
    |(t.quantize x : ℚ) - r * t.top| ≤ 1 / 2 + (k + 1) * (r * t.top / 2 ^ 23) := by
  have htop : (1 : ℚ) ≤ t.top := by exact_mod_cast top_pos t
  have htop' : (t.top : ℚ) ≤ 65535 := by exact_mod_cast top_le t
  have hlow := hm.low
  have hpos := le_of_lt hm.pos
  have hle : r ≤ r * t.top := le_mul_of_one_le_right hpos htop
  have hhigh : r * t.top ≤ 1 * 65535 := mul_le_mul hr htop' (by linarith) (by norm_num)
  have hprod := ((h.clamp hr).mul (by omega) (holds_maxWord t) ⟨by linarith, by linarith⟩).nearest_near
  rw [Nat.cast_add, Nat.cast_one] at hprod
  exact hprod

/-- The word `q` that is stored of a straight colour, and the word `b` of what it is multiplied back to, each with an
error of half a word and a few units. -/
structure Trip (t : ChannelType) (w a q b : ℕ) : Prop where
  pos : 0 < w
  le : w ≤ a
  top : a ≤ t.top
  stored : |(q : ℚ) - w * t.top / a| ≤ 1 / 2 + 8 * (w * t.top / a / 2 ^ 23)
  back : |(b : ℚ) - q * a / t.top| ≤ 1 / 2 + 8 * (q * a / t.top / 2 ^ 23)

namespace Trip

variable (h : Trip t w a q b)
include h

theorem alpha_pos : (0 : ℚ) < a := by exact_mod_cast Nat.lt_of_lt_of_le h.pos h.le

/-- Multiplying back makes the error smaller. -/
theorem drift : |(q : ℚ) * a / t.top - w| = a / t.top * |(q : ℚ) - w * t.top / a| := by
  have ha := h.alpha_pos
  have htop : (0 : ℚ) < t.top := by exact_mod_cast top_pos t
  have hsplit : (q : ℚ) * a / t.top - w = a / t.top * (q - w * t.top / a) := by field_simp
  rw [hsplit, abs_mul, abs_of_pos (div_pos ha htop)]

theorem drift_le : |(q : ℚ) * a / t.top - w| ≤ a / t.top / 2 + 8 * (w / 2 ^ 23) := by
  have ha := h.alpha_pos
  have htop : (0 : ℚ) < t.top := by exact_mod_cast top_pos t
  rw [h.drift]
  calc (a : ℚ) / t.top * |(q : ℚ) - w * t.top / a|
      ≤ a / t.top * (1 / 2 + 8 * (w * t.top / a / 2 ^ 23)) := mul_le_mul_of_nonneg_left h.stored (by positivity)
    _ = a / t.top / 2 + 8 * (w / 2 ^ 23) := by field_simp

theorem bounds : (w : ℚ) ≤ a ∧ (a : ℚ) / t.top ≤ 1 ∧ (t.top : ℚ) ≤ 65535 ∧ (a : ℚ) ≤ 65535 := by
  have htop : (0 : ℚ) < t.top := by exact_mod_cast top_pos t
  have hle : (a : ℚ) ≤ t.top := by exact_mod_cast h.top
  have hlarge : (t.top : ℚ) ≤ 65535 := by exact_mod_cast top_le t
  exact ⟨by exact_mod_cast h.le, (div_le_one htop).mpr hle, hlarge, le_trans hle hlarge⟩

/-- What is multiplied back is less than one word above the colour. -/
theorem product_le : (q : ℚ) * a / t.top ≤ w + 1 := by
  obtain ⟨hwa, hratio, -, ha⟩ := h.bounds
  have := (abs_le.mp h.drift_le).2
  linarith

/-- The two halves add up to less than two words. -/
theorem near : |(b : ℤ) - w| ≤ 1 := by
  obtain ⟨hwa, hratio, -, ha⟩ := h.bounds
  have hdist : |(b : ℚ) - w| < 2 := by
    have htriangle := abs_sub_le (b : ℚ) (q * a / t.top) w
    have hback := h.back
    have hdrift := h.drift_le
    have hproduct := h.product_le
    linarith
  have hint : |(b : ℤ) - w| < 2 := by exact_mod_cast hdist
  omega

theorem eq_of_lt (hlt : |(q : ℚ) * a / t.top - w| + 8 * (q * a / t.top / 2 ^ 23) < 1 / 2) : b = w := by
  have hdist : |(b : ℚ) - w| < 1 := by
    have htriangle := abs_sub_le (b : ℚ) (q * a / t.top) w
    have hback := h.back
    linarith
  have hint : |(b : ℤ) - w| < 1 := by exact_mod_cast hdist
  have := Int.abs_lt_one_iff.mp hint
  omega

/-- A small colour: the half word by which the straight value is moved counts for less than a half. -/
theorem eq_of_small (hsmall : w * t.top ≤ 2 ^ 17 * (t.top - a)) : b = w := by
  obtain ⟨hwa, hratio, hlarge, ha⟩ := h.bounds
  have htop : (0 : ℚ) < t.top := by exact_mod_cast top_pos t
  have hprod : 0 < w * t.top := Nat.mul_pos h.pos (top_pos t)
  have hgap : (1 : ℚ) ≤ t.top - a := by
    have hlt : a + 1 ≤ t.top := by omega
    have hcast : ((a + 1 : ℕ) : ℚ) ≤ t.top := by exact_mod_cast hlt
    push_cast at hcast
    linarith
  have hq : (w : ℚ) * t.top ≤ 2 ^ 17 * (t.top - a) := by
    have hcast : ((w * t.top : ℕ) : ℚ) ≤ ((2 ^ 17 * (t.top - a) : ℕ) : ℚ) := by exact_mod_cast hsmall
    rw [Nat.cast_mul, Nat.cast_mul, Nat.cast_sub h.top] at hcast
    exact_mod_cast hcast
  refine h.eq_of_lt ?_
  have hdrift := h.drift_le
  have hproduct := h.product_le
  -- the errors of the singles on both ways, beside the gap between alpha and one
  have herror : (8 : ℚ) * (w / 2 ^ 23) + 8 * ((w + 1) / 2 ^ 23) < (1 - a / t.top) / 2 := by
    rw [one_sub_div (ne_of_gt htop), div_div, lt_div_iff₀ (by positivity)]
    linarith
  linarith

/-- A straight value that is clear of the middle is stored as the nearest word. -/
theorem eq_of_clear {n : ℕ} (hclear : 16 * |(w * t.top : ℤ) - n * a| ≤ 7 * a) : b = w := by
  obtain ⟨hwa, hratio, hlarge, ha⟩ := h.bounds
  have hpos := h.alpha_pos
  have htop : (0 : ℚ) < t.top := by exact_mod_cast top_pos t
  have hstraight : (w : ℚ) * t.top / a ≤ 65535 := by
    rw [div_le_iff₀ hpos]
    exact le_trans (mul_le_mul hwa hlarge (le_of_lt htop) (le_of_lt hpos)) (le_of_eq (mul_comm _ _))
  have hn : |(n : ℚ) - w * t.top / a| ≤ 7 / 16 := by
    have hcast : (16 : ℚ) * |(w : ℚ) * t.top - n * a| ≤ 7 * a := by exact_mod_cast hclear
    rw [abs_sub_comm, ← mul_div_cancel_right₀ (n : ℚ) (ne_of_gt hpos), ← sub_div, abs_div, abs_of_pos hpos,
      div_le_iff₀ hpos]
    linarith
  have hqn : q = n := by
    have hdist : |(q : ℚ) - n| < 1 := by
      have htriangle := abs_sub_le (q : ℚ) (w * t.top / a) n
      rw [abs_sub_comm (w * t.top / a : ℚ)] at htriangle
      have hstored := h.stored
      linarith
    have hint : |(q : ℤ) - n| < 1 := by exact_mod_cast hdist
    have := Int.abs_lt_one_iff.mp hint
    omega
  refine h.eq_of_lt ?_
  have hmoved : |(q : ℚ) * a / t.top - w| ≤ 7 / 16 := by
    rw [h.drift, hqn]
    exact le_trans (mul_le_of_le_one_left (abs_nonneg _) hratio) hn
  have := (abs_le.mp hmoved).2
  linarith

theorem eq_of_recovers (hrecovers : t.Recovers w a) : b = w := by
  rcases hrecovers with ⟨n, hclear⟩ | hsmall
  · exact h.eq_of_clear hclear
  · exact h.eq_of_small hsmall

end Trip

/-! ## There and back -/

theorem stored_near (hw : 0 < w) (hwa : w ≤ a) (ha : a ≤ t.top) (hy : Averaged (straight w a t.top) y) :
    |(t.quantize y : ℚ) - w * t.top / a| ≤ 1 / 2 + 8 * (w * t.top / a / 2 ^ 23) := by
  have hlt := top_lt t
  have hproper : Proper w a := ⟨hw, hwa, by omega⟩
  have happrox := hy.approximates (approximates_straight hw hwa ha hlt) (by decide) hproper.low hproper.le_one
  have hnear := t.quantize_near happrox (by decide) hproper.moderate hproper.le_one
  rw [div_mul_eq_mul_div] at hnear
  norm_num at hnear ⊢
  exact hnear

theorem stored_pos (hw : 0 < w) (hwa : w ≤ a) (ha : a ≤ t.top) (hy : Averaged (straight w a t.top) y) :
    0 < t.quantize y := by
  have hlarge : (t.top : ℚ) ≤ 65535 := by exact_mod_cast top_le t
  have hpos : (0 : ℚ) < a := by exact_mod_cast Nat.lt_of_lt_of_le hw hwa
  have hone : (1 : ℚ) ≤ w * t.top / a := by
    rw [one_le_div hpos]
    exact_mod_cast Nat.le_trans ha (Nat.le_mul_of_pos_left _ hw)
  have hnear := (abs_le.mp (stored_near hw hwa ha hy)).1
  have hq : (0 : ℚ) < t.quantize y := by linarith
  exact_mod_cast hq

/-- The word of a product with alpha. -/
theorem product_near (hq : 0 < q) (hle : q ≤ t.top) (hapos : 0 < a) (ha : a ≤ t.top)
    (hz : Averaged (fraction q t.top) z) :
    |(t.quantize (z * fraction a t.top) : ℚ) - q * a / t.top| ≤ 1 / 2 + 8 * (q * a / t.top / 2 ^ 23) := by
  have hlarge : (t.top : ℚ) ≤ 65535 := by exact_mod_cast top_le t
  have htop : (0 : ℚ) < t.top := by exact_mod_cast top_pos t
  have hlow : ∀ n : ℕ, 0 < n → 1 / 2 ^ 16 ≤ (n : ℚ) / t.top := by
    intro n hn
    have hone : (1 : ℚ) ≤ n := by exact_mod_cast hn
    rw [le_div_iff₀ htop]
    linarith
  have hproper : Proper q t.top := ⟨hq, hle, top_lt t⟩
  have halpha : Proper a t.top := ⟨hapos, ha, top_lt t⟩
  have hbound : (q : ℚ) / t.top * (a / t.top) ≤ 1 := mul_le_one₀ hproper.le_one (by positivity) halpha.le_one
  have hmoderate : Moderate ((q : ℚ) / t.top * (a / t.top)) := by
    refine ⟨?_, le_trans hbound (by norm_num)⟩
    exact le_trans (by norm_num) (mul_le_mul (hlow q hq) (hlow a hapos) (by norm_num) (by positivity))
  have hread := hz.approximates (approximates_fraction hproper) (by decide) hproper.low hproper.le_one
  have hprod := hread.mul_approximates (approximates_fraction halpha) (by decide) (by positivity) (by positivity)
    hmoderate
  have hcancel : (q : ℚ) / t.top * (a / t.top) * t.top = q * a / t.top := by field_simp
  have hnear := t.quantize_near hprod (by decide) hmoderate hbound
  rw [hcancel] at hnear
  norm_num at hnear ⊢
  exact hnear

/-- **A word comes back within one word, and as it was where it is safe.** -/
theorem quantize_back (hwa : w ≤ a) (ha : a ≤ t.top) (hy : Averaged (straight w a t.top) y)
    (hz : Averaged (fraction (t.quantize y) t.top) z) :
    |(t.quantize (z * fraction a t.top) : ℤ) - w| ≤ 1 ∧
      (t.Recovers w a → t.quantize (z * fraction a t.top) = w) := by
  have hlt := top_lt t
  rcases Nat.eq_zero_or_pos w with rfl | hw
  · -- nothing becomes of nothing
    have hq : t.quantize y = 0 := t.quantize_eq_zero (hy.atMost_zero (straight_zero (top_pos t) ha hlt))
    rw [hq, fraction_zero (top_pos t) hlt] at hz
    have hprod := (hz.atMost_zero (atMost_zero 0)).mul_inUnit (inUnit_fraction (top_pos t) ha hlt)
    rw [t.quantize_eq_zero hprod]
    exact ⟨by norm_num, fun _ => rfl⟩
  · have hback := product_near (stored_pos hw hwa ha hy) (t.quantize_le_top y) (Nat.lt_of_lt_of_le hw hwa) ha hz
    have htrip : Trip t w a (t.quantize y) _ := ⟨hw, hwa, ha, stored_near hw hwa ha hy, hback⟩
    exact ⟨htrip.near, htrip.eq_of_recovers⟩

end ChannelType

end ImageLoader
