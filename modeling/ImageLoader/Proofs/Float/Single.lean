import ImageLoader.Float.Integral
import ImageLoader.Proofs.Float.Arithmetic

/-!
# Single precision

Arithmetic on singles, followed through the bits: each operation unpacks its arguments, works exactly, rounds and
packs.  Positive numbers are followed further, as rational numbers with a bound on the relative error.

* `mul_ofNat_one`, `div_ofNat_one`, `ofBits_toBits`: multiplication and division by one change nothing, and neither do
  the bits.
* `Rounded.unique`: **an operation is decided by its exact result.**
* `Approximates`: a single is near a rational number, within so many units of `2 ^ -23`; each operation adds one.
* `Approximates.nearest`: a single that is near enough to a natural number is rounded to it.
-/

namespace ImageLoader.Single

open Float.Model (Format UnpackedFloat)
open Rounding

variable {x y c : Float32} {p q r t : ℚ} {k n : ℕ}

/-! ## Singles and their bits -/

theorem stored (x : Float32) : Stored Format.binary32 x.toModel.unpack := stored_unpack (by decide) _

theorem unpack_ofModel {u : UnpackedFloat} (h : Stored Format.binary32 u) :
    (Float32.ofModel (.pack u)).toModel.unpack = u := unpack_pack h

theorem ofModel_pack_unpack (x : Float32) : Float32.ofModel (.pack x.toModel.unpack) = x := by
  obtain ⟨⟨bits, hvalid⟩⟩ := x
  have hbits : UnpackedFloat.pack Format.binary32 (UnpackedFloat.unpack Format.binary32 bits.toBitVec) =
      bits.toBitVec := pack_unpack (by decide) hvalid
  simp only [Float32.Model.pack, Float32.Model.unpack, hbits, UInt32.ofBitVec_toBitVec]

theorem ofBits_toBits (x : Float32) : Float32.ofBits x.toBits = x := ofModel_pack_unpack x

theorem unpack_one : (ofNat 1).toModel.unpack = .finite .positive (2 ^ 23) (-23) (by decide) := by
  rfl

theorem canonical_one : Canonical Format.binary32 (2 ^ 23) (-23) := ⟨by decide, by decide⟩

theorem mul_ofNat_one (x : Float32) : x * ofNat 1 = x := by
  have h : UnpackedFloat.mul Format.binary32 x.toModel.unpack (ofNat 1).toModel.unpack = x.toModel.unpack := by
    rw [unpack_one]
    have hx := stored x
    generalize x.toModel.unpack = u at hx ⊢
    cases u with
    | finite s m e hm =>
      have hprod := rounds_mul s .positive hx.1 canonical_one
      have hsign : s * UnpackedFloat.Sign.positive = s := by cases s <;> rfl
      have hvalue : (m : ℚ) * 2 ^ e * ((2 ^ 23 : ℕ) * 2 ^ (-23 : ℤ)) = m * 2 ^ e := by norm_num
      rw [hsign, hvalue] at hprod
      exact hprod.unique (hx.1.rounds s)
    | infinity s => cases s <;> rfl
    | zero s => cases s <;> rfl
    | notANumber => rfl
  calc x * ofNat 1
      = .ofModel (.pack (UnpackedFloat.mul Format.binary32 x.toModel.unpack (ofNat 1).toModel.unpack)) := rfl
    _ = x := by rw [h, ofModel_pack_unpack]

theorem div_ofNat_one (x : Float32) : x / ofNat 1 = x := by
  have h : UnpackedFloat.div Format.binary32 x.toModel.unpack (ofNat 1).toModel.unpack = x.toModel.unpack := by
    rw [unpack_one]
    have hx := stored x
    generalize x.toModel.unpack = u at hx ⊢
    cases u with
    | finite s m e hm =>
      have hquot : Rounds Format.binary32 (s / .positive) (m * 2 ^ e / ((2 ^ 23 : ℕ) * 2 ^ (-23 : ℤ)))
          (UnpackedFloat.div Format.binary32 (.finite s m e hm) (.finite .positive (2 ^ 23) (-23) (by decide))) :=
        rounds_div s .positive hm (by decide)
      have hsign : s / UnpackedFloat.Sign.positive = s := by cases s <;> rfl
      have hvalue : (m : ℚ) * 2 ^ e / ((2 ^ 23 : ℕ) * 2 ^ (-23 : ℤ)) = m * 2 ^ e := by norm_num
      rw [hsign, hvalue] at hquot
      exact hquot.unique (hx.1.rounds s)
    | infinity s => cases s <;> rfl
    | zero s => cases s <;> rfl
    | notANumber => rfl
  calc x / ofNat 1
      = .ofModel (.pack (UnpackedFloat.div Format.binary32 x.toModel.unpack (ofNat 1).toModel.unpack)) := rfl
    _ = x := by rw [h, ofModel_pack_unpack]

/-! ## Positive numbers -/

/-- The single is this positive number. -/
structure Holds (x : Float32) (q : ℚ) : Prop where
  number : ∃ m e, ∃ h : Canonical Format.binary32 m e,
    x.toModel.unpack = .finite .positive m e h.pos ∧ (m : ℚ) * 2 ^ e = q

/-- The single is what this positive number is rounded to. -/
structure Rounded (r : ℚ) (x : Float32) : Prop where
  result : ∃ u, Rounds Format.binary32 .positive r u ∧ x = .ofModel (.pack u)

/-- **An operation is decided by its exact result.** -/
theorem Rounded.unique (hx : Rounded r x) (hy : Rounded r y) : x = y := by
  obtain ⟨u, hu, rfl⟩ := hx.result
  obtain ⟨v, hv, rfl⟩ := hy.result
  rw [hu.unique hv]

theorem Holds.pos (h : Holds x q) : 0 < q := by
  obtain ⟨m, e, hc, -, rfl⟩ := h.number
  exact mul_pos (by exact_mod_cast hc.pos) (zpow_pos (by norm_num) e)

theorem Holds.rounded (h : Holds x q) : Rounded q x := by
  obtain ⟨m, e, hc, hx, rfl⟩ := h.number
  exact ⟨_, hc.rounds .positive, by rw [← hx, ofModel_pack_unpack]⟩

theorem holds_ofModel {m : ℕ} {e : ℤ} (hc : Canonical Format.binary32 m e)
    (hlt : (m : ℚ) * 2 ^ e < 2 ^ (128 : ℤ)) :
    Holds (.ofModel (.pack (.finite .positive m e hc.pos))) (m * 2 ^ e) := by
  have hstored : Stored Format.binary32 (.finite .positive m e hc.pos) :=
    (hc.stored_iff (by decide) .positive).mpr hlt
  exact ⟨m, e, hc, unpack_ofModel hstored, rfl⟩

theorem Rounded.holds_natCast (h : Rounded n x) (hn : 0 < n) (hlt : n < 2 ^ 24) : Holds x n := by
  obtain ⟨m, e, hc, hvalue⟩ : ∃ m e, Canonical Format.binary32 m e ∧ (m : ℚ) * 2 ^ e = n * 2 ^ (0 : ℤ) :=
    exists_canonical hn hlt (by decide)
  rw [zpow_zero, mul_one] at hvalue
  have hlt' : (m : ℚ) * 2 ^ e < 2 ^ (128 : ℤ) := by
    rw [hvalue]
    exact lt_trans (by exact_mod_cast hlt) (by norm_num : ((2 ^ 24 : ℕ) : ℚ) < _)
  have hm := holds_ofModel hc hlt'
  rw [hvalue] at hm
  rwa [h.unique hm.rounded]

theorem ofNat_eq (hlt : n < 2 ^ 32) : ofNat n = .ofModel (.pack (.ofNat Format.binary32 n)) := by
  have hsize : (UInt32.ofNat n).toNat = n := UInt32.toNat_ofNat_of_lt hlt
  show Float32.ofModel (.pack (.ofNat Format.binary32 (UInt32.ofNat n).toNat)) = _
  rw [hsize]

theorem rounded_ofNat (hn : 0 < n) (hlt : n < 2 ^ 32) : Rounded n (ofNat n) :=
  ⟨_, rounds_ofNat _ hn, ofNat_eq hlt⟩

theorem holds_ofNat (hn : 0 < n) (hlt : n < 2 ^ 24) : Holds (ofNat n) n :=
  (rounded_ofNat hn (lt_trans hlt (by norm_num))).holds_natCast hn hlt

theorem Holds.add (hx : Holds x p) (hy : Holds y q) : Rounded (p + q) (x + y) := by
  obtain ⟨m, e, hm, hxu, rfl⟩ := hx.number
  obtain ⟨n, f, hn, hyu, rfl⟩ := hy.number
  refine ⟨_, rounds_add hm.pos hn.pos, ?_⟩
  rw [← hxu, ← hyu]
  rfl

theorem Holds.mul (hx : Holds x p) (hy : Holds y q) : Rounded (p * q) (x * y) := by
  obtain ⟨m, e, hm, hxu, rfl⟩ := hx.number
  obtain ⟨n, f, hn, hyu, rfl⟩ := hy.number
  refine ⟨_, rounds_mul .positive .positive hm hn, ?_⟩
  rw [← hxu, ← hyu]
  rfl

theorem Holds.div (hx : Holds x p) (hy : Holds y q) : Rounded (p / q) (x / y) := by
  obtain ⟨m, e, hm, hxu, rfl⟩ := hx.number
  obtain ⟨n, f, hn, hyu, rfl⟩ := hy.number
  refine ⟨_, rounds_div .positive .positive hm.pos hn.pos, ?_⟩
  rw [← hxu, ← hyu]
  rfl

/-! ## Comparison -/

theorem unpack_lt (h : x < y) : UnpackedFloat.lt x.toModel.unpack y.toModel.unpack = true := of_decide_eq_true h

theorem Holds.not_lt_zero (h : Holds x q) : ¬ x < ofNat 0 := by
  obtain ⟨m, e, hm, hx, -⟩ := h.number
  intro hlt
  have hless := unpack_lt hlt
  rw [hx, show (ofNat 0).toModel.unpack = .zero .positive from rfl] at hless
  exact Bool.false_ne_true hless

theorem Holds.lt_of_lt (hx : Holds x p) (hy : Holds y q) (hlt : x < y) : p < q := by
  obtain ⟨m, e, hm, hxu, rfl⟩ := hx.number
  obtain ⟨n, f, hn, hyu, rfl⟩ := hy.number
  have hless := unpack_lt hlt
  rw [hxu, hyu] at hless
  refine hm.compare_eq_lt hn ?_
  simpa [UnpackedFloat.lt, UnpackedFloat.compare] using hless

/-! ## Approximation -/

/-- A number that is far from the ends of the range of singles. -/
structure Moderate (r : ℚ) : Prop where
  low : 1 / 2 ^ 32 ≤ r
  high : r ≤ 2 ^ 32

theorem Moderate.pos (h : Moderate r) : 0 < r := lt_of_lt_of_le (by norm_num) h.low

/-- The single is a positive number, not further from `r` than `k` units of `2 ^ -23`, relative to `r`. -/
structure Approximates (x : Float32) (r : ℚ) (k : ℕ) : Prop where
  near : ∃ q, Holds x q ∧ |q - r| ≤ k * (r / 2 ^ 23)

theorem Holds.approximates (h : Holds x q) : Approximates x q 0 := ⟨q, h, by simp⟩

theorem units_le_half (hk : k ≤ 2 ^ 22) (hr : 0 ≤ r) : (k : ℚ) * (r / 2 ^ 23) ≤ r / 2 := by
  have hle : (k : ℚ) ≤ 2 ^ 22 := by exact_mod_cast hk
  have hmul := mul_le_mul_of_nonneg_right hle (by positivity : 0 ≤ r / 2 ^ 23)
  linarith

/-- Rounding a number adds one unit to its distance. -/
theorem Rounded.approximates (h : Rounded q x) (hr : Moderate r) (hk : k ≤ 2 ^ 22)
    (hq : |q - r| ≤ k * (r / 2 ^ 23)) : Approximates x r (k + 1) := by
  obtain ⟨u, hu, rfl⟩ := h.result
  have hpos := hr.pos
  have hhalf := units_le_half hk (le_of_lt hpos)
  -- the number to be rounded lies between half of `r` and its double, so it is normal
  have hdist := abs_le.mp hq
  have hlow := hr.low
  have hhigh := hr.high
  have hmin : (2 : ℚ) ^ (Format.binary32.minExponent + Format.binary32.mantissaBits - 1) ≤ q := by
    rw [show Format.binary32.minExponent + Format.binary32.mantissaBits - 1 = -126 from rfl]
    exact le_trans (by norm_num : (2 : ℚ) ^ (-126 : ℤ) ≤ 1 / 2 ^ 33) (by linarith)
  obtain ⟨m, e, hm, rfl, hc, herr⟩ := hu.near hmin
  rw [show Format.binary32.mantissaBits = 24 from rfl] at herr
  have hstep := abs_le.mp herr
  have hlt : (m : ℚ) * 2 ^ e < 2 ^ (128 : ℤ) :=
    lt_trans (by linarith) (by norm_num : (2 : ℚ) ^ 34 < 2 ^ (128 : ℤ))
  refine ⟨_, holds_ofModel hc hlt, ?_⟩
  rw [abs_le]
  push_cast
  constructor <;> linarith

theorem Approximates.mono {j : ℕ} (h : Approximates x r k) (hr : 0 ≤ r) (hkj : k ≤ j) : Approximates x r j := by
  obtain ⟨q, hx, hq⟩ := h.near
  have hle : (k : ℚ) ≤ j := by exact_mod_cast hkj
  exact ⟨q, hx, le_trans hq (mul_le_mul_of_nonneg_right hle (by positivity))⟩

namespace Approximates

variable (h : Approximates x r k) (hk : k ≤ 2 ^ 22)
include h hk

theorem add (hy : Approximates y t k) (hm : Moderate (r + t)) : Approximates (x + y) (r + t) (k + 1) := by
  obtain ⟨p, hx, hp⟩ := h.near
  obtain ⟨q, hy, hq⟩ := hy.near
  refine (hx.add hy).approximates hm hk ?_
  calc |p + q - (r + t)| = |(p - r) + (q - t)| := by congr 1; ring
    _ ≤ |p - r| + |q - t| := abs_add_le _ _
    _ ≤ k * ((r + t) / 2 ^ 23) := by linarith

theorem mul (hc : Holds c q) (hm : Moderate (r * q)) : Approximates (x * c) (r * q) (k + 1) := by
  obtain ⟨p, hx, hp⟩ := h.near
  refine (hx.mul hc).approximates hm hk ?_
  have hq := hc.pos
  calc |p * q - r * q| = |p - r| * q := by rw [← sub_mul, abs_mul, abs_of_pos hq]
    _ ≤ k * (r / 2 ^ 23) * q := mul_le_mul_of_nonneg_right hp (le_of_lt hq)
    _ = k * (r * q / 2 ^ 23) := by ring

theorem div (hc : Holds c q) (hm : Moderate (r / q)) : Approximates (x / c) (r / q) (k + 1) := by
  obtain ⟨p, hx, hp⟩ := h.near
  have hq := hc.pos
  have hdist : |p / q - r / q| ≤ k * (r / q / 2 ^ 23) := by
    calc |p / q - r / q| = |p - r| / q := by rw [← sub_div, abs_div, abs_of_pos hq]
      _ ≤ k * (r / 2 ^ 23) / q := div_le_div_of_nonneg_right hp (le_of_lt hq)
      _ = k * (r / q / 2 ^ 23) := by ring
  exact (hx.div hc).approximates hm hk hdist

end Approximates

theorem Approximates.mul_approximates (hx : Approximates x r k) (hy : Approximates y t 1) (hk : k ≤ 2 ^ 20)
    (hr : 0 ≤ r) (ht : 0 ≤ t) (hm : Moderate (r * t)) : Approximates (x * y) (r * t) (k + 3) := by
  obtain ⟨p, hx, hp⟩ := hx.near
  obtain ⟨q, hy, hq⟩ := hy.near
  have hpos := hx.pos
  have hdouble : p ≤ 2 * r := by
    have hhalf := units_le_half (by omega : k ≤ 2 ^ 22) hr
    have := (abs_le.mp hp).2
    linarith
  refine (hx.mul hy).approximates (k := k + 2) hm (by omega) ?_
  calc |p * q - r * t| = |(p - r) * t + p * (q - t)| := by congr 1; ring
    _ ≤ |(p - r) * t| + |p * (q - t)| := abs_add_le _ _
    _ = |p - r| * t + p * |q - t| := by rw [abs_mul, abs_mul, abs_of_nonneg ht, abs_of_pos hpos]
    _ ≤ k * (r / 2 ^ 23) * t + 2 * r * ((1 : ℕ) * (t / 2 ^ 23)) :=
      add_le_add (mul_le_mul_of_nonneg_right hp ht) (mul_le_mul hdouble hq (abs_nonneg _) (by linarith))
    _ = ((k + 2 : ℕ) : ℚ) * (r * t / 2 ^ 23) := by push_cast; ring

theorem Approximates.div_approximates (hx : Approximates x r k) (hy : Approximates y t 1) (hk : k ≤ 2 ^ 20)
    (hr : 0 ≤ r) (ht : 0 < t) (hm : Moderate (r / t)) : Approximates (x / y) (r / t) (k + 3) := by
  obtain ⟨p, hx, hp⟩ := hx.near
  obtain ⟨q, hy, hq⟩ := hy.near
  have hqpos := hy.pos
  have hk' : (k : ℚ) ≤ 2 ^ 20 := by exact_mod_cast hk
  -- the divisor is so near that it costs one unit more
  have hdivisor : (k + 1) * t ≤ (k + 2) * q := by
    have hlow := (abs_le.mp hq).1
    rw [Nat.cast_one, one_mul] at hlow
    have hkt : (k : ℚ) * t ≤ 2 ^ 20 * t := mul_le_mul_of_nonneg_right hk' (le_of_lt ht)
    have hprod := mul_le_mul_of_nonneg_left hlow (by positivity : (0 : ℚ) ≤ k + 2)
    linarith
  have hnum : |p * t - r * q| ≤ (k + 1) * (r * t / 2 ^ 23) := by
    calc |p * t - r * q| = |(p - r) * t - r * (q - t)| := by congr 1; ring
      _ ≤ |(p - r) * t| + |r * (q - t)| := abs_sub _ _
      _ = |p - r| * t + r * |q - t| := by rw [abs_mul, abs_mul, abs_of_pos ht, abs_of_nonneg hr]
      _ ≤ k * (r / 2 ^ 23) * t + r * ((1 : ℕ) * (t / 2 ^ 23)) :=
        add_le_add (mul_le_mul_of_nonneg_right hp (le_of_lt ht)) (mul_le_mul_of_nonneg_left hq hr)
      _ = (k + 1) * (r * t / 2 ^ 23) := by push_cast; ring
  refine (hx.div hy).approximates (k := k + 2) hm (by omega) ?_
  calc |p / q - r / t| = |p * t - r * q| / (q * t) := by
        rw [div_sub_div _ _ (ne_of_gt hqpos) (ne_of_gt ht), abs_div, abs_of_pos (mul_pos hqpos ht)]
        congr 2
        ring
    _ ≤ (k + 1) * (r * t / 2 ^ 23) / (q * t) := div_le_div_of_nonneg_right hnum (le_of_lt (mul_pos hqpos ht))
    _ = (k + 1) * t * (r / t / 2 ^ 23) / q := by field_simp
    _ ≤ (k + 2) * q * (r / t / 2 ^ 23) / q :=
      div_le_div_of_nonneg_right (mul_le_mul_of_nonneg_right hdivisor (by positivity)) (le_of_lt hqpos)
    _ = ((k + 2 : ℕ) : ℚ) * (r / t / 2 ^ 23) := by push_cast; field_simp

theorem Approximates.clamp (h : Approximates x r k) (hr : r ≤ 1) :
    Approximates (clamp x (ofNat 0) (ofNat 1)) r k := by
  obtain ⟨q, hx, hq⟩ := h.near
  have hone : Holds (ofNat 1) ((1 : ℕ) : ℚ) := holds_ofNat (by decide) (by decide)
  rw [Nat.cast_one] at hone
  -- nothing positive is below the interval, and what is above it was further away than the end
  rw [Single.clamp, if_neg hx.not_lt_zero]
  show Approximates (if ofNat 1 < x then ofNat 1 else x) r k
  split
  next hgt =>
    have hlt := hone.lt_of_lt hx hgt
    refine ⟨1, hone, le_trans ?_ hq⟩
    rw [abs_of_nonneg (by linarith), abs_of_nonneg (by linarith)]
    linarith
  next => exact h

/-! ## The nearest natural number -/

theorem nearestScaled_eq_floor (m : ℕ) (e : ℤ) : nearestScaled m e = ⌊(m : ℚ) * 2 ^ e + 1 / 2⌋₊ := by
  unfold nearestScaled
  split
  next he =>
    obtain ⟨k, rfl⟩ := Int.eq_ofNat_of_zero_le he
    rw [Int.toNat_natCast, Nat.shiftLeft_eq, zpow_natCast, eq_comm, Nat.floor_eq_iff (by positivity)]
    push_cast
    constructor <;> linarith
  next he =>
    obtain ⟨k, hk⟩ : ∃ k : ℕ, (-e).toNat = k := ⟨_, rfl⟩
    have hvalue : (m : ℚ) * 2 ^ e + 1 / 2 = (2 * m + 2 ^ k : ℕ) / (2 ^ (k + 1) : ℕ) := by
      rw [show e = -(k : ℤ) by omega, zpow_neg, zpow_natCast]
      push_cast
      rw [pow_succ]
      field_simp
    rw [hk, Nat.shiftRight_eq_div_pow, Nat.one_shiftLeft, hvalue, Nat.floor_div_eq_div]

theorem Holds.nearest_eq (h : Holds x q) : nearest x = ⌊q + 1 / 2⌋₊ := by
  obtain ⟨m, e, hc, hxu, rfl⟩ := h.number
  rw [Single.nearest, hxu]
  exact nearestScaled_eq_floor m e

/-- The nearest natural number is not further away than a half. -/
theorem Holds.nearest_near (h : Holds x q) : |(nearest x : ℚ) - q| ≤ 1 / 2 := by
  have hpos := h.pos
  have hle := Nat.floor_le (by linarith : 0 ≤ q + 1 / 2)
  have hlt := Nat.lt_floor_add_one (q + 1 / 2)
  rw [← h.nearest_eq] at hle hlt
  rw [abs_le]
  constructor <;> linarith

theorem Holds.nearest_of_lt (h : Holds x q) (hn : |q - n| < 1 / 2) : nearest x = n := by
  have hpos := h.pos
  have hdist := abs_lt.mp hn
  rw [h.nearest_eq, Nat.floor_eq_iff (by linarith)]
  constructor <;> linarith

/-- What a single approximates is not much further from its nearest natural number than a half. -/
theorem Approximates.nearest_near (h : Approximates x r k) : |(nearest x : ℚ) - r| ≤ 1 / 2 + k * (r / 2 ^ 23) := by
  obtain ⟨q, hx, hq⟩ := h.near
  calc |(nearest x : ℚ) - r| ≤ |(nearest x : ℚ) - q| + |q - r| := abs_sub_le _ _ _
    _ ≤ 1 / 2 + k * (r / 2 ^ 23) := add_le_add hx.nearest_near hq

/-- **A single that is near enough to a natural number is rounded to it.** -/
theorem Approximates.nearest (h : Approximates x n k) (hk : k * n < 2 ^ 22) : nearest x = n := by
  obtain ⟨q, hx, hq⟩ := h.near
  have hlt : (k : ℚ) * (n / 2 ^ 23) < 1 / 2 := by
    have hkn : (k : ℚ) * n < 2 ^ 22 := by exact_mod_cast hk
    linarith
  exact hx.nearest_of_lt (lt_of_le_of_lt hq hlt)

end ImageLoader.Single
