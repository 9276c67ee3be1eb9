import ImageLoader.Float.Half
import ImageLoader.Proofs.Float.Single

/-!
# Halves among the singles

Every half is a single, so widening rounds nothing, and narrowing what was widened gives the half again.  Narrowing
another single rounds it, to within a few thousand units of single precision.

* `exists_wider`: a half has the same value in single precision.
* `widen_narrow_widen`: **a widened half survives being narrowed.**
* `approximates_widen_narrow`: what is narrowed stays near, by the digits that a half has.
-/

namespace ImageLoader.Half

open Float.Model (Format UnpackedFloat)
open Rounding
open Single (Holds Approximates holds_ofModel units_le_half)

variable {s : UnpackedFloat.Sign} {m k : ℕ} {e : ℤ} {x : Float32} {r : ℚ}

theorem exists_wider (hm : 0 < m) (h : Stored binary16 (.finite s m e hm)) :
    ∃ n f, ∃ hn : Canonical Format.binary32 n f, Stored Format.binary32 (.finite s n f hn.pos) ∧
      (n : ℚ) * 2 ^ f = m * 2 ^ e := by
  have hc : Canonical binary16 m e := h.1
  have hlt := (hc.stored_iff (by decide) s).mp h
  have hmin : Format.binary32.minExponent ≤ e := le_trans (by decide) hc.minExponent_le
  obtain ⟨n, f, hn, hvalue⟩ := exists_canonical hm (lt_trans hc.lt_two_pow (by decide)) hmin
  refine ⟨n, f, hn, (hn.stored_iff (by decide) s).mpr ?_, hvalue⟩
  rw [hvalue]
  exact lt_trans hlt (zpow_lt_zpow_right₀ (by norm_num) (by decide))

theorem fit_eq {spec : Format} {n : ℕ} {f : ℤ} (hn : 0 < n) (hc : Canonical spec m e)
    (hvalue : (n : ℚ) * 2 ^ f = m * 2 ^ e) : fit spec (.finite s n f hn) = .finite s m e hc.pos := by
  have hround : Rounds spec s (n * 2 ^ f) (.round spec s n f) := rounds_round s hn f
  rw [hvalue] at hround
  exact hround.unique (hc.rounds s)

theorem fit_wider {u : UnpackedFloat} (h : Stored binary16 u) :
    Stored Format.binary32 (fit Format.binary32 u) ∧ fit binary16 (fit Format.binary32 u) = u := by
  cases u with
  | finite s m e hm =>
    obtain ⟨n, f, hn, hstored, hvalue⟩ := exists_wider hm h
    rw [fit_eq hm hn hvalue.symm]
    exact ⟨hstored, fit_eq hn.pos h.1 hvalue⟩
  | infinity s => exact ⟨trivial, rfl⟩
  | zero s => exact ⟨trivial, rfl⟩
  | notANumber => exact ⟨trivial, rfl⟩

/-- **A widened half survives being narrowed.** -/
theorem widen_narrow_widen (h : UInt16) : widen (narrow (widen h)) = widen h := by
  have hu : Stored binary16 (UnpackedFloat.unpack binary16 h.toBitVec) := stored_unpack (by decide) _
  obtain ⟨hstored, hfit⟩ := fit_wider hu
  have hnarrow : narrow (widen h) =
      UInt16.ofBitVec (UnpackedFloat.pack binary16 (UnpackedFloat.unpack binary16 h.toBitVec)) := by
    rw [narrow, widen, Single.unpack_ofModel hstored, hfit]
  rw [hnarrow, widen, UInt16.toBitVec_ofBitVec, unpack_pack hu]
  rfl

/-! ## Rounding to a half -/

/-- A half is widened to the number that it is. -/
theorem holds_widen (hc : Canonical binary16 m e) (hlt : (m : ℚ) * 2 ^ e < 2 ^ (16 : ℤ)) :
    Holds (widen (UInt16.ofBitVec (UnpackedFloat.pack binary16 (.finite .positive m e hc.pos)))) (m * 2 ^ e) := by
  have hstored : Stored binary16 (.finite .positive m e hc.pos) := (hc.stored_iff (by decide) .positive).mpr hlt
  obtain ⟨n, f, hn, -, hvalue⟩ := exists_wider hc.pos hstored
  rw [widen, UInt16.toBitVec_ofBitVec, unpack_pack hstored, fit_eq hc.pos hn hvalue.symm, ← hvalue]
  refine holds_ofModel hn ?_
  rw [hvalue]
  exact lt_trans hlt (zpow_lt_zpow_right₀ (by norm_num) (by decide))

/-- **Narrowing costs as many units as a half is short of**, above the least normal half. -/
theorem approximates_widen_narrow (h : Approximates x r k) (hk : k ≤ 2 ^ 22) (hlow : 1 / 2 ^ 13 ≤ r) (hhigh : r ≤ 1) :
    Approximates (widen (narrow x)) r (k + 2 ^ 13) := by
  obtain ⟨q, hx, hq⟩ := h.near
  have hhalf := units_le_half hk (le_trans (by norm_num) hlow)
  have hdist := abs_le.mp hq
  obtain ⟨m, e, hc, hxu, rfl⟩ := hx.number
  have hround : Rounds binary16 .positive (m * 2 ^ e) (fit binary16 x.toModel.unpack) := by
    rw [hxu]
    exact rounds_round .positive hc.pos e
  have hmin : (2 : ℚ) ^ (binary16.minExponent + binary16.mantissaBits - 1) ≤ m * 2 ^ e := by
    rw [show binary16.minExponent + binary16.mantissaBits - 1 = -14 from rfl]
    exact le_trans (by norm_num : (2 : ℚ) ^ (-14 : ℤ) ≤ 1 / 2 ^ 14) (by linarith)
  obtain ⟨n, f, hn, hfit, hc', herr⟩ := hround.near hmin
  rw [show binary16.mantissaBits = 11 from rfl] at herr
  have hstep := abs_le.mp herr
  rw [narrow, hfit]
  have hlt : (n : ℚ) * 2 ^ f < 2 ^ (16 : ℤ) :=
    lt_of_le_of_lt (by linarith : _ ≤ (2 : ℚ) ^ 2) (by norm_num)
  refine ⟨_, holds_widen hc' hlt, ?_⟩
  rw [abs_le]
  push_cast
  constructor <;> linarith

end ImageLoader.Half
