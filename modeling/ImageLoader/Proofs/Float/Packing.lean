import ImageLoader.Proofs.Float.Canonical

/-!
# Numbers and their bits

Canonical numbers whose exponent is not too large are what the bits of a format can say, and each in one way: there is
one pattern for each number, each infinity, each zero, and for what is no number.

* `Says`: what each pattern says; `says_unpack`: it is what is unpacked.
* `unpack_pack`: **the bits of a canonical number say that number.**
* `pack_unpack`: **what bits say is packed into those bits again.**
* `stored_unpack`: bits say canonical numbers.
-/

namespace ImageLoader.Rounding

open Float.Model hiding pack unpack
open Float.Model.UnpackedFloat

variable {spec : Format} {s : Sign} {m : ℕ} {e : ℤ}

/-! ## Exponents -/

theorem minExponent_eq (spec : Format) :
    spec.minExponent = 1 - spec.exponentBias - spec.mantissaBitsWithoutImplicit := by
  have h : 1 ≤ 2 ^ (spec.exponentBits - 1) := Nat.one_le_two_pow
  simp only [Format.minExponent, Format.exponentBias, Format.mantissaBits, Nat.cast_sub h]
  push_cast
  ring

theorem two_pow_exponentBits (spec : Format) : 2 ^ spec.exponentBits = 2 * spec.exponentBias + 2 := by
  have h : 1 ≤ 2 ^ (spec.exponentBits - 1) := Nat.one_le_two_pow
  have hsplit : 2 ^ spec.exponentBits = 2 * 2 ^ (spec.exponentBits - 1) := by
    rw [← pow_succ', Nat.sub_add_cancel spec.he]
  simp only [Format.exponentBias]
  omega

theorem toNat_neg_one (n : ℕ) : (-1#n).toNat = 2 ^ n - 1 := by
  rw [BitVec.neg_one_eq_allOnes, BitVec.toNat_allOnes]

/-! ## The fields of a pattern -/

theorem toNat_append_one {k : ℕ} (f : BitVec k) : (1#1 ++ f).toNat = 2 ^ k + f.toNat := by
  rw [BitVec.toNat_append, ← Nat.shiftLeft_add_eq_or_of_lt f.isLt, Nat.shiftLeft_eq]
  simp

theorem unpackSign_packComponents (s : Sign) (exponent : BitVec spec.exponentBits)
    (mantissa : BitVec spec.mantissaBitsWithoutImplicit) :
    unpackSign (packComponents spec s exponent mantissa) = s.toBitVec := by
  ext i hi
  obtain rfl : i = 0 := by omega
  simp [unpackSign, packComponents, BitVec.getLsbD_append, BitVec.getElem_append]

theorem ofBitVec_toBitVec (s : Sign) : Sign.ofBitVec s.toBitVec = s := by
  cases s <;> rfl

theorem toBitVec_ofBitVec (b : BitVec 1) : (Sign.ofBitVec b).toBitVec = b := by
  unfold Sign.ofBitVec
  split
  next h => exact h.symm
  next h => exact ((BitVec.eq_zero_or_eq_one b).resolve_left h).symm

theorem packComponents_unpack (b : BitVec spec.numBits) :
    packComponents spec (Sign.ofBitVec (unpackSign b)) (unpackExponent b) (unpackMantissa b) = b := by
  rw [packComponents, toBitVec_ofBitVec]
  ext i hi
  simp only [unpackSign, unpackExponent, unpackMantissa, BitVec.getElem_append, BitVec.getElem_cast,
    BitVec.extractLsb, BitVec.getElem_extractLsb']
  rw [← BitVec.getLsbD_eq_getElem hi]
  -- each bit comes from the field that it lies in
  split
  · rw [zero_add]
  · split
    · congr 1
      omega
    · congr 1
      omega

theorem unpack_packComponents (s : Sign) (exponent : BitVec spec.exponentBits)
    (mantissa : BitVec spec.mantissaBitsWithoutImplicit) :
    unpack spec (packComponents spec s exponent mantissa) =
      if exponent = -1#_ then if mantissa = 0#_ then .infinity s else .notANumber
      else if exponent = 0#_ then
        if h : mantissa = 0#_ then .zero s
        else .finite s mantissa.toNat
          ((exponent.toNat : ℤ) - (spec.exponentBias + spec.mantissaBitsWithoutImplicit) + 1)
          (by simpa [BitVec.toNat_pos, BitVec.pos_iff_ne_zero])
      else .finite s (1#1 ++ mantissa).toNat
        ((exponent.toNat : ℤ) - (spec.exponentBias + spec.mantissaBitsWithoutImplicit)) (by simp) := by
  simp only [UnpackedFloat.unpack, unpackMantissa_packComponents, unpackExponent_packComponents,
    unpackSign_packComponents, ofBitVec_toBitVec]

theorem toNat_ne_ones {k : ℕ} {x : BitVec k} (h : x ≠ -1#_) : x.toNat ≠ 2 ^ k - 1 :=
  fun heq => h (BitVec.eq_of_toNat_eq (by rw [heq, toNat_neg_one]))

theorem toNat_pos_iff {k : ℕ} {x : BitVec k} : 0 < x.toNat ↔ x ≠ 0#_ := by
  rw [BitVec.toNat_pos, BitVec.pos_iff_ne_zero]

theorem zero_ne_ones (spec : Format) : (0#_ : BitVec spec.exponentBits) ≠ -1#_ := by
  intro h
  have hz := congrArg BitVec.toNat h
  rw [toNat_neg_one, two_pow_exponentBits] at hz
  simp at hz

/-! ## What patterns say -/

/-- What each pattern of a format says. -/
inductive Says (spec : Format) : BitVec spec.numBits → UnpackedFloat → Prop
  | infinity (s : Sign) : Says spec (packComponents spec s (-1#_) 0#_) (.infinity s)
  | notANumber (s : Sign) {v : BitVec spec.mantissaBitsWithoutImplicit} (hv : v ≠ 0#_) :
      Says spec (packComponents spec s (-1#_) v) .notANumber
  | zero (s : Sign) : Says spec (packComponents spec s 0#_ 0#_) (.zero s)
  | subnormal (s : Sign) {v : BitVec spec.mantissaBitsWithoutImplicit} (hv : 0 < v.toNat) :
      Says spec (packComponents spec s 0#_ v) (.finite s v.toNat spec.minExponent hv)
  | normal (s : Sign) {x : BitVec spec.exponentBits} (v : BitVec spec.mantissaBitsWithoutImplicit)
      (hzero : 0 < x.toNat) (hones : x.toNat + 1 < 2 ^ spec.exponentBits) :
      Says spec (packComponents spec s x v) (.finite s (1#1 ++ v).toNat
        (x.toNat - (spec.exponentBias + spec.mantissaBitsWithoutImplicit)) (by simp))

theorem subnormal_exponent (spec : Format) :
    ((0#_ : BitVec spec.exponentBits).toNat : ℤ) - (spec.exponentBias + spec.mantissaBitsWithoutImplicit) + 1 =
      spec.minExponent := by
  rw [minExponent_eq, BitVec.toNat_ofNat, Nat.zero_mod]
  push_cast
  ring

theorem says_unpack (b : BitVec spec.numBits) : Says spec b (unpack spec b) := by
  obtain ⟨s, x, v, rfl⟩ : ∃ s x v, b = packComponents spec s x v := ⟨_, _, _, (packComponents_unpack b).symm⟩
  rw [unpack_packComponents]
  split
  next hones =>
    subst hones
    split
    next hv =>
      subst hv
      exact .infinity s
    next hv => exact .notANumber s hv
  next hones =>
    split
    next hzero =>
      subst hzero
      split
      next hv =>
        subst hv
        exact .zero s
      next hv =>
        simp only [subnormal_exponent]
        exact .subnormal s (toNat_pos_iff.mpr hv)
    next hzero =>
      have hx := x.isLt
      have hlast := toNat_ne_ones hones
      exact .normal s v (toNat_pos_iff.mpr hzero) (by omega)

theorem Says.unpack_eq {b : BitVec spec.numBits} {u : UnpackedFloat} (h : Says spec b u) : unpack spec b = u := by
  cases h with
  | infinity s =>
    rw [unpack_packComponents, if_pos rfl]
    exact if_pos rfl
  | notANumber s hv => rw [unpack_packComponents, if_pos rfl, if_neg hv]
  | zero s =>
    rw [unpack_packComponents, if_neg (zero_ne_ones spec), if_pos rfl]
    exact dif_pos rfl
  | subnormal s hv =>
    rw [unpack_packComponents, if_neg (zero_ne_ones spec), if_pos rfl, dif_neg (toNat_pos_iff.mp hv)]
    simp only [subnormal_exponent]
  | @normal s x v hzero hones =>
    have hlast : x ≠ -1#_ := by
      rintro rfl
      rw [toNat_neg_one] at hones
      omega
    rw [unpack_packComponents, if_neg hlast, if_neg (toNat_pos_iff.mp hzero)]

/-! ## Saying a number -/

/-- The number has a pattern in the format. -/
def Stored (spec : Format) : UnpackedFloat → Prop
  | .finite _ m e _ => Canonical spec m e ∧ e + spec.mantissaBitsWithoutImplicit ≤ spec.exponentBias
  | _ => True

theorem log2_of_normal {k : ℕ} (h₁ : 2 ^ k ≤ m) (h₂ : m < 2 ^ (1 + k)) : m.log2 = k := by
  have hpos : m ≠ 0 := Nat.ne_of_gt (Nat.lt_of_lt_of_le (Nat.two_pow_pos k) h₁)
  have hlow := (Nat.le_log2 hpos).mpr h₁
  have hhigh := (Nat.log2_lt hpos).mpr h₂
  omega

theorem log2_append_one {k : ℕ} (v : BitVec k) : (1#1 ++ v).toNat.log2 = k := by
  have hlt := v.isLt
  rw [toNat_append_one]
  exact log2_of_normal (by omega) (by rw [pow_add]; omega)

theorem exists_biased (h : Canonical spec m e) (hle : e + spec.mantissaBitsWithoutImplicit ≤ spec.exponentBias) :
    ∃ k : ℕ, 0 < k ∧ k + 1 < 2 ^ spec.exponentBits ∧
      e + spec.exponentBias + spec.mantissaBitsWithoutImplicit = k := by
  have hpow := two_pow_exponentBits spec
  have hmin := h.minExponent_le
  rw [minExponent_eq] at hmin
  exact ⟨(e + spec.exponentBias + spec.mantissaBitsWithoutImplicit).toNat, by omega, by omega, by omega⟩

theorem says_pack_finite (hm : 0 < m) (h : Canonical spec m e)
    (hle : e + spec.mantissaBitsWithoutImplicit ≤ spec.exponentBias) :
    Says spec (pack spec (.finite s m e hm)) (.finite s m e hm) := by
  obtain ⟨k, hpos, hlast, hk⟩ := exists_biased h hle
  simp only [pack, hk, Int.toNat_natCast]
  rw [if_neg (by omega)]
  by_cases hlog : m.log2 + 1 = spec.mantissaBits
  · -- normal: the first digit is not written
    have hx : (BitVec.ofNat spec.exponentBits k).toNat = k := by
      rw [BitVec.toNat_ofNat, Nat.mod_eq_of_lt (by omega)]
    have hlow : 2 ^ spec.mantissaBitsWithoutImplicit ≤ m :=
      (Nat.le_log2 (Nat.ne_of_gt hm)).mp (by rw [Format.mantissaBits] at hlog; omega)
    have hmant : (1#1 ++ BitVec.ofNat spec.mantissaBitsWithoutImplicit m).toNat = m := by
      have hlt := h.lt_two_pow
      rw [Format.mantissaBits, pow_add, pow_one] at hlt
      rw [toNat_append_one, BitVec.toNat_ofNat, Nat.mod_eq_sub_mod hlow, Nat.mod_eq_of_lt (by omega)]
      omega
    have hsays := Says.normal s (BitVec.ofNat spec.mantissaBitsWithoutImplicit m)
      (by rw [hx]; exact hpos) (by rw [hx]; exact hlast)
    have hexp : (k : ℤ) - (spec.exponentBias + spec.mantissaBitsWithoutImplicit) = e := by omega
    simp only [hx, hmant, hexp] at hsays
    rw [if_pos hlog]
    exact hsays
  · -- subnormal
    have hlt : m < 2 ^ spec.mantissaBitsWithoutImplicit := by
      by_contra hge
      exact hlog (by rw [log2_of_normal (Nat.not_lt.mp hge) h.lt_two_pow, Format.mantissaBits, add_comm])
    have hmant : (BitVec.ofNat spec.mantissaBitsWithoutImplicit m).toNat = m := by
      rw [BitVec.toNat_ofNat, Nat.mod_eq_of_lt hlt]
    have hsays := Says.subnormal s (v := BitVec.ofNat spec.mantissaBitsWithoutImplicit m) (by rw [hmant]; exact hm)
    have hexp : e = spec.minExponent := h.normal_or.resolve_left (Nat.not_le.mpr hlt)
    simp only [hmant, ← hexp] at hsays
    rw [if_neg hlog]
    exact hsays

theorem says_pack {u : UnpackedFloat} (h : Stored spec u) : Says spec (pack spec u) u := by
  cases u with
  | finite s m e hm => exact says_pack_finite hm h.1 h.2
  | infinity s => exact .infinity s
  | zero s => exact .zero s
  | notANumber =>
    refine .notANumber _ fun heq => ?_
    have hlast := congrArg (BitVec.getLsbD · (spec.mantissaBitsWithoutImplicit - 1)) heq
    have hm := spec.hm
    simp [hm] at hlast

/-- **The bits of a number say that number.** -/
theorem unpack_pack {u : UnpackedFloat} (h : Stored spec u) : unpack spec (pack spec u) = u :=
  (says_pack h).unpack_eq

section unpacked

variable (hbits : 2 ≤ spec.exponentBits)
include hbits

theorem exponentBias_pos : 1 ≤ spec.exponentBias := by
  have hpow := two_pow_exponentBits spec
  have hfour : 2 ^ 2 ≤ 2 ^ spec.exponentBits := Nat.pow_le_pow_right (by norm_num) hbits
  omega

theorem Canonical.stored_iff (h : Canonical spec m e) (s : Sign) :
    Stored spec (.finite s m e h.pos) ↔ (m : ℚ) * 2 ^ e < 2 ^ (spec.exponentBias + 1 : ℤ) := by
  have hbias := exponentBias_pos hbits
  constructor
  · rintro ⟨-, hle⟩
    have hdigits : (m : ℚ) < 2 ^ spec.mantissaBits := by exact_mod_cast h.lt_two_pow
    calc (m : ℚ) * 2 ^ e < 2 ^ spec.mantissaBits * 2 ^ e :=
          mul_lt_mul_of_pos_right hdigits (zpow_pos (by norm_num) e)
      _ = 2 ^ (spec.mantissaBits + e : ℤ) := by rw [zpow_add₀ (by norm_num), zpow_natCast]
      _ ≤ 2 ^ (spec.exponentBias + 1 : ℤ) := by
        refine zpow_le_zpow_right₀ (by norm_num) ?_
        rw [Format.mantissaBits]
        push_cast
        omega
  · intro hlt
    have hle := h.le_sub_of_lt hlt (by rw [minExponent_eq, Format.mantissaBits]; push_cast; omega)
    rw [Format.mantissaBits] at hle
    push_cast at hle
    exact ⟨h, by omega⟩

theorem Says.stored {b : BitVec spec.numBits} {u : UnpackedFloat} (h : Says spec b u) : Stored spec u := by
  have hpow := two_pow_exponentBits spec
  have hbias := exponentBias_pos hbits
  have hmin := minExponent_eq spec
  cases h with
  | infinity | notANumber | zero => trivial
  | @subnormal s v hv =>
    have hlog := (Nat.log2_lt (Nat.ne_of_gt hv)).mpr v.isLt
    refine ⟨⟨hv, ?_⟩, by omega⟩
    simp only [Format.targetExponent, totalExponent, Format.mantissaBits]
    omega
  | @normal s x v hzero hones =>
    refine ⟨⟨by simp, ?_⟩, by omega⟩
    simp only [Format.targetExponent, totalExponent, Format.mantissaBits, log2_append_one]
    omega

/-- What is no number has one pattern that is valid; everything else has one pattern. -/
theorem Says.pack_eq {b : BitVec spec.numBits} {u : UnpackedFloat} (h : Says spec b u) (hb : spec.Valid b) :
    pack spec u = b := by
  have hpow := two_pow_exponentBits spec
  have hbias := exponentBias_pos hbits
  have hmin := minExponent_eq spec
  cases h with
  | infinity s => rfl
  | notANumber s hv =>
    have hnan := hb.eq_packedNaN
    rw [unpackExponent_packComponents, unpackMantissa_packComponents] at hnan
    exact (hnan rfl hv).symm
  | zero s => rfl
  | @subnormal s v hv =>
    have hlog := (Nat.log2_lt (Nat.ne_of_gt hv)).mpr v.isLt
    have hbiased : (spec.minExponent + spec.exponentBias + spec.mantissaBitsWithoutImplicit).toNat = 1 := by omega
    simp only [pack, hbiased]
    rw [if_neg (by omega), if_neg (by rw [Format.mantissaBits]; omega), BitVec.ofNat_toNat, BitVec.setWidth_eq]
  | @normal s x v hzero hones =>
    have hbiased : ((x.toNat : ℤ) - (spec.exponentBias + spec.mantissaBitsWithoutImplicit) +
        spec.exponentBias + spec.mantissaBitsWithoutImplicit).toNat = x.toNat := by omega
    have hmant : BitVec.ofNat spec.mantissaBitsWithoutImplicit (1#1 ++ v).toNat = v := by
      apply BitVec.eq_of_toNat_eq
      rw [toNat_append_one, BitVec.toNat_ofNat, Nat.add_mod_left, Nat.mod_eq_of_lt v.isLt]
    simp only [pack, hbiased]
    rw [if_neg (by omega), if_pos (by rw [log2_append_one, Format.mantissaBits, add_comm]), hmant,
      BitVec.ofNat_toNat, BitVec.setWidth_eq]

/-- **What bits say is a number of the format.** -/
theorem stored_unpack (b : BitVec spec.numBits) : Stored spec (unpack spec b) := (says_unpack b).stored hbits

/-- **What bits say is packed into those bits again.** -/
theorem pack_unpack {b : BitVec spec.numBits} (hb : spec.Valid b) : pack spec (unpack spec b) = b :=
  (says_unpack b).pack_eq hbits hb

end unpacked

end ImageLoader.Rounding
