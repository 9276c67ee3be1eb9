import ImageLoader.Format.Pixel
import ImageLoader.Proofs.Bytes
import ImageLoader.Proofs.Float.Half

/-!
# Channels

A channel holds a fraction of the greatest word, or a number as it is.  Of the four types, some hold all that another
holds; a channel that is read, stored in such a type and read again is what it was, though every step rounds.

* `Single.fraction_mul`: equal fractions are the same single.
* `quantize_of_approximates`: **a single that is near a fraction of the greatest word is stored as that word.**
* `decode_encode`, `decode_encode_mean`: **a channel survives a type that holds its own**, and so does the mean of
  three equal ones.
* `encode_decode`, `encode_mean_decode`: integer channels are stored as they were read.
-/

namespace ImageLoader

open Float.Model (Format UnpackedFloat)

/-! ## Fractions -/

namespace Single

variable {w M k : ℕ} {x : Float32} {r : ℚ}

def fraction (w M : ℕ) : Float32 := ofNat w / ofNat M

/-- The mean of three equal numbers, as it is worked out. -/
def mean (x : Float32) : Float32 := (x + x + x) / ofNat 3

theorem fraction_zero (hM : 0 < M) (hlt : M < 2 ^ 24) : fraction 0 M = ofNat 0 := by
  obtain ⟨m, e, hc, hu, -⟩ := (holds_ofNat hM hlt).number
  show Float32.ofModel (.pack (.div Format.binary32 (ofNat 0).toModel.unpack (ofNat M).toModel.unpack)) = _
  rw [hu]
  rfl

/-- What a fraction with a numerator and a denominator of few digits is. -/
structure Proper (w M : ℕ) : Prop where
  pos : 0 < w
  le : w ≤ M
  lt : M < 2 ^ 24

theorem Proper.low (h : Proper w M) : (1 : ℚ) / 2 ^ 24 ≤ w / M := by
  have hw : (1 : ℚ) ≤ w := by exact_mod_cast h.pos
  have hM : (M : ℚ) ≤ 2 ^ 24 := by exact_mod_cast le_of_lt h.lt
  have hpos : (0 : ℚ) < M := by exact_mod_cast Nat.lt_of_lt_of_le h.pos h.le
  exact div_le_div₀ (by linarith) hw hpos hM

theorem Proper.le_one (h : Proper w M) : (w : ℚ) / M ≤ 1 :=
  div_le_one_of_le₀ (by exact_mod_cast h.le) (Nat.cast_nonneg M)

theorem Proper.moderate (h : Proper w M) : Moderate (w / M) where
  low := le_trans (by norm_num) h.low
  high := le_trans h.le_one (by norm_num)

theorem Proper.holds (h : Proper w M) : Holds (ofNat w) w ∧ Holds (ofNat M) M :=
  ⟨holds_ofNat h.pos (Nat.lt_of_le_of_lt h.le h.lt), holds_ofNat (Nat.lt_of_lt_of_le h.pos h.le) h.lt⟩

theorem rounded_fraction (h : Proper w M) : Rounded (w / M) (fraction w M) := by
  obtain ⟨hw, hM⟩ := h.holds
  exact hw.div hM

theorem approximates_fraction (h : Proper w M) : Approximates (fraction w M) (w / M) 1 := by
  obtain ⟨hw, hM⟩ := h.holds
  exact hw.approximates.div (Nat.zero_le _) hM h.moderate

/-- **Equal fractions are the same single.** -/
theorem fraction_mul (hk : 0 < k) (hM : 0 < M) (hle : w ≤ M) (hlt : M * k < 2 ^ 24) :
    fraction (w * k) (M * k) = fraction w M := by
  have hMk : M ≤ M * k := Nat.le_mul_of_pos_right M hk
  rcases Nat.eq_zero_or_pos w with rfl | hw
  · rw [Nat.zero_mul, fraction_zero (Nat.mul_pos hM hk) hlt, fraction_zero hM (Nat.lt_of_le_of_lt hMk hlt)]
  · have h : Rounded ((w * k : ℕ) / (M * k : ℕ)) (fraction (w * k) (M * k)) :=
      rounded_fraction ⟨Nat.mul_pos hw hk, Nat.mul_le_mul_right k hle, hlt⟩
    have hcancel : ((w * k : ℕ) : ℚ) / (M * k : ℕ) = w / M := by
      push_cast
      exact mul_div_mul_right _ _ (by exact_mod_cast Nat.ne_of_gt hk)
    rw [hcancel] at h
    exact h.unique (rounded_fraction ⟨hw, hle, Nat.lt_of_le_of_lt hMk hlt⟩)

/-- Working out the mean adds three units. -/
theorem Approximates.mean (h : Approximates x r k) (hk : k ≤ 2 ^ 20) (hlow : 1 / 2 ^ 24 ≤ r) (hhigh : r ≤ 1) :
    Approximates (mean x) r (k + 3) := by
  have hr : 0 ≤ r := le_trans (by norm_num) hlow
  have hthree : Holds (ofNat 3) ((3 : ℕ) : ℚ) := holds_ofNat (by decide) (by decide)
  have hcancel : (r + r + r) / ((3 : ℕ) : ℚ) = r := by
    push_cast
    ring
  have h₁ := h.add (by omega) h ⟨by linarith, by linarith⟩
  have h₂ := h₁.add (by omega) (h.mono hr (Nat.le_succ k)) ⟨by linarith, by linarith⟩
  have h₃ := h₂.div (by omega) hthree (by rw [hcancel]; exact ⟨by linarith, by linarith⟩)
  rw [hcancel] at h₃
  exact h₃

end Single

namespace ChannelType

open Single

variable {s t : ChannelType} {l : List UInt8} {w j k : ℕ} {x : Float32}

/-! ## Integer channels -/

/-- Does the channel hold a fraction of the greatest word? -/
def isInteger : ChannelType → Bool
  | .u8 | .u16 => true
  | .f16 | .f32 => false

def top : ChannelType → ℕ
  | .u8 => 255
  | _ => 65535

theorem top_pos (t : ChannelType) : 0 < t.top := by cases t <;> decide

theorem top_le (t : ChannelType) : t.top ≤ 65535 := by cases t <;> decide

theorem top_lt (t : ChannelType) : t.top < 2 ^ 24 := Nat.lt_of_le_of_lt (top_le t) (by decide)

theorem holds_maxWord (t : ChannelType) : Holds t.maxWord t.top := by
  have htop : t.maxWord = Single.ofNat t.top := by cases t <;> rfl
  have hle := top_le t
  rw [htop]
  exact holds_ofNat (top_pos t) (by omega)

def store : ChannelType → ℕ → Bytes
  | .u8, w => Bytes.ofList [UInt8.ofNat w]
  | _, w => Bytes.ofUInt16 (UInt16.ofNat w)

theorem encode_eq_store (ht : t.isInteger) (x : Float32) : t.encode x = t.store (t.quantize x) := by
  cases t with
  | u8 | u16 => rfl
  | f16 | f32 => cases ht

theorem store_surjective (ht : t.isInteger) (hl : l.length = t.size) : ∃ w ≤ t.top, t.store w = Bytes.ofList l := by
  cases t with
  | u8 =>
    obtain ⟨v, rfl⟩ := List.length_eq_one_iff.mp hl
    refine ⟨v.toNat, Nat.le_of_lt_succ v.toNat_lt, ?_⟩
    rw [store, UInt8.ofNat_toNat]
  | u16 =>
    obtain ⟨a, b, rfl⟩ := List.length_eq_two.mp hl
    refine ⟨(Bytes.word16 a b).toNat, Nat.le_of_lt_succ (Bytes.word16 a b).toNat_lt, ?_⟩
    show Bytes.ofUInt16 (UInt16.ofNat (Bytes.word16 a b).toNat) = _
    rw [UInt16.ofNat_toNat, Bytes.ofUInt16_word16]
  | f16 | f32 => cases ht

theorem decode_store (ht : t.isInteger) (hw : w ≤ t.top) : t.decode (t.store w).toList = fraction w t.top := by
  have hlt : w < 2 ^ 32 := Nat.lt_of_le_of_lt (Nat.le_trans hw (top_le t)) (by decide)
  cases t with
  | u8 =>
    have hword : (UInt8.ofNat w).toNat = w := UInt8.toNat_ofNat_of_lt (Nat.lt_succ_of_le hw)
    have hnumber : (UInt8.ofNat w).toFloat32 = Single.ofNat w := by
      show Float32.ofModel (.pack (.ofNat Format.binary32 (UInt8.ofNat w).toNat)) = _
      rw [hword, ofNat_eq hlt]
    rw [store, Bytes.toList_ofList, decode, hnumber]
    rfl
  | u16 =>
    have hword : (UInt16.ofNat w).toNat = w := UInt16.toNat_ofNat_of_lt (Nat.lt_succ_of_le hw)
    have hnumber : (UInt16.ofNat w).toFloat32 = Single.ofNat w := by
      show Float32.ofModel (.pack (.ofNat Format.binary32 (UInt16.ofNat w).toNat)) = _
      rw [hword, ofNat_eq hlt]
    show decode .u16 (Bytes.ofUInt16 (UInt16.ofNat w)).toList = _
    rw [Bytes.ofUInt16, Bytes.toList_ofList, decode, Bytes.word16_split, hnumber]
    rfl
  | f16 | f32 => cases ht

theorem exists_store (ht : t.isInteger) (hl : l.length = t.size) :
    ∃ w ≤ t.top, t.store w = Bytes.ofList l ∧ t.decode l = fraction w t.top := by
  obtain ⟨w, hw, hstore⟩ := store_surjective ht hl
  have hdecode := decode_store ht hw
  rw [hstore, Bytes.toList_ofList] at hdecode
  exact ⟨w, hw, hstore, hdecode⟩

/-- **A single that is near a fraction of the greatest word is stored as that word.** -/
theorem quantize_of_approximates (hw : 0 < w) (hle : w ≤ t.top) (h : Approximates x (w / t.top) k)
    (hk : (k + 1) * w < 2 ^ 22) : t.quantize x = w := by
  have hlt := top_le t
  have hunits : k + 1 ≤ (k + 1) * w := Nat.le_mul_of_pos_right _ hw
  have hproper : Proper w t.top := ⟨hw, hle, by omega⟩
  have hpos : (t.top : ℚ) ≠ 0 := by exact_mod_cast Nat.ne_of_gt (top_pos t)
  have hw₁ : (1 : ℚ) ≤ w := by exact_mod_cast hw
  have hw₂ : (w : ℚ) ≤ 2 ^ 24 := by exact_mod_cast (by omega : w ≤ 2 ^ 24)
  -- the product is one unit further away, still less than the half that would change the word
  have hmul := (h.clamp hproper.le_one).mul (by omega) (holds_maxWord t)
    (by rw [div_mul_cancel₀ _ hpos]; exact ⟨by linarith, by linarith⟩)
  rw [div_mul_cancel₀ _ hpos] at hmul
  exact hmul.nearest hk

theorem quantize_zero (t : ChannelType) : t.quantize (Single.ofNat 0) = 0 := by
  cases t <;> decide +kernel

/-- A fraction of a word is stored as the same fraction of a greater one. -/
theorem quantize_eq {M : ℕ} (hk : 0 < k) (htop : t.top = M * k) (hw : w ≤ M) (hj : j ≤ 2 ^ 5)
    (hzero : w = 0 → x = Single.ofNat 0) (hx : 0 < w → Approximates x (w / M) j) : t.quantize x = w * k := by
  rcases Nat.eq_zero_or_pos w with rfl | hpos
  · rw [hzero rfl, quantize_zero, Nat.zero_mul]
  · have hcancel : ((w * k : ℕ) : ℚ) / t.top = w / M := by
      rw [htop]
      push_cast
      exact mul_div_mul_right _ _ (by exact_mod_cast Nat.ne_of_gt hk)
    have hle : w * k ≤ t.top := by
      rw [htop]
      exact Nat.mul_le_mul_right k hw
    have htop := top_le t
    refine quantize_of_approximates (Nat.mul_pos hpos hk) hle (hcancel ▸ hx hpos) ?_
    calc (j + 1) * (w * k) ≤ (2 ^ 5 + 1) * 65535 := Nat.mul_le_mul (by omega) (by omega)
      _ < 2 ^ 22 := by decide

variable (hk : 0 < k) (htop : t.top = s.top * k) (hw : w ≤ s.top)
include hk htop hw

theorem quantize_fraction : t.quantize (fraction w s.top) = w * k := by
  have hlt := top_le s
  refine quantize_eq hk htop hw (by decide) ?_ fun hpos => approximates_fraction ⟨hpos, hw, by omega⟩
  rintro rfl
  exact fraction_zero (top_pos s) (by omega)

theorem quantize_mean : t.quantize (mean (fraction w s.top)) = w * k := by
  have hlt := top_le s
  refine quantize_eq hk htop hw (j := 4) (by decide) ?_ fun hpos => ?_
  · rintro rfl
    rw [fraction_zero (top_pos s) (by omega)]
    rfl
  · have hproper : Proper w s.top := ⟨hpos, hw, by omega⟩
    exact (approximates_fraction hproper).mean (by decide) hproper.low hproper.le_one

theorem decode_encode_of_quantize (ht : t.isInteger) (hx : t.quantize x = w * k) :
    t.decode (t.encode x).toList = fraction w s.top := by
  have hle := Nat.mul_le_mul_right k hw
  have hlt := top_le t
  rw [encode_eq_store ht, hx, decode_store ht (htop ▸ hle), htop]
  exact fraction_mul hk (top_pos s) hw (by omega)

omit hk htop hw

/-! ## Types that hold all that another holds -/

/-- The number can stand in a channel of this type. -/
def Value (t : ChannelType) (x : Float32) : Prop := ∃ l : List UInt8, l.length = t.size ∧ t.decode l = x

/-- The types that hold all that this one holds. -/
def holders : ChannelType → List ChannelType
  | .u8 => [.u8, .u16, .f32]
  | .u16 => [.u16, .f32]
  | .f16 => [.f16, .f32]
  | .f32 => [.f32]

theorem Value.exists_fraction (ht : t.isInteger) (h : t.Value x) : ∃ w ≤ t.top, x = fraction w t.top := by
  obtain ⟨l, hl, rfl⟩ := h
  obtain ⟨w, hw, -, hdecode⟩ := exists_store ht hl
  exact ⟨w, hw, hdecode⟩

theorem exists_top_eq (hs : s.isInteger) (ht : t.isInteger) (h : t ∈ s.holders) :
    ∃ k, 0 < k ∧ t.top = s.top * k := by
  cases s <;> cases t <;> first
    | exact absurd h (by decide)
    | exact absurd ht (by decide)
    | exact absurd hs (by decide)
    | exact ⟨1, by decide, by decide⟩
    | exact ⟨257, by decide, by decide⟩

theorem decode_encode_f32 (x : Float32) : decode .f32 (encode .f32 x).toList = x := by
  rw [encode, Bytes.ofUInt32, Bytes.toList_ofList, decode, Bytes.word32_split]
  exact ofBits_toBits x

theorem decode_encode_f16 (hx : Value .f16 x) : decode .f16 (encode .f16 x).toList = x := by
  obtain ⟨l, hl, rfl⟩ := hx
  obtain ⟨a, b, rfl⟩ := List.length_eq_two.mp hl
  rw [encode, Bytes.ofUInt16, Bytes.toList_ofList, decode, Bytes.word16_split, decode]
  exact Half.widen_narrow_widen _

/-- **A channel survives a type that holds its own.** -/
theorem decode_encode (hst : t ∈ s.holders) (hx : s.Value x) : t.decode (t.encode x).toList = x := by
  by_cases hs : s.isInteger
  · by_cases ht : t.isInteger
    · obtain ⟨k, hk, htop⟩ := exists_top_eq hs ht hst
      obtain ⟨w, hw, rfl⟩ := hx.exists_fraction hs
      exact decode_encode_of_quantize hk htop hw ht (quantize_fraction hk htop hw)
    · obtain rfl : t = .f32 := by cases s <;> cases t <;> simp_all [holders, isInteger]
      exact decode_encode_f32 x
  · cases t with
    | f32 => exact decode_encode_f32 x
    | f16 =>
      obtain rfl : s = .f16 := by cases s <;> simp_all [holders, isInteger]
      exact decode_encode_f16 hx
    | u8 | u16 => cases s <;> simp_all [holders, isInteger]

/-- **So does brightness**, which is stored as the mean of three equal colours. -/
theorem decode_encode_mean (hst : t ∈ s.holders) (hs : s.isInteger) (ht : t.isInteger) (hx : s.Value x) :
    t.decode (t.encode (mean x)).toList = x := by
  obtain ⟨k, hk, htop⟩ := exists_top_eq hs ht hst
  obtain ⟨w, hw, rfl⟩ := hx.exists_fraction hs
  exact decode_encode_of_quantize hk htop hw ht (quantize_mean hk htop hw)

theorem decode_encode_one (t : ChannelType) : t.decode (t.encode (Single.ofNat 1)).toList = Single.ofNat 1 := by
  cases t with
  | u8 =>
    have hone : quantize .u8 (Single.ofNat 1) = 255 := by decide +kernel
    rw [encode_eq_store rfl, hone, decode_store rfl (by decide)]
    rfl
  | u16 =>
    have hone : quantize .u16 (Single.ofNat 1) = 65535 := by decide +kernel
    rw [encode_eq_store rfl, hone, decode_store rfl (by decide)]
    rfl
  | f16 =>
    rw [encode, Bytes.ofUInt16, Bytes.toList_ofList, decode, Bytes.word16_split]
    rfl
  | f32 => exact decode_encode_f32 _

theorem quantize_word (hw : w ≤ t.top) : t.quantize (fraction w t.top) = w := by
  have h : t.quantize (fraction w t.top) = w * 1 := quantize_fraction Nat.one_pos (Nat.mul_one _).symm hw
  rwa [Nat.mul_one] at h

/-- **Integer channels are stored as they were read.** -/
theorem encode_decode (ht : t.isInteger) (hl : l.length = t.size) : t.encode (t.decode l) = Bytes.ofList l := by
  obtain ⟨w, hw, hstore, hdecode⟩ := exists_store ht hl
  rw [hdecode, encode_eq_store ht, quantize_word hw, hstore]

theorem encode_mean_decode (ht : t.isInteger) (hl : l.length = t.size) :
    t.encode (mean (t.decode l)) = Bytes.ofList l := by
  obtain ⟨w, hw, hstore, hdecode⟩ := exists_store ht hl
  have hquantize : t.quantize (mean (fraction w t.top)) = w * 1 := quantize_mean Nat.one_pos (Nat.mul_one _).symm hw
  rw [hdecode, encode_eq_store ht, hquantize, Nat.mul_one, hstore]

end ChannelType

end ImageLoader
