import ImageLoader.Proofs.Float.Order
import ImageLoader.Proofs.Format.Detour

/-!
# Colour that is multiplied by alpha

A pixel of a premultiplied format holds colour that was multiplied by alpha, so no channel should be above alpha.  What
is written there is clamped channel by channel, after the product: a colour that is not above one stays below alpha
through every rounding, and a brighter one need not.

* `ChannelType.quantize_mul_le`: a number that is not above one, times alpha, is stored as no more than alpha.
* `MemoryFormat.Associated`: no channel is above alpha.
* `MemoryFormat.transform_associated`: **a straight pixel is written with no channel above alpha**, as far as its
  colours are not above one, and with nothing but zeros where alpha is zero.
-/

namespace ImageLoader

open Single

/-! ## Words -/

namespace Single

variable {w M : ℕ}

theorem inUnit_fraction (hM : 0 < M) (hle : w ≤ M) (hlt : M < 2 ^ 24) : InUnit (fraction w M) := by
  rcases Nat.eq_zero_or_pos w with rfl | hw
  · rw [fraction_zero hM hlt]
    exact inUnit_zero
  · have hproper : Proper w M := ⟨hw, hle, hlt⟩
    obtain ⟨hnum, hden⟩ := hproper.holds
    obtain ⟨q, hq, -⟩ := (approximates_fraction hproper).near
    have hone : (M : ℚ) / M = 1 := div_self (by exact_mod_cast Nat.ne_of_gt hM)
    have hbound : AtMost (fraction w M) (M / M) :=
      (hnum.atMost (by exact_mod_cast hle)).div hden (by rw [hone]; exact holds_one.exact)
    rw [hone] at hbound
    exact .inr ⟨q, hq, hq.le_of_atMost hbound⟩

end Single

namespace ChannelType

variable {t : ChannelType} {w : ℕ} {x a : Float32}

def wordOf : ChannelType → List UInt8 → ℕ
  | .u8, [v] => v.toNat
  | .u16, [a, b] => (Bytes.word16 a b).toNat
  | _, _ => 0

theorem wordOf_store (ht : t.isInteger) (hw : w ≤ t.top) : t.wordOf (t.store w).toList = w := by
  cases t with
  | u8 =>
    rw [store, Bytes.toList_ofList]
    exact UInt8.toNat_ofNat_of_lt (Nat.lt_succ_of_le hw)
  | u16 =>
    show wordOf .u16 (Bytes.ofUInt16 (UInt16.ofNat w)).toList = w
    rw [Bytes.ofUInt16, Bytes.toList_ofList, wordOf, Bytes.word16_split]
    exact UInt16.toNat_ofNat_of_lt (Nat.lt_succ_of_le hw)
  | f16 | f32 => cases ht

theorem store_wordOf {l : List UInt8} (ht : t.isInteger) (hl : l.length = t.size) :
    t.store (t.wordOf l) = Bytes.ofList l := by
  obtain ⟨w, hw, hstore⟩ := store_surjective ht hl
  have hword := wordOf_store ht hw
  rw [hstore, Bytes.toList_ofList] at hword
  rw [hword, hstore]

theorem decode_eq_fraction {l : List UInt8} (ht : t.isInteger) (hl : l.length = t.size) :
    t.wordOf l ≤ t.top ∧ t.decode l = fraction (t.wordOf l) t.top := by
  obtain ⟨w, hw, hstore, hdecode⟩ := exists_store ht hl
  have hword := wordOf_store ht hw
  rw [hstore, Bytes.toList_ofList] at hword
  rw [hword]
  exact ⟨hw, hdecode⟩

theorem quantize_le_top (t : ChannelType) (x : Float32) : t.quantize x ≤ t.top := by
  have hmax := holds_maxWord t
  have hprod := (atMost_clamp x).mul hmax (by rw [one_mul]; exact hmax.exact)
  rw [one_mul] at hprod
  exact hprod.nearest_le

theorem wordOf_encode (ht : t.isInteger) (x : Float32) : t.wordOf (t.encode x).toList = t.quantize x := by
  rw [encode_eq_store ht, wordOf_store ht (quantize_le_top t x)]

theorem quantize_eq_zero (t : ChannelType) (h : AtMost x 0) : t.quantize x = 0 := by
  have hprod := (h.clamp zero_le_one).mul (holds_maxWord t) (by rw [zero_mul]; exact exact_zero)
  rw [zero_mul] at hprod
  exact hprod.nearest_eq_zero

/-- **A product of a number that is not above one is stored as no greater a word than the other factor.** -/
theorem quantize_mul_le (t : ChannelType) (hx : AtMost x 1) (ha : InUnit a) : t.quantize (x * a) ≤ t.quantize a := by
  rcases ha with ⟨s, hs⟩ | ⟨q, hq, hle⟩
  · rw [t.quantize_eq_zero (atMost_mul_zero x hs)]
    exact Nat.zero_le _
  · have hprod := hx.mul hq (by rw [one_mul]; exact hq.exact)
    rw [one_mul] at hprod
    unfold quantize
    rw [hq.clamp_eq hle]
    exact (hprod.clamp hle).nearest_mul_le hq hle (holds_maxWord t)

end ChannelType

/-! ## Pixels -/

namespace Rgba

variable {p : Rgba} {c : Component}

/-- The number of a component, before colour is multiplied, is not above one. -/
def Bounded (p : Rgba) (c : Component) : Prop := ¬ ofNat 1 < p.component (ofNat 1) c

theorem Bounded.atMost (h : p.Bounded c) : AtMost (p.component (ofNat 1) c) 1 := (atMost_iff holds_one).mpr h

theorem bounded_of_colours (h : ∀ d ≠ .gray, p.Bounded d) (c : Component) : p.Bounded c := by
  by_cases hc : c = .gray
  · subst hc
    have hred := (h .red (by decide)).atMost
    have hgreen := (h .green (by decide)).atMost
    have hblue := (h .blue (by decide)).atMost
    simp only [component, mul_ofNat_one] at hred hgreen hblue
    rw [← Nat.cast_one] at hred hgreen hblue
    have hmean := AtMost.mean (by decide) hred hgreen hblue
    rw [Nat.cast_one] at hmean
    refine (atMost_iff holds_one).mp ?_
    rwa [component, mul_ofNat_one]
  · exact h c hc

/-- Colour is multiplied, and alpha is not. -/
theorem component_eq_mul (hc : c ≠ .alpha) (factor : Float32) :
    p.component factor c = p.component (ofNat 1) c * factor := by
  cases c with
  | alpha => exact absurd rfl hc
  | red | green | blue | gray => simp only [component, mul_ofNat_one]

end Rgba

namespace MemoryFormat

variable {f g : MemoryFormat} {px out target : Bytes} {p : Rgba} {c : Component} {n k : Nat}

def wordAt (f : MemoryFormat) (px : Bytes) (n : Nat) : Nat := f.channelType.wordOf (f.channelAt px n).toList

/-- No channel is above alpha. -/
def Associated (f : MemoryFormat) (px : Bytes) : Prop :=
  ∀ n < f.nChannels, ∀ k < f.nChannels, f.layout.order[k]? = some .alpha → f.wordAt px n ≤ f.wordAt px k

instance (f : MemoryFormat) (px : Bytes) : Decidable (f.Associated px) :=
  inferInstanceAs (Decidable (∀ n < f.nChannels, ∀ k < f.nChannels, f.layout.order[k]? = some .alpha →
    f.wordAt px n ≤ f.wordAt px k))

/-- What is read from a channel of integers, or stands for one that is missing, is in the unit interval. -/
theorem component_inUnit (hf : f.isPremultiplied = false) (hi : f.channelType.isInteger) (hsize : f.nBytes ≤ px.size)
    (hp : f.read px = .ok p) (hc : c ≠ .gray) : InUnit (p.component (Single.ofNat 1) c) := by
  cases hn : f.channelOf? c with
  | none =>
    rw [component_of_none hf hp hc hn]
    exact inUnit_one
  | some n =>
    rw [component_of_some hf hsize hp hc hn]
    obtain ⟨w, hw, hx⟩ := (value_decode hsize (lt_of_channelOf? hn)).exists_fraction hi
    rw [hx]
    exact inUnit_fraction f.channelType.top_pos hw f.channelType.top_lt

theorem bounded_of_isInteger (hf : f.isPremultiplied = false) (hi : f.channelType.isInteger)
    (hsize : f.nBytes ≤ px.size) (hp : f.read px = .ok p) (hc : c ≠ .gray) : p.Bounded c :=
  (atMost_iff holds_one).mp (component_inUnit hf hi hsize hp hc).atMost

/-! ## Writing to a premultiplied format -/

theorem wordAt_write (hi : f.channelType.isInteger) (htarget : f.nBytes ≤ target.size)
    (hout : f.write p target = (out, .ok ())) (hn : f.layout.order[n]? = some c) :
    f.wordAt out n = f.channelType.quantize (p.component (f.factor p) c) := by
  obtain ⟨out', hout', -, hchannel⟩ := write_of_size p htarget
  obtain rfl : out' = out := congrArg Prod.fst (hout'.symm.trans hout)
  rw [wordAt, channelAt, hchannel n c hn, ChannelType.wordOf_encode hi]

/-- What a pixel of a premultiplied format has of a colour that was written to it: no channel above alpha, as far as
colour is not above one, and nothing at all where alpha is zero. -/
structure Premultiplies (g : MemoryFormat) (p : Rgba) (out : Bytes) : Prop where
  bounded : ∀ n k c, g.layout.order[n]? = some c → g.layout.order[k]? = some .alpha → p.Bounded c →
    g.wordAt out n ≤ g.wordAt out k
  associated : (∀ d ≠ .gray, p.Bounded d) → g.Associated out
  transparent : p.alpha ≤ Single.ofNat 0 → ∀ n < g.nChannels, g.wordAt out n = 0

theorem write_premultiplies (hg : g.isPremultiplied) (hi : g.channelType.isInteger) (ha : InUnit p.alpha)
    (htarget : g.nBytes ≤ target.size) : ∃ out, g.write p target = (out, .ok ()) ∧ g.Premultiplies p out := by
  obtain ⟨out, hout, -⟩ := write_of_size p htarget
  have hword : ∀ n c, g.layout.order[n]? = some c →
      g.wordAt out n = g.channelType.quantize (p.component p.alpha c) := by
    intro n c hn
    rw [wordAt_write hi htarget hout hn, factor, if_pos hg]
  have hbounded : ∀ n k c, g.layout.order[n]? = some c → g.layout.order[k]? = some .alpha → p.Bounded c →
      g.wordAt out n ≤ g.wordAt out k := by
    intro n k c hn hk hc
    rw [hword n c hn, hword k .alpha hk]
    by_cases halpha : c = .alpha
    · subst halpha
      exact le_rfl
    · rw [Rgba.component_eq_mul halpha]
      exact g.channelType.quantize_mul_le hc.atMost ha
  refine ⟨out, hout, hbounded, fun hc n hn k _ hk => ?_, fun hzero n hn => ?_⟩
  · exact hbounded n k _ (List.getElem?_eq_getElem hn) hk (Rgba.bounded_of_colours hc _)
  · -- of the numbers in the unit interval, only the zeros are not positive
    obtain ⟨s, hs⟩ : ∃ s, p.alpha.toModel.unpack = .zero s := by
      rcases ha with hunpack | ⟨q, hq, -⟩
      · exact hunpack
      · exact absurd hzero hq.not_le_zero
    have halpha : AtMost p.alpha 0 := by
      rw [AtMost, hs]
      trivial
    rw [hword n _ (List.getElem?_eq_getElem hn)]
    generalize g.layout.order[n] = c
    refine g.channelType.quantize_eq_zero ?_
    by_cases hc : c = .alpha
    · subst hc
      exact halpha
    · rw [Rgba.component_eq_mul hc]
      exact atMost_mul_zero _ hs

/-- **A straight pixel is written to a premultiplied format of integers with no channel above alpha**, as far as its
colours are not above one, and with nothing but zeros where alpha is zero.  The colours of integer formats are never
above one; alpha has to be in the unit interval where it is stored as a number. -/
theorem transform_associated (hf : f.isPremultiplied = false) (hg : g.isPremultiplied) (hi : g.channelType.isInteger)
    (hsize : f.nBytes ≤ px.size) (htarget : g.nBytes ≤ target.size) (hp : f.read px = .ok p)
    (hrange : ¬ f.channelType.isInteger → Single.ofNat 0 ≤ p.alpha ∧ p.alpha ≤ Single.ofNat 1) :
    ∃ out, f.transform px g target = (out, .ok ()) ∧ g.Premultiplies p out ∧
      (f.channelType.isInteger → g.Associated out) := by
  have ha : InUnit p.alpha := by
    by_cases hinteger : f.channelType.isInteger
    · exact component_inUnit (c := .alpha) hf hinteger hsize hp (by decide)
    · obtain ⟨hlow, hhigh⟩ := hrange hinteger
      exact inUnit_of_le hlow hhigh
  obtain ⟨out, hout, hpixel⟩ := write_premultiplies hg hi ha htarget
  refine ⟨out, by rw [transform_eq hp, hout], hpixel, fun hinteger => ?_⟩
  exact hpixel.associated fun d hd => bounded_of_isInteger hf hinteger hsize hp hd

/-- A half transparent pixel of floats whose red is above one.  Its green stays below alpha. -/
theorem transform_associated_bright :
    let px := Bytes.ofList [0, 0, 0, 0x40, 0, 0, 0x80, 0x3e, 0, 0, 0, 0, 0, 0, 0, 0x3f]
    ∃ p, read .r32g32b32a32Float px = .ok p ∧ Single.ofNat 0 ≤ p.alpha ∧ p.alpha ≤ Single.ofNat 1 ∧
      p.Bounded .green ∧ ∃ out,
        transform .r32g32b32a32Float px .r8g8b8a8Premultiplied (Bytes.fill 4 0) = (out, .ok ()) ∧
        wordAt .r8g8b8a8Premultiplied out 1 ≤ wordAt .r8g8b8a8Premultiplied out 3 := by
  intro px
  obtain ⟨p, hp, hlow, hhigh, hgreen⟩ : ∃ p, read .r32g32b32a32Float px = .ok p ∧ Single.ofNat 0 ≤ p.alpha ∧
      p.alpha ≤ Single.ofNat 1 ∧ ¬ Single.ofNat 1 < p.green * Single.ofNat 1 :=
    ⟨_, rfl, by decide +kernel, by decide +kernel, by decide +kernel⟩
  have htarget : nBytes .r8g8b8a8Premultiplied ≤ (Bytes.fill 4 0).size := by decide
  obtain ⟨out, hout, hpixel, -⟩ := transform_associated rfl rfl rfl (by decide) htarget hp fun _ => ⟨hlow, hhigh⟩
  exact ⟨p, hp, hlow, hhigh, hgreen, out, hout, hpixel.bounded 1 3 .green rfl rfl hgreen⟩

/-- **The colours have to be bounded**: of the pixels whose channels are finite, and alpha in the unit interval, some
are written with a channel above alpha. -/
theorem exists_above_alpha :
    ¬ ∀ (f g : MemoryFormat) (px target : Bytes) (p : Rgba), f.isPremultiplied = false → g.isPremultiplied →
      g.channelType.isInteger → f.nBytes ≤ px.size → g.nBytes ≤ target.size → f.read px = .ok p →
      p.red.isFinite ∧ p.green.isFinite ∧ p.blue.isFinite → Single.ofNat 0 ≤ p.alpha → p.alpha ≤ Single.ofNat 1 →
      ∃ out, f.transform px g target = (out, .ok ()) ∧ g.Associated out := by
  intro h
  -- red is two, and alpha a half
  obtain ⟨out, hout, hassociated⟩ := h .r32g32b32a32Float .r8g8b8a8Premultiplied
    (Bytes.ofList [0, 0, 0, 0x40, 0, 0, 0, 0, 0, 0, 0, 0, 0, 0, 0, 0x3f]) (Bytes.fill 4 0) _ rfl rfl rfl
    (by decide) (by decide) rfl (by decide +kernel) (by decide +kernel) (by decide +kernel)
  obtain rfl : _ = out := congrArg Prod.fst hout
  have hred := hassociated 0 (by decide) 3 (by decide) rfl
  revert hred
  decide +kernel

end MemoryFormat

end ImageLoader
