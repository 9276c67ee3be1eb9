import ImageLoader.Proofs.Format.Footprint
import ImageLoader.Proofs.Format.Preference
import ImageLoader.Proofs.Format.RoundTrip

/-!
# Formats that lose nothing

A format represents another without loss if every pixel comes back from it.  For straight pixels of integers it has to
have their alpha and their colour, and channels through which each word comes back: bytes come back through every type,
and words of sixteen bits through words and singles, but not through halves, which have eleven digits.  Where there is
alpha, colour must not be multiplied by it, as nothing is left of the colour where alpha is zero.

The member that is chosen from a set keeps alpha, colour and the size of channels where another member does.  A half has
the size of a word; so a half may be chosen though a member without loss is there, and only then the choice loses
something.

* `ChannelType.Returns`: what becomes of a word; `Returns.eq`, `exists_not_returns`: **the types through which every
  word comes back.**
* `MemoryFormat.Visit`: a pixel in another format and back; `Visit.returns`, `Visit.alpha_back`: its words.
* `MemoryFormat.lossless_iff`: **the formats that lose nothing.**
* `FormatSet.best?_lossless`: **the member that is chosen, where one loses nothing.**
-/

namespace ImageLoader

open Single

/-! ## Words -/

namespace Single

variable {x y : Float32}

theorem Averaged.eq_zero (h : Averaged (ofNat 0) y) : y = ofNat 0 := by
  rcases h with rfl | rfl
  · rfl
  · rfl

end Single

namespace ChannelType

variable {s t : ChannelType} {x y : Float32} {w v : ℕ}

/-- A channel of type `t` is as large as one of type `s`, and no half in which a word of sixteen bits would have to
stand. -/
def Carries (t s : ChannelType) : Prop := s.size ≤ t.size ∧ ¬ (s = .u16 ∧ t = .f16)

instance (t s : ChannelType) : Decidable (t.Carries s) := inferInstanceAs (Decidable (_ ∧ _))

/-- `v` is what becomes of the word `w` in a channel of another type: the number that is stored there is read again, and
stored as a word.  Brightness is stored as the mean of three equal numbers, in both places or in one. -/
structure Returns (s t : ChannelType) (w v : ℕ) : Prop where
  way : ∃ y z, Averaged (fraction w s.top) y ∧ Averaged (t.decode (t.encode y).toList) z ∧ v = s.quantize z

theorem value_zero (t : ChannelType) : t.Value (Single.ofNat 0) :=
  ⟨List.replicate t.size 0, List.length_replicate, by cases t <;> decide +kernel⟩

theorem decode_encode_zero (t : ChannelType) : t.decode (t.encode (Single.ofNat 0)).toList = Single.ofNat 0 :=
  decode_encode (by cases t <;> decide) t.value_zero

theorem Carries.mem_holders (hs : s.isInteger) (ht : t.isInteger) (h : t.Carries s) : t ∈ s.holders := by
  revert hs ht h
  cases s <;> cases t <;> decide

/-- A number near a fraction is still near it when it has been stored, within the units that its words can bear. -/
theorem approximates_decode_encode (hs : s.isInteger) (hst : t.Carries s) (hpos : 0 < w) (hw : w ≤ s.top)
    (hy : Averaged (fraction w s.top) y) :
    ∃ j ≤ 2 ^ 20, (j + 4) * s.top < 2 ^ 22 ∧ Approximates (t.decode (t.encode y).toList) (w / s.top) j := by
  have hproper : Proper w s.top := ⟨hpos, hw, s.top_lt⟩
  have hnear : Approximates y (w / s.top) 4 :=
    hy.approximates (approximates_fraction hproper) (by decide) hproper.low hproper.le_one
  by_cases ht : t.isInteger
  · obtain ⟨k, hk, htop⟩ := exists_top_eq hs ht (hst.mem_holders hs ht)
    have hquantize : t.quantize y = w * k :=
      quantize_eq hk htop hw (by decide) (fun hzero => absurd hzero (Nat.ne_of_gt hpos)) fun _ => hnear
    rw [decode_encode_of_quantize hk htop hw ht hquantize]
    exact ⟨1, by decide, by cases s <;> decide, approximates_fraction hproper⟩
  · cases t with
    | u8 | u16 => exact absurd rfl ht
    | f32 =>
      rw [decode_encode_f32]
      exact ⟨4, by decide, by cases s <;> decide, hnear⟩
    | f16 =>
      -- a half is far from the number, but not as far as half a byte
      obtain rfl : s = .u8 := by
        cases s with
        | u8 => rfl
        | u16 => exact absurd ⟨rfl, rfl⟩ hst.2
        | f16 | f32 => cases hs
      have hlow : (1 : ℚ) / 2 ^ 13 ≤ w / top .u8 := by
        have hone : (1 : ℚ) ≤ w := by exact_mod_cast hpos
        rw [show (top .u8 : ℚ) = 255 by norm_num [top]]
        linarith
      refine ⟨4 + 2 ^ 13, by decide, by decide, ?_⟩
      rw [encode, Bytes.ofUInt16, Bytes.toList_ofList, decode, Bytes.word16_split]
      exact Half.approximates_widen_narrow hnear (by decide) hlow hproper.le_one

/-- **Every word comes back through a type that carries it.** -/
theorem Returns.eq (hs : s.isInteger) (hst : t.Carries s) (hw : w ≤ s.top) (h : Returns s t w v) : v = w := by
  obtain ⟨y, z, hy, hz, rfl⟩ := h.way
  rcases Nat.eq_zero_or_pos w with rfl | hpos
  · rw [fraction_zero s.top_pos s.top_lt] at hy
    rw [hy.eq_zero, decode_encode_zero] at hz
    rw [hz.eq_zero, quantize_zero]
  · obtain ⟨j, hj, hunits, hread⟩ := approximates_decode_encode hs hst hpos hw hy
    have hproper : Proper w s.top := ⟨hpos, hw, s.top_lt⟩
    refine quantize_of_approximates hpos hw (hz.approximates hread hj hproper.low hproper.le_one) ?_
    exact Nat.lt_of_le_of_lt (Nat.mul_le_mul_left _ hw) hunits

/-- **Some word does not come back through any other type**: of sixteen bits, the least is nothing among bytes, and the
last but one is the last among halves. -/
theorem exists_not_returns (hs : s.isInteger) (hst : ¬ t.Carries s) : ∃ w ≤ s.top, ¬ Returns s t w w := by
  have hway : ∀ {w u : ℕ} {x : Float32},
      (∀ y, Averaged (fraction w s.top) y → t.decode (t.encode y).toList = x) →
      (∀ z, Averaged x z → s.quantize z = u) → u ≠ w → ¬ Returns s t w w := by
    intro w u x hx hu hne h
    obtain ⟨y, z, hy, hz, hw⟩ := h.way
    rw [hx y hy] at hz
    exact hne ((hu z hz).symm.trans hw.symm)
  obtain ⟨rfl, rfl | rfl⟩ : s = .u16 ∧ (t = .u8 ∨ t = .f16) := by
    revert hs hst
    cases s <;> cases t <;> decide
  · refine ⟨1, by decide, hway (u := 0) (x := Single.ofNat 0) ?_ ?_ (by decide)⟩
    · rintro y (rfl | rfl) <;> decide +kernel
    · intro z hz
      rw [hz.eq_zero, quantize_zero]
  · refine ⟨65534, by decide, hway (u := 65535) (x := Single.ofNat 1) ?_ ?_ (by decide)⟩
    · rintro y (rfl | rfl) <;> decide +kernel
    · rintro z (rfl | rfl) <;> decide +kernel

theorem quantize_one (ht : t.isInteger) : t.quantize (Single.ofNat 1) = t.top := by
  cases t with
  | u8 | u16 => decide +kernel
  | f16 | f32 => cases ht

theorem quantize_averaged (hw : w ≤ s.top) (hx : Averaged (fraction w s.top) x) : s.quantize x = w := by
  rcases hx with rfl | rfl
  · exact quantize_word hw
  · have hmean : s.quantize (mean (fraction w s.top)) = w * 1 := quantize_mean Nat.one_pos (Nat.mul_one _).symm hw
    rwa [Nat.mul_one] at hmean

end ChannelType

/-! ## Pixels -/

namespace Rgba

variable {p : Rgba} {c : Component}

theorem unpremultiply_of_opaque (h : p.alpha = ofNat 1) : p.unpremultiply = p := by
  have hpos : ofNat 0 < ofNat 1 := by decide +kernel
  obtain ⟨red, green, blue, alpha⟩ := p
  obtain rfl : alpha = ofNat 1 := h
  simp only [unpremultiply, if_pos hpos, div_ofNat_one]

def gray (x alpha : Float32) : Rgba := ⟨x, x, x, alpha⟩

theorem even_gray (x alpha : Float32) : (gray x alpha).Even := ⟨rfl, rfl⟩

theorem Even.averaged (h : p.Even) (hc : c ≠ .alpha) : Averaged p.red (p.component (ofNat 1) c) := by
  by_cases hgray : c = .gray
  · subst hgray
    exact .inr h.component_gray
  · exact .inl (h.component_eq hgray hc)

theorem quantize_gray {t : ChannelType} {w : ℕ} (hw : w ≤ t.top) (alpha : Float32) (hc : c ≠ .alpha) :
    t.quantize ((gray (fraction w t.top) alpha).component (ofNat 1) c) = w :=
  ChannelType.quantize_averaged hw ((even_gray _ alpha).averaged hc)

end Rgba

namespace MemoryFormat

variable {f g : MemoryFormat} {px : Bytes} {p q : Rgba} {c d : Component} {n k m : Nat}

theorem channelAt_pixel (hn : f.layout.order[n]? = some c) :
    f.channelAt (f.pixel p) n = f.channelType.encode (p.component (f.factor p) c) := by
  have hfill : f.nBytes ≤ (Bytes.fill f.nBytes 0).size := Nat.le_of_eq (Bytes.size_fill _ _).symm
  obtain ⟨out, hout, -, hchannel⟩ := write_of_size p hfill
  obtain rfl : f.pixel p = out := congrArg Prod.fst ((f.write_fill p).symm.trans hout)
  exact hchannel n c hn

theorem wordAt_pixel (hf : f.isPremultiplied = false) (hi : f.channelType.isInteger)
    (hn : f.layout.order[n]? = some c) :
    f.wordAt (f.pixel p) n = f.channelType.quantize (p.component (Single.ofNat 1) c) := by
  rw [wordAt, channelAt_pixel hn, ChannelType.wordOf_encode hi, factor_of_straight hf]

theorem readComponent_pixel (hd : g.channelOf? d = some m) (hm : g.layout.order[m]? = some c) :
    g.readComponent (g.pixel p) d =
      .ok (g.channelType.decode (g.channelType.encode (p.component (g.factor p) c)).toList) := by
  rw [readComponent_of_some (Nat.le_of_eq (g.size_pixel p).symm) hd, channelAt_pixel hm]

/-! ### What is read from a pixel that was written -/

/-- Colour is not multiplied by alpha, or alpha is one. -/
def Plain (g : MemoryFormat) (p : Rgba) : Prop := g.isPremultiplied → p.alpha = Single.ofNat 1

theorem plain_of_straight (hg : g.isPremultiplied = false) (p : Rgba) : g.Plain p :=
  fun h => absurd h (by rw [hg]; exact Bool.false_ne_true)

theorem Plain.factor_eq (h : g.Plain p) : g.factor p = Single.ofNat 1 := by
  unfold factor
  split
  next hg => exact h hg
  next => rfl

/-- The colour `q` that is read from a pixel to which `p` was written: each component as its channel holds it, and one
for an alpha that has none. -/
structure Echo (g : MemoryFormat) (p q : Rgba) : Prop where
  stored : ∀ d m c, d ≠ .gray → g.channelOf? d = some m → g.layout.order[m]? = some c →
    q.component (Single.ofNat 1) d =
      g.channelType.decode (g.channelType.encode (p.component (Single.ofNat 1) c)).toList
  missing : ¬ g.hasAlpha → q.alpha = Single.ofNat 1

theorem Echo.alpha_eq_one (h : g.Echo p q) (hp : p.alpha = Single.ofNat 1) : q.alpha = Single.ofNat 1 := by
  by_cases halpha : g.hasAlpha
  · obtain ⟨m, hm⟩ := exists_alpha halpha
    have hstored := h.stored .alpha m .alpha (by decide) (channelOf?_eq_some_iff.mpr (.inl hm)) hm
    rwa [Rgba.component, Rgba.component, hp, ChannelType.decode_encode_one] at hstored
  · exact h.missing halpha

/-- Equal colours are equal when they are read again, and so are colours that were stored as brightness. -/
theorem Echo.even (h : g.Echo p q) (heven : p.Even ∨ g.isGrayscale) : q.Even := by
  by_cases hgray : g.isGrayscale
  · obtain ⟨m, hm⟩ := List.getElem?_of_mem (List.contains_iff_mem.mp hgray)
    exact Rgba.even_of_component fun d hd halpha => h.stored d m .gray hd (channelOf?_of_gray hm halpha) hm
  · have hp := heven.resolve_right hgray
    refine Rgba.even_of_component (x := g.channelType.decode (g.channelType.encode p.red).toList) fun d hd halpha => ?_
    obtain ⟨m, hm⟩ := exists_channelOf? g hd halpha
    rw [h.stored d m d hd hm (order_of_channelOf? hm hgray), hp.component_eq hd halpha]

theorem echo_of_read (h : g.Plain p) (hq : g.read (g.pixel p) = .ok q) : g.Echo p q := by
  rcases g.read_cases (g.pixel p) with ⟨r, hr, hread⟩ | ⟨n, hn⟩
  · have hecho : g.Echo p r := by
      refine ⟨fun d m c hd hm hc => ?_, fun halpha => ?_⟩
      · have hcomponent := (hr d hd).symm.trans (readComponent_pixel hm hc)
        rw [h.factor_eq] at hcomponent
        exact Except.ok.inj hcomponent
      · have hnone : g.channelOf? .alpha = none := (channelOf?_eq_none_iff (by decide)).mpr ⟨rfl, halpha⟩
        exact Except.ok.inj ((hr .alpha (by decide)).symm.trans (readComponent_of_none hnone))
    -- where colour is divided by alpha, it is divided by one
    have hplain : (if g.isPremultiplied then r.unpremultiply else r) = r := by
      split
      next hg => exact Rgba.unpremultiply_of_opaque (hecho.alpha_eq_one (h hg))
      next => rfl
    rw [hplain] at hread
    rwa [Except.ok.inj (hq.symm.trans hread)]
  · rw [hn] at hq
    cases hq

theorem read_pixel_transparent (hg : g.isPremultiplied) (hp : p.alpha = Single.ofNat 0)
    (hq : g.read (g.pixel p) = .ok q) : q.Even ∧ q.red = Single.ofNat 0 := by
  obtain ⟨m, hm⟩ := exists_alpha (hasAlpha_of_premultiplied hg)
  rcases g.read_cases (g.pixel p) with ⟨r, hr, hread⟩ | ⟨n, hn⟩
  · have halpha := (hr .alpha (by decide)).symm.trans
      (readComponent_pixel (channelOf?_eq_some_iff.mpr (.inl hm)) hm)
    rw [Rgba.component, Rgba.component, hp, ChannelType.decode_encode_zero] at halpha
    have hzero : ¬ Single.ofNat 0 < r.alpha := by
      rw [Except.ok.inj halpha]
      decide +kernel
    rw [if_pos hg, Rgba.unpremultiply, if_neg hzero] at hread
    obtain rfl := Except.ok.inj (hq.symm.trans hread)
    exact ⟨⟨rfl, rfl⟩, rfl⟩
  · rw [hn] at hq
    cases hq

/-! ### There and back -/

/-- The pixel comes back from `g`. -/
def Restores (f g : MemoryFormat) (px : Bytes) : Prop :=
  ∃ mid, f.convertPixel g px = .ok mid ∧ g.convertPixel f mid = .ok px

/-- Every pixel of `f` comes back from `g`. -/
def Lossless (f g : MemoryFormat) : Prop := ∀ px, px.size = f.nBytes → f.Restores g px

/-- A straight pixel of integers, the colour `p` that is read from it, and the colour `q` that is read from what was
written of it in `g`, where nothing was multiplied. -/
structure Visit (f g : MemoryFormat) (px : Bytes) (p q : Rgba) : Prop where
  straight : f.isPremultiplied = false
  integer : f.channelType.isInteger
  size : px.size = f.nBytes
  first : f.read px = .ok p
  plain : g.Plain p
  second : g.read (g.pixel p) = .ok q

theorem restores_iff (hp : f.read px = .ok p) (hq : g.read (g.pixel p) = .ok q) :
    f.Restores g px ↔ f.pixel q = px := by
  have hthere := MemoryFormat.convertPixel_eq g hp
  have hback := MemoryFormat.convertPixel_eq f hq
  constructor
  · rintro ⟨mid, hmid, hpx⟩
    obtain rfl := Except.ok.inj (hthere.symm.trans hmid)
    exact Except.ok.inj (hback.symm.trans hpx)
  · rintro rfl
    exact ⟨_, hthere, hback⟩

namespace Visit

variable (h : Visit f g px p q)
include h

theorem first_component (hd : d ≠ .gray) (hn : f.channelOf? d = some n) :
    p.component (Single.ofNat 1) d = fraction (f.wordAt px n) f.channelType.top := by
  have hsize := Nat.le_of_eq h.size.symm
  rw [component_of_some h.straight hsize h.first hd hn,
    (decode_channelAt h.integer hsize (lt_of_channelOf? hn)).2]

theorem even_first (hgray : f.isGrayscale) : p.Even := by
  obtain ⟨n, hn⟩ := List.getElem?_of_mem (List.contains_iff_mem.mp hgray)
  exact Rgba.even_of_component fun d hd halpha => h.first_component hd (channelOf?_of_gray hn halpha)

theorem returns (heven : g.isGrayscale → p.Even) (hn : f.layout.order[n]? = some c) (hc : c ≠ .alpha) :
    ChannelType.Returns f.channelType g.channelType (f.wordAt px n) (f.wordAt (f.pixel q) n) := by
  have hecho := echo_of_read h.plain h.second
  -- a colour that is read from this channel
  obtain ⟨d, hgray, hd, hsame⟩ := exists_component hn
  have halpha : d ≠ .alpha := mt hsame hc
  obtain ⟨m, hm⟩ := exists_channelOf? g hgray halpha
  obtain ⟨c₁, hc₁, -, hy⟩ := exists_averaged hm hgray halpha heven
  obtain ⟨c₂, hc₂, -, hz⟩ := exists_averaged (p := q) hd hgray halpha fun hf => hecho.even (.inl (h.even_first hf))
  obtain rfl : c₂ = c := Option.some.inj (hc₂.symm.trans hn)
  rw [h.first_component hgray hd] at hy
  rw [hecho.stored d m c₁ hgray hm hc₁] at hz
  exact ⟨_, _, hy, hz, wordAt_pixel h.straight h.integer hn⟩

theorem alpha_back (hg : g.hasAlpha) (hk : f.layout.order[k]? = some .alpha) :
    ChannelType.Returns f.channelType g.channelType (f.wordAt px k) (f.wordAt (f.pixel q) k) := by
  have hecho := echo_of_read h.plain h.second
  obtain ⟨m, hm⟩ := exists_alpha hg
  have hfirst : p.alpha = _ := h.first_component (d := .alpha) (by decide) (channelOf?_eq_some_iff.mpr (.inl hk))
  have hsecond := hecho.stored .alpha m .alpha (by decide) (channelOf?_eq_some_iff.mpr (.inl hm)) hm
  refine ⟨_, _, .inl hfirst, .inl hsecond, wordAt_pixel h.straight h.integer hk⟩

/-- **A pixel comes back from a format that keeps alpha and colour and carries its words.** -/
theorem restores (halpha : f.KeepsAlpha g) (hcolor : f.KeepsColor g)
    (hcarries : g.channelType.Carries f.channelType) : f.Restores g px := by
  refine (restores_iff h.first h.second).mpr (eq_of_wordAt h.integer h.size (f.size_pixel q) fun n hn => ?_)
  obtain ⟨hword, -⟩ := decode_channelAt h.integer (Nat.le_of_eq h.size.symm) hn
  obtain ⟨c, hc⟩ : ∃ c, f.layout.order[n]? = some c := ⟨_, List.getElem?_eq_getElem hn⟩
  by_cases hown : c = .alpha
  · subst hown
    have hf : f.hasAlpha := List.contains_iff_mem.mpr (List.mem_of_getElem? hc)
    exact (h.alpha_back (halpha hf) hc).eq h.integer hcarries hword
  · exact (h.returns (fun hg => h.even_first (hcolor hg)) hc hown).eq h.integer hcarries hword

end Visit

/-! ### What is lost -/

/-- What comes back of a pixel to which a colour was written, if nothing is lost. -/
structure Probe (f g : MemoryFormat) (p₀ p q : Rgba) : Prop where
  first : f.read (f.pixel p₀) = .ok p
  echo : f.Echo p₀ p
  second : g.read (g.pixel p) = .ok q
  same : f.pixel q = f.pixel p₀

theorem Lossless.exists_probe (h : f.Lossless g) (hf : f.isPremultiplied = false) (p₀ : Rgba) :
    ∃ p q, Probe f g p₀ p q := by
  obtain ⟨p, hp⟩ := read_of_size (Nat.le_of_eq (f.size_pixel p₀).symm)
  obtain ⟨q, hq⟩ := read_of_size (Nat.le_of_eq (g.size_pixel p).symm)
  exact ⟨p, q, hp, echo_of_read (plain_of_straight hf p₀) hp, hq,
    (restores_iff hp hq).mp (h _ (f.size_pixel p₀))⟩

variable (hf : f.isPremultiplied = false) (hi : f.channelType.isInteger)
include hf hi

theorem Probe.word_eq {p₀ : Rgba} (h : Probe f g p₀ p q) (hn : f.layout.order[n]? = some c) :
    f.channelType.quantize (q.component (Single.ofNat 1) c) =
      f.channelType.quantize (p₀.component (Single.ofNat 1) c) := by
  rw [← wordAt_pixel hf hi hn, ← wordAt_pixel hf hi hn, h.same]

omit hf hi in
theorem exists_colour (f : MemoryFormat) : ∃ (n : Nat) (c : Component), f.layout.order[n]? = some c ∧ c ≠ .alpha := by
  obtain ⟨n, hn⟩ := exists_channelOf? f (d := .red) (by decide) (by decide)
  rcases channelOf?_eq_some_iff.mp hn with hown | ⟨-, -, hgray⟩
  · exact ⟨n, .red, hown, by decide⟩
  · exact ⟨n, .gray, hgray, by decide⟩

/-- Without alpha, a transparent pixel comes back opaque. -/
theorem Lossless.keepsAlpha (h : f.Lossless g) : f.KeepsAlpha g := by
  intro hfa
  by_contra hga
  have hg : g.isPremultiplied = false := Bool.eq_false_iff.mpr fun hg => hga (hasAlpha_of_premultiplied hg)
  obtain ⟨k, hk⟩ := exists_alpha hfa
  obtain ⟨p, q, hprobe⟩ := h.exists_probe hf (.gray (Single.ofNat 0) (Single.ofNat 0))
  have halpha := (echo_of_read (plain_of_straight hg p) hprobe.second).missing hga
  have hword := hprobe.word_eq hf hi hk
  rw [Rgba.component, Rgba.component, halpha, ChannelType.quantize_one hi, Rgba.gray,
    ChannelType.quantize_zero] at hword
  exact absurd hword (Nat.ne_of_gt f.channelType.top_pos)

/-- Without colour, red comes back gray. -/
theorem Lossless.keepsColor (h : f.Lossless g) : f.KeepsColor g := by
  intro hg
  by_contra hfg
  obtain ⟨p, q, hprobe⟩ := h.exists_probe hf ⟨Single.ofNat 1, Single.ofNat 0, Single.ofNat 0, Single.ofNat 1⟩
  have hplain : g.Plain p := fun _ => hprobe.echo.alpha_eq_one rfl
  have heven := (echo_of_read hplain hprobe.second).even (.inr hg)
  obtain ⟨n, hn⟩ := exists_channelOf? f (d := .red) (by decide) (by decide)
  obtain ⟨m, hm⟩ := exists_channelOf? f (d := .green) (by decide) (by decide)
  have hred := hprobe.word_eq hf hi (order_of_channelOf? hn hfg)
  have hgreen := hprobe.word_eq hf hi (order_of_channelOf? hm hfg)
  simp only [Rgba.component, mul_ofNat_one, ChannelType.quantize_one hi, ChannelType.quantize_zero] at hred hgreen
  rw [heven.1, hgreen] at hred
  exact absurd hred.symm (Nat.ne_of_gt f.channelType.top_pos)

/-- Where words are not carried, a gray pixel of the word that does not come back comes back as another. -/
theorem Lossless.carries (h : f.Lossless g) : g.channelType.Carries f.channelType := by
  by_contra hcarries
  obtain ⟨w, hw, hlost⟩ := ChannelType.exists_not_returns hi hcarries
  obtain ⟨p, q, hprobe⟩ := h.exists_probe hf (.gray (fraction w f.channelType.top) (Single.ofNat 1))
  obtain ⟨n, c, hn, hc⟩ := f.exists_colour
  have hvisit : Visit f g (f.pixel _) p q :=
    ⟨hf, hi, f.size_pixel _, hprobe.first, fun _ => hprobe.echo.alpha_eq_one rfl, hprobe.second⟩
  have hreturns := hvisit.returns (fun _ => hprobe.echo.even (.inl (Rgba.even_gray _ _))) hn hc
  rw [hprobe.same, wordAt_pixel hf hi hn, Rgba.quantize_gray hw _ hc] at hreturns
  exact hlost hreturns

/-- Where colour is multiplied by alpha, a transparent pixel comes back black. -/
theorem Lossless.straight (h : f.Lossless g) (hfa : f.hasAlpha) : g.isPremultiplied = false := by
  refine Bool.eq_false_iff.mpr fun hg => ?_
  obtain ⟨p, q, hprobe⟩ := h.exists_probe hf
    (.gray (fraction f.channelType.top f.channelType.top) (Single.ofNat 0))
  obtain ⟨k, hk⟩ := exists_alpha hfa
  obtain ⟨n, c, hn, hc⟩ := f.exists_colour
  have hclear := hprobe.echo.stored .alpha k .alpha (by decide) (channelOf?_eq_some_iff.mpr (.inl hk)) hk
  rw [Rgba.component, Rgba.component, Rgba.gray, ChannelType.decode_encode_zero] at hclear
  obtain ⟨heven, hred⟩ := read_pixel_transparent hg hclear hprobe.second
  have hblack := heven.averaged hc
  rw [hred] at hblack
  have hword := hprobe.word_eq hf hi hn
  rw [hblack.eq_zero, ChannelType.quantize_zero, Rgba.quantize_gray le_rfl _ hc] at hword
  exact absurd hword.symm (Nat.ne_of_gt f.channelType.top_pos)

/-- **The formats that lose nothing** of straight pixels of integers. -/
theorem lossless_iff : f.Lossless g ↔ f.KeepsAlpha g ∧ f.KeepsColor g ∧
    g.channelType.Carries f.channelType ∧ (f.hasAlpha → g.isPremultiplied = false) := by
  constructor
  · intro h
    exact ⟨h.keepsAlpha hf hi, h.keepsColor hf hi, h.carries hf hi, h.straight hf hi⟩
  · rintro ⟨halpha, hcolor, hcarries, hstraight⟩ px hsize
    obtain ⟨p, hp⟩ := read_of_size (Nat.le_of_eq hsize.symm)
    obtain ⟨q, hq⟩ := read_of_size (Nat.le_of_eq (g.size_pixel p).symm)
    have hplain : g.Plain p := by
      intro hg
      -- only an opaque format may be multiplied
      have hopaque : ¬ f.hasAlpha := fun hfa => Bool.false_ne_true ((hstraight hfa).symm.trans hg)
      exact component_of_none (c := .alpha) hf hp (by decide) ((channelOf?_eq_none_iff (by decide)).mpr ⟨rfl, hopaque⟩)
    have hvisit : Visit f g px p q := ⟨hf, hi, hsize, hp, hplain, hq⟩
    exact hvisit.restores halpha hcolor hcarries

end MemoryFormat

/-! ## The choice -/

namespace FormatSet

open MemoryFormat

variable {s : FormatSet} {source m : MemoryFormat}

/-- **Where a member loses nothing, the member that is chosen loses nothing**, unless halves are chosen for words of
sixteen bits. -/
theorem best?_lossless (hsource : source.isPremultiplied = false) (hi : source.channelType.isInteger)
    (hm : s.contains m = true) (h : source.Lossless m) : ∃ n, s.best? source = some n ∧
      (source.Lossless n ↔ ¬ (source.channelType = .u16 ∧ n.channelType = .f16)) := by
  obtain ⟨n, hn⟩ := exists_best? hm source
  obtain ⟨halpha, hcolor, hcarries, hstraight⟩ := (lossless_iff hsource hi).mp h
  obtain ⟨hna, hnc, hns, hnp⟩ := best?_keeps hn hm halpha hcolor hcarries.1
  refine ⟨n, hn, ⟨fun hlossless => (hlossless.carries hsource hi).2, fun hhalf => ?_⟩⟩
  refine (lossless_iff hsource hi).mpr ⟨hna, hnc, ⟨hns, hhalf⟩, fun hsa => ?_⟩
  -- the product with alpha is asked for last, and the member that loses nothing keeps it
  have hproduct : source.KeepsProduct n := hnp (hsource.trans (hstraight hsa).symm)
  exact hproduct.symm.trans hsource

/-- Of halves and singles, halves are chosen for words, and lose some of them though singles do not. -/
theorem best?_lossless_halves :
    let s := ofList [.r16g16b16Float, .r32g32b32Float]
    s.contains .r32g32b32Float = true ∧ Lossless .r16g16b16 .r32g32b32Float ∧
      s.best? .r16g16b16 = some .r16g16b16Float ∧ ¬ Lossless .r16g16b16 .r16g16b16Float := by
  intro s
  have hsingle : Lossless .r16g16b16 .r32g32b32Float :=
    (lossless_iff rfl rfl).mpr ⟨by decide, by decide, by decide, by decide⟩
  obtain ⟨n, hn, hlossless⟩ := best?_lossless (s := s) rfl rfl (by decide) hsingle
  have hhalf : s.best? .r16g16b16 = some .r16g16b16Float := by decide
  obtain rfl := Option.some.inj (hn.symm.trans hhalf)
  exact ⟨by decide, hsingle, hhalf, mt hlossless.mp (not_not_intro ⟨rfl, rfl⟩)⟩

end FormatSet

end ImageLoader
