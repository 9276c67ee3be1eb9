import ImageLoader.Proofs.Format.Recovery

/-!
# Multiplied colour by way of straight alpha

An image of a premultiplied format is converted to straight alpha and back.  Pixel by pixel, the colour that is read the
second time is the one that was stored, and alpha is what it was; so what comes back is what comes back of each word.

* `MemoryFormat.StraightOf`: the straight formats that hold the pixels of a premultiplied one.
* `MemoryFormat.Passage`: a pixel there and back; `Passage.cameBack`: what it is then.
* `convertBuffer_back`: **an image comes back within one word**, with its alpha, and unchanged where that is safe.
-/

namespace ImageLoader

open Single

/-! ## Pixels -/

namespace Rgba

variable {p : Rgba} {d : Component} {x : Float32}

/-- The three colours are one. -/
def Even (p : Rgba) : Prop := p.red = p.green ∧ p.green = p.blue

theorem even_of_component (h : ∀ d, d ≠ .gray → d ≠ .alpha → p.component (ofNat 1) d = x) : p.Even := by
  have hred := h .red (by decide) (by decide)
  have hgreen := h .green (by decide) (by decide)
  have hblue := h .blue (by decide) (by decide)
  simp only [component, mul_ofNat_one] at hred hgreen hblue
  exact ⟨hred.trans hgreen.symm, hgreen.trans hblue.symm⟩

theorem Even.component_eq (h : p.Even) (hgray : d ≠ .gray) (halpha : d ≠ .alpha) :
    p.component (ofNat 1) d = p.red := by
  cases d with
  | gray => exact absurd rfl hgray
  | alpha => exact absurd rfl halpha
  | red | green | blue => simp only [component, mul_ofNat_one, h.1, h.2]

theorem Even.component_gray (h : p.Even) : p.component (ofNat 1) .gray = mean p.red := by
  obtain ⟨hred, hgreen⟩ := h
  rw [component, mul_ofNat_one, ← hgreen, ← hred, mean]

end Rgba

namespace MemoryFormat

variable {f g : MemoryFormat} {px mid back : Bytes} {p s : Rgba} {c d : Component} {n k : Nat}

/-- `g` has the straight pixels of `f`, which is premultiplied: words of the same type, alpha, and colour where `f` has
colour. -/
structure StraightOf (g f : MemoryFormat) : Prop where
  source : f.isPremultiplied
  straight : g.isPremultiplied = false
  integer : f.channelType.isInteger
  type : g.channelType = f.channelType
  alpha : g.hasAlpha
  color : g.isGrayscale → f.isGrayscale

theorem eq_of_wordAt (hi : f.channelType.isInteger) (hpx : px.size = f.nBytes) (hback : back.size = f.nBytes)
    (h : ∀ n < f.nChannels, f.wordAt back n = f.wordAt px n) : back = px := by
  refine Bytes.eq_of_pieces hback hpx fun n hn => ?_
  have hbytes := congrArg f.channelType.store (h n hn)
  rwa [wordAt, wordAt, ChannelType.store_wordOf hi (length_channelAt (Nat.le_of_eq hback.symm) hn),
    ChannelType.store_wordOf hi (length_channelAt (Nat.le_of_eq hpx.symm) hn), Bytes.ofList_toList,
    Bytes.ofList_toList] at hbytes

theorem lt_of_order (hn : f.layout.order[n]? = some c) : n < f.nChannels := (List.getElem?_eq_some_iff.mp hn).1

theorem decode_channelAt (hi : f.channelType.isInteger) (h : f.nBytes ≤ px.size) (hn : n < f.nChannels) :
    f.wordAt px n ≤ f.channelType.top ∧
      f.channelType.decode (f.channelAt px n).toList = fraction (f.wordAt px n) f.channelType.top :=
  ChannelType.decode_eq_fraction hi (length_channelAt h hn)

theorem exists_channelOf? (f : MemoryFormat) (hgray : d ≠ .gray) (halpha : d ≠ .alpha) : ∃ n, f.channelOf? d = some n :=
  Option.ne_none_iff_exists'.mp fun hnone => halpha ((channelOf?_eq_none_iff hgray).mp hnone).1

theorem read_premultiplied (hf : f.isPremultiplied) (hi : f.channelType.isInteger) (hsize : f.nBytes ≤ px.size)
    (hp : f.read px = .ok p) (hk : f.layout.order[k]? = some .alpha) :
    p.alpha = fraction (f.wordAt px k) f.channelType.top ∧
      ∀ d n, d ≠ .gray → d ≠ .alpha → f.channelOf? d = some n →
        p.component (Single.ofNat 1) d = straight (f.wordAt px n) (f.wordAt px k) f.channelType.top := by
  have hread : ∀ {c n}, f.channelOf? c = some n →
      f.readComponent px c = .ok (fraction (f.wordAt px n) f.channelType.top) := by
    intro c n hn
    rw [readComponent_of_some hsize hn, (decode_channelAt hi hsize (lt_of_channelOf? hn)).2]
  have halpha : f.channelOf? .alpha = some k := channelOf?_eq_some_iff.mpr (.inl hk)
  obtain ⟨r, hr⟩ := exists_channelOf? f (d := .red) (by decide) (by decide)
  obtain ⟨g, hg⟩ := exists_channelOf? f (d := .green) (by decide) (by decide)
  obtain ⟨b, hb⟩ := exists_channelOf? f (d := .blue) (by decide) (by decide)
  unfold read at hp
  rw [hread hr, hread hg, hread hb, hread halpha, hf] at hp
  obtain rfl := Except.ok.inj hp
  rw [if_pos rfl, Rgba.unpremultiply]
  obtain ⟨hle, -⟩ := decode_channelAt hi hsize (lt_of_order hk)
  refine ⟨?_, fun d n hgray hcolor hn => ?_⟩
  · split
    next => rfl
    next hzero => rw [fraction_eq_zero f.channelType.top_pos hle f.channelType.top_lt hzero]
  · have hsame : ∀ {m}, f.channelOf? d = some m → m = n := fun hm => Option.some.inj (hm.symm.trans hn)
    cases d with
    | gray => exact absurd rfl hgray
    | alpha => exact absurd rfl hcolor
    | red =>
      rw [← hsame hr, Rgba.component, mul_ofNat_one, straight]
      split <;> rfl
    | green =>
      rw [← hsame hg, Rgba.component, mul_ofNat_one, straight]
      split <;> rfl
    | blue =>
      rw [← hsame hb, Rgba.component, mul_ofNat_one, straight]
      split <;> rfl

theorem exists_averaged (hn : f.channelOf? d = some n) (hgray : d ≠ .gray) (halpha : d ≠ .alpha)
    (heven : f.isGrayscale → p.Even) : ∃ c, f.layout.order[n]? = some c ∧ c ≠ .alpha ∧
      Averaged (p.component (Single.ofNat 1) d) (p.component (Single.ofNat 1) c) := by
  rcases channelOf?_eq_some_iff.mp hn with hown | ⟨-, -, hbright⟩
  · exact ⟨d, hown, halpha, .inl rfl⟩
  · refine ⟨.gray, hbright, by decide, .inr ?_⟩
    have hp := heven (List.contains_iff_mem.mpr (List.mem_of_getElem? hbright))
    rw [hp.component_eq hgray halpha, hp.component_gray]

/-! ## There and back -/

/-- A pixel, the colour that is read from it, the straight pixel that is written, the colour that is read from that, and
the pixel that is written again. -/
structure Passage (f g : MemoryFormat) (px : Bytes) (p : Rgba) (mid : Bytes) (s : Rgba) (back : Bytes) : Prop where
  formats : g.StraightOf f
  size : f.nBytes ≤ px.size
  midSize : g.nBytes ≤ mid.size
  first : f.read px = .ok p
  stored : ∀ n c, g.layout.order[n]? = some c →
    g.wordAt mid n = f.channelType.quantize (p.component (Single.ofNat 1) c)
  second : g.read mid = .ok s
  result : ∀ n c, f.layout.order[n]? = some c → f.wordAt back n = f.channelType.quantize (s.component s.alpha c)

theorem exists_passage (h : g.StraightOf f) (hsize : f.nBytes ≤ px.size) (hmid : f.convertPixel g px = .ok mid)
    (hback : g.convertPixel f mid = .ok back) : ∃ p s, Passage f g px p mid s back := by
  obtain ⟨p, hp⟩ := read_of_size hsize
  obtain ⟨mid', hmid', hmidsize⟩ := convertPixel_of_size g hsize
  obtain rfl : mid = mid' := Except.ok.inj (hmid.symm.trans hmid')
  have hlarge := Nat.le_of_eq hmidsize.symm
  obtain ⟨s, hs⟩ := read_of_size hlarge
  have hfill : ∀ f : MemoryFormat, f.nBytes ≤ (Bytes.fill f.nBytes 0).size := fun f =>
    Nat.le_of_eq (Bytes.size_fill _ _).symm
  have hwrite := convertPixel_eq_ok_iff.mp hmid
  have hagain := convertPixel_eq_ok_iff.mp hback
  rw [transform_eq hp] at hwrite
  rw [transform_eq hs] at hagain
  refine ⟨p, s, h, hsize, hlarge, hp, fun n c hn => ?_, hs, fun n c hn => ?_⟩
  · rw [wordAt_write (h.type ▸ h.integer) (hfill g) hwrite hn, factor_of_straight h.straight, h.type]
  · rw [wordAt_write h.integer (hfill f) hagain hn, factor, if_pos h.source]

/-- A pixel that came back: every word is as it was or next to it, alpha is as it was, and so is what is sure to come
back. -/
structure CameBack (f : MemoryFormat) (px back : Bytes) : Prop where
  near : ∀ n < f.nChannels, |(f.wordAt back n : ℤ) - f.wordAt px n| ≤ 1
  alpha : ∀ k, f.layout.order[k]? = some .alpha → f.wordAt back k = f.wordAt px k
  exact : ∀ n < f.nChannels, ∀ k, f.layout.order[k]? = some .alpha →
    f.channelType.Recovers (f.wordAt px n) (f.wordAt px k) → f.wordAt back n = f.wordAt px n

theorem exists_alpha (h : f.hasAlpha) : ∃ k : Nat, f.layout.order[k]? = some Component.alpha :=
  List.getElem?_of_mem (List.contains_iff_mem.mp h)

theorem hasAlpha_of_premultiplied (h : f.isPremultiplied) : f.hasAlpha := by
  revert h
  cases f <;> decide

namespace Passage

variable (h : Passage f g px p mid s back)
include h

theorem even_first (hgray : f.isGrayscale) : p.Even := by
  obtain ⟨k, hk⟩ := exists_alpha (hasAlpha_of_premultiplied h.formats.source)
  obtain ⟨n, hn⟩ := List.getElem?_of_mem (List.contains_iff_mem.mp hgray)
  obtain ⟨-, hcolor⟩ := read_premultiplied h.formats.source h.formats.integer h.size h.first hk
  exact Rgba.even_of_component fun d hgray halpha => hcolor d n hgray halpha (channelOf?_of_gray hn halpha)

theorem second_component (hd : d ≠ .gray) (hn : g.channelOf? d = some n) :
    s.component (Single.ofNat 1) d = fraction (g.wordAt mid n) f.channelType.top := by
  have hi : g.channelType.isInteger := h.formats.type ▸ h.formats.integer
  rw [component_of_some h.formats.straight h.midSize h.second hd hn,
    (decode_channelAt hi h.midSize (lt_of_channelOf? hn)).2, h.formats.type]

theorem even_second (hgray : f.isGrayscale) : s.Even := by
  have heven := h.even_first hgray
  by_cases hbright : g.isGrayscale
  · -- every colour is read from the one channel
    obtain ⟨m, hm⟩ := List.getElem?_of_mem (List.contains_iff_mem.mp hbright)
    exact Rgba.even_of_component fun d hd halpha => h.second_component hd (channelOf?_of_gray hm halpha)
  · -- every colour was written to its own channel, and they were one
    refine Rgba.even_of_component (x := fraction (f.channelType.quantize p.red) f.channelType.top) fun d hd halpha => ?_
    obtain ⟨m, hm⟩ := exists_channelOf? g hd halpha
    rw [h.second_component hd hm, h.stored m d (order_of_channelOf? hm hbright), heven.component_eq hd halpha]

theorem alpha_le (hk : f.layout.order[k]? = some .alpha) : f.wordAt px k ≤ f.channelType.top :=
  (decode_channelAt h.formats.integer h.size (lt_of_order hk)).1

theorem second_alpha (hk : f.layout.order[k]? = some .alpha) :
    s.alpha = fraction (f.wordAt px k) f.channelType.top := by
  obtain ⟨m, hm⟩ := exists_alpha h.formats.alpha
  obtain ⟨hfirst, -⟩ := read_premultiplied h.formats.source h.formats.integer h.size h.first hk
  have hstored := h.stored m .alpha hm
  rw [Rgba.component, hfirst, ChannelType.quantize_word (h.alpha_le hk)] at hstored
  have hread := h.second_component (d := .alpha) (by decide) (channelOf?_eq_some_iff.mpr (.inl hm))
  rwa [hstored] at hread

theorem alpha_back (hk : f.layout.order[k]? = some .alpha) : f.wordAt back k = f.wordAt px k := by
  rw [h.result k .alpha hk, Rgba.component, h.second_alpha hk, ChannelType.quantize_word (h.alpha_le hk)]

theorem colour_back (hassociated : f.Associated px) (hn : f.layout.order[n]? = some c) (hc : c ≠ .alpha)
    (hk : f.layout.order[k]? = some .alpha) :
    |(f.wordAt back n : ℤ) - f.wordAt px n| ≤ 1 ∧
      (f.channelType.Recovers (f.wordAt px n) (f.wordAt px k) → f.wordAt back n = f.wordAt px n) := by
  -- a colour that is read from this channel
  obtain ⟨d, hgray, hd, hsame⟩ := exists_component hn
  have hcolor : d ≠ .alpha := mt hsame hc
  obtain ⟨-, hfirst⟩ := read_premultiplied h.formats.source h.formats.integer h.size h.first hk
  obtain ⟨m, hm⟩ := exists_channelOf? g hgray hcolor
  obtain ⟨c₁, hc₁, -, hy⟩ := exists_averaged hm hgray hcolor fun hg => h.even_first (h.formats.color hg)
  obtain ⟨c₂, hc₂, -, hz⟩ := exists_averaged hd hgray hcolor h.even_second
  obtain rfl : c₂ = c := Option.some.inj (hc₂.symm.trans hn)
  rw [hfirst d n hgray hcolor hd] at hy
  rw [h.second_component hgray hm, h.stored m c₁ hc₁] at hz
  rw [h.result n c₂ hn, Rgba.component_eq_mul hc, h.second_alpha hk]
  exact ChannelType.quantize_back (hassociated n (lt_of_order hn) k (lt_of_order hk) hk) (h.alpha_le hk) hy hz

theorem word_back (hassociated : f.Associated px) (hn : n < f.nChannels) (hk : f.layout.order[k]? = some .alpha) :
    |(f.wordAt back n : ℤ) - f.wordAt px n| ≤ 1 ∧
      (f.channelType.Recovers (f.wordAt px n) (f.wordAt px k) → f.wordAt back n = f.wordAt px n) := by
  obtain ⟨c, hc⟩ : ∃ c, f.layout.order[n]? = some c := ⟨_, List.getElem?_eq_getElem hn⟩
  by_cases halpha : c = .alpha
  · subst halpha
    rw [h.alpha_back hc, sub_self, abs_zero]
    exact ⟨zero_le_one, fun _ => rfl⟩
  · exact h.colour_back hassociated hc halpha hk

theorem cameBack (hassociated : f.Associated px) : f.CameBack px back := by
  obtain ⟨k, hk⟩ := exists_alpha (hasAlpha_of_premultiplied h.formats.source)
  exact ⟨fun n hn => (h.word_back hassociated hn hk).1, fun k hk => h.alpha_back hk,
    fun n hn k hk => (h.word_back hassociated hn hk).2⟩

end Passage

/-- Every word of the pixel is sure to come back. -/
def Recovers (f : MemoryFormat) (px : Bytes) : Prop :=
  ∀ n < f.nChannels, ∀ k, f.layout.order[k]? = some .alpha →
    f.channelType.Recovers (f.wordAt px n) (f.wordAt px k)

theorem CameBack.eq (h : f.CameBack px back) (hf : f.hasAlpha) (hi : f.channelType.isInteger)
    (hpx : px.size = f.nBytes) (hback : back.size = f.nBytes) (hrecovers : f.Recovers px) : back = px := by
  obtain ⟨k, hk⟩ := exists_alpha hf
  exact eq_of_wordAt hi hpx hback fun n hn => h.exact n hn k hk (hrecovers n hn k hk)

/-- Pixels of eight bits are sure to come back. -/
theorem Associated.recovers (h : f.Associated px) (hbyte : f.channelType = .u8) (hsize : f.nBytes ≤ px.size) :
    f.Recovers px := by
  intro n hn k hk
  have hi : f.channelType.isInteger := by rw [hbyte]; rfl
  obtain ⟨htop, -⟩ := decode_channelAt hi hsize (lt_of_order hk)
  have hle := h n hn k (lt_of_order hk) hk
  rw [hbyte] at htop ⊢
  exact ChannelType.recovers_u8 hle htop

end MemoryFormat

/-! ## Buffers -/

open MemoryFormat

variable {f g : MemoryFormat} {src : Bytes} {width height : Nat}

/-- **A premultiplied image of integers comes back from straight alpha within one word**, with its alpha, and unchanged
where its pixels are sure to come back.  Those of eight bits always are.  Nothing but the size of the straight image can
be in the way. -/
theorem convertBuffer_back (h : g.StraightOf f) (hsrc : Packed f src width height)
    (hassociated : ∀ x < width, ∀ y < height, f.Associated (f.pixelAt src (width * f.nBytes) x y)) :
    ((∃ mid, convertBuffer f src width height (width * f.nBytes) g = .ok mid) ↔ Fits g width height) ∧
    ∀ mid, convertBuffer f src width height (width * f.nBytes) g = .ok mid →
      ∃ back, convertBuffer g mid width height (width * g.nBytes) f = .ok back ∧ back.size = src.size ∧
        (∀ x < width, ∀ y < height,
          f.CameBack (f.pixelAt src (width * f.nBytes) x y) (f.pixelAt back (width * f.nBytes) x y)) ∧
        ((∀ x < width, ∀ y < height, f.Recovers (f.pixelAt src (width * f.nBytes) x y)) → back = src) ∧
        (f.channelType = .u8 → back = src) := by
  refine ⟨hsrc.converted_iff, fun mid hmid => ?_⟩
  have hg : Fits g width height := hsrc.converted_iff.mp ⟨mid, hmid⟩
  have hf : Fits f width height := ⟨hsrc.stride, by rw [← hsrc.size]; exact hsrc.room⟩
  obtain ⟨image, himage, hthere⟩ := hsrc.converted hg
  obtain rfl : mid = image := Except.ok.inj (hmid.symm.trans himage)
  obtain ⟨back, hback, hagain⟩ := (hthere.packed hg).converted hf
  have hcame : ∀ x < width, ∀ y < height,
      f.CameBack (f.pixelAt src (width * f.nBytes) x y) (f.pixelAt back (width * f.nBytes) x y) := by
    intro x hx y hy
    have hsize := Nat.le_of_eq (size_pixelAt hsrc.size hx hy).symm
    obtain ⟨p, s, hpassage⟩ := exists_passage h hsize (hthere.pixel x hx y hy) (hagain.pixel x hx y hy)
    exact hpassage.cameBack (hassociated x hx y hy)
  have hexact : (∀ x < width, ∀ y < height, f.Recovers (f.pixelAt src (width * f.nBytes) x y)) → back = src := by
    intro hrecovers
    refine eq_of_pixelAt hagain.size hsrc.size fun x hx y hy => ?_
    exact (hcame x hx y hy).eq (hasAlpha_of_premultiplied h.source) h.integer (size_pixelAt hsrc.size hx hy)
      (size_pixelAt hagain.size hx hy) (hrecovers x hx y hy)
  refine ⟨back, hback, hagain.size.trans hsrc.size.symm, hcame, hexact, fun hbyte => hexact fun x hx y hy => ?_⟩
  exact (hassociated x hx y hy).recovers hbyte (Nat.le_of_eq (size_pixelAt hsrc.size hx hy).symm)

/-- A gray pixel of eight bits by way of colour. -/
theorem convertBuffer_back_gray :
    let src := Bytes.ofList [100, 200]
    StraightOf .a8b8g8r8 .g8a8Premultiplied ∧ Packed .g8a8Premultiplied src 1 1 ∧
      ∃ mid, convertBuffer .g8a8Premultiplied src 1 1 2 .a8b8g8r8 = .ok mid ∧
        convertBuffer .a8b8g8r8 mid 1 1 4 .g8a8Premultiplied = .ok src := by
  intro src
  have hformats : StraightOf .a8b8g8r8 .g8a8Premultiplied := ⟨rfl, rfl, rfl, rfl, rfl, by decide⟩
  have hsrc : Packed .g8a8Premultiplied src 1 1 :=
    ⟨by rw [Bytes.size_ofList]; decide, by decide, by rw [Bytes.size_ofList]; decide⟩
  have hassociated : ∀ x < 1, ∀ y < 1,
      Associated .g8a8Premultiplied (pixelAt .g8a8Premultiplied src (1 * 2) x y) := by
    decide +kernel
  obtain ⟨hok, hback⟩ := convertBuffer_back hformats hsrc hassociated
  obtain ⟨mid, hmid⟩ := hok.mpr ⟨by decide, by decide⟩
  obtain ⟨back, hagain, -, -, -, hbyte⟩ := hback mid hmid
  rw [hbyte rfl] at hagain
  exact ⟨hformats, hsrc, mid, hmid, hagain⟩

/-- **Words of sixteen bits do not always come back**: beside an alpha that is one word short of full, the colour in the
middle becomes the next one. -/
theorem exists_not_back :
    ¬ ∀ (f g : MemoryFormat) (src mid : Bytes) (width height : Nat), g.StraightOf f → Packed f src width height →
      (∀ x < width, ∀ y < height, f.Associated (f.pixelAt src (width * f.nBytes) x y)) →
      convertBuffer f src width height (width * f.nBytes) g = .ok mid →
      convertBuffer g mid width height (width * g.nBytes) f = .ok src := by
  intro h
  have hsrc : Packed .r16g16b16a16Premultiplied (Bytes.ofList [0xff, 0x7f, 0, 0, 0, 0, 0xfe, 0xff]) 1 1 :=
    ⟨by rw [Bytes.size_ofList]; decide, by decide, by rw [Bytes.size_ofList]; decide⟩
  have hback := h .r16g16b16a16Premultiplied .r16g16b16a16 _ (Bytes.ofList [0, 0x80, 0, 0, 0, 0, 0xfe, 0xff]) 1 1
    ⟨rfl, rfl, rfl, rfl, rfl, by decide⟩ hsrc (by decide +kernel) (by decide +kernel)
  revert hback
  decide +kernel

end ImageLoader
