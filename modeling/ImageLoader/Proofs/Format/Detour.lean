import ImageLoader.Frame.Scaler
import ImageLoader.Proofs.Format.Channel
import ImageLoader.Proofs.Format.Conversion

/-!
# Conversion by way of another format

A format keeps another if it has its channels in a type that holds them.  Going through a format that keeps the first
one then makes no difference: a colour that is written and read again is the colour it was.

* `MemoryFormat.Keeps`: a format that keeps all of another.
* `MemoryFormat.Keeps.read_write`: **a colour survives a format that keeps its own.**
* `MemoryFormat.write_read`: **integer formats are written as they were read.**
* `convertBuffer_detour`: **a buffer that is converted by way of such a format is converted as if directly**, and
  comes back unchanged.
-/

namespace ImageLoader

namespace MemoryFormat

open Single (mean mul_ofNat_one)

variable {f g : MemoryFormat} {px out target : Bytes} {p : Rgba} {c : Component} {n : Nat} {x : Float32}

/-- Nothing that `f` stores is lost in `g`.  Neither multiplies colour by alpha. -/
structure Keeps (g f : MemoryFormat) : Prop where
  source : f.isPremultiplied = false
  straight : g.isPremultiplied = false
  alpha : f.hasAlpha → g.hasAlpha
  color : g.isGrayscale → f.isGrayscale
  holds : g.channelType ∈ f.channelType.holders

/-! ## Where the components lie -/

theorem idxOf?_order : f.layout.order.idxOf? c = some n ↔ f.layout.order[n]? = some c := by
  have hnodup : f.layout.order.Nodup := by cases f <;> decide
  rw [List.idxOf?_eq_some_iff, List.getElem?_eq_some_iff]
  constructor
  · rintro ⟨hn, hc, -⟩
    exact ⟨hn, hc⟩
  · rintro ⟨hn, hc⟩
    refine ⟨hn, hc, fun j hj heq => ?_⟩
    exact absurd (hnodup.getElem_inj_iff.mp (heq.trans hc.symm)) (Nat.ne_of_lt hj)

/-- A component is read from its own channel, or a colour from brightness. -/
theorem channelOf?_eq_some_iff : f.channelOf? c = some n ↔ f.layout.order[n]? = some c ∨
    c ∉ f.layout.order ∧ c ≠ .alpha ∧ f.layout.order[n]? = some .gray := by
  cases hc : f.layout.order.idxOf? c with
  | some m =>
    have hmem : c ∈ f.layout.order := List.mem_of_getElem? (idxOf?_order.mp hc)
    rw [← idxOf?_order, hc]
    simp [channelOf?, hc, hmem]
  | none =>
    have hmem : c ∉ f.layout.order := List.idxOf?_eq_none_iff.mp hc
    have hown : f.layout.order[n]? ≠ some c := fun h => hmem (List.mem_of_getElem? h)
    by_cases halpha : c = .alpha
    · subst halpha
      simp [channelOf?, hc, hown]
    · simp [channelOf?, hc, hmem, hown, halpha, ← idxOf?_order]

theorem channelOf?_eq_none_iff (hc : c ≠ .gray) : f.channelOf? c = none ↔ c = .alpha ∧ ¬ f.hasAlpha := by
  cases c with
  | gray => exact absurd rfl hc
  | red | green | blue | alpha => cases f <;> decide

/-- Where there is brightness there are no colours. -/
theorem channelOf?_of_gray (h : f.layout.order[n]? = some .gray) (hc : c ≠ .alpha) : f.channelOf? c = some n := by
  have hgray : Component.gray ∈ f.layout.order := List.mem_of_getElem? h
  have hcolor : c = .gray ∨ c ∉ f.layout.order := by
    revert hgray hc
    cases c <;> cases f <;> decide
  rcases hcolor with rfl | hmem
  · exact channelOf?_eq_some_iff.mpr (.inl h)
  · exact channelOf?_eq_some_iff.mpr (.inr ⟨hmem, hc, h⟩)

theorem order_of_channelOf? (h : f.channelOf? c = some n) (hgray : ¬ f.isGrayscale) : f.layout.order[n]? = some c := by
  rcases channelOf?_eq_some_iff.mp h with hown | ⟨-, -, hbright⟩
  · exact hown
  · exact absurd (List.contains_iff_mem.mpr (List.mem_of_getElem? hbright)) hgray

/-- Every channel is read for some component: brightness for red, and the others for their own. -/
theorem exists_component (hn : f.layout.order[n]? = some c) :
    ∃ d ≠ .gray, f.channelOf? d = some n ∧ (d = .alpha → c = .alpha) := by
  by_cases hbright : c = .gray
  · subst hbright
    exact ⟨.red, by decide, channelOf?_of_gray hn (by decide), fun h => (nomatch h)⟩
  · exact ⟨c, hbright, channelOf?_eq_some_iff.mpr (.inl hn), id⟩

theorem isInteger_of_gray (h : f.isGrayscale) : f.channelType.isInteger := by
  revert h
  cases f <;> decide

/-! ## Reading -/

theorem read_eq_ok_iff (hf : f.isPremultiplied = false) :
    f.read px = .ok p ↔ ∀ c ≠ .gray, f.readComponent px c = .ok (p.component (Single.ofNat 1) c) := by
  constructor
  · intro h
    unfold read at h
    cases hr : f.readComponent px .red with
    | error e => rw [hr] at h; cases h
    | ok red =>
    cases hg : f.readComponent px .green with
    | error e => rw [hr, hg] at h; cases h
    | ok green =>
    cases hb : f.readComponent px .blue with
    | error e => rw [hr, hg, hb] at h; cases h
    | ok blue =>
    cases ha : f.readComponent px .alpha with
    | error e => rw [hr, hg, hb, ha] at h; cases h
    | ok alpha =>
      rw [hr, hg, hb, ha, hf] at h
      cases h
      intro c hc
      cases c with
      | gray => exact absurd rfl hc
      | red => rw [hr, Rgba.component, mul_ofNat_one]; rfl
      | green => rw [hg, Rgba.component, mul_ofNat_one]; rfl
      | blue => rw [hb, Rgba.component, mul_ofNat_one]; rfl
      | alpha => rw [ha]; rfl
  · intro h
    unfold read
    rw [h .red (by decide), h .green (by decide), h .blue (by decide), h .alpha (by decide), hf]
    simp only [Rgba.component, mul_ofNat_one]
    rfl

def channelAt (f : MemoryFormat) (px : Bytes) (n : Nat) : Bytes :=
  px.extract (n * f.channelType.size) (n * f.channelType.size + f.channelType.size)

theorem length_channelAt (h : f.nBytes ≤ px.size) (hn : n < f.nChannels) :
    (f.channelAt px n).toList.length = f.channelType.size := by
  have hend := channel_end_le hn h
  rw [Bytes.length_toList, channelAt, ByteArray.size_extract]
  omega

theorem readComponent_of_some (h : f.nBytes ≤ px.size) (hc : f.channelOf? c = some n) :
    f.readComponent px c = .ok (f.channelType.decode (f.channelAt px n).toList) := by
  rw [readComponent, hc]
  show f.readChannel px n = _
  rw [readChannel, Bytes.slice?, if_pos (channel_end_le (lt_of_channelOf? hc) h)]
  rfl

theorem readComponent_of_none (hc : f.channelOf? c = none) : f.readComponent px c = .ok (Single.ofNat 1) := by
  rw [readComponent, hc]

theorem value_decode (h : f.nBytes ≤ px.size) (hn : n < f.nChannels) :
    f.channelType.Value (f.channelType.decode (f.channelAt px n).toList) :=
  ⟨_, length_channelAt h hn, rfl⟩

theorem component_of_none (hf : f.isPremultiplied = false) (hp : f.read px = .ok p) (hc : c ≠ .gray)
    (hn : f.channelOf? c = none) : p.component (Single.ofNat 1) c = Single.ofNat 1 := by
  have hread := (read_eq_ok_iff hf).mp hp c hc
  rw [readComponent_of_none hn] at hread
  exact (Except.ok.inj hread).symm

section

variable (hf : f.isPremultiplied = false) (hsize : f.nBytes ≤ px.size) (hp : f.read px = .ok p)
include hf hsize hp

theorem component_of_some (hc : c ≠ .gray) (hn : f.channelOf? c = some n) :
    p.component (Single.ofNat 1) c = f.channelType.decode (f.channelAt px n).toList := by
  have hread := (read_eq_ok_iff hf).mp hp c hc
  rw [readComponent_of_some hsize hn] at hread
  exact (Except.ok.inj hread).symm

/-- Brightness is the mean of three equal colours. -/
theorem component_gray (hn : f.layout.order[n]? = some .gray) :
    p.component (Single.ofNat 1) .gray = mean (f.channelType.decode (f.channelAt px n).toList) := by
  have hcolor : ∀ c, c ≠ .gray → c ≠ .alpha →
      p.component (Single.ofNat 1) c = f.channelType.decode (f.channelAt px n).toList :=
    fun c hc halpha => component_of_some hf hsize hp hc (channelOf?_of_gray hn halpha)
  have hred := hcolor .red (by decide) (by decide)
  have hgreen := hcolor .green (by decide) (by decide)
  have hblue := hcolor .blue (by decide) (by decide)
  simp only [Rgba.component, mul_ofNat_one] at hred hgreen hblue ⊢
  rw [hred, hgreen, hblue, mean]

end

/-! ## Writing and reading again -/

theorem factor_of_straight (hf : f.isPremultiplied = false) (p : Rgba) : f.factor p = Single.ofNat 1 := by
  rw [factor, hf]
  rfl

/-- **A colour survives a format that keeps its own.** -/
theorem Keeps.read_write (h : g.Keeps f) (hsize : f.nBytes ≤ px.size) (hp : f.read px = .ok p)
    (hout : g.write p target = (out, .ok ())) (htarget : g.nBytes ≤ target.size) : g.read out = .ok p := by
  obtain ⟨out', hout', houtsize, hchannel⟩ := write_of_size p htarget
  obtain rfl : out = out' := congrArg Prod.fst (hout.symm.trans hout')
  rw [factor_of_straight h.straight] at hchannel
  have hlarge : g.nBytes ≤ out.size := Nat.le_trans htarget (Nat.le_of_eq houtsize.symm)
  refine (read_eq_ok_iff h.straight).mpr fun c hc => ?_
  cases hn : g.channelOf? c with
  | none =>
    -- alpha that is not stored was not there
    obtain ⟨rfl, hno⟩ := (channelOf?_eq_none_iff hc).mp hn
    have hnone : f.channelOf? .alpha = none := (channelOf?_eq_none_iff hc).mpr ⟨rfl, mt h.alpha hno⟩
    rw [readComponent_of_none hn, component_of_none h.source hp hc hnone]
  | some n =>
    rw [readComponent_of_some hlarge hn]
    rcases channelOf?_eq_some_iff.mp hn with hown | ⟨-, halpha, hgray⟩
    · -- in a channel of its own; alpha may be new here
      rw [channelAt, hchannel n c hown]
      cases hm : f.channelOf? c with
      | none => rw [component_of_none h.source hp hc hm, ChannelType.decode_encode_one]
      | some m =>
        rw [component_of_some h.source hsize hp hc hm,
          ChannelType.decode_encode h.holds (value_decode hsize (lt_of_channelOf? hm))]
    · -- as brightness, so it was brightness before, and the colours are one
      have hgrayscale : g.isGrayscale := List.contains_iff_mem.mpr (List.mem_of_getElem? hgray)
      obtain ⟨m, hm⟩ := List.getElem?_of_mem (List.contains_iff_mem.mp (h.color hgrayscale))
      have hmc : f.channelOf? c = some m := channelOf?_of_gray hm halpha
      rw [channelAt, hchannel n .gray hgray, component_gray h.source hsize hp hm,
        component_of_some h.source hsize hp hc hmc,
        ChannelType.decode_encode_mean h.holds (isInteger_of_gray (h.color hgrayscale)) (isInteger_of_gray hgrayscale)
          (value_decode hsize (lt_of_channelOf? hmc))]

/-- **Integer formats are written as they were read.** -/
theorem write_read (hf : f.isPremultiplied = false) (hi : f.channelType.isInteger) (hsize : px.size = f.nBytes)
    (hp : f.read px = .ok p) (htarget : target.size = f.nBytes) : f.write p target = (px, .ok ()) := by
  obtain ⟨out, hout, houtsize, hchannel⟩ := write_of_size p (Nat.le_of_eq htarget.symm)
  have hlarge := Nat.le_of_eq hsize.symm
  rw [factor_of_straight hf] at hchannel
  have hsame : out = px := by
    refine Bytes.eq_of_pieces (houtsize.trans htarget) hsize fun n hn => ?_
    obtain ⟨c, hc⟩ : ∃ c, f.layout.order[n]? = some c := ⟨_, List.getElem?_eq_getElem hn⟩
    have hlength := length_channelAt hlarge hn
    rw [hchannel n c hc]
    -- brightness is written as a mean, and the rest as it was read
    by_cases hgray : c = .gray
    · subst hgray
      rw [component_gray hf hlarge hp hc, ChannelType.encode_mean_decode hi hlength, Bytes.ofList_toList]
      rfl
    · rw [component_of_some hf hlarge hp hgray (channelOf?_eq_some_iff.mpr (.inl hc)),
        ChannelType.encode_decode hi hlength, Bytes.ofList_toList]
      rfl
  rw [hout, hsame]

/-! ## Pixels -/

theorem transform_eq (hp : f.read px = .ok p) : f.transform px g target = g.write p target := by
  unfold transform
  rw [hp]

/-- **A pixel that goes through a format that keeps it is converted as if directly.** -/
theorem Keeps.convertPixel_eq (h : g.Keeps f) (hsize : f.nBytes ≤ px.size) (hout : f.convertPixel g px = .ok out)
    (target : MemoryFormat) : g.convertPixel target out = f.convertPixel target px := by
  obtain ⟨p, hp⟩ := read_of_size hsize
  have hwrite := convertPixel_eq_ok_iff.mp hout
  rw [transform_eq hp] at hwrite
  have hread := h.read_write hsize hp hwrite (Nat.le_of_eq (Bytes.size_fill _ _).symm)
  unfold convertPixel
  rw [transform_eq hread, transform_eq hp]

theorem convertPixel_self (hf : f.isPremultiplied = false) (hi : f.channelType.isInteger)
    (hsize : px.size = f.nBytes) : f.convertPixel f px = .ok px := by
  obtain ⟨p, hp⟩ := read_of_size (Nat.le_of_eq hsize.symm)
  refine convertPixel_eq_ok_iff.mpr ?_
  rw [transform_eq hp, write_read hf hi hsize hp (Bytes.size_fill _ _)]

end MemoryFormat

/-! ## Buffers -/

/-- Rows without a gap, in a buffer that there can be. -/
structure Packed (f : MemoryFormat) (src : Bytes) (width height : Nat) : Prop where
  size : src.size = height * (width * f.nBytes)
  stride : width * f.nBytes < wordLimit
  room : src.size ≤ allocationLimit

variable {f g : MemoryFormat} {src mid a b : Bytes} {width height : Nat}

/-- Images of the same pixels are the same. -/
theorem eq_of_pixelAt (ha : a.size = height * (width * f.nBytes)) (hb : b.size = height * (width * f.nBytes))
    (h : ∀ x < width, ∀ y < height,
      f.pixelAt a (width * f.nBytes) x y = f.pixelAt b (width * f.nBytes) x y) : a = b := by
  rw [← Nat.mul_assoc] at ha hb
  refine Bytes.eq_of_pieces ha hb fun i hi => ?_
  have hwidth : 0 < width := Nat.pos_of_ne_zero fun hzero => by
    rw [hzero, Nat.mul_zero] at hi
    exact Nat.not_lt_zero i hi
  have hy : i / width < height := Nat.div_lt_of_lt_mul (by rwa [Nat.mul_comm])
  have hplace : i / width * (width * f.nBytes) + i % width * f.nBytes = i * f.nBytes := by
    rw [← Nat.mul_assoc, ← Nat.add_mul, Nat.mul_comm (i / width), Nat.div_add_mod]
  have hpixel := h (i % width) (Nat.mod_lt i hwidth) (i / width) hy
  rwa [MemoryFormat.pixelAt, MemoryFormat.pixelAt, hplace] at hpixel

theorem size_pixelAt {x y : Nat} (h : src.size = height * (width * f.nBytes)) (hx : x < width) (hy : y < height) :
    (f.pixelAt src (width * f.nBytes) x y).size = f.nBytes := by
  have hrow : (x + 1) * f.nBytes ≤ width * f.nBytes := Nat.mul_le_mul_right _ hx
  have hrows : (y + 1) * (width * f.nBytes) ≤ height * (width * f.nBytes) := Nat.mul_le_mul_right _ hy
  rw [Nat.succ_mul] at hrow hrows
  rw [MemoryFormat.pixelAt, ByteArray.size_extract]
  omega

/-- Can the image be set aside in this format? -/
def Fits (g : MemoryFormat) (width height : Nat) : Prop :=
  width * g.nBytes < wordLimit ∧ height * (width * g.nBytes) ≤ allocationLimit

theorem Packed.converted (h : Packed f src width height) (hg : Fits g width height) :
    ∃ image, convertBuffer f src width height (width * f.nBytes) g = .ok image ∧
      IsConversion f g src (width * f.nBytes) width height image := by
  obtain ⟨hstride, hroom⟩ := hg
  have hlimit : allocationLimit < wordLimit := by decide
  rw [Nat.mul_comm height] at hroom
  by_cases hempty : width = 0 ∨ height = 0
  · refine ⟨ByteArray.empty, ?_, ⟨?_, ?_⟩⟩
    · unfold convertBuffer
      rw [sized_of_lt h.stride, sized_of_lt hstride, sized_of_lt (by omega)]
      show (if allocationLimit < width * g.nBytes * height then _ else _ : Outcome _ _) = _
      rw [if_neg (by omega)]
      split
      · rfl
      next hw =>
        rw [hempty.resolve_left hw]
        rfl
    · rcases hempty with rfl | rfl <;> simp
    · intro x hx y hy
      omega
  · have hrow : ∀ k < height, k * (width * f.nBytes) + width * f.nBytes ≤ src.size := by
      intro k hk
      rw [h.size, ← Nat.succ_mul]
      exact Nat.mul_le_mul_right _ hk
    refine convertBuffer_eq_ok hrow (fun k hk => ?_) (by omega) (by omega) hroom
    have := hrow k hk
    have := h.room
    omega

/-- An image for which there is no room is refused in the same way, whatever it was. -/
theorem exists_refusal (hg : ¬ Fits g width height) :
    ∃ e, ∀ f src, Packed f src width height → convertBuffer f src width height (width * f.nBytes) g = .error e := by
  by_cases hstride : width * g.nBytes < wordLimit
  · by_cases hsize : width * g.nBytes * height < wordLimit
    · have hroom : allocationLimit < width * g.nBytes * height := by
        rw [Nat.mul_comm]
        exact Nat.lt_of_not_le fun hle => hg ⟨hstride, hle⟩
      refine ⟨.panic capacityPanic, fun f src h => ?_⟩
      unfold convertBuffer
      rw [sized_of_lt h.stride, sized_of_lt hstride, sized_of_lt hsize]
      exact if_pos hroom
    · refine ⟨.error .dimensionTooLarge, fun f src h => ?_⟩
      exact convertBuffer_tooLarge src _ h.stride hstride (Nat.le_of_not_lt hsize)
  · refine ⟨.error .dimensionTooLarge, fun f src h => ?_⟩
    unfold convertBuffer
    rw [sized_of_lt h.stride, sized, if_neg hstride]
    rfl

theorem Packed.converted_iff (h : Packed f src width height) :
    (∃ image, convertBuffer f src width height (width * f.nBytes) g = .ok image) ↔ Fits g width height := by
  constructor
  · rintro ⟨image, himage⟩
    by_contra hg
    obtain ⟨e, he⟩ := exists_refusal hg
    rw [he f src h] at himage
    cases himage
  · intro hg
    obtain ⟨image, himage, -⟩ := h.converted hg
    exact ⟨image, himage⟩

theorem IsConversion.packed (h : IsConversion f g src (width * f.nBytes) width height mid)
    (hg : Fits g width height) : Packed g mid width height where
  size := h.size
  stride := hg.1
  room := by rw [h.size]; exact hg.2

theorem Packed.converted_self (h : Packed f src width height) (hf : f.isPremultiplied = false)
    (hi : f.channelType.isInteger) : convertBuffer f src width height (width * f.nBytes) f = .ok src := by
  obtain ⟨image, himage, hconv⟩ := h.converted ⟨h.stride, by rw [← h.size]; exact h.room⟩
  have hsame : image = src := by
    refine eq_of_pixelAt hconv.size h.size fun x hx y hy => ?_
    have hpixel := hconv.pixel x hx y hy
    rw [MemoryFormat.convertPixel_self hf hi (size_pixelAt h.size hx hy)] at hpixel
    exact (Except.ok.inj hpixel).symm
  rw [himage, hsame]

theorem Packed.converted_via (h : Packed f src width height) (hkeeps : g.Keeps f)
    (hmid : convertBuffer f src width height (width * f.nBytes) g = .ok mid) (target : MemoryFormat) :
    convertBuffer g mid width height (width * g.nBytes) target =
      convertBuffer f src width height (width * f.nBytes) target := by
  have hg : Fits g width height := h.converted_iff.mp ⟨mid, hmid⟩
  obtain ⟨image, himage, hconv⟩ := h.converted hg
  obtain rfl : mid = image := Except.ok.inj (hmid.symm.trans himage)
  have hpacked := hconv.packed hg
  by_cases ht : Fits target width height
  · obtain ⟨direct, hdirect, hd⟩ := h.converted ht
    obtain ⟨detour, hdetour, hv⟩ := hpacked.converted ht
    have hsame : detour = direct := by
      refine eq_of_pixelAt hv.size hd.size fun x hx y hy => ?_
      have hsize := Nat.le_of_eq (size_pixelAt h.size hx hy).symm
      have hpixel := hkeeps.convertPixel_eq hsize (hconv.pixel x hx y hy) target
      rw [hv.pixel x hx y hy, hd.pixel x hx y hy] at hpixel
      exact Except.ok.inj hpixel
    rw [hdetour, hdirect, hsame]
  · obtain ⟨e, he⟩ := exists_refusal ht
    rw [he g mid hpacked, he f src h]

/-- **A buffer that is converted by way of a format that keeps it is converted as if directly**, to every format;
and one of integers comes back as it was.  Nothing but the size of the image can be in the way. -/
theorem convertBuffer_detour (h : g.Keeps f) (hsrc : Packed f src width height) :
    ((∃ mid, convertBuffer f src width height (width * f.nBytes) g = .ok mid) ↔ Fits g width height) ∧
    (∀ mid, convertBuffer f src width height (width * f.nBytes) g = .ok mid →
      ∀ target, convertBuffer g mid width height (width * g.nBytes) target =
        convertBuffer f src width height (width * f.nBytes) target) ∧
    (f.channelType.isInteger →
      convertBuffer f src width height (width * f.nBytes) f = .ok src ∧
      ∀ mid, convertBuffer f src width height (width * f.nBytes) g = .ok mid →
        convertBuffer g mid width height (width * g.nBytes) f = .ok src) := by
  refine ⟨hsrc.converted_iff, fun mid hmid => hsrc.converted_via h hmid, fun hi => ?_⟩
  have hself := hsrc.converted_self h.source hi
  exact ⟨hself, fun mid hmid => (hsrc.converted_via h hmid f).trans hself⟩

/-- An image of one pixel, by way of sixteen bits and alpha. -/
theorem convertBuffer_detour_deep :
    let src := Bytes.ofList [51, 102, 255]
    MemoryFormat.Keeps .r16g16b16a16 .b8g8r8 ∧ Packed .b8g8r8 src 1 1 ∧
      ∃ mid, convertBuffer .b8g8r8 src 1 1 3 .r16g16b16a16 = .ok mid ∧
        convertBuffer .r16g16b16a16 mid 1 1 8 .b8g8r8 = .ok src ∧
        convertBuffer .r16g16b16a16 mid 1 1 8 .g8a8Premultiplied =
          convertBuffer .b8g8r8 src 1 1 3 .g8a8Premultiplied := by
  have hkeeps : MemoryFormat.Keeps .r16g16b16a16 .b8g8r8 :=
    ⟨by decide, by decide, by decide, by decide, by decide⟩
  have hsrc : Packed .b8g8r8 (Bytes.ofList [51, 102, 255]) 1 1 :=
    ⟨by rw [Bytes.size_ofList]; decide, by decide, by rw [Bytes.size_ofList]; decide⟩
  obtain ⟨hok, hvia, hback⟩ := convertBuffer_detour hkeeps hsrc
  obtain ⟨mid, hmid⟩ := hok.mpr ⟨by decide, by decide⟩
  exact ⟨hkeeps, hsrc, mid, hmid, (hback rfl).2 mid hmid, hvia mid hmid _⟩

end ImageLoader
