import ImageLoader.Proofs.Format.Detour

/-!
# What a transformation reads and writes

A pixel is read from a string of bytes and written over another one, and neither need be as long as a pixel.  Reading
looks at every channel of the format and at nothing behind them; writing goes channel by channel, and stops before the
first one that does not fit.

* `MemoryFormat.read_cases`: the colour that is stored in a pixel, or the channel that is not there.
* `Bytes.getElem?_overwrite_zero`: what is written over the beginning of a string.
* `MemoryFormat.write_eq`, `MemoryFormat.write_eq_of_short`: **a target that is too short gets the channels that fit.**
* `MemoryFormat.transform_footprint`: **which bytes a transformation reads, and which it writes.**
-/

namespace ImageLoader

/-! ## Bytes -/

namespace Bytes

variable {b c part : Bytes} {l : List Bytes} {start len size k m : Nat}

theorem join_concat (l : List Bytes) (b : Bytes) : join (l ++ [b]) = join l ++ b := by
  rw [join, List.foldl_append]
  rfl

theorem join_take (hl : ∀ b ∈ l, b.size = size) (hk : k ≤ l.length) :
    (join (l.take k)).size = k * size ∧ (join l).extract 0 (k * size) = join (l.take k) := by
  have hsize : ∀ k ≤ l.length, (join (l.take k)).size = k * size := by
    intro k hk
    induction k with
    | zero => simp [join]
    | succ k ih =>
      rw [List.take_succ_eq_append_getElem hk, join_concat, ByteArray.size_append, ih (by omega),
        hl _ (List.getElem_mem hk), Nat.succ_mul]
  refine ⟨hsize k hk, ?_⟩
  have hprefix : ∀ m, k + m ≤ l.length → (join (l.take (k + m))).extract 0 (k * size) = join (l.take k) := by
    intro m hm
    induction m with
    | zero =>
      rw [Nat.add_zero, ← hsize k hk, ByteArray.extract_zero_size]
    | succ m ih =>
      have hle : k * size ≤ (join (l.take (k + m))).size := by
        rw [hsize (k + m) (by omega)]
        exact Nat.mul_le_mul_right size (Nat.le_add_right k m)
      rw [← Nat.add_assoc, List.take_succ_eq_append_getElem (by omega), join_concat, extract_append_of_le hle,
        ih (by omega)]
  have hall := hprefix (l.length - k) (by omega)
  rwa [Nat.add_sub_cancel' hk, List.take_length] at hall

theorem overwrite_zero (b part : Bytes) : b.overwrite 0 part = part ++ b.extract part.size b.size := by
  rw [overwrite, ByteArray.extract_same, ByteArray.empty_append, Nat.zero_add]

theorem overwrite_overwrite (b part c : Bytes) :
    (b.overwrite 0 part).overwrite part.size c = b.overwrite 0 (part ++ c) := by
  have hrest : (part ++ b.extract part.size b.size).extract (part.size + c.size)
      (part ++ b.extract part.size b.size).size = b.extract (part.size + c.size) b.size := by
    rw [ByteArray.size_append, ByteArray.size_extract, ByteArray.extract_append_size_add, ByteArray.extract_extract]
    congr 1
    omega
  rw [overwrite_zero, overwrite_zero, overwrite, ByteArray.extract_append_eq_left rfl, hrest, ByteArray.size_append]

theorem getElem?_overwrite_zero (h : part.size ≤ b.size) (i : Nat) :
    (b.overwrite 0 part)[i]? = if i < part.size then part[i]? else b[i]? := by
  have hsize : (b.overwrite 0 part).size = b.size := size_overwrite (by omega)
  by_cases hi : i < b.size
  · rw [getElem?_pos _ i (by omega)]
    split
    next hlt =>
      rw [getElem?_pos part i hlt]
      simp only [overwrite_zero, ByteArray.getElem_append_left hlt]
    next hge =>
      rw [getElem?_pos b i hi]
      simp only [overwrite_zero, ByteArray.getElem_append_right (Nat.le_of_not_lt hge), ByteArray.getElem_extract]
      congr 2
      omega
  · rw [getElem?_neg _ i (by omega), if_neg (by omega), getElem?_neg b i hi]

theorem getElem?_extract_zero (b : Bytes) {i : Nat} (h : i < k) : (b.extract 0 k)[i]? = b[i]? := by
  have hbyte : (b.extract 0 (0 + k))[i]? = b[0 + i]? := getElem?_extract h
  rwa [Nat.zero_add, Nat.zero_add] at hbyte

theorem slice?_extract_zero (h : start + len ≤ m) : slice? (b.extract 0 m) start len = slice? b start len := by
  unfold slice?
  rw [ByteArray.size_extract, extract_extract_of_le (by omega), Nat.zero_add, Nat.zero_add]
  by_cases hb : start + len ≤ b.size
  · rw [if_pos (by omega), if_pos hb]
  · rw [if_neg (by omega), if_neg hb]

end Bytes

namespace MemoryFormat

variable {f g : MemoryFormat} {px src src' target : Bytes} {p : Rgba} {c : Component} {n k : Nat}

/-! ## Reading -/

theorem readChannel_cases (f : MemoryFormat) (px : Bytes) (n : Nat) :
    (∃ x, f.readChannel px n = .ok x) ∨ f.readChannel px n = .error (.conversion (.pixelTooShort n)) := by
  unfold readChannel
  split
  · exact .inl ⟨_, rfl⟩
  · exact .inr rfl

theorem readComponent_cases (f : MemoryFormat) (px : Bytes) (c : Component) :
    (∃ x, f.readComponent px c = .ok x) ∨ ∃ n, f.readComponent px c = .error (.conversion (.pixelTooShort n)) := by
  unfold readComponent
  split
  next n hn => exact (f.readChannel_cases px n).imp_right fun h => ⟨n, h⟩
  next => exact .inl ⟨_, rfl⟩

/-- A pixel stores a colour, which may have been multiplied by alpha, or a channel of it is not there. -/
theorem read_cases (f : MemoryFormat) (px : Bytes) :
    (∃ q : Rgba, (∀ c ≠ .gray, f.readComponent px c = .ok (q.component (Single.ofNat 1) c)) ∧
      f.read px = .ok (if f.isPremultiplied then q.unpremultiply else q)) ∨
    ∃ n, f.read px = .error (.conversion (.pixelTooShort n)) := by
  unfold read
  rcases f.readComponent_cases px .red with ⟨red, hr⟩ | ⟨n, hr⟩
  · rcases f.readComponent_cases px .green with ⟨green, hg⟩ | ⟨n, hg⟩
    · rcases f.readComponent_cases px .blue with ⟨blue, hb⟩ | ⟨n, hb⟩
      · rcases f.readComponent_cases px .alpha with ⟨alpha, ha⟩ | ⟨n, ha⟩
        · refine .inl ⟨⟨red, green, blue, alpha⟩, ?_, by rw [hr, hg, hb, ha]; rfl⟩
          intro c hc
          cases c with
          | gray => exact absurd rfl hc
          | red => rw [hr, Rgba.component, Single.mul_ofNat_one]
          | green => rw [hg, Rgba.component, Single.mul_ofNat_one]
          | blue => rw [hb, Rgba.component, Single.mul_ofNat_one]
          | alpha => rw [ha]; rfl
        · exact .inr ⟨n, by rw [hr, hg, hb, ha]; rfl⟩
      · exact .inr ⟨n, by rw [hr, hg, hb]; rfl⟩
    · exact .inr ⟨n, by rw [hr, hg]; rfl⟩
  · exact .inr ⟨n, by rw [hr]; rfl⟩

theorem nChannels_pos (f : MemoryFormat) : 0 < f.nChannels := by
  cases f <;> decide

/-- What is read has a whole pixel behind it. -/
theorem size_of_read (h : f.read px = .ok p) : f.nBytes ≤ px.size := by
  have hpos := f.nChannels_pos
  have hn : f.layout.order[f.nChannels - 1]? = some _ := List.getElem?_eq_getElem (Nat.sub_one_lt_of_lt hpos)
  obtain ⟨c, hc, hlast, -⟩ := exists_component hn
  rcases f.read_cases px with ⟨q, hq, -⟩ | ⟨n, hn⟩
  · -- the last channel is among those that were read
    have hread := hq c hc
    rw [readComponent, hlast] at hread
    replace hread : f.readChannel px (f.nChannels - 1) = _ := hread
    unfold readChannel at hread
    split at hread
    next b hb =>
      have hend := (Bytes.slice?_eq_some_iff.mp hb).1
      rw [← Nat.succ_mul, Nat.succ_eq_add_one, Nat.sub_add_cancel hpos] at hend
      exact hend
    next => cases hread
  · rw [hn] at h
    cases h

theorem readComponent_extract (f : MemoryFormat) (px : Bytes) (c : Component) :
    f.readComponent (px.extract 0 f.nBytes) c = f.readComponent px c := by
  unfold readComponent
  split
  next n hn =>
    have hend : n * f.channelType.size + f.channelType.size ≤ f.nBytes := by
      rw [← Nat.succ_mul]
      exact Nat.mul_le_mul_right _ (lt_of_channelOf? hn)
    rw [readChannel, readChannel, Bytes.slice?_extract_zero hend]
  next => rfl

/-- **Nothing behind a pixel is read.** -/
theorem read_extract (f : MemoryFormat) (px : Bytes) : f.read (px.extract 0 f.nBytes) = f.read px := by
  simp only [read, readComponent_extract]

/-! ## Writing -/

theorem size_of_mem_channels (f : MemoryFormat) (p : Rgba) : ∀ b ∈ f.channels p, b.size = f.channelType.size := by
  intro b hb
  obtain ⟨c, -, rfl⟩ := List.mem_map.mp hb
  exact ChannelType.size_encode _ _

theorem length_channels (f : MemoryFormat) (p : Rgba) : (f.channels p).length = f.nChannels := List.length_map _

theorem size_pixel (f : MemoryFormat) (p : Rgba) : (f.pixel p).size = f.nBytes := by
  have hsize := (Bytes.join_take (f.size_of_mem_channels p) le_rfl).1
  rwa [List.take_length, length_channels] at hsize

/-- The channels that fit are written one after another, and then the rest is to be written. -/
theorem writeChannels_take {size : Nat} {l : List Bytes} (hl : ∀ b ∈ l, b.size = size) (hk : k ≤ l.length)
    (hfit : k * size ≤ target.size) :
    writeChannels size 0 target l = writeChannels size k (target.overwrite 0 (Bytes.join (l.take k))) (l.drop k) := by
  induction k with
  | zero =>
    rw [List.drop_zero, List.take_zero, Bytes.overwrite_zero, Bytes.join, List.foldl_nil, ByteArray.empty_append,
      ByteArray.size_empty, ByteArray.extract_zero_size]
  | succ k ih =>
    have hsize : (Bytes.join (l.take k)).size = k * size := (Bytes.join_take hl (Nat.le_of_succ_le hk)).1
    have hchannel : l[k].size = size := hl _ (List.getElem_mem hk)
    rw [Nat.succ_mul] at hfit
    have hover : (target.overwrite 0 (Bytes.join (l.take k))).size = target.size := Bytes.size_overwrite (by omega)
    rw [ih (by omega) (by omega), List.drop_eq_getElem_cons hk, writeChannels, hover,
      if_pos (by rw [Nat.succ_mul]; omega), ← hsize, Bytes.overwrite_overwrite, ← Bytes.join_concat,
      ← List.take_succ_eq_append_getElem hk]

/-- **A pixel is written over the beginning of the target**, where there is room for it. -/
theorem write_eq (p : Rgba) (h : f.nBytes ≤ target.size) :
    f.write p target = (target.overwrite 0 (f.pixel p), .ok ()) := by
  have hlength := f.length_channels p
  rw [write, writeChannels_take (f.size_of_mem_channels p) (k := f.nChannels) (by omega) h, ← hlength,
    List.drop_length, List.take_length]
  rfl

/-- The number of channels that fit a target which is too short. -/
theorem div_lt_nChannels (h : target.size < f.nBytes) : target.size / f.channelType.size < f.nChannels :=
  Nat.div_lt_of_lt_mul (by rwa [Nat.mul_comm])

/-- **A target that is too short gets the channels that fit**, and the next one is missed. -/
theorem write_eq_of_short (p : Rgba) (h : target.size < f.nBytes) :
    f.write p target =
      (target.overwrite 0 ((f.pixel p).extract 0 (target.size / f.channelType.size * f.channelType.size)),
        .error (.conversion (.targetTooShort (target.size / f.channelType.size)))) := by
  have hlt := div_lt_nChannels h
  have hlength := f.length_channels p
  have hmem := f.size_of_mem_channels p
  have hpos : 0 < f.channelType.size := by cases f.channelType <;> decide
  have hfit := Nat.div_mul_le_self target.size f.channelType.size
  have hnext := Nat.lt_div_mul_add hpos (a := target.size)
  generalize target.size / f.channelType.size = k at *
  have hover : (target.overwrite 0 (Bytes.join ((f.channels p).take k))).size = target.size := by
    refine Bytes.size_overwrite ?_
    rw [(Bytes.join_take hmem (by omega)).1]
    omega
  rw [write, writeChannels_take hmem (k := k) (by omega) hfit, List.drop_eq_getElem_cons (by omega), writeChannels,
    hover, if_neg (by rw [Nat.succ_mul]; omega), pixel, (Bytes.join_take hmem (by omega)).2]

theorem write_fill (f : MemoryFormat) (p : Rgba) : f.write p (Bytes.fill f.nBytes 0) = (f.pixel p, .ok ()) := by
  have hfill : (Bytes.fill f.nBytes 0).size = f.nBytes := Bytes.size_fill _ _
  have hsize := f.size_pixel p
  rw [write_eq p (by omega), Bytes.overwrite_zero, ByteArray.extract_eq_empty_iff.mpr (by omega),
    ByteArray.append_empty]

theorem convertPixel_eq (g : MemoryFormat) (hp : f.read px = .ok p) : f.convertPixel g px = .ok (g.pixel p) := by
  refine convertPixel_eq_ok_iff.mpr ?_
  rw [transform_eq hp, write_fill]

/-! ## Both together -/

/-- Which bytes a transformation reads and which it writes, for sources and targets of any length. -/
structure Footprint (f g : MemoryFormat) (src target : Bytes) : Prop where
  /-- It goes well if there is a pixel to be read and room for a pixel, and only then. -/
  ok_iff : (f.transform src g target).2 = .ok () ↔ f.nBytes ≤ src.size ∧ g.nBytes ≤ target.size
  /-- Of the source, nothing behind the first pixel counts. -/
  reads : ∀ src', src'.extract 0 f.nBytes = src.extract 0 f.nBytes →
    f.transform src' g target = f.transform src g target
  /-- The target keeps its length. -/
  size : (f.transform src g target).1.size = target.size
  /-- A source that is too short leaves the target as it was. -/
  unread : src.size < f.nBytes → (f.transform src g target).1 = target
  /-- What a whole pixel becomes is a whole pixel, and is one of its own before it has a target. -/
  whole : f.nBytes ≤ src.size → ∃ full, f.convertPixel g src = .ok full ∧ full.size = g.nBytes
  /-- It stands at the beginning of a target that has room for it, and behind it nothing changes. -/
  written : f.nBytes ≤ src.size → g.nBytes ≤ target.size → ∀ full, f.convertPixel g src = .ok full →
    ∀ i, (f.transform src g target).1[i]? = if i < g.nBytes then full[i]? else target[i]?
  /-- A target that is too short gets the channels of it that fit, and behind them nothing changes. -/
  cut : f.nBytes ≤ src.size → target.size < g.nBytes → ∀ full, f.convertPixel g src = .ok full →
    (f.transform src g target).2 = .error (.conversion (.targetTooShort (target.size / g.channelType.size))) ∧
      ∀ i, (f.transform src g target).1[i]? =
        if i < target.size / g.channelType.size * g.channelType.size then full[i]? else target[i]?

theorem transform_of_short (g : MemoryFormat) (target : Bytes) (h : src.size < f.nBytes) :
    ∃ n, f.transform src g target = (target, .error (.conversion (.pixelTooShort n))) := by
  rcases f.read_cases src with ⟨q, -, hq⟩ | ⟨n, hn⟩
  · exact absurd (size_of_read hq) (Nat.not_le_of_lt h)
  · exact ⟨n, by rw [transform, hn]⟩

theorem transform_congr (g : MemoryFormat) (target : Bytes) (h : src'.extract 0 f.nBytes = src.extract 0 f.nBytes) :
    f.transform src' g target = f.transform src g target := by
  rw [transform, transform, ← read_extract f src', h, read_extract]

theorem footprint_unread (h : src.size < f.nBytes) : Footprint f g src target := by
  obtain ⟨n, hout⟩ := transform_of_short g target h
  have hsrc : ¬ f.nBytes ≤ src.size := Nat.not_le_of_lt h
  refine ⟨?_, fun _ => transform_congr g target, by rw [hout], fun _ => by rw [hout], fun h => absurd h hsrc,
    fun h => absurd h hsrc, fun h => absurd h hsrc⟩
  rw [hout]
  exact iff_of_false (fun h => nomatch h) fun h => hsrc h.1

theorem footprint_written (hp : f.read src = .ok p) (htarget : g.nBytes ≤ target.size) :
    Footprint f g src target := by
  have hsrc := size_of_read hp
  have hsize := g.size_pixel p
  have hfull := convertPixel_eq g hp
  have hout := (transform_eq hp).trans (write_eq p htarget)
  refine ⟨?_, fun _ => transform_congr g target, ?_, fun h => absurd hsrc (Nat.not_le_of_lt h),
    fun _ => ⟨_, hfull, hsize⟩, ?_, fun _ h => absurd htarget (Nat.not_le_of_lt h)⟩
  · rw [hout]
    exact iff_of_true rfl ⟨hsrc, htarget⟩
  · rw [hout]
    exact Bytes.size_overwrite (by omega)
  · intro _ _ full h i
    obtain rfl := Except.ok.inj (hfull.symm.trans h)
    rw [hout, ← hsize]
    exact Bytes.getElem?_overwrite_zero (by omega) i

theorem footprint_cut (hp : f.read src = .ok p) (hshort : target.size < g.nBytes) : Footprint f g src target := by
  have hsrc := size_of_read hp
  have hfull := convertPixel_eq g hp
  have hout := (transform_eq hp).trans (write_eq_of_short p hshort)
  have hfit := Nat.div_mul_le_self target.size g.channelType.size
  have hpart : ((g.pixel p).extract 0 (target.size / g.channelType.size * g.channelType.size)).size =
      target.size / g.channelType.size * g.channelType.size := by
    rw [ByteArray.size_extract, g.size_pixel p]
    omega
  have htarget : ¬ g.nBytes ≤ target.size := Nat.not_le_of_lt hshort
  refine ⟨?_, fun _ => transform_congr g target, ?_, fun h => absurd hsrc (Nat.not_le_of_lt h),
    fun _ => ⟨_, hfull, g.size_pixel p⟩, fun _ h => absurd h htarget, ?_⟩
  · rw [hout]
    exact iff_of_false (fun h => nomatch h) fun h => htarget h.2
  · rw [hout]
    exact Bytes.size_overwrite (by omega)
  · intro _ _ full h
    obtain rfl := Except.ok.inj (hfull.symm.trans h)
    refine ⟨by rw [hout], fun i => ?_⟩
    rw [hout, Bytes.getElem?_overwrite_zero (by omega) i, hpart]
    split
    next hi => rw [Bytes.getElem?_extract_zero _ hi]
    next => rfl

/-- **Which bytes a transformation reads, and which it writes**: it looks at every channel of the first pixel and at
nothing else, and writes every channel that fits and nothing else. -/
theorem transform_footprint (f g : MemoryFormat) (src target : Bytes) : Footprint f g src target := by
  by_cases hsrc : f.nBytes ≤ src.size
  · obtain ⟨p, hp⟩ := read_of_size hsrc
    by_cases htarget : g.nBytes ≤ target.size
    · exact footprint_written hp htarget
    · exact footprint_cut hp (Nat.lt_of_not_le htarget)
  · exact footprint_unread (Nat.lt_of_not_le hsrc)

end MemoryFormat

end ImageLoader
