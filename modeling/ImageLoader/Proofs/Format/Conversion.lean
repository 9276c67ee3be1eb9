import ImageLoader.Format.Buffer
import ImageLoader.Proofs.Rows

/-!
# Conversions of whole pixels

A pixel that is as long as its format says can be read, and a target that is as long as its format says can be
written, so converting whole pixels never fails.  What a converted row, and a converted buffer, holds is
therefore said pixel by pixel.

* `MemoryFormat.convertPixel_of_size`: **a whole pixel is converted to a whole pixel.**
* `IsConversion.push`, `IsConversion.convertRows`: one row more, and from it all rows.
* `convertBuffer_eq_ok`, `convertBuffer_tooLarge`: **a buffer that holds all its rows is converted pixel by
  pixel**, unless the result is too large.
-/

namespace ImageLoader

namespace MemoryFormat

variable {source format : MemoryFormat} {src : Bytes}

theorem lt_of_channelOf? {f : MemoryFormat} {c : Component} {n : Nat} (h : f.channelOf? c = some n) :
    n < f.nChannels := by
  have hlt : ∀ {c : Component}, f.layout.order.idxOf? c = some n → n < f.layout.order.length := by
    intro c hc
    rw [List.idxOf?, List.findIdx?_eq_some_iff_getElem] at hc
    exact hc.1
  unfold channelOf? at h
  simp only at h
  split at h
  next m hm =>
    cases h
    exact hlt hm
  next hm =>
    split at h
    · cases h
    · exact hlt h

theorem channel_end_le {f : MemoryFormat} {n : Nat} (hn : n < f.nChannels) (h : f.nBytes ≤ src.size) :
    n * f.channelType.size + f.channelType.size ≤ src.size := by
  rw [← Nat.succ_mul]
  exact Nat.le_trans (Nat.mul_le_mul_right _ hn) h

theorem readChannel_of_lt {f : MemoryFormat} {n : Nat} (hn : n < f.nChannels)
    (h : f.nBytes ≤ src.size) : ∃ x, f.readChannel src n = .ok x := by
  unfold readChannel
  rw [Bytes.slice?, if_pos (channel_end_le hn h)]
  exact ⟨_, rfl⟩

theorem readComponent_of_size {f : MemoryFormat} (h : f.nBytes ≤ src.size) (c : Component) :
    ∃ x, f.readComponent src c = .ok x := by
  unfold readComponent
  split
  next n hn => exact readChannel_of_lt (lt_of_channelOf? hn) h
  next hn => exact ⟨_, rfl⟩

theorem read_of_size {f : MemoryFormat} (h : f.nBytes ≤ src.size) : ∃ p, f.read src = .ok p := by
  obtain ⟨red, hred⟩ := readComponent_of_size h .red
  obtain ⟨green, hgreen⟩ := readComponent_of_size h .green
  obtain ⟨blue, hblue⟩ := readComponent_of_size h .blue
  obtain ⟨alpha, halpha⟩ := readComponent_of_size h .alpha
  unfold read
  rw [hred, hgreen, hblue, halpha]
  exact ⟨_, rfl⟩

/-- Channels are written one after another, and nothing before the first of them changes. -/
theorem writeChannels_of_size {size : Nat} (l : List Bytes) (hl : ∀ c ∈ l, c.size = size) {n : Nat}
    {target : Bytes} (h : (n + l.length) * size ≤ target.size) :
    ∃ out, writeChannels size n target l = (out, .ok ()) ∧ out.size = target.size ∧
      out.extract 0 (n * size) = target.extract 0 (n * size) ∧
      ∀ i c, l[i]? = some c → out.extract ((n + i) * size) ((n + i) * size + size) = c := by
  induction l generalizing n target with
  | nil => exact ⟨target, rfl, rfl, rfl, fun i c hi => by cases hi⟩
  | cons c rest ih =>
    have hc := hl c List.mem_cons_self
    have hfirst : (n + 1) * size ≤ target.size :=
      Nat.le_trans (Nat.mul_le_mul_right size (by rw [List.length_cons]; omega)) h
    have hend : n * size + c.size ≤ target.size := by rw [hc, ← Nat.succ_mul]; exact hfirst
    have hover : (Bytes.overwrite target (n * size) c).size = target.size := Bytes.size_overwrite hend
    have hrest : (n + 1 + rest.length) * size ≤ (Bytes.overwrite target (n * size) c).size := by
      rw [hover, show n + 1 + rest.length = n + (c :: rest).length by rw [List.length_cons]; omega]
      exact h
    obtain ⟨out, hout, hsize, hfront, hchannel⟩ := ih (fun c hc => hl c (List.mem_cons_of_mem _ hc)) hrest
    have hwritten : out.extract 0 ((n + 1) * size) = target.extract 0 (n * size) ++ c := by
      rw [hfront, ← Bytes.extract_overwrite_zero hend, hc, Nat.succ_mul]
    have hbefore : (target.extract 0 (n * size)).size = n * size := by
      rw [ByteArray.size_extract]
      omega
    -- the parts of what was written before the rest
    have hpart : ∀ i j, j ≤ (n + 1) * size →
        out.extract i j = (target.extract 0 (n * size) ++ c).extract i j := by
      intro i j hj
      rw [← hwritten, Bytes.extract_extract_of_le (by omega), Nat.zero_add, Nat.zero_add]
    refine ⟨out, by rw [writeChannels, if_pos hfirst, hout], hsize.trans hover, ?_, fun i d hi => ?_⟩
    · rw [hpart _ _ (Nat.mul_le_mul_right size (Nat.le_succ n)), ByteArray.extract_append_eq_left hbefore.symm]
    · cases i with
      | zero =>
        cases hi
        rw [Nat.add_zero, hpart _ _ (Nat.le_of_eq (Nat.succ_mul n size).symm),
          ByteArray.extract_append_eq_right hbefore.symm (by rw [hbefore, hc])]
      | succ i => rw [← hchannel i d hi, show n + (i + 1) = n + 1 + i by omega]

theorem write_of_size {f : MemoryFormat} {target : Bytes} (p : Rgba) (h : f.nBytes ≤ target.size) :
    ∃ out, f.write p target = (out, .ok ()) ∧ out.size = target.size ∧
      ∀ n c, f.layout.order[n]? = some c →
        out.extract (n * f.channelType.size) (n * f.channelType.size + f.channelType.size) =
          f.channelType.encode (p.component (f.factor p) c) := by
  have hchannels : ∀ c ∈ f.channels p, c.size = f.channelType.size := by
    intro c hc
    obtain ⟨component, -, rfl⟩ := List.mem_map.mp hc
    exact ChannelType.size_encode _ _
  have hlength : (0 + (f.channels p).length) * f.channelType.size ≤ target.size := by
    rw [channels, List.length_map, Nat.zero_add]
    exact h
  obtain ⟨out, hout, hsize, -, hchannel⟩ := writeChannels_of_size (f.channels p) hchannels hlength
  refine ⟨out, hout, hsize, fun n c hn => ?_⟩
  have hencoded := hchannel n (f.channelType.encode (p.component (f.factor p) c))
    (by rw [channels, List.getElem?_map, hn]; rfl)
  rwa [Nat.zero_add] at hencoded

/-- **Whole pixels are converted**, each to a whole pixel. -/
theorem convertPixel_of_size (format : MemoryFormat) (h : source.nBytes ≤ src.size) :
    ∃ out, source.convertPixel format src = .ok out ∧ out.size = format.nBytes := by
  obtain ⟨p, hp⟩ := read_of_size h
  have hfill : (Bytes.fill format.nBytes 0).size = format.nBytes := Bytes.size_fill _ _
  obtain ⟨out, hw, hsize, -⟩ := write_of_size p (Nat.le_of_eq hfill.symm)
  refine ⟨out, ?_, hsize.trans hfill⟩
  rw [convertPixel, transform, hp]
  simp only [hw]

theorem convertPixel_eq_ok_iff {out : Bytes} :
    source.convertPixel format src = .ok out ↔
      source.transform src format (Bytes.fill format.nBytes 0) = (out, .ok ()) := by
  unfold convertPixel
  rcases source.transform src format (Bytes.fill format.nBytes 0) with ⟨target, e | _⟩ <;> simp

/-- The bytes of the pixel in column `x` and row `y` of an image whose rows are `stride` bytes apart. -/
def pixelAt (f : MemoryFormat) (b : Bytes) (stride x y : Nat) : Bytes :=
  b.extract (y * stride + x * f.nBytes) (y * stride + x * f.nBytes + f.nBytes)

end MemoryFormat

/-! ## Rows and buffers -/

variable {source format : MemoryFormat} {src row out : Bytes} {stride width height y : Nat}

/-- The packed image, in another format, of rows that are `stride` bytes apart. -/
structure IsConversion (source format : MemoryFormat) (src : Bytes) (stride width height : Nat)
    (out : Bytes) : Prop where
  size : out.size = height * (width * format.nBytes)
  pixel : ∀ x < width, ∀ y < height, source.convertPixel format (source.pixelAt src stride x y) =
    .ok (format.pixelAt out (width * format.nBytes) x y)

theorem convertRow_of_size (format : MemoryFormat) {n start : Nat}
    (h : start + n * source.nBytes ≤ row.size) :
    ∃ out, convertRow source format row n start = .ok out ∧ out.size = n * format.nBytes ∧
      ∀ x < n, source.convertPixel format (row.extract (start + x * source.nBytes)
          (start + x * source.nBytes + source.nBytes)) =
        .ok (out.extract (x * format.nBytes) (x * format.nBytes + format.nBytes)) := by
  induction n generalizing start with
  | zero => exact ⟨ByteArray.empty, rfl, by simp, fun x hx => absurd hx (Nat.not_lt_zero x)⟩
  | succ n ih =>
    rw [Nat.succ_mul] at h
    have hsize : source.nBytes ≤ (row.extract start (start + source.nBytes)).size := by
      rw [ByteArray.size_extract]
      omega
    have hleft : start + source.nBytes + n * source.nBytes ≤ row.size := by omega
    obtain ⟨first, hfirst, hlen⟩ := MemoryFormat.convertPixel_of_size format hsize
    obtain ⟨rest, hrest, hrlen, hpixel⟩ := ih hleft
    refine ⟨first ++ rest, ?_, ?_, fun x hx => ?_⟩
    · rw [convertRow, hfirst, hrest]
      rfl
    · rw [ByteArray.size_append, hlen, hrlen, Nat.succ_mul, Nat.add_comm]
    · cases x with
      | zero =>
        rw [Nat.zero_mul, Nat.zero_mul, Nat.add_zero, Nat.zero_add, hfirst,
          ByteArray.extract_append_eq_left hlen.symm]
      | succ x =>
        -- behind the first pixel, everything is as in the rest, which begins one pixel later
        have hx' := hpixel x (Nat.lt_of_succ_lt_succ hx)
        have hshift : (x + 1) * format.nBytes = format.nBytes + x * format.nBytes := by
          rw [Nat.succ_mul, Nat.add_comm]
        have hright : (first ++ rest).extract ((x + 1) * format.nBytes)
            ((x + 1) * format.nBytes + format.nBytes) =
              rest.extract (x * format.nBytes) (x * format.nBytes + format.nBytes) := by
          rw [hshift, Nat.add_assoc, ByteArray.extract_append_size_add' hlen.symm]
        rw [hright, ← hx', Nat.succ_mul]
        congr 2 <;> omega

namespace IsConversion

theorem empty : IsConversion source format src stride width 0 ByteArray.empty where
  size := by simp
  pixel _ _ y hy := absurd hy (Nat.not_lt_zero y)

theorem push (h : IsConversion source format src stride width y out) {line : Bytes}
    (hsize : line.size = width * format.nBytes)
    (hline : ∀ x < width, source.convertPixel format (source.pixelAt src stride x y) =
      .ok (line.extract (x * format.nBytes) (x * format.nBytes + format.nBytes))) :
    IsConversion source format src stride width (y + 1) (out ++ line) where
  size := by rw [ByteArray.size_append, h.size, hsize, Nat.succ_mul]
  pixel x hx k hk := by
    have hend : x * format.nBytes + format.nBytes ≤ width * format.nBytes := by
      rw [← Nat.succ_mul]
      exact Nat.mul_le_mul_right format.nBytes hx
    -- an earlier row ends before the new one begins
    rcases Nat.lt_succ_iff_lt_or_eq.mp hk with hlt | rfl
    · have hrow : k * (width * format.nBytes) + width * format.nBytes ≤
          y * (width * format.nBytes) := by
        rw [← Nat.succ_mul]
        exact Nat.mul_le_mul_right _ hlt
      rw [h.pixel x hx k hlt, MemoryFormat.pixelAt, MemoryFormat.pixelAt,
        Bytes.extract_append_of_le (by rw [h.size]; omega)]
    · rw [hline x hx, MemoryFormat.pixelAt, Nat.add_assoc,
        ByteArray.extract_append_size_add' h.size.symm]

/-- **The rows that are left are converted** behind those that are. -/
theorem convertRows {n : Nat} (h : IsConversion source format src stride width y out)
    (hfit : ∀ k < y + n, k * stride + width * source.nBytes ≤ src.size)
    (hword : ∀ k < y + n, k * stride + width * source.nBytes < wordLimit) :
    ∃ image, ImageLoader.convertRows source format src width stride n y out = .ok image ∧
      IsConversion source format src stride width (y + n) image := by
  induction n generalizing y out with
  | zero => exact ⟨out, rfl, h⟩
  | succ n ih =>
    have hf := hfit y (by omega)
    have hw := hword y (by omega)
    have hrow : 0 + width * source.nBytes ≤
        (src.extract (y * stride) (y * stride + width * source.nBytes)).size := by
      rw [ByteArray.size_extract]
      omega
    obtain ⟨line, hline, hsize, hpixel⟩ := convertRow_of_size format hrow
    have hpush := h.push hsize fun x hx => by
      have hend : x * source.nBytes + source.nBytes ≤ width * source.nBytes := by
        rw [← Nat.succ_mul]
        exact Nat.mul_le_mul_right source.nBytes hx
      rw [← hpixel x hx, Nat.zero_add, Bytes.extract_extract_of_le (by omega),
        MemoryFormat.pixelAt, Nat.add_assoc]
    obtain ⟨image, hrest, himage⟩ :=
      ih hpush (fun k hk => hfit k (by omega)) fun k hk => hword k (by omega)
    refine ⟨image, ?_, by rwa [show y + (n + 1) = y + 1 + n by omega]⟩
    rw [ImageLoader.convertRows, if_neg (by omega), Bytes.slice?, if_pos hf]
    simp only [hline]
    exact hrest

end IsConversion

theorem sized_of_lt {n : Nat} (h : n < wordLimit) : sized n = .ok n := if_pos h

theorem row_bytes_lt (hwidth : width < UInt32.size) (f : MemoryFormat) : width * f.nBytes < wordLimit :=
  calc width * f.nBytes < UInt32.size * UInt32.size :=
        Nat.mul_lt_mul_of_lt_of_le hwidth (Nat.le_trans f.nBytes_le (by decide)) (by decide)
    _ = wordLimit := rfl

/-- What is left to be done where a word can count the bytes of every row and of the image. -/
theorem convertBuffer_of_lt (src : Bytes) (stride : Nat) (hsource : width * source.nBytes < wordLimit)
    (htarget : width * format.nBytes < wordLimit) (h : width * format.nBytes * height < wordLimit) :
    convertBuffer source src width height stride format =
      if allocationLimit < width * format.nBytes * height then .error (.panic capacityPanic)
      else if width = 0 then .ok ByteArray.empty
      else convertRows source format src width stride height 0 ByteArray.empty := by
  unfold convertBuffer
  rw [sized_of_lt hsource, sized_of_lt htarget, sized_of_lt h]
  rfl

/-- **A buffer that holds all its rows is converted**, where there is room for the result. -/
theorem convertBuffer_eq_ok (hfit : ∀ k < height, k * stride + width * source.nBytes ≤ src.size)
    (hword : ∀ k < height, k * stride + width * source.nBytes < wordLimit)
    (hwidth : 0 < width) (hheight : 0 < height)
    (hroom : width * format.nBytes * height ≤ allocationLimit) :
    ∃ image, convertBuffer source src width height stride format = .ok image ∧
      IsConversion source format src stride width height image := by
  have hlimit : allocationLimit < wordLimit := by decide
  have hsource : width * source.nBytes < wordLimit := by
    have h := hword 0 hheight
    omega
  have htarget : width * format.nBytes < wordLimit :=
    calc width * format.nBytes ≤ width * format.nBytes * height := Nat.le_mul_of_pos_right _ hheight
      _ < wordLimit := by omega
  rw [← Nat.zero_add height] at hfit hword
  obtain ⟨image, hrows, himage⟩ := IsConversion.empty.convertRows hfit hword
  rw [Nat.zero_add] at himage
  refine ⟨image, ?_, himage⟩
  rw [convertBuffer_of_lt src stride hsource htarget (by omega), if_neg (by omega), if_neg (by omega)]
  exact hrows

/-- A buffer whose conversion has more bytes than a word can count is refused. -/
theorem convertBuffer_tooLarge (src : Bytes) (stride : Nat) (hsource : width * source.nBytes < wordLimit)
    (htarget : width * format.nBytes < wordLimit)
    (h : wordLimit ≤ width * format.nBytes * height) :
    convertBuffer source src width height stride format = .error (.error .dimensionTooLarge) := by
  unfold convertBuffer
  rw [sized_of_lt hsource, sized_of_lt htarget]
  show Outcome.ofExcept (sized (width * format.nBytes * height)) >>= _ = _
  rw [sized, if_neg (by omega)]
  rfl

end ImageLoader
