import Mathlib.Data.Nat.Find
import ImageLoader.Proofs.Format.Conversion

/-!
# Conversions of any buffer

A buffer need not hold the rows of the image that it is said to hold, and the rows need not lie one after another:
they may have gaps, overlap, or all be one row.  The sizes alone decide how its conversion ends, and which row is
blamed for it.

* `convertRows_add`: rows can be converted in two parts.
* `convertRows_short`: **the first row that is not there ends the conversion.**
* `convertBuffer_ending`: the four ways in which a conversion ends, and the sizes that lead to each.
* `convertBuffer_converts`: **a buffer is converted if its rows are there, and only then**, pixel by pixel.
-/

namespace ImageLoader

variable {source format : MemoryFormat} {src out : Bytes} {width height stride m n y : Nat}

/-! ## Rows that are there -/

/-- Row `y` of an image lies in the buffer. -/
def HasRow (source : MemoryFormat) (src : Bytes) (width stride y : Nat) : Prop :=
  y * stride + width * source.nBytes ≤ src.size

instance : Decidable (HasRow source src width stride y) := inferInstanceAs (Decidable (_ ≤ _))

theorem exists_first_missing (h : ¬∀ y < height, HasRow source src width stride y) :
    ∃ y < height, ¬HasRow source src width stride y ∧ ∀ k < y, HasRow source src width stride k := by
  have hmissing : ∃ y, y < height ∧ ¬HasRow source src width stride y := by
    simpa only [not_forall, exists_prop] using h
  obtain ⟨hy, hend⟩ := Nat.find_spec hmissing
  refine ⟨Nat.find hmissing, hy, hend, fun k hk => ?_⟩
  by_contra hrow
  exact Nat.find_min hmissing hk ⟨Nat.lt_trans hk hy, hrow⟩

/-- Where all rows before it are there, the end of a row can be counted. -/
theorem row_end_lt (hwidth : width < UInt32.size) (hstride : stride < UInt32.size)
    (hsrc : src.size ≤ allocationLimit) (hbefore : ∀ k < y, HasRow source src width stride k) :
    y * stride + width * source.nBytes < wordLimit := by
  cases y with
  | zero =>
    rw [Nat.zero_mul, Nat.zero_add]
    exact row_bytes_lt hwidth source
  | succ y =>
    -- it is one stride behind the end of the row before, which is in memory
    have hrow : y * stride + width * source.nBytes ≤ src.size := hbefore y (Nat.lt_succ_self y)
    have hlimit : allocationLimit + UInt32.size < wordLimit := by decide
    rw [Nat.succ_mul]
    omega

/-! ## Row after row -/

theorem convertRows_add :
    convertRows source format src width stride (m + n) y out =
      convertRows source format src width stride m y out >>=
        convertRows source format src width stride n (y + m) := by
  induction m generalizing y out with
  | zero =>
    rw [Nat.zero_add]
    rfl
  | succ m ih =>
    rw [Nat.add_right_comm, convertRows, convertRows]
    by_cases hword : wordLimit ≤ y * stride + width * source.nBytes
    · rw [if_pos hword, if_pos hword]
      rfl
    · rw [if_neg hword, if_neg hword]
      cases src.slice? (y * stride) (width * source.nBytes) with
      | none => rfl
      | some row =>
        cases hrow : convertRow source format row width 0 with
        | error e =>
          simp only [hrow]
          rfl
        | ok line =>
          simp only [hrow]
          rw [ih, Nat.add_right_comm y 1 m]
          rfl

/-- **The first row that is not there ends the conversion.** -/
theorem convertRows_short (hy : y < n) (hend : ¬HasRow source src width stride y)
    (hbefore : ∀ k < y, HasRow source src width stride k)
    (hword : ∀ k ≤ y, k * stride + width * source.nBytes < wordLimit) :
    convertRows source format src width stride n 0 ByteArray.empty =
      .error (.error (.conversion (.sourceEnds y))) := by
  -- the rows before it are converted, and then it is asked for
  have hempty : IsConversion source format src stride width 0 ByteArray.empty := .empty
  obtain ⟨image, hrows, -⟩ := hempty.convertRows (n := y) (fun k hk => hbefore k (by omega))
    fun k hk => hword k (by omega)
  obtain ⟨rest, rfl⟩ : ∃ rest, n = y + (rest + 1) := ⟨n - y - 1, by omega⟩
  have hlast := hword y (Nat.le_refl y)
  have hslice : src.slice? (y * stride) (width * source.nBytes) = none := if_neg hend
  rw [convertRows_add, hrows, Nat.zero_add]
  show convertRows source format src width stride (rest + 1) y image = _
  rw [convertRows, if_neg (by omega), hslice]

/-! ## How a conversion ends -/

/-- How the conversion of a buffer ends, with the sizes that lead there. -/
inductive BufferEnding (source format : MemoryFormat) (src : Bytes) (width height stride : Nat) :
    Outcome FrameError Bytes → Prop
  /-- A word cannot count the bytes of the image. -/
  | tooLarge (hsize : wordLimit ≤ width * format.nBytes * height) :
      BufferEnding source format src width height stride (.error (.error .dimensionTooLarge))
  /-- A word can count them, and no memory can hold them. -/
  | unheld (hsize : width * format.nBytes * height < wordLimit)
      (hroom : allocationLimit < width * format.nBytes * height) :
      BufferEnding source format src width height stride (.error (.panic capacityPanic))
  /-- A row is not there, and is the first. -/
  | short {y : Nat} (hroom : width * format.nBytes * height ≤ allocationLimit) (hwidth : width ≠ 0) (hy : y < height)
      (hend : ¬HasRow source src width stride y) (hbefore : ∀ k < y, HasRow source src width stride k) :
      BufferEnding source format src width height stride (.error (.error (.conversion (.sourceEnds y))))
  /-- All rows are there, or have no pixels. -/
  | converted {image : Bytes} (hroom : width * format.nBytes * height ≤ allocationLimit)
      (hrows : width = 0 ∨ ∀ y < height, HasRow source src width stride y)
      (himage : IsConversion source format src stride width height image) :
      BufferEnding source format src width height stride (.ok image)

theorem isConversion_of_width_zero : IsConversion source format src stride 0 height ByteArray.empty where
  size := by simp
  pixel x hx := absurd hx (Nat.not_lt_zero x)

namespace BufferEnding

variable {o : Outcome FrameError Bytes}

theorem tooLarge_iff (h : BufferEnding source format src width height stride o) :
    o = .error (.error .dimensionTooLarge) ↔ wordLimit ≤ width * format.nBytes * height := by
  have hlimit : allocationLimit < wordLimit := by decide
  constructor
  · rintro rfl
    cases h with
    | tooLarge hsize => exact hsize
  · intro hsize
    cases h with
    | tooLarge => rfl
    | unheld hlt => omega
    | short hroom => omega
    | converted hroom => omega

theorem ok_iff (h : BufferEnding source format src width height stride o) :
    (∃ image, o = .ok image) ↔ width * format.nBytes * height ≤ allocationLimit ∧
      (width = 0 ∨ ∀ y < height, HasRow source src width stride y) := by
  have hlimit : allocationLimit < wordLimit := by decide
  constructor
  · rintro ⟨image, rfl⟩
    cases h with
    | converted hroom hrows => exact ⟨hroom, hrows⟩
  · rintro ⟨hroom, hrows⟩
    cases h with
    | tooLarge hsize => omega
    | unheld _ hover => omega
    | short _ hwidth hy hend => exact absurd (hrows.resolve_left hwidth _ hy) hend
    | converted => exact ⟨_, rfl⟩

theorem short_iff (h : BufferEnding source format src width height stride o) :
    o = .error (.error (.conversion (.sourceEnds y))) ↔ width * format.nBytes * height ≤ allocationLimit ∧
      width ≠ 0 ∧ y < height ∧ ¬HasRow source src width stride y ∧ ∀ k < y, HasRow source src width stride k := by
  have hlimit : allocationLimit < wordLimit := by decide
  constructor
  · rintro rfl
    cases h with
    | short hroom hwidth hy hend hbefore => exact ⟨hroom, hwidth, hy, hend, hbefore⟩
  · rintro ⟨hroom, hwidth, hy, hend, hbefore⟩
    cases h with
    | tooLarge hsize => omega
    | unheld _ hover => omega
    | converted _ hrows => exact absurd (hrows.resolve_left hwidth y hy) hend
    | @short z _ _ _ hzend hzbefore =>
      -- of two rows that are not there, neither comes before the other if both are the first
      have hzy : ¬z < y := fun hlt => hzend (hbefore z hlt)
      have hyz : ¬y < z := fun hlt => hend (hzbefore y hlt)
      obtain rfl : y = z := by omega
      rfl

theorem isConversion {image : Bytes} (h : BufferEnding source format src width height stride (.ok image)) :
    IsConversion source format src stride width height image := by
  cases h with
  | converted _ _ himage => exact himage

end BufferEnding

/-- **The conversion of any buffer in memory ends in one of four ways**, as its sizes say. -/
theorem convertBuffer_ending (hwidth : width < UInt32.size) (hstride : stride < UInt32.size)
    (hsrc : src.size ≤ allocationLimit) :
    BufferEnding source format src width height stride (convertBuffer source src width height stride format) := by
  by_cases hsize : width * format.nBytes * height < wordLimit
  · rw [convertBuffer_of_lt src stride (row_bytes_lt hwidth source) (row_bytes_lt hwidth format) hsize]
    by_cases hroom : width * format.nBytes * height ≤ allocationLimit
    · rw [if_neg (Nat.not_lt_of_le hroom)]
      by_cases hzero : width = 0
      · rw [if_pos hzero]
        subst hzero
        exact .converted hroom (.inl rfl) isConversion_of_width_zero
      · rw [if_neg hzero]
        by_cases hrows : ∀ y < height, HasRow source src width stride y
        · have hempty : IsConversion source format src stride width 0 ByteArray.empty := .empty
          obtain ⟨image, himage, hpixels⟩ := hempty.convertRows (n := height)
            (fun k hk => hrows k (by omega))
            fun k hk => row_end_lt hwidth hstride hsrc fun j hj => hrows j (by omega)
          rw [himage]
          rw [Nat.zero_add] at hpixels
          exact .converted hroom (.inr hrows) hpixels
        · obtain ⟨y, hy, hend, hbefore⟩ := exists_first_missing hrows
          rw [convertRows_short hy hend hbefore
            fun k hk => row_end_lt hwidth hstride hsrc fun j hj => hbefore j (by omega)]
          exact .short hroom hzero hy hend hbefore
    · rw [if_pos (Nat.lt_of_not_le hroom)]
      exact .unheld hsize (Nat.lt_of_not_le hroom)
  · have hlarge : wordLimit ≤ width * format.nBytes * height := Nat.le_of_not_lt hsize
    rw [convertBuffer_tooLarge src stride (row_bytes_lt hwidth source) (row_bytes_lt hwidth format) hlarge]
    exact .tooLarge hlarge

/-- What converting a buffer gives, whatever the buffer holds. -/
structure Converts (source format : MemoryFormat) (src : Bytes) (width height stride : Nat)
    (o : Outcome FrameError Bytes) : Prop where
  /-- The image is refused as too large if a word cannot count its bytes, and only then. -/
  tooLarge : o = .error (.error .dimensionTooLarge) ↔ wordLimit ≤ width * format.nBytes * height
  /-- One that is not too large is given if all rows are there or have no pixels, and only then. -/
  converted : width * format.nBytes * height < wordLimit →
    ((∃ image, o = .ok image) ↔ width = 0 ∨ ∀ y < height, HasRow source src width stride y)
  /-- It is packed, -/
  size : ∀ image, o = .ok image → image.size = width * height * format.nBytes
  /-- and each of its pixels is transformed from the pixel at its place. -/
  pixel : ∀ image, o = .ok image → ∀ x < width, ∀ y < height,
    source.transform (source.pixelAt src stride x y) format (Bytes.fill format.nBytes 0) =
      (format.pixelAt image (width * format.nBytes) x y, .ok ())
  /-- Otherwise the first row that is not there is named. -/
  short : width * format.nBytes * height < wordLimit → ∀ y,
    (o = .error (.error (.conversion (.sourceEnds y))) ↔ width ≠ 0 ∧ y < height ∧
      ¬HasRow source src width stride y ∧ ∀ k < y, HasRow source src width stride k)
  /-- There is no other error, and no panic. -/
  only : ∀ stop, o = .error stop →
    stop = .error .dimensionTooLarge ∨ ∃ y, stop = .error (.conversion (.sourceEnds y))

/-- **A buffer in memory is converted if all its rows are there, and only then**, where memory is granted for what a
word can count: pixel by pixel, whatever the distance of its rows.  Otherwise the first row that is not there is named,
unless a word cannot count the bytes of the image. -/
theorem convertBuffer_converts (source format : MemoryFormat) {src : Bytes} {width height stride : Nat}
    (hwidth : width < UInt32.size) (hstride : stride < UInt32.size) (hsrc : src.size ≤ allocationLimit)
    (hroom : width * format.nBytes * height < wordLimit → width * format.nBytes * height ≤ allocationLimit) :
    Converts source format src width height stride (convertBuffer source src width height stride format) := by
  have hending : BufferEnding source format src width height stride
      (convertBuffer source src width height stride format) := convertBuffer_ending hwidth hstride hsrc
  refine ⟨hending.tooLarge_iff, fun hsize => ?_, fun image h => ?_, fun image h x hx y hy => ?_, fun hsize y => ?_,
    fun stop h => ?_⟩
  · rw [hending.ok_iff]
    exact and_iff_right (hroom hsize)
  · rw [h] at hending
    rw [hending.isConversion.size, ← Nat.mul_assoc, Nat.mul_comm height]
  · rw [h] at hending
    exact MemoryFormat.convertPixel_eq_ok_iff.mp (hending.isConversion.pixel x hx y hy)
  · rw [hending.short_iff]
    exact and_iff_right (hroom hsize)
  · rw [h] at hending
    cases hending with
    | tooLarge => exact .inl rfl
    | unheld hsize hover => exact absurd (hroom hsize) (Nat.not_le_of_lt hover)
    | short => exact .inr ⟨_, rfl⟩

/-- Of three rows of four bytes, each one byte behind the one before, the last is not there in five. -/
theorem convertBuffer_converts_overlapping :
    let src := Bytes.ofList [10, 20, 30, 40, 50]
    2 < UInt32.size ∧ 1 < UInt32.size ∧ src.size ≤ allocationLimit ∧
      (2 * MemoryFormat.r8g8b8.nBytes * 3 < wordLimit → 2 * MemoryFormat.r8g8b8.nBytes * 3 ≤ allocationLimit) ∧
      convertBuffer .g16 src 2 3 1 .r8g8b8 = .error (.error (.conversion (.sourceEnds 2))) := by
  intro src
  have hwidth : 2 < UInt32.size := by decide
  have hstride : 1 < UInt32.size := by decide
  have hsrc : src.size ≤ allocationLimit := by decide
  have hroom : 2 * MemoryFormat.r8g8b8.nBytes * 3 < wordLimit →
      2 * MemoryFormat.r8g8b8.nBytes * 3 ≤ allocationLimit := by decide
  exact ⟨hwidth, hstride, hsrc, hroom,
    ((convertBuffer_converts .g16 .r8g8b8 hwidth hstride hsrc hroom).short (by decide) 2).mpr (by decide)⟩

end ImageLoader
