import ImageLoader.Proofs.Frame.Rescaled
import ImageLoader.Proofs.Frame.Words

/-!
# Edits of frames that nobody has checked

The steps of finishing are taken on frames that were found valid, and never panic there.  Each can also be asked for by
itself, of a frame of any sizes and with any buffer.  Checking and sealing then answer all the same.  The others do not:
rows are moved before anybody has asked whether the buffer has them, the end of a slice is calculated before anybody
has asked whether a word can count it, and memory is asked for that nobody can have.  Here it is said of which frames,
and of no others.

* `RawFrame.Ragged`: rows that would have to be moved are not there.
* `RawFrame.Overreaches`: a region that no memory can hold, or that begins behind what a word can count.
* `RawFrame.moveRows_ending`, `RawFrame.removePadding_ending`: the ways in which padding is removed, with the sizes that
  lead to each.
* `RawFrame.clip_panics_iff`, `RawFrame.convertTo_panics_iff`, `RawFrame.scaledBy_panics_iff`: **when the steps panic.**
* `Words.removePadding_bounded`, `Words.scale_bounded`: in machine words nothing else leaves a word or a buffer.
* `Words.unvalidated`: **of any frame, which operations panic**: both together.
-/

namespace ImageLoader

/-! ## Panics -/

namespace Outcome

variable {ε α : Type}

/-- Work that stopped in the way nobody asked for. -/
def Panics (o : Outcome ε α) : Prop := ∃ p, o = .error (.panic p)

theorem panics_panic (p : Panic) : Panics (.error (.panic p) : Outcome ε α) := ⟨p, rfl⟩

theorem not_panics_ok (a : α) : ¬ Panics (.ok a : Outcome ε α) := by
  rintro ⟨p, h⟩
  cases h

theorem not_panics_error (e : ε) : ¬ Panics (.error (.error e) : Outcome ε α) := by
  rintro ⟨p, h⟩
  cases h

/-- What becomes of a stop does not depend on what else there might have been. -/
theorem panics_error_iff {β : Type} (stop : Stop ε) :
    Panics (.error stop : Outcome ε α) ↔ Panics (.error stop : Outcome ε β) := by
  cases stop with
  | error e => exact iff_of_false (not_panics_error e) (not_panics_error e)
  | panic p => exact iff_of_true (panics_panic p) (panics_panic p)

theorem not_panics_ofExcept (r : Except ε α) : ¬ (ofExcept r).Panics := by
  cases r with
  | ok a => exact not_panics_ok a
  | error e => exact not_panics_error e

end Outcome

open Outcome (not_panics_ok not_panics_error not_panics_ofExcept panics_panic panics_error_iff)

namespace RawFrame

variable {f g : RawFrame} {b : Bytes} {len stride offset row n y : Nat} {c : MemoryFormat} {r : ClipRegion}
  {width height : UInt32}

theorem not_panics_withStride (f : RawFrame) (n : Nat) : ¬ (f.withStride n).toOutcome.Panics := by
  by_cases h : n < UInt32.size
  · rw [withStride_of_lt h]
    exact not_panics_ok _
  · rw [withStride_of_not_lt h]
    exact not_panics_error _

/-! ## Padding -/

/-- Row `y` lies in the buffer, where it is and where it is to be. -/
def Lies (b : Bytes) (len stride y : Nat) : Prop := y * max stride len + len ≤ b.size

theorem lies_iff : Lies b len stride y ↔ y * stride + len ≤ b.size ∧ y * len + len ≤ b.size := by
  rw [Lies, ← Nat.mul_max_mul_left]
  omega

theorem Lies.of_le {k : Nat} (h : Lies b len stride y) (hk : k ≤ y) : Lies b len stride k :=
  Nat.le_trans (Nat.add_le_add_right (Nat.mul_le_mul_right _ hk) _) h

theorem moveWithin_of_lies (h : Lies b len stride y) :
    ∃ b', moveWithin b (y * stride) len (y * len) = .ok b' ∧ b'.size = b.size := by
  obtain ⟨hsource, htarget⟩ := lies_iff.mp h
  have hmove : moveWithin b (y * stride) len (y * len) = .ok _ :=
    (if_neg (Nat.not_lt_of_le hsource)).trans (if_neg (Nat.not_lt_of_le htarget))
  exact ⟨_, hmove, (Words.moveWithin_eq_ok hmove).2.2⟩

theorem moveWithin_of_not_lies (h : ¬ Lies b len stride y) :
    ∃ p, moveWithin b (y * stride) len (y * len) = .error p := by
  cases hmove : moveWithin b (y * stride) len (y * len) with
  | error p => exact ⟨p, rfl⟩
  | ok b' =>
    obtain ⟨hsource, htarget, -⟩ := Words.moveWithin_eq_ok hmove
    exact absurd (lies_iff.mpr ⟨hsource, htarget⟩) h

/-- How `n` rows are moved, from number `row` on. -/
inductive MoveEnding (b : Bytes) (len stride row n : Nat) : Except Panic Bytes → Prop
  /-- All of them lie in the buffer. -/
  | moved {b' : Bytes} (hrows : ∀ y, row ≤ y → y < row + n → Lies b len stride y) (hsize : b'.size = b.size) :
      MoveEnding b len stride row n (.ok b')
  /-- One of them does not. -/
  | stuck {p : Panic} {y : Nat} (hy : row ≤ y) (hlast : y < row + n) (hrow : ¬ Lies b len stride y) :
      MoveEnding b len stride row n (.error p)

/-- **Rows are moved if all of them lie in the buffer**, and otherwise there is a panic. -/
theorem moveRows_ending : MoveEnding b len stride row n (moveRows len stride n row b) := by
  induction n generalizing row b with
  | zero => exact .moved (fun y hy hlast => absurd hy (Nat.not_le_of_lt hlast)) rfl
  | succ n ih =>
    rw [moveRows]
    by_cases hrow : Lies b len stride row
    · obtain ⟨b', hmove, hsize⟩ := moveWithin_of_lies hrow
      have hrest : MoveEnding b' len stride (row + 1) n _ := ih
      rw [hmove]
      show MoveEnding b len stride row (n + 1) (moveRows len stride n (row + 1) b')
      generalize moveRows len stride n (row + 1) b' = o at hrest
      cases hrest with
      | moved hrows hsize' =>
        refine .moved (fun y hy hlast => ?_) (hsize'.trans hsize)
        rcases Nat.eq_or_lt_of_le hy with rfl | hlt
        · exact hrow
        · have h := hrows y hlt (by omega)
          rwa [Lies, hsize] at h
      | @stuck p y hy hlast hout =>
        rw [Lies, hsize] at hout
        exact .stuck (y := y) (by omega) (by omega) hout
    · obtain ⟨p, hmove⟩ := moveWithin_of_not_lies hrow
      rw [hmove]
      exact .stuck (Nat.le_refl row) (by omega) hrow

/-- The rows of the frame would have to be moved, and the last of several is not in the buffer, where it is or where it
is to be. -/
def Ragged (f : RawFrame) : Prop :=
  f.stride.toNat ≠ f.rowBytes ∧ 2 ≤ f.height.toNat ∧
    f.buf.size < (f.height.toNat - 1) * max f.stride.toNat f.rowBytes + f.rowBytes

instance (f : RawFrame) : Decidable f.Ragged := inferInstanceAs (Decidable (_ ∧ _))

theorem ragged_of_not_lies (hs : f.stride.toNat ≠ f.rowBytes) (hy : 1 ≤ y) (hlast : y < 1 + (f.height.toNat - 1))
    (hrow : ¬ Lies f.buf f.rowBytes f.stride.toNat y) : f.Ragged := by
  refine ⟨hs, by omega, Nat.lt_of_not_le fun hend => hrow ?_⟩
  have hlies : Lies f.buf f.rowBytes f.stride.toNat (f.height.toNat - 1) := hend
  exact hlies.of_le (by omega)

theorem not_ragged_of_lies
    (hrows : ∀ y, 1 ≤ y → y < 1 + (f.height.toNat - 1) → Lies f.buf f.rowBytes f.stride.toNat y) : ¬ f.Ragged := by
  rintro ⟨-, hheight, hend⟩
  exact absurd (hrows (f.height.toNat - 1) (by omega) (by omega)) (Nat.not_le_of_lt hend)

/-- How padding is removed from a frame, with the sizes that lead there. -/
inductive UnpadEnding (f : RawFrame) : Outcome FrameError RawFrame → Prop
  /-- Rows are not there. -/
  | stuck {p : Panic} (h : f.Ragged) : UnpadEnding f (.error (.panic p))
  /-- Rows are too long for the stride to say so. -/
  | tooLong (h : ¬ f.Ragged) (hlong : UInt32.size ≤ f.rowBytes) : UnpadEnding f (.error (.error .dimensionTooLarge))
  /-- Rows are packed, and those that are not there are still not there. -/
  | packed {g : RawFrame} (h : ¬ f.Ragged) (hshort : f.rowBytes < UInt32.size)
      (hg : PackedAs f g f.width f.height f.format) (hsize : g.buf.size ≤ f.buf.size) : UnpadEnding f (.ok g)

/-- **Padding is removed from any frame whose rows need not be moved or are there.** -/
theorem removePadding_ending (f : RawFrame) : UnpadEnding f f.removePadding.toOutcome := by
  by_cases hs : f.stride.toNat = f.rowBytes
  · have hdone : f.removePadding.toOutcome = .ok f.cutTail := by
      rw [removePadding, if_pos hs]
      rfl
    have hshort : f.rowBytes < UInt32.size := hs ▸ f.stride.toNat_lt
    rw [hdone]
    exact .packed (fun h => h.1 hs) hshort ⟨rfl, rfl, rfl, hs, rfl, rfl⟩ (Bytes.size_truncate_le _ _)
  · have hmove : MoveEnding f.buf f.rowBytes f.stride.toNat 1 (f.height.toNat - 1) _ := moveRows_ending
    rw [removePadding, if_neg hs]
    generalize moveRows f.rowBytes f.stride.toNat (f.height.toNat - 1) 1 f.buf = o at hmove
    cases hmove with
    | stuck hy hlast hrow => exact .stuck (ragged_of_not_lies hs hy hlast hrow)
    | @moved buf hrows hsize =>
      have hlies : ¬ f.Ragged := not_ragged_of_lies hrows
      by_cases hshort : f.rowBytes < UInt32.size
      · have hstride : (UInt32.ofNat f.rowBytes).toNat = f.rowBytes := UInt32.toNat_ofNat_of_lt hshort
        rw [field_of_lt hshort]
        exact .packed hlies hshort ⟨rfl, rfl, rfl, hstride, rfl, rfl⟩ (hsize ▸ Bytes.size_truncate_le _ _)
      · rw [field, if_neg hshort]
        exact .tooLong hlies (Nat.le_of_not_lt hshort)

theorem removePadding_panics_iff : f.removePadding.toOutcome.Panics ↔ f.Ragged := by
  have hending := removePadding_ending f
  generalize f.removePadding.toOutcome = o at hending
  cases hending with
  | stuck h => exact iff_of_true (panics_panic _) h
  | tooLong h => exact iff_of_false (not_panics_error _) h
  | packed h => exact iff_of_false (not_panics_ok _) h

/-! ## Regions -/

/-- A region of the frame that no memory can hold, or whose first row ends behind what a word can count. -/
def Overreaches (f : RawFrame) (r : ClipRegion) : Prop :=
  r.fits f.width f.height = true ∧ (allocationLimit < r.width.toNat * f.format.nBytes * r.height.toNat ∨
    wordLimit ≤ r.y.toNat * f.stride.toNat + r.x.toNat * f.format.nBytes + r.width.toNat * f.format.nBytes)

instance (f : RawFrame) (r : ClipRegion) : Decidable (f.Overreaches r) := inferInstanceAs (Decidable (_ ∧ _))

/-- Rows that begin in what a word can count are gathered, or one of them is not there.  None after them can leave the
word, which is one stride behind a row in memory. -/
theorem not_panics_gatherRows {done : Bytes} (hb : b.size ≤ allocationLimit) (hstride : stride < UInt32.size)
    (hword : row * stride + offset + len < wordLimit) : ¬ (gatherRows b stride offset len n row done).Panics := by
  have hlimit : allocationLimit + UInt32.size < wordLimit := by decide
  induction n generalizing row done with
  | zero => exact not_panics_ok done
  | succ n ih =>
    rw [gatherRows, if_neg (Nat.not_le_of_lt hword)]
    cases hslice : b.slice? (row * stride + offset) len with
    | none => exact not_panics_error _
    | some line =>
      have hend : row * stride + offset + len ≤ b.size := (Bytes.slice?_eq_some_iff.mp hslice).1
      refine ih ?_
      rw [Nat.succ_mul]
      omega

theorem gatherRows_panics_iff {done : Bytes} (hb : b.size ≤ allocationLimit) (hstride : stride < UInt32.size)
    (hn : n ≠ 0) : (gatherRows b stride offset len n row done).Panics ↔ wordLimit ≤ row * stride + offset + len := by
  by_cases hword : row * stride + offset + len < wordLimit
  · exact iff_of_false (not_panics_gatherRows hb hstride hword) (Nat.not_le_of_lt hword)
  · obtain ⟨n, rfl⟩ := Nat.exists_eq_succ_of_ne_zero hn
    rw [gatherRows, if_pos (Nat.le_of_not_lt hword)]
    exact iff_of_true (panics_panic _) (Nat.le_of_not_lt hword)

theorem height_ne_zero_of_fits (h : r.fits width height = true) : r.height.toNat ≠ 0 := by
  have hone := (ClipRegion.fits_iff.mp h).2.1
  intro hzero
  exact hone (UInt32.toNat_inj.mp hzero)

/-- **A region is cut out, or refused, unless it overreaches.** -/
theorem clip_panics_iff (hbuf : f.buf.size ≤ allocationLimit) : (f.clip r).toOutcome.Panics ↔ f.Overreaches r := by
  by_cases hfits : r.fits f.width f.height = true
  · rw [clip, if_pos hfits]
    by_cases hroom : allocationLimit < r.width.toNat * f.format.nBytes * r.height.toNat
    · rw [if_pos hroom]
      exact iff_of_true (panics_panic _) ⟨hfits, .inl hroom⟩
    · have hgather : (gatherRows f.buf f.stride.toNat (r.x.toNat * f.format.nBytes) (r.width.toNat * f.format.nBytes)
          r.height.toNat r.y.toNat ByteArray.empty).Panics ↔ _ :=
        gatherRows_panics_iff hbuf f.stride.toNat_lt (height_ne_zero_of_fits hfits)
      rw [if_neg hroom, Overreaches, and_iff_right hfits, or_iff_right hroom, ← hgather]
      cases gatherRows f.buf f.stride.toNat (r.x.toNat * f.format.nBytes) (r.width.toNat * f.format.nBytes)
          r.height.toNat r.y.toNat ByteArray.empty with
      | ok buf => exact iff_of_false (not_panics_withStride _ _) (not_panics_ok _)
      | error stop => exact panics_error_iff stop
  · rw [clip, if_neg hfits]
    exact iff_of_false (not_panics_error _) fun h => hfits h.1

/-! ## Formats -/

/-- **A frame is converted, or refused, unless no memory can hold what it says it is.** -/
theorem convertTo_panics_iff (hbuf : f.buf.size ≤ allocationLimit) :
    (f.convertTo c).toOutcome.Panics ↔ c ≠ f.format ∧ f.Unheld c := by
  by_cases hsame : c = f.format
  · rw [convertTo, if_pos hsame]
    exact iff_of_false (not_panics_ok f) fun h => h.1 hsame
  · have hending : BufferEnding f.format c f.buf f.width.toNat f.height.toNat f.stride.toNat _ :=
      convertBuffer_ending f.width.toNat_lt f.stride.toNat_lt hbuf
    rw [and_iff_right hsame]
    generalize ho : convertBuffer f.format f.buf f.width.toNat f.height.toNat f.stride.toNat c = o at hending
    cases hending with
    | tooLarge hsize =>
      rw [convertTo_of_error hsame ho]
      exact iff_of_false (not_panics_error _) fun h => absurd hsize (Nat.not_le_of_lt h.1)
    | unheld hsize hroom =>
      rw [convertTo_of_error hsame ho]
      exact iff_of_true (panics_panic _) ⟨hsize, hroom⟩
    | short hroom =>
      rw [convertTo_of_error hsame ho]
      exact iff_of_false (not_panics_error _) fun h => absurd hroom (Nat.not_le_of_lt h.2)
    | converted hroom =>
      rw [convertTo_of_ok hsame ho]
      exact iff_of_false (not_panics_withStride _ _) fun h => absurd hroom (Nat.not_le_of_lt h.2)

/-! ## The scaler -/

/-- **Any frame is scaled, or refused, unless its rows are not there or no memory can hold what is to be mixed.** -/
theorem scaledBy_panics_iff {resize : Pixmap → UInt32 → UInt32 → Pixmap} (hbuf : f.buf.size ≤ allocationLimit)
    (hresize : ∀ p : Pixmap, p.type.format = f.format.mixing → p.Resizes (resize p width height) width height) :
    (f.scaledBy resize width height).Panics ↔
      f.Ragged ∨ f.rowBytes < UInt32.size ∧ f.format.mixing ≠ f.format ∧ f.Unheld f.format.mixing := by
  have hunpad := removePadding_ending f
  unfold scaledBy
  generalize ho : f.removePadding.toOutcome = o at hunpad
  cases hunpad with
  | stuck hragged =>
    simp only [bind, Except.bind]
    exact iff_of_true (panics_panic _) (.inl hragged)
  | tooLong hragged hlong =>
    simp only [bind, Except.bind]
    refine iff_of_false (not_panics_error _) ?_
    rintro (h | ⟨hshort, -⟩)
    · exact hragged h
    · exact absurd hlong (Nat.not_le_of_lt hshort)
  | @packed g hragged hshort hg hsize =>
    have hunheld : g.Unheld f.format.mixing ↔ f.Unheld f.format.mixing := by
      rw [Unheld, Unheld, hg.width_eq, hg.height_eq]
    have hmix := convertTo_panics_iff (c := f.format.mixing) (Nat.le_trans hsize hbuf)
    rw [hg.format_eq, hunheld] at hmix
    rw [or_iff_right hragged, and_iff_right hshort, ← hmix]
    simp only [bind, Except.bind]
    cases hmixed : (g.convertTo f.format.mixing).toOutcome with
    | error stop => exact panics_error_iff stop
    | ok mixed =>
      -- from here on nothing panics: the samples are found or not, and what comes back from resizing is tight
      refine iff_of_false ?_ (not_panics_ok mixed)
      obtain ⟨t, ht⟩ := SampleType.exists_format_eq_mixing f.format
      have hformat : mixed.format = t.format := (convertTo_packedAs hg hmixed).format_eq.trans ht
      simp only
      by_cases hfull : mixed.width.toNat * mixed.height.toNat * mixed.format.nBytes ≤ mixed.buf.size
      · obtain ⟨p, hp, rfl, -⟩ := ofFrame?_of_le hformat hfull
        rw [hp]
        rcases frame_of_resizes (hresize p ht.symm) with ⟨-, resized, hresized, -, -, hback, htight⟩ | ⟨-, hresized⟩
        · have hle : f.format.nBytes ≤ resized.format.nBytes := by
            rw [hback, ← ht]
            exact f.format.nBytes_le_mixing
          obtain ⟨native, hnative, -⟩ := htight.convertTo_of_le hle
          simp only [hresized, hnative, Outcome.ofExcept_ok]
          exact not_panics_ok _
        · simp only [hresized, Outcome.ofExcept_error]
          exact not_panics_error _
      · rw [ofFrame?_of_lt hformat (Nat.lt_of_not_le hfull)]
        exact not_panics_error _

end RawFrame

/-! ## In machine words -/

namespace Words

open RawFrame (Lies MoveEnding moveRows_ending)

variable {f : RawFrame} {r : ClipRegion}

/-- The scaler, where `resize` changes the size of images. -/
def scale (alloc : Nat → Bool) (resize : Pixmap → UInt32 → UInt32 → Pixmap) (f : RawFrame) (width height : UInt32) :
    Outcome FrameError RawFrame := do
  let packedFrame ← removePadding f
  let mixed ← convertTo alloc packedFrame f.format.mixing
  match Pixmap.ofFrame? mixed with
  | none => .error (.error (.conversion (.cannotResample mixed.width mixed.height mixed.format)))
  | some p =>
    let resized ← Outcome.ofExcept (resize p width height).frame
    let native ← convertTo alloc resized f.format
    return { native with delay := f.delay, details := f.details }

/-- **In a buffer in memory, padding is removed in words as it is without bounds**: where a row leaves the word, one
before it has left the buffer. -/
theorem removePadding_bounded (hbuf : f.buf.size ≤ allocationLimit) : removePadding f = f.removePadding.toOutcome := by
  have hlimit : allocationLimit + 17 * UInt32.size < wordLimit := by decide
  have hstride : f.stride.toNat < UInt32.size := f.stride.toNat_lt
  have hrow : f.rowBytes ≤ 16 * UInt32.size := by
    rw [RawFrame.rowBytes, Nat.mul_comm]
    exact Nat.mul_le_mul f.format.nBytes_le (Nat.le_of_lt f.width.toNat_lt)
  refine removePadding_toOutcome (fun _ => moveRows_eq fun y _ hbefore => ?_) fun hmoved => ?_
  · rcases y with - | - | k
    · exact ⟨by omega, by omega⟩
    · exact ⟨by omega, by omega⟩
    · -- one row behind a row in memory
      obtain ⟨hsource, htarget⟩ := hbefore (k + 1) (Nat.lt_succ_self _) (Nat.le_add_left 1 k)
      rw [Nat.succ_mul (k + 1), Nat.succ_mul (k + 1)]
      exact ⟨by omega, by omega⟩
  · by_cases hs : f.stride.toNat = f.rowBytes
    · rw [← hs]
      exact Nat.mul_lt_mul_of_lt_of_le hstride (Nat.le_of_lt f.height.toNat_lt) (by decide)
    · obtain ⟨b, hb⟩ := hmoved hs
      have hending : MoveEnding f.buf f.rowBytes f.stride.toNat 1 (f.height.toNat - 1) _ := moveRows_ending
      rw [hb] at hending
      cases hending with
      | moved hrows =>
        rcases Nat.lt_or_ge f.height.toNat 2 with hheight | hheight
        · have hone : f.rowBytes * f.height.toNat ≤ f.rowBytes * 1 := Nat.mul_le_mul_left _ (by omega)
          omega
        · obtain ⟨-, hlast⟩ := RawFrame.lies_iff.mp (hrows (f.height.toNat - 1) (by omega) (by omega))
          have hall : f.rowBytes * f.height.toNat = (f.height.toNat - 1) * f.rowBytes + f.rowBytes := by
            rw [← Nat.succ_mul, Nat.succ_eq_add_one, Nat.sub_add_cancel (by omega), Nat.mul_comm]
          omega

theorem scale_bounded (hbuf : f.buf.size ≤ allocationLimit) (resize : Pixmap → UInt32 → UInt32 → Pixmap)
    (width height : UInt32) : scale bounded resize f width height = f.scaledBy resize width height := by
  unfold scale RawFrame.scaledBy
  rw [removePadding_bounded hbuf]
  refine bind_congr fun packedFrame => ?_
  rw [convertTo_bounded]
  refine bind_congr fun mixed => ?_
  cases Pixmap.ofFrame? mixed with
  | none => rfl
  | some p =>
    refine bind_congr fun resized => ?_
    rw [convertTo_bounded]

/-! ## Frames that nobody has checked -/

/-- When the operations on a frame panic, in words and with memory for all that memory can hold. -/
structure Unvalidated (f : RawFrame) : Prop where
  /-- Checking and sealing never do, -/
  validate : ∀ limit, ¬ (validate f limit).Panics
  toFrame : ∀ limit, ¬ (toFrame f limit).Panics
  /-- removing the padding does if rows would have to be moved and are not there, -/
  removePadding : (removePadding f).Panics ↔ f.Ragged
  /-- cutting out a region if no memory can hold it, or a word cannot count where its first row ends, -/
  clip : ∀ r, (clip bounded f r).Panics ↔ f.Overreaches r
  /-- changing the format if a word can count the bytes that the sizes announce, and no memory can hold them, -/
  convertTo : ∀ c, (convertTo bounded f c).Panics ↔ c ≠ f.format ∧ f.Unheld c
  /-- and scaling, by whoever resizes images as is expected, if one of its steps does. -/
  scale : ∀ resize width height,
    (∀ p : Pixmap, p.type.format = f.format.mixing → p.Resizes (resize p width height) width height) →
    ((scale bounded resize f width height).Panics ↔
      f.Ragged ∨ f.rowBytes < UInt32.size ∧ f.format.mixing ≠ f.format ∧ f.Unheld f.format.mixing)
  /-- These are the operations of `RawFrame`. -/
  removePadding_eq : Words.removePadding f = f.removePadding.toOutcome
  clip_eq : ∀ r, Words.clip bounded f r = (f.clip r).toOutcome
  convertTo_eq : ∀ c, Words.convertTo bounded f c = (f.convertTo c).toOutcome
  scale_eq : ∀ resize width height, Words.scale bounded resize f width height = f.scaledBy resize width height

/-- **Not every operation answers on a frame that nobody has checked**: of any frame whose buffer is in memory, it is
known which of them panic, and for which regions, formats and sizes. -/
theorem unvalidated (hbuf : f.buf.size ≤ allocationLimit) : Unvalidated f where
  validate limit := by
    rw [validate_eq]
    exact not_panics_ofExcept _
  toFrame limit := by
    rw [toFrame_eq]
    exact not_panics_ofExcept _
  removePadding := by
    rw [removePadding_bounded hbuf]
    exact RawFrame.removePadding_panics_iff
  clip r := by
    rw [clip_bounded]
    exact RawFrame.clip_panics_iff hbuf
  convertTo c := by
    rw [convertTo_bounded]
    exact RawFrame.convertTo_panics_iff hbuf
  scale resize width height hresize := by
    rw [scale_bounded hbuf]
    exact RawFrame.scaledBy_panics_iff hbuf hresize
  removePadding_eq := removePadding_bounded hbuf
  clip_eq := clip_bounded f
  convertTo_eq := convertTo_bounded f
  scale_eq := scale_bounded hbuf

/-- Of two gray pixels, one below the other and four bytes apart, the buffer has the first: the padding cannot be
removed, and the frame cannot be scaled.  Of an image as large as can be announced, a word cannot count where a pixel of
the last row ends; and the gray one with a quarter of the rows cannot be held in colour. -/
theorem unvalidated_panics :
    let f : RawFrame := ⟨1, 2, 4, .g8, Bytes.ofList [7], none, {}⟩
    let g : RawFrame := ⟨4294967295, 4294967295, 4294967295, .r32g32b32a32Float, ByteArray.empty, none, {}⟩
    let h : RawFrame := ⟨4294967295, 1073741824, 4294967295, .g8, ByteArray.empty, none, {}⟩
    (f.buf.size ≤ allocationLimit ∧ (removePadding f).Panics ∧ f.removePadding.toOutcome.Panics ∧
        (f.scaledBy Pixmap.resampled 1 1).Panics) ∧
      (g.buf.size ≤ allocationLimit ∧ (clip bounded g ⟨1073741824, 4294967294, 1, 1⟩).Panics) ∧
      h.buf.size ≤ allocationLimit ∧ (convertTo bounded h .r8g8b8a8).Panics := by
  intro f g h
  have hf : f.buf.size ≤ allocationLimit := by decide
  have hg : g.buf.size ≤ allocationLimit := by decide
  have hh : h.buf.size ≤ allocationLimit := by decide
  have hragged : f.Ragged := by decide
  have hmove : (removePadding f).Panics := (unvalidated hf).removePadding.mpr hragged
  have hscale : (scale bounded Pixmap.resampled f 1 1).Panics :=
    ((unvalidated hf).scale Pixmap.resampled 1 1 fun p _ => p.resizes_resampled (by decide)).mpr (.inl hragged)
  refine ⟨⟨hf, hmove, ?_, ?_⟩, ⟨hg, ?_⟩, hh, ?_⟩
  · rwa [← (unvalidated hf).removePadding_eq]
  · rwa [← (unvalidated hf).scale_eq]
  · exact ((unvalidated hg).clip _).mpr (by decide)
  · exact ((unvalidated hh).convertTo _).mpr (by decide)

end Words

end ImageLoader
