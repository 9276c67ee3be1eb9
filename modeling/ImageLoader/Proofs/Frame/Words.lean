import ImageLoader.Frame.Finish
import ImageLoader.Proofs.Format.Conversion
import ImageLoader.Proofs.Frame.Cropped

/-!
# Finishing a frame in machine words

Sizes and places in a buffer are machine words, and a sum or product that leaves the word is a panic.  Here the
steps of finishing are taken once more with every sum, product, slice and copy checked where it is made, and with
memory that may be refused.  The steps in `RawFrame` check only what their own text has to speak of, and calculate
without bounds otherwise.

* `Words.finish`: finishing with every operation checked.
* `Words.moveRows_eq`, `Words.gatherRows_eq`, `Words.convertRows_eq`: the loops do what those of `RawFrame` do, the
  first in a buffer that can be counted, the others in any.
* `Words.clip_bounded`, `Words.convertTo_bounded`: where memory is granted for what memory can hold, so do clipping and
  converting any frame.
* `Words.removePadding_eq`, `Words.clip_eq`, `Words.convertTo_eq`: what the steps make of a valid frame, where memory is
  granted.
-/

namespace ImageLoader

namespace Words

/-! ## Checked operations -/

def sum (m n : Nat) : Outcome FrameError Nat := if m + n < wordLimit then .ok (m + n) else .error (.panic sumPanic)

def product (m n : Nat) : Outcome FrameError Nat :=
  if m * n < wordLimit then .ok (m * n) else .error (.panic productPanic)

/-- A product that is asked whether it overflows, which is an error and no panic. -/
def checked (n : Nat) : Outcome FrameError Nat := .ofExcept (sized n)

def reserve (alloc : Nat → Bool) (n : Nat) : Outcome FrameError Unit :=
  if alloc n then .ok () else .error (.panic capacityPanic)

/-- The number of whole pieces of a length, which must not be zero. -/
def pieces (size len : Nat) : Outcome FrameError Nat :=
  if len = 0 then .error (.panic (.text "chunk size must be non-zero")) else .ok (size / len)

/-- Copies bytes over a part of a buffer, which must have their length. -/
def copyOver (b : Bytes) (start stop : Nat) (part : Bytes) : Outcome FrameError Bytes :=
  if part.size = stop - start then .ok (b.overwrite start part)
  else .error (.panic (.text "copy_from_slice: source slice length does not match destination slice length"))

def ofPanic {α : Type} : Except Panic α → Outcome FrameError α
  | .ok a => .ok a
  | .error p => .error (.panic p)

/-! ## Checking and sealing -/

def validate (f : RawFrame) (limit : Nat) : Outcome FrameError Unit :=
  if f.width = 0 ∨ f.height = 0 then .error (.error (.emptySize f.display))
  else do
    let rowBytes ← checked (f.width.toNat * f.format.nBytes)
    if f.stride.toNat < rowBytes then .error (.error (.strideTooSmall f.display))
    else
      let area ← product f.stride.toNat f.height.toNat
      if limit < area then .error (.error (.textureTooLarge limit))
      else
        let size ← checked (f.stride.toNat * f.height.toNat)
        if f.buf.size < size then .error (.error (.textureTooSmall f.buf.size f.display)) else .ok ()

def toFrame (f : RawFrame) (limit : Nat) : Outcome FrameError Frame := do
  validate f limit
  let size ← checked (f.stride.toNat * f.height.toNat)
  return ⟨f.width, f.height, f.stride, f.format, f.buf.truncate size, f.delay, f.details⟩

/-! ## Padding and regions -/

def moveRows (rowBytes stride : Nat) : Nat → Nat → Bytes → Outcome FrameError Bytes
  | 0, _, b => .ok b
  | n + 1, row, b => do
    let source ← product row stride
    let _ ← sum source rowBytes
    let target ← product row rowBytes
    let b ← ofPanic (RawFrame.moveWithin b source rowBytes target)
    moveRows rowBytes stride n (row + 1) b

def removePadding (f : RawFrame) : Outcome FrameError RawFrame := do
  let rowBytes ← checked (f.width.toNat * f.format.nBytes)
  let f ←
    if f.stride.toNat = rowBytes then pure f
    else do
      let buf ← moveRows rowBytes f.stride.toNat (f.height.toNat - 1) 1 f.buf
      let stride ← Outcome.ofExcept (RawFrame.field rowBytes)
      pure { f with buf, stride }
  let size ← product rowBytes f.height.toNat
  return { f with buf := f.buf.truncate size }

def gatherRows (b : Bytes) (stride offset len : Nat) : Nat → Nat → Bytes → Outcome FrameError Bytes
  | 0, _, done => .ok done
  | n + 1, row, done => do
    let above ← product row stride
    let start ← sum above offset
    let _ ← sum start len
    match b.slice? start len with
    | none => .error (.error (.invalidClip (.rowOutside row)))
    | some line => gatherRows b stride offset len n (row + 1) (done ++ line)

variable (alloc : Nat → Bool)

def clip (f : RawFrame) (r : ClipRegion) : Outcome FrameError RawFrame :=
  if r.fits f.width f.height then do
    let offset ← product r.x.toNat f.format.nBytes
    let len ← product r.width.toNat f.format.nBytes
    let size ← product len r.height.toNat
    reserve alloc size
    let _ ← sum r.y.toNat r.height.toNat
    let buf ← gatherRows f.buf f.stride.toNat offset len r.height.toNat r.y.toNat ByteArray.empty
    let stride ← Outcome.ofExcept (RawFrame.field len)
    return { f with buf, stride, width := r.width, height := r.height }
  else .error (.error (.invalidClip (.outside r f.width f.height)))

/-! ## Pixels -/

def readChannel (f : MemoryFormat) (pixel : Bytes) (n : Nat) : Outcome FrameError Float32 := do
  let _ ← product n f.channelType.size
  let next ← sum n 1
  let _ ← product next f.channelType.size
  Outcome.ofExcept (f.readChannel pixel n)

def readComponent (f : MemoryFormat) (pixel : Bytes) (c : Component) : Outcome FrameError Float32 :=
  match f.channelOf? c with
  | some n => readChannel f pixel n
  | none => .ok (Single.ofNat 1)

def read (f : MemoryFormat) (pixel : Bytes) : Outcome FrameError Rgba := do
  let red ← readComponent f pixel .red
  let green ← readComponent f pixel .green
  let blue ← readComponent f pixel .blue
  let alpha ← readComponent f pixel .alpha
  let p : Rgba := ⟨red, green, blue, alpha⟩
  return if f.isPremultiplied then p.unpremultiply else p

def writeChannels (size : Nat) (n : Nat) (target : Bytes) : List Bytes → Outcome FrameError Bytes
  | [] => .ok target
  | c :: rest => do
    let start ← product n size
    let next ← sum n 1
    let stop ← product next size
    if stop ≤ target.size then
      let target ← copyOver target start stop c
      writeChannels size (n + 1) target rest
    else .error (.error (.conversion (.targetTooShort n)))

def convertPixel (source format : MemoryFormat) (pixel : Bytes) : Outcome FrameError Bytes := do
  let p ← read source pixel
  writeChannels format.channelType.size 0 (Bytes.fill format.nBytes 0) (format.channels p)

/-! ## Buffers -/

def convertRow (source format : MemoryFormat) (row : Bytes) : Nat → Nat → Outcome FrameError Bytes
  | 0, _ => .ok ByteArray.empty
  | n + 1, start => do
    let pixel ← convertPixel source format (row.extract start (start + source.nBytes))
    let rest ← convertRow source format row n (start + source.nBytes)
    return pixel ++ rest

/-- The rows of the target are filled from the rows of the source, as far as both have pixels. -/
def convertRows (source format : MemoryFormat) (src : Bytes) (sourceRow targetRow stride : Nat) :
    Nat → Nat → Bytes → Outcome FrameError Bytes
  | 0, _, done => .ok done
  | n + 1, y, done => do
    let start ← product y stride
    let _ ← sum start sourceRow
    match src.slice? start sourceRow with
    | none => .error (.error (.conversion (.sourceEnds y)))
    | some row => do
      let given ← pieces row.size source.nBytes
      let wanted ← pieces targetRow format.nBytes
      let line ← convertRow source format row (min given wanted) 0
      convertRows source format src sourceRow targetRow stride n (y + 1)
        (done ++ (line ++ Bytes.fill (targetRow - line.size) 0))

def convertBuffer (source : MemoryFormat) (src : Bytes) (width height stride : Nat) (format : MemoryFormat) :
    Outcome FrameError Bytes := do
  let sourceRow ← checked (width * source.nBytes)
  let targetRow ← checked (width * format.nBytes)
  let size ← checked (targetRow * height)
  reserve alloc size
  if targetRow = 0 then return Bytes.fill size 0
  else
    let rows ← pieces size targetRow
    convertRows source format src sourceRow targetRow stride rows 0 ByteArray.empty

def convertTo (f : RawFrame) (format : MemoryFormat) : Outcome FrameError RawFrame :=
  if format = f.format then .ok f
  else do
    let buf ← convertBuffer alloc f.format f.buf f.width.toNat f.height.toNat f.stride.toNat format
    let rowBytes ← checked (f.width.toNat * format.nBytes)
    let stride ← Outcome.ofExcept (RawFrame.field rowBytes)
    return { f with buf, format, stride }

/-! ## Finishing -/

def clipTo (f : RawFrame) (request : FrameRequest) : Outcome FrameError RawFrame :=
  match request.clip with
  | none => .ok f
  | some r => clip alloc f r

def prepare (f : RawFrame) (t : FinishTarget) : Outcome FrameError Prepared := do
  validate f t.maxTextureSize
  let f ← removePadding f
  let f ← clipTo alloc f t.request
  match ← Outcome.ofExcept (t.request.scaleFor f.width f.height) with
  | none => return .ready f
  | some (width, height) => return .toScale f width height

def deliver (f : RawFrame) (t : FinishTarget) : Outcome FrameError Frame :=
  match t.accepted.best? f.format with
  | none => .error (.error (.noAcceptedFormat f.format))
  | some format => do
    let f ← convertTo alloc f format
    toFrame f t.maxTextureSize

def conclude (f : RawFrame) (t : FinishTarget) : Outcome FrameError Frame := do
  validate f t.maxTextureSize
  deliver alloc f t

def finish (scale : Scaler) (f : RawFrame) (t : FinishTarget) : Loaded Frame := do
  match ← (prepare alloc f t).loading with
  | .ready f => (deliver alloc f t).loading
  | .toScale f width height =>
    let f ← scale f width height
    (conclude alloc f t).loading

/-! ## Operations that do not fail -/

section Operations

variable {α β : Type} {m n : Nat}

@[simp] theorem ok_bind (a : α) (k : α → Outcome FrameError β) : (Except.ok a >>= k) = k a := rfl

@[simp] theorem error_bind (stop : Stop FrameError) (k : α → Outcome FrameError β) :
    (Except.error stop >>= k) = .error stop := rfl

theorem sum_of_lt (h : m + n < wordLimit) : sum m n = .ok (m + n) := if_pos h

theorem sum_of_not_lt (h : ¬ m + n < wordLimit) : sum m n = .error (.panic sumPanic) := if_neg h

theorem product_of_lt (h : m * n < wordLimit) : product m n = .ok (m * n) := if_pos h

theorem product_of_not_lt (h : ¬ m * n < wordLimit) : product m n = .error (.panic productPanic) := if_neg h

theorem placePanic_of_lt (h : n < wordLimit) : placePanic n = sumPanic := if_neg (Nat.not_le_of_lt h)

theorem roomPanic_of_lt (h : n < wordLimit) : roomPanic n = capacityPanic := if_neg (Nat.not_le_of_lt h)

/-- A place that leaves the word is a panic, which tells whether the product does so already. -/
theorem place_of_not_lt {c : Nat} (h : ¬ m * n + c < wordLimit) (k : Nat → Nat → Outcome FrameError β) :
    (product m n >>= fun a => sum a c >>= k a) = .error (.panic (placePanic (m * n))) := by
  by_cases hproduct : m * n < wordLimit
  · rw [product_of_lt hproduct, ok_bind, sum_of_not_lt h, error_bind, placePanic_of_lt hproduct]
  · rw [product_of_not_lt hproduct, error_bind, placePanic, if_pos (Nat.le_of_not_lt hproduct)]

theorem checked_of_lt (h : n < wordLimit) : checked n = .ok n := by
  rw [checked, sized_of_lt h]
  rfl

theorem reserve_of_granted {alloc : Nat → Bool} (h : alloc n = true) : reserve alloc n = .ok () := if_pos h

theorem reserve_of_refused {alloc : Nat → Bool} (h : alloc n = false) :
    reserve alloc n = .error (.panic capacityPanic) := if_neg (by rw [h]; exact Bool.false_ne_true)

theorem row_lt (width : UInt32) (f : MemoryFormat) : width.toNat * f.nBytes < wordLimit :=
  row_bytes_lt width.toNat_lt f

theorem pieces_mul {len : Nat} (n : Nat) (h : 0 < len) : pieces (n * len) len = .ok n := by
  rw [pieces, if_neg (Nat.ne_of_gt h), Nat.mul_div_cancel _ h]

theorem copyOver_of_size {b part : Bytes} {start stop : Nat} (h : part.size = stop - start) :
    copyOver b start stop part = .ok (b.overwrite start part) := if_pos h

end Operations

variable {alloc} {f g : RawFrame} {r : ClipRegion} {limit : Nat}

/-! ## Checking and sealing -/

theorem validate_eq (f : RawFrame) (limit : Nat) : validate f limit = .ofExcept (f.validate limit) := by
  have hrow : checked (f.width.toNat * f.format.nBytes) = .ok f.rowBytes := checked_of_lt (row_lt ..)
  have harea : product f.stride.toNat f.height.toNat = .ok f.byteCount := product_of_lt f.byteCount_lt
  have hsize : checked (f.stride.toNat * f.height.toNat) = .ok f.byteCount := checked_of_lt f.byteCount_lt
  unfold validate RawFrame.validate
  simp only [hrow, harea, hsize, ok_bind]
  repeat' split
  all_goals rfl

theorem toFrame_eq (f : RawFrame) (limit : Nat) : toFrame f limit = .ofExcept (f.toFrame limit) := by
  have hsize : checked (f.stride.toNat * f.height.toNat) = .ok f.byteCount := checked_of_lt f.byteCount_lt
  unfold toFrame RawFrame.toFrame
  rw [validate_eq, hsize]
  cases f.validate limit <;> rfl

/-! ## Padding -/

section Loops

variable {b : Bytes} {stride len n row : Nat}

/-- What is moved lies in the buffer, before and after. -/
theorem moveWithin_eq_ok {b' : Bytes} {source target : Nat} (h : RawFrame.moveWithin b source len target = .ok b') :
    source + len ≤ b.size ∧ target + len ≤ b.size ∧ b'.size = b.size := by
  unfold RawFrame.moveWithin at h
  by_cases hsource : b.size < source + len
  · rw [if_pos hsource] at h
    cases h
  · rw [if_neg hsource] at h
    by_cases htarget : b.size < target + len
    · rw [if_pos htarget] at h
      cases h
    · rw [if_neg htarget] at h
      have hpart : (b.extract source (source + len)).size = len := by
        rw [ByteArray.size_extract]
        omega
      obtain rfl := Except.ok.inj h
      exact ⟨by omega, by omega, Bytes.size_overwrite (by omega)⟩

/-- **Rows are moved in words as they are without bounds**, if a row can be counted where all that were moved before it
lie in the buffer. -/
theorem moveRows_eq (hword : ∀ y < row + n, (∀ k < y, row ≤ k → k * stride + len ≤ b.size ∧ k * len + len ≤ b.size) →
      y * stride + len < wordLimit ∧ y * len < wordLimit) :
    moveRows len stride n row b = ofPanic (RawFrame.moveRows len stride n row b) := by
  induction n generalizing row b with
  | zero => rfl
  | succ n ih =>
    obtain ⟨hsource, htarget⟩ := hword row (by omega) fun k hk hle => absurd hk (Nat.not_lt_of_le hle)
    rw [moveRows, RawFrame.moveRows, product_of_lt (show row * stride < wordLimit by omega), ok_bind,
      sum_of_lt hsource, ok_bind, product_of_lt htarget, ok_bind]
    cases hmove : RawFrame.moveWithin b (row * stride) len (row * len) with
    | error p => rfl
    | ok b' =>
      obtain ⟨hs, ht, hsize⟩ := moveWithin_eq_ok hmove
      refine ih fun y hy hbefore => hword y (by omega) fun k hk hle => ?_
      rcases Nat.eq_or_lt_of_le hle with rfl | hlt
      · exact ⟨hs, ht⟩
      · rw [← hsize]
        exact hbefore k hk hlt

/-- **The pieces of rows are gathered in words as they are without bounds**, which look for the end of each. -/
theorem gatherRows_eq {offset : Nat} {done : Bytes} :
    gatherRows b stride offset len n row done = RawFrame.gatherRows b stride offset len n row done := by
  induction n generalizing row done with
  | zero => rfl
  | succ n ih =>
    rw [gatherRows, RawFrame.gatherRows]
    by_cases hstart : row * stride + offset < wordLimit
    · have habove : row * stride < wordLimit := by omega
      rw [product_of_lt habove, ok_bind, sum_of_lt hstart, ok_bind]
      by_cases hrow : row * stride + offset + len < wordLimit
      · rw [sum_of_lt hrow, ok_bind, if_neg (Nat.not_le_of_lt hrow)]
        cases b.slice? (row * stride + offset) len with
        | none => rfl
        | some line => exact ih
      · rw [sum_of_not_lt hrow, error_bind, if_pos (Nat.le_of_not_lt hrow), placePanic_of_lt habove]
    · rw [place_of_not_lt hstart, if_pos (by omega)]

end Loops

/-- **Padding is removed in words as it is without bounds**, if that is how rows are moved, and if what they leave can
be counted. -/
theorem removePadding_toOutcome
    (hmove : f.stride.toNat ≠ f.rowBytes → moveRows f.rowBytes f.stride.toNat (f.height.toNat - 1) 1 f.buf =
      ofPanic (RawFrame.moveRows f.rowBytes f.stride.toNat (f.height.toNat - 1) 1 f.buf))
    (hcut : (f.stride.toNat ≠ f.rowBytes →
      ∃ b, RawFrame.moveRows f.rowBytes f.stride.toNat (f.height.toNat - 1) 1 f.buf = .ok b) →
      f.rowBytes * f.height.toNat < wordLimit) :
    removePadding f = f.removePadding.toOutcome := by
  have hbytes : checked (f.width.toNat * f.format.nBytes) = .ok f.rowBytes := checked_of_lt (row_lt ..)
  unfold removePadding RawFrame.removePadding
  rw [hbytes, ok_bind]
  by_cases hs : f.stride.toNat = f.rowBytes
  · rw [if_pos hs, if_pos hs]
    show (product f.rowBytes f.height.toNat >>= _) = _
    rw [product_of_lt (hcut fun hne => absurd hs hne)]
    rfl
  · rw [if_neg hs, if_neg hs, hmove hs]
    cases hrows : RawFrame.moveRows f.rowBytes f.stride.toNat (f.height.toNat - 1) 1 f.buf with
    | error p => rfl
    | ok buf =>
      cases RawFrame.field f.rowBytes with
      | error e => rfl
      | ok stride =>
        show (product f.rowBytes f.height.toNat >>= _) = _
        rw [product_of_lt (hcut fun _ => ⟨buf, hrows⟩)]
        rfl

theorem removePadding_eq (hv : f.validate limit = .ok ()) : removePadding f = .ok (f.cropped f.whole) := by
  obtain ⟨-, hh, hrow, -⟩ := RawFrame.validate_eq_ok_iff.mp hv
  have hmodel : f.removePadding.toOutcome = .ok (f.cropped f.whole) := by
    rw [RawFrame.removePadding_eq hv]
    rfl
  have hlt := f.byteCount_lt
  rw [← hmodel]
  refine removePadding_toOutcome (fun _ => moveRows_eq fun y hy _ => ?_) fun _ => ?_
  · have hheight : f.height.toNat ≠ 0 := fun h => hh (UInt32.toNat_inj.mp h)
    have hend := RawFrame.row_le_byteCount (f := f) (y := y) (by omega)
    have htarget : y * f.rowBytes ≤ y * f.stride.toNat := Nat.mul_le_mul_left y hrow
    exact ⟨by omega, by omega⟩
  · have hle : f.rowBytes * f.height.toNat ≤ f.byteCount := Nat.mul_le_mul_right _ hrow
    omega

/-! ## Regions -/

/-- Memory for everything that the steps of `RawFrame` have room for. -/
def bounded (n : Nat) : Bool := n ≤ allocationLimit

theorem bounded_of_le {n : Nat} (h : n ≤ allocationLimit) : bounded n = true := decide_eq_true h

theorem bounded_of_not_le {n : Nat} (h : ¬n ≤ allocationLimit) : bounded n = false := decide_eq_false h

theorem region_lt (hv : f.validate limit = .ok ()) (hr : r.fits f.width f.height = true) :
    r.width.toNat * f.format.nBytes * r.height.toNat < wordLimit := by
  have h := RawFrame.size_cropped_le hv hr
  rw [Nat.mul_comm]
  exact Nat.lt_of_le_of_lt h f.byteCount_lt

theorem clip_eq (hv : f.validate limit = .ok ()) (hr : r.fits f.width f.height = true) :
    clip alloc f r =
      reserve alloc (r.width.toNat * f.format.nBytes * r.height.toNat) >>= fun _ => .ok (f.cropped r) := by
  have hcol := RawFrame.columns_fit hv hr
  have hlt := f.stride.toNat_lt
  have hlimit : 2 ^ 32 < wordLimit := by decide
  have hoffset : r.x.toNat * f.format.nBytes < wordLimit := by omega
  have hlen : r.width.toNat * f.format.nBytes < wordLimit := by omega
  have hrows : r.y.toNat + r.height.toNat ≤ f.height.toNat := (ClipRegion.fits_iff.mp hr).2.2.2
  have hend : r.y.toNat + r.height.toNat < wordLimit := by
    have h := f.height.toNat_lt
    omega
  have hgather : gatherRows f.buf f.stride.toNat (r.x.toNat * f.format.nBytes) (r.width.toNat * f.format.nBytes)
      r.height.toNat r.y.toNat ByteArray.empty = .ok (f.cropped r).buf := by
    rw [gatherRows_eq]
    exact RawFrame.gatherRows_cropped hv hr
  have hfield := RawFrame.field_of_lt (n := r.width.toNat * f.format.nBytes) (by rw [UInt32.size]; omega)
  unfold clip
  rw [if_pos hr, product_of_lt hoffset, ok_bind, product_of_lt hlen, ok_bind, product_of_lt (region_lt hv hr),
    ok_bind, sum_of_lt hend, hgather, hfield]
  rfl

/-- **A region is cut out in words as it is without bounds.** -/
theorem clip_bounded (f : RawFrame) (r : ClipRegion) : clip bounded f r = (f.clip r).toOutcome := by
  unfold clip RawFrame.clip
  by_cases hfits : r.fits f.width f.height = true
  · rw [if_pos hfits, if_pos hfits, product_of_lt (row_lt r.x f.format), ok_bind,
      product_of_lt (row_lt r.width f.format), ok_bind]
    by_cases hroom : r.width.toNat * f.format.nBytes * r.height.toNat ≤ allocationLimit
    · have hsize : r.width.toNat * f.format.nBytes * r.height.toNat < wordLimit :=
        Nat.lt_of_le_of_lt hroom (by decide)
      have hend : r.y.toNat + r.height.toNat < wordLimit := by
        have hy := r.y.toNat_lt
        have hh := r.height.toNat_lt
        have hlimit : 2 ^ 32 + 2 ^ 32 ≤ wordLimit := by decide
        omega
      rw [product_of_lt hsize, ok_bind, reserve_of_granted (bounded_of_le hroom), ok_bind, sum_of_lt hend, ok_bind,
        gatherRows_eq, if_neg (Nat.not_lt_of_le hroom)]
      cases RawFrame.gatherRows f.buf f.stride.toNat (r.x.toNat * f.format.nBytes) (r.width.toNat * f.format.nBytes)
          r.height.toNat r.y.toNat ByteArray.empty with
      | error stop => rfl
      | ok buf =>
        unfold RawFrame.withStride
        rw [ok_bind]
        cases RawFrame.field (r.width.toNat * f.format.nBytes) <;> rfl
    · rw [if_pos (Nat.lt_of_not_le hroom)]
      by_cases hsize : r.width.toNat * f.format.nBytes * r.height.toNat < wordLimit
      · rw [product_of_lt hsize, ok_bind, reserve_of_refused (bounded_of_not_le hroom), roomPanic_of_lt hsize]
        rfl
      · rw [product_of_not_lt hsize, roomPanic, if_pos (Nat.le_of_not_lt hsize)]
        rfl
  · rw [if_neg hfits, if_neg hfits]
    rfl

/-! ## Pixels -/

section Pixels

variable {m source format : MemoryFormat} {pixel : Bytes}

theorem channel_lt {n : Nat} (hn : n < m.nChannels) : (n + 1) * m.channelType.size < wordLimit :=
  calc (n + 1) * m.channelType.size ≤ m.nBytes := Nat.mul_le_mul_right _ hn
    _ ≤ 16 := m.nBytes_le
    _ < wordLimit := by decide

theorem channelSize_pos (t : ChannelType) : 0 < t.size := by cases t <;> decide

/-- The number of a channel is no greater than where it ends. -/
theorem next_lt {n size : Nat} (hpos : 0 < size) (h : (n + 1) * size < wordLimit) : n + 1 < wordLimit :=
  Nat.lt_of_le_of_lt (Nat.le_mul_of_pos_right _ hpos) h

theorem readComponent_eq (m : MemoryFormat) (pixel : Bytes) (c : Component) :
    readComponent m pixel c = .ofExcept (m.readComponent pixel c) := by
  unfold readComponent MemoryFormat.readComponent
  cases hc : m.channelOf? c with
  | some n =>
    have hstop := channel_lt (MemoryFormat.lt_of_channelOf? hc)
    have hnext := next_lt (channelSize_pos m.channelType) hstop
    have hstart : n * m.channelType.size < wordLimit := by
      rw [Nat.succ_mul] at hstop
      omega
    simp only [readChannel, product_of_lt hstart, ok_bind, sum_of_lt hnext, product_of_lt hstop]
  | none => rfl

theorem read_eq (m : MemoryFormat) (pixel : Bytes) : read m pixel = .ofExcept (m.read pixel) := by
  unfold read MemoryFormat.read
  simp only [readComponent_eq]
  cases m.readComponent pixel .red with
  | error e => rfl
  | ok red =>
    cases m.readComponent pixel .green with
    | error e => rfl
    | ok green =>
      cases m.readComponent pixel .blue with
      | error e => rfl
      | ok blue => cases m.readComponent pixel .alpha <;> rfl

/-- **Channels are written without a panic**: each has the length of its place. -/
theorem writeChannels_eq {size n : Nat} {target : Bytes} {l : List Bytes} (hl : ∀ c ∈ l, c.size = size)
    (hpos : 0 < size) (hword : (n + l.length) * size < wordLimit) :
    writeChannels size n target l =
      match MemoryFormat.writeChannels size n target l with
      | (out, .ok ()) => .ok out
      | (_, .error e) => .error (.error e) := by
  induction l generalizing n target with
  | nil => rfl
  | cons c rest ih =>
    have hsize : c.size = (n + 1) * size - n * size := by
      rw [hl c List.mem_cons_self, Nat.succ_mul]
      omega
    have hstop : (n + 1) * size < wordLimit := by
      refine Nat.lt_of_le_of_lt (Nat.mul_le_mul_right size ?_) hword
      rw [List.length_cons]
      omega
    have hnext := next_lt hpos hstop
    have hstart : n * size < wordLimit := by
      rw [Nat.succ_mul] at hstop
      omega
    rw [writeChannels, MemoryFormat.writeChannels, product_of_lt hstart, ok_bind, sum_of_lt hnext, ok_bind,
      product_of_lt hstop, ok_bind]
    by_cases hfit : (n + 1) * size ≤ target.size
    · rw [if_pos hfit, if_pos hfit, copyOver_of_size hsize, ok_bind]
      refine ih (fun c hc => hl c (List.mem_cons_of_mem _ hc)) ?_
      rw [List.length_cons, Nat.add_comm rest.length, ← Nat.add_assoc] at hword
      exact hword
    · rw [if_neg hfit, if_neg hfit]

theorem convertPixel_eq (source format : MemoryFormat) (pixel : Bytes) :
    convertPixel source format pixel = .ofExcept (source.convertPixel format pixel) := by
  have hchannel (p : Rgba) : ∀ c ∈ format.channels p, c.size = format.channelType.size := by
    intro c hc
    obtain ⟨component, -, rfl⟩ := List.mem_map.mp hc
    exact ChannelType.size_encode _ _
  have hword (p : Rgba) : (0 + (format.channels p).length) * format.channelType.size < wordLimit := by
    rw [MemoryFormat.channels, List.length_map, Nat.zero_add]
    exact Nat.lt_of_le_of_lt format.nBytes_le (by decide)
  unfold convertPixel MemoryFormat.convertPixel MemoryFormat.transform MemoryFormat.write
  rw [read_eq]
  cases source.read pixel with
  | error e => rfl
  | ok p =>
    show writeChannels format.channelType.size 0 _ (format.channels p) = _
    rw [writeChannels_eq (hchannel p) (channelSize_pos _) (hword p)]
    simp only
    rcases MemoryFormat.writeChannels format.channelType.size 0 (Bytes.fill format.nBytes 0) (format.channels p) with
      ⟨out, e | -⟩ <;> rfl

/-! ## Buffers -/

theorem convertRow_eq {row : Bytes} {n start : Nat} :
    convertRow source format row n start = .ofExcept (ImageLoader.convertRow source format row n start) := by
  induction n generalizing start with
  | zero => rfl
  | succ n ih =>
    rw [convertRow, ImageLoader.convertRow, convertPixel_eq, ih]
    cases source.convertPixel format (row.extract start (start + source.nBytes)) with
    | error e => rfl
    | ok pixel => cases ImageLoader.convertRow source format row n (start + source.nBytes) <;> rfl

/-- **The rows of a buffer are converted in words as they are without bounds**, pixel for pixel. -/
theorem convertRows_eq {src done : Bytes} {width stride n y : Nat} :
    convertRows source format src (width * source.nBytes) (width * format.nBytes) stride n y done =
      ImageLoader.convertRows source format src width stride n y done := by
  induction n generalizing y done with
  | zero => rfl
  | succ n ih =>
    rw [convertRows, ImageLoader.convertRows]
    by_cases hrow : y * stride + width * source.nBytes < wordLimit
    · rw [product_of_lt (show y * stride < wordLimit by omega), ok_bind, sum_of_lt hrow, ok_bind,
        if_neg (Nat.not_le_of_lt hrow)]
      cases hs : src.slice? (y * stride) (width * source.nBytes) with
      | none => rfl
      | some row =>
        have hsize := Bytes.size_of_slice? hs
        have hwhole : 0 + width * source.nBytes ≤ row.size := by omega
        obtain ⟨line, hline, hlen, -⟩ := convertRow_of_size format hwhole
        -- both rows have as many pixels as the image is wide, so nothing is left to be filled
        have hfull : line ++ Bytes.fill (width * format.nBytes - line.size) 0 = line := by
          rw [hlen, Nat.sub_self]
          exact ByteArray.append_empty
        simp only [hsize, pieces_mul width source.nBytes_pos, pieces_mul width format.nBytes_pos, ok_bind, Nat.min_self,
          convertRow_eq, hline, Outcome.ofExcept_ok, hfull]
        exact ih
    · rw [place_of_not_lt hrow, if_pos (Nat.le_of_not_lt hrow)]

/-- **Where memory is granted for what memory can hold, a buffer is converted in words as it is without bounds.** -/
theorem convertBuffer_bounded (src : Bytes) {width : Nat} (height stride : Nat)
    (hsource : width * source.nBytes < wordLimit) (htarget : width * format.nBytes < wordLimit) :
    convertBuffer bounded source src width height stride format =
      ImageLoader.convertBuffer source src width height stride format := by
  unfold convertBuffer
  rw [checked_of_lt hsource, ok_bind, checked_of_lt htarget, ok_bind]
  by_cases hsize : width * format.nBytes * height < wordLimit
  · rw [checked_of_lt hsize, ok_bind, convertBuffer_of_lt src stride hsource htarget hsize]
    by_cases hroom : width * format.nBytes * height ≤ allocationLimit
    · rw [reserve_of_granted (bounded_of_le hroom), ok_bind, if_neg (Nat.not_lt_of_le hroom)]
      by_cases hzero : width = 0
      · subst hzero
        rw [if_pos rfl, if_pos (Nat.zero_mul _), Nat.zero_mul, Nat.zero_mul]
        rfl
      · have hpos : 0 < width * format.nBytes := Nat.mul_pos (Nat.pos_of_ne_zero hzero) format.nBytes_pos
        rw [if_neg hzero, if_neg (Nat.ne_of_gt hpos), Nat.mul_comm _ height, pieces_mul height hpos, ok_bind,
          convertRows_eq]
    · rw [reserve_of_refused (bounded_of_not_le hroom), error_bind, if_pos (Nat.lt_of_not_le hroom)]
  · rw [convertBuffer_tooLarge src stride hsource htarget (Nat.le_of_not_lt hsize), checked, sized, if_neg hsize]
    rfl

theorem convertTo_bounded (f : RawFrame) (c : MemoryFormat) : convertTo bounded f c = (f.convertTo c).toOutcome := by
  unfold convertTo RawFrame.convertTo
  by_cases hsame : c = f.format
  · rw [if_pos hsame, if_pos hsame]
    rfl
  · rw [if_neg hsame, if_neg hsame, convertBuffer_bounded f.buf f.height.toNat f.stride.toNat (row_lt ..) (row_lt ..)]
    cases ImageLoader.convertBuffer f.format f.buf f.width.toNat f.height.toNat f.stride.toNat c with
    | error stop => rfl
    | ok buf =>
      rw [ok_bind, checked_of_lt (row_lt f.width c), ok_bind]
      unfold RawFrame.withStride
      cases RawFrame.field (f.width.toNat * c.nBytes) <;> rfl

end Pixels

/-! ## Conversions of valid frames -/

/-- Goes on if a word can count the bytes, and memory for them is granted. -/
def grant {α : Type} (alloc : Nat → Bool) (n : Nat) (rest : Outcome FrameError α) : Outcome FrameError α := do
  let n ← checked n
  reserve alloc n
  rest

theorem grant_of_not_lt {α : Type} {n : Nat} (h : ¬n < wordLimit) (rest : Outcome FrameError α) :
    grant alloc n rest = .error (.error .dimensionTooLarge) := by
  rw [grant, checked, sized, if_neg h]
  rfl

theorem grant_bind {α β : Type} (n : Nat) (a : α) (k : α → Outcome FrameError β) :
    (grant alloc n (.ok a) >>= k) = grant alloc n (k a) := by
  unfold grant
  simp only [bind_assoc, ok_bind]

section Conversions

variable {c : MemoryFormat} {image : Bytes}

theorem row_le_of_valid (hv : f.validate limit = .ok ()) {k : Nat} (hk : k < f.height.toNat) :
    k * f.stride.toNat + f.width.toNat * f.format.nBytes ≤ f.byteCount := by
  have hrow : f.rowBytes ≤ f.stride.toNat := (RawFrame.validate_eq_ok_iff.mp hv).2.2.1
  exact Nat.le_trans (Nat.add_le_add_left hrow _) (RawFrame.row_le_byteCount hk)

theorem row_lt_of_valid (hv : f.validate limit = .ok ()) :
    ∀ k < 0 + f.height.toNat, k * f.stride.toNat + f.width.toNat * f.format.nBytes < wordLimit := by
  intro k hk
  rw [Nat.zero_add] at hk
  exact Nat.lt_of_le_of_lt (row_le_of_valid hv hk) f.byteCount_lt

theorem convertRows_of_valid (hv : f.validate limit = .ok ()) (c : MemoryFormat) :
    ∃ image, ImageLoader.convertRows f.format c f.buf f.width.toNat f.stride.toNat f.height.toNat 0
      ByteArray.empty = .ok image := by
  have hfit : ∀ k < 0 + f.height.toNat, k * f.stride.toNat + f.width.toNat * f.format.nBytes ≤ f.buf.size := by
    intro k hk
    rw [Nat.zero_add] at hk
    exact RawFrame.row_le_size hv hk
  have hempty : IsConversion f.format c f.buf f.stride.toNat f.width.toNat 0 ByteArray.empty := .empty
  obtain ⟨image, hrows, -⟩ := hempty.convertRows hfit (row_lt_of_valid hv)
  exact ⟨image, hrows⟩

theorem width_ne_zero (hv : f.validate limit = .ok ()) : f.width.toNat ≠ 0 := by
  intro h
  exact (RawFrame.validate_eq_ok_iff.mp hv).1 (UInt32.toNat_inj.mp h)

theorem convertBuffer_eq (hv : f.validate limit = .ok ())
    (hrows : ImageLoader.convertRows f.format c f.buf f.width.toNat f.stride.toNat f.height.toNat 0
      ByteArray.empty = .ok image) :
    convertBuffer alloc f.format f.buf f.width.toNat f.height.toNat f.stride.toNat c =
      grant alloc (f.width.toNat * c.nBytes * f.height.toNat) (.ok image) := by
  have hpos : 0 < f.width.toNat * c.nBytes := Nat.mul_pos (Nat.pos_of_ne_zero (width_ne_zero hv)) c.nBytes_pos
  have hpieces : pieces (f.width.toNat * c.nBytes * f.height.toNat) (f.width.toNat * c.nBytes) =
      .ok f.height.toNat := by
    rw [Nat.mul_comm]
    exact pieces_mul _ hpos
  unfold convertBuffer
  rw [checked_of_lt (row_lt f.width f.format), ok_bind, checked_of_lt (row_lt f.width c), ok_bind]
  by_cases hsize : f.width.toNat * c.nBytes * f.height.toNat < wordLimit
  · rw [checked_of_lt hsize, ok_bind, if_neg (Nat.ne_of_gt hpos), hpieces, ok_bind,
      convertRows_eq, hrows, grant, checked_of_lt hsize, ok_bind]
  · rw [grant_of_not_lt hsize, checked, sized, if_neg hsize]
    rfl

end Conversions

/-- **A valid frame is converted where memory is granted**, and gets a stride that has to fit its field. -/
theorem convertTo_eq (hv : f.validate limit = .ok ()) {c : MemoryFormat} (hne : c ≠ f.format) :
    ∃ image, ∀ alloc, convertTo alloc f c = grant alloc (f.width.toNat * c.nBytes * f.height.toNat)
      (RawFrame.withStride { f with buf := image, format := c } (f.width.toNat * c.nBytes)).toOutcome := by
  obtain ⟨image, hrows⟩ := convertRows_of_valid hv c
  refine ⟨image, fun alloc => ?_⟩
  unfold convertTo
  rw [if_neg hne, convertBuffer_eq hv hrows, grant_bind, checked_of_lt (row_lt f.width c), ok_bind]
  unfold RawFrame.withStride
  cases RawFrame.field (f.width.toNat * c.nBytes) <;> rfl

end Words

end ImageLoader
