import ImageLoader.Proofs.Codec.Geometry

/-!
# The frames of an animation

An animation is decoded picture by picture: a picture that the codec could read is turned, becomes a frame, and gets
its number; the first one that gives no frame ends the decoding, and nothing is kept of those before it.  Besides the
faults of the codec there is one more: a row of the turned picture may have more bytes than a frame can say.

* `Codecs.Fits`, `Codecs.IsFrame`: the two conditions, and what the frame of a picture is.
* `Codecs.Spoils`: a picture ends the decoding with an error.
* `Codecs.collectFrom_eq_ok_iff`, `Codecs.collectFrom_eq_error_iff`: frames from any number on.
* `Codecs.collects`: **an animation is decoded completely or not at all**, and numbered in order.
-/

namespace ImageLoader.Codecs

variable (K : Codecs) (base : FrameDetails) (turn : Option Orientation) (m : MimeType)

/-- A row of the turned picture has no more bytes than a word can count. -/
def Fits (p : Picture) : Prop := (K.oriented turn p).width.toNat * 4 ≤ 4294967295

instance (p : Picture) : Decidable (K.Fits turn p) := inferInstanceAs (Decidable (_ ≤ _))

/-- A frame is that of a picture: the turned picture, packed in straight colour and alpha, with the delay of the picture
and its number `n`, and with what all pictures share. -/
structure IsFrame (n : Nat) (cel : Cel) (f : RawFrame) : Prop where
  width : f.width = (K.oriented turn cel.picture).width
  height : f.height = (K.oriented turn cel.picture).height
  format : f.format = .r8g8b8a8
  stride : f.stride.toNat = f.width.toNat * 4
  buf : f.buf = (K.oriented turn cel.picture).pixels
  delay : f.delay = some cel.delay
  details : f.details = { base with number := some (UInt64.ofNat n) }

/-- A picture gives no frame, but an error: the fault of the codec, or a row that is too long. -/
inductive Spoils : Coded Cel → LoadError → Prop
  | fault (fault : CodecFault) : Spoils (.error fault) (fault.toLoadError m)
  | tooWide {cel : Cel} : ¬ K.Fits turn cel.picture → Spoils (.ok cel) (.frame .dimensionTooLarge)

/-- A picture could be read, and its rows are not too long. -/
def Sound (coded : Coded Cel) : Prop := ∃ cel, coded = .ok cel ∧ K.Fits turn cel.picture

variable {K base turn m} {n : Nat} {coded : Coded Cel} {cel : Cel} {cels : List (Coded Cel)} {f : RawFrame}
  {frames : List RawFrame} {e : LoadError}

/-! ## One picture -/

theorem fits_iff_lt {p : Picture} :
    K.Fits turn p ↔ MemoryFormat.r8g8b8a8.nBytes * (K.oriented turn p).width.toNat < UInt32.size := by
  have hbytes : MemoryFormat.r8g8b8a8.nBytes = 4 := rfl
  rw [Fits, hbytes, UInt32.size]
  omega

theorem celFrame_of_not_fits (h : ¬ K.Fits turn cel.picture) :
    K.celFrame base turn m n (.ok cel) = .error (.frame .dimensionTooLarge) := by
  have hfield : RawFrame.field (MemoryFormat.r8g8b8a8.nBytes * (K.oriented turn cel.picture).width.toNat) =
      .error .dimensionTooLarge := if_neg (mt fits_iff_lt.mpr h)
  show ((K.oriented turn cel.picture).frame .r8g8b8a8 >>= _) = _
  rw [Picture.frame, RawFrame.packed, hfield]
  rfl

theorem celFrame_of_fits (h : K.Fits turn cel.picture) : K.celFrame base turn m n (.ok cel) = .ok
    { width := (K.oriented turn cel.picture).width
      height := (K.oriented turn cel.picture).height
      stride := UInt32.ofNat (MemoryFormat.r8g8b8a8.nBytes * (K.oriented turn cel.picture).width.toNat)
      format := .r8g8b8a8
      buf := (K.oriented turn cel.picture).pixels
      delay := some cel.delay
      details := { base with number := some (UInt64.ofNat n) } } := by
  have hfield : RawFrame.field (MemoryFormat.r8g8b8a8.nBytes * (K.oriented turn cel.picture).width.toNat) =
      .ok (UInt32.ofNat _) := if_pos (fits_iff_lt.mp h)
  show ((K.oriented turn cel.picture).frame .r8g8b8a8 >>= _) = _
  rw [Picture.frame, RawFrame.packed, hfield]
  rfl

/-- **What becomes of a picture that could be read.** -/
theorem celFrame_eq_ok_iff : K.celFrame base turn m n (.ok cel) = .ok f ↔
    K.Fits turn cel.picture ∧ K.IsFrame base turn n cel f := by
  by_cases hfits : K.Fits turn cel.picture
  · have hstride : (UInt32.ofNat (MemoryFormat.r8g8b8a8.nBytes * (K.oriented turn cel.picture).width.toNat)).toNat =
        (K.oriented turn cel.picture).width.toNat * 4 := by
      rw [UInt32.toNat_ofNat_of_lt' (fits_iff_lt.mp hfits), Nat.mul_comm]
      rfl
    rw [celFrame_of_fits hfits, Except.ok.injEq, and_iff_right hfits]
    constructor
    · rintro rfl
      exact ⟨rfl, rfl, rfl, hstride, rfl, rfl, rfl⟩
    · intro h
      cases f
      obtain ⟨rfl, rfl, rfl, hf, rfl, rfl, rfl⟩ := h
      rw [UInt32.toNat_inj.mp (hstride.trans hf.symm)]
  · rw [celFrame_of_not_fits hfits]
    exact ⟨nofun, fun h => absurd h.1 hfits⟩

/-- **What comes in the way of a frame.** -/
theorem celFrame_eq_error_iff : K.celFrame base turn m n coded = .error e ↔ K.Spoils turn m coded e := by
  cases coded with
  | error fault =>
    have hfault : K.celFrame base turn m n (.error fault) = .error (fault.toLoadError m) := rfl
    rw [hfault, Except.error.injEq]
    constructor
    · rintro rfl
      exact .fault fault
    · rintro ⟨⟩
      rfl
  | ok cel =>
    by_cases hfits : K.Fits turn cel.picture
    · rw [celFrame_of_fits hfits]
      refine ⟨nofun, ?_⟩
      rintro ⟨⟩
      contradiction
    · rw [celFrame_of_not_fits hfits, Except.error.injEq]
      constructor
      · rintro rfl
        exact .tooWide hfits
      · rintro ⟨⟩
        rfl

theorem sound_iff_forall_not_spoils : K.Sound turn coded ↔ ∀ e, ¬ K.Spoils turn m coded e := by
  constructor
  · rintro ⟨cel, rfl, hfits⟩ e ⟨⟩
    contradiction
  · intro h
    cases coded with
    | error fault => exact absurd (.fault fault) (h _)
    | ok cel => exact ⟨cel, rfl, Decidable.byContradiction fun hfits => h _ (.tooWide hfits)⟩

/-! ## All pictures -/

theorem collectFrom_cons_ok_iff {rest : List (Coded Cel)} :
    K.collectFrom base turn m n (coded :: rest) = .ok frames ↔
      ∃ cel f fs, coded = .ok cel ∧ K.Fits turn cel.picture ∧ K.IsFrame base turn n cel f ∧
        K.collectFrom base turn m (n + 1) rest = .ok fs ∧ frames = f :: fs := by
  simp only [collectFrom, bind_eq_ok_iff]
  constructor
  · rintro ⟨f, hf, fs, hfs, hcons⟩
    cases hcons
    cases coded with
    | error fault => cases hf
    | ok cel =>
      obtain ⟨hfits, hframe⟩ := celFrame_eq_ok_iff.mp hf
      exact ⟨cel, f, fs, rfl, hfits, hframe, hfs, rfl⟩
  · rintro ⟨cel, f, fs, rfl, hfits, hframe, hfs, rfl⟩
    exact ⟨f, celFrame_eq_ok_iff.mpr ⟨hfits, hframe⟩, fs, hfs, rfl⟩

/-- **The frames of pictures from number `n` on**: one for each, in their order. -/
theorem collectFrom_eq_ok_iff : K.collectFrom base turn m n cels = .ok frames ↔
    frames.length = cels.length ∧ ∀ (i : Nat) f, frames[i]? = some f →
      ∃ cel, cels[i]? = some (.ok cel) ∧ K.Fits turn cel.picture ∧ K.IsFrame base turn (n + i) cel f := by
  -- the pictures are numbered along the list, so the number of the first one changes with it
  induction cels generalizing n frames with
  | nil =>
    simp only [collectFrom, Except.ok.injEq, List.length_nil, List.length_eq_zero_iff]
    constructor
    · rintro rfl
      exact ⟨rfl, fun i f hf => by simp at hf⟩
    · exact fun h => h.1.symm
  | cons coded rest ih =>
    have hnumber : ∀ i, n + (i + 1) = n + 1 + i := fun i => by omega
    rw [collectFrom_cons_ok_iff]
    constructor
    · rintro ⟨cel, f, fs, rfl, hfits, hframe, hfs, rfl⟩
      obtain ⟨hlength, hall⟩ := ih.mp hfs
      refine ⟨congrArg (· + 1) hlength, fun i g hg => ?_⟩
      cases i with
      | zero =>
        cases hg
        exact ⟨cel, rfl, hfits, hframe⟩
      | succ i =>
        rw [hnumber]
        exact hall i g hg
    · rintro ⟨hlength, hall⟩
      cases frames with
      | nil => cases hlength
      | cons f fs =>
        obtain ⟨cel, hcel, hfits, hframe⟩ := hall 0 f rfl
        refine ⟨cel, f, fs, Option.some.inj hcel, hfits, hframe, ih.mpr ⟨Nat.succ.inj hlength, fun i g hg => ?_⟩, rfl⟩
        have hrest := hall (i + 1) g hg
        rwa [hnumber] at hrest

theorem exists_collectFrom_iff :
    (∃ frames, K.collectFrom base turn m n cels = .ok frames) ↔ ∀ coded ∈ cels, K.Sound turn coded := by
  induction cels generalizing n with
  | nil => exact ⟨fun _ => List.forall_mem_nil _, fun _ => ⟨[], rfl⟩⟩
  | cons coded rest ih =>
    rw [List.forall_mem_cons, ← ih (n := n + 1)]
    simp only [collectFrom_cons_ok_iff]
    constructor
    · rintro ⟨_, cel, f, fs, hcoded, hfits, -, hfs, -⟩
      exact ⟨⟨cel, hcoded, hfits⟩, fs, hfs⟩
    · rintro ⟨⟨cel, hcoded, hfits⟩, fs, hfs⟩
      have hok : K.celFrame base turn m n (.ok cel) = .ok _ := celFrame_of_fits hfits
      obtain ⟨-, hframe⟩ := celFrame_eq_ok_iff.mp hok
      exact ⟨_, cel, _, fs, hcoded, hfits, hframe, hfs, rfl⟩

theorem collectFrom_cons_error_iff {rest : List (Coded Cel)} :
    K.collectFrom base turn m n (coded :: rest) = .error e ↔
      K.Spoils turn m coded e ∨ K.Sound turn coded ∧ K.collectFrom base turn m (n + 1) rest = .error e := by
  have hspoils : ∀ e, K.Spoils turn m coded e ↔ K.celFrame base turn m n coded = .error e :=
    fun _ => celFrame_eq_error_iff.symm
  rw [sound_iff_forall_not_spoils (m := m)]
  simp only [hspoils, collectFrom]
  cases K.celFrame base turn m n coded with
  | error fault => simp [bind, Except.bind]
  | ok f => cases K.collectFrom base turn m (n + 1) rest <;> simp [bind, Except.bind, pure, Except.pure]

/-- **The error is that of the first picture that gives no frame.** -/
theorem collectFrom_eq_error_iff : K.collectFrom base turn m n cels = .error e ↔
    ∃ before coded after, cels = before ++ coded :: after ∧ (∀ c ∈ before, K.Sound turn c) ∧
      K.Spoils turn m coded e := by
  induction cels generalizing n with
  | nil => simp [collectFrom]
  | cons first rest ih =>
    rw [collectFrom_cons_error_iff, ih]
    constructor
    · rintro (hspoils | ⟨hsound, before, coded, after, rfl, hbefore, hspoils⟩)
      · exact ⟨[], first, rest, rfl, List.forall_mem_nil _, hspoils⟩
      · exact ⟨first :: before, coded, after, rfl, List.forall_mem_cons.mpr ⟨hsound, hbefore⟩, hspoils⟩
    · rintro ⟨before, coded, after, hsplit, hbefore, hspoils⟩
      cases before with
      | nil =>
        cases hsplit
        exact .inl hspoils
      | cons c before =>
        cases hsplit
        obtain ⟨hsound, hbefore⟩ := List.forall_mem_cons.mp hbefore
        exact .inr ⟨hsound, before, coded, after, rfl, hbefore, hspoils⟩

/-- What becomes of the pictures of an animation. -/
structure Collects (K : Codecs) (base : FrameDetails) (turn : Option Orientation) (m : MimeType)
    (cels : List (Coded Cel)) (r : Except LoadError (List RawFrame)) : Prop where
  /-- There are frames if every picture could be read and has rows that are not too long. -/
  ok_iff : (∃ frames, r = .ok frames) ↔
    ∀ coded ∈ cels, ∃ cel, coded = .ok cel ∧ (K.oriented turn cel.picture).width.toNat * 4 ≤ 4294967295
  /-- There are as many of them as there are pictures. -/
  length_eq : ∀ frames, r = .ok frames → frames.length = cels.length
  /-- Each is the frame of the picture in its place, and has that place for a number. -/
  isFrame : ∀ frames (i : Nat) f, r = .ok frames → frames[i]? = some f →
    ∃ cel, cels[i]? = some (.ok cel) ∧ K.IsFrame base turn i cel f
  /-- If to turn a picture is to turn its size, then this is the size of the frame. -/
  size_eq : (∀ o n p, (K.turn o n p).size = o.resize p.size) → ∀ frames (i : Nat) f cel, r = .ok frames →
    frames[i]? = some f → cels[i]? = some (.ok cel) → f.size = (turn.getD .upright).resize cel.picture.size
  /-- Else there is the error of the first picture that gives no frame. -/
  error_iff : ∀ e, r = .error e ↔ ∃ before coded after, cels = before ++ coded :: after ∧
    (∀ c ∈ before, K.Sound turn c) ∧ K.Spoils turn m coded e

/-- **An animation is decoded completely or not at all**, and its frames are numbered in order. -/
theorem collects (K : Codecs) (base : FrameDetails) (turn : Option Orientation) (m : MimeType)
    (cels : List (Coded Cel)) : K.Collects base turn m cels (K.collectFrom base turn m 0 cels) := by
  have hframe : ∀ frames (i : Nat) f, K.collectFrom base turn m 0 cels = .ok frames → frames[i]? = some f →
      ∃ cel, cels[i]? = some (.ok cel) ∧ K.IsFrame base turn i cel f := by
    intro frames i f hframes hf
    obtain ⟨cel, hcel, -, hframe⟩ := (collectFrom_eq_ok_iff.mp hframes).2 i f hf
    rw [Nat.zero_add] at hframe
    exact ⟨cel, hcel, hframe⟩
  refine ⟨exists_collectFrom_iff, fun frames h => (collectFrom_eq_ok_iff.mp h).1, hframe, ?_,
    fun e => collectFrom_eq_error_iff⟩
  intro hturn frames i f cel hframes hf hcel
  obtain ⟨cel', hcel', hframe⟩ := hframe frames i f hframes hf
  obtain rfl : cel' = cel := Except.ok.inj (Option.some.inj (hcel'.symm.trans hcel))
  have hsize : f.size = (K.oriented turn cel'.picture).size := Prod.ext hframe.width hframe.height
  rw [hsize]
  cases turn with
  | none => rfl
  | some o => exact hturn o _ _

end ImageLoader.Codecs
