import ImageLoader.Command.Arguments
import ImageLoader.Proofs.Errors
import ImageLoader.Proofs.Numerals

/-!
# Sizes on the command line

A size is written as its width and its height with a cross between them, which is the letter x of either case.  The
first cross of the text parts the sides, and neither a numeral nor the blanks around it hold another, so a text can be
read in one way at most.

* `Asks`: a text asks for a width and a height, of whatever value.
* `parseScale_eq_ok_iff`, `parseScale_eq_error_iff`: what a text is read as, and what is said of one that is refused.
* `parseScale_readsSizes`: **sizes are read as promised**: those that fit, and nothing else.
-/

namespace ImageLoader

open Text (Padded isBlank)
open Text.Decimal (Fault Faulty)

variable {s a b : List Char} {c : Char} {w h w' h' : Nat}

/-- The letter that stands between the sides. -/
def IsCross (c : Char) : Prop := c = 'x' ∨ c = 'X'

instance (c : Char) : Decidable (IsCross c) := inferInstanceAs (Decidable (_ ∨ _))

/-- The text asks for a width and a height: a numeral for each, perhaps between blanks, on the two sides of the first
cross. -/
def Asks (s : List Char) (w h : Nat) : Prop :=
  ∃ a c b, s = a ++ c :: b ∧ IsCross c ∧ (∀ d ∈ a, ¬ IsCross d) ∧ Padded a w ∧ Padded b h

/-! ## The first cross -/

theorem span_cross_eq_iff : (s.span fun d => d != 'x' && d != 'X') = (a, c :: b) ↔
    s = a ++ c :: b ∧ IsCross c ∧ ∀ d ∈ a, ¬ IsCross d := by
  have hother : ∀ d : Char, (d != 'x' && d != 'X') = true ↔ ¬ IsCross d := by
    intro d
    rw [Bool.and_eq_true, bne_iff_ne, bne_iff_ne, IsCross, not_or]
  have hcross : (∀ d ∈ (c :: b).head?, (d != 'x' && d != 'X') = false) ↔ IsCross c := by
    simp only [List.head?_cons, Option.mem_some_iff, forall_eq', ← Bool.not_eq_true, hother, not_not]
  rw [Text.span_eq_iff, hcross, forall₂_congr fun d _ => hother d, and_comm (a := IsCross c)]

theorem not_isCross_of_padded {n : Nat} (ha : Padded a n) {d : Char} (hd : d ∈ a) : ¬ IsCross d := by
  rintro (rfl | rfl) <;> exact absurd (ha.isBlank_or hd) (by decide)

namespace Asks

theorem unique (hs : Asks s w h) (hs' : Asks s w' h') : w = w' ∧ h = h' := by
  obtain ⟨a, c, b, hsplit, hc, ha, hw, hh⟩ := hs
  obtain ⟨a', c', b', hsplit', hc', ha', hw', hh'⟩ := hs'
  have hspan := (span_cross_eq_iff.mpr ⟨hsplit, hc, ha⟩).symm.trans (span_cross_eq_iff.mpr ⟨hsplit', hc', ha'⟩)
  cases hspan
  exact ⟨hw.unique hw', hh.unique hh'⟩

theorem isBlank_or (hs : Asks s w h) (hc : c ∈ s) :
    isBlank c = true ∨ c.isDigit = true ∨ c = '+' ∨ IsCross c := by
  obtain ⟨a, d, b, rfl, hd, -, hw, hh⟩ := hs
  have hside : ∀ {t : List Char} {n : Nat}, Padded t n → c ∈ t →
      isBlank c = true ∨ c.isDigit = true ∨ c = '+' ∨ IsCross c :=
    fun ht hmem => (ht.isBlank_or hmem).imp_right (Or.imp_right .inl)
  rcases List.mem_append.mp hc with hmem | hmem
  · exact hside hw hmem
  · rcases List.mem_cons.mp hmem with rfl | hmem
    · exact .inr (.inr (.inr hd))
    · exact hside hh hmem

/-- What stands before the first cross and behind it are the sides. -/
theorem sides (hs : Asks (a ++ c :: b) w h) (hc : IsCross c) (ha : ∀ d ∈ a, ¬ IsCross d) :
    Padded a w ∧ Padded b h := by
  obtain ⟨a', c', b', hsplit, hc', ha', hw, hh⟩ := hs
  have hspan := (span_cross_eq_iff.mpr ⟨rfl, hc, ha⟩).symm.trans (span_cross_eq_iff.mpr ⟨hsplit, hc', ha'⟩)
  cases hspan
  exact ⟨hw, hh⟩

theorem exists_not_blank (hs : Asks (a ++ c :: b) w h) (hc : IsCross c) (ha : ∀ d ∈ a, ¬ IsCross d) :
    (∃ d ∈ a, isBlank d = false) ∧ ∃ d ∈ b, isBlank d = false := by
  obtain ⟨hw, hh⟩ := hs.sides hc ha
  exact ⟨hw.exists_not_blank, hh.exists_not_blank⟩

/-- Behind a cross there is no other. -/
theorem not_isCross (hs : Asks (a ++ c :: b) w h) (hc : IsCross c) {d : Char} (hd : d ∈ b) : ¬ IsCross d := by
  obtain ⟨a', c', b', hsplit, -, ha', -, hh⟩ := hs
  refine not_isCross_of_padded hh ?_
  -- the first cross is the one at `c` or stands before it, so what follows `c` belongs to the height
  rcases List.append_eq_append_iff.mp hsplit with ⟨m, rfl, hm⟩ | ⟨m, -, hm⟩
  · cases m with
    | nil => exact (List.cons.inj hm).2 ▸ hd
    | cons first m =>
      obtain ⟨rfl, -⟩ := List.cons.inj hm
      exact absurd hc (ha' _ (List.mem_append_right a List.mem_cons_self))
  · cases m with
    | nil => exact (List.cons.inj hm).2 ▸ hd
    | cons first m =>
      rw [(List.cons.inj hm).2]
      exact List.mem_append_right m (.tail c hd)

end Asks

/-! ## Reading a size -/

theorem parseSide_eq_ok_iff {n : UInt32} : parseSide s = .ok n ↔ Padded s n.toNat := by
  have hparse : ∀ m, Text.Decimal.parse UInt32.size (Text.trim s) = .ok m ↔ Padded s m ∧ m < UInt32.size :=
    fun _ => Text.Decimal.parse_trim_eq_ok_iff (by decide)
  unfold parseSide
  constructor
  · intro h
    split at h
    · rename_i m hm
      cases h
      obtain ⟨hs, hlt⟩ := (hparse m).mp hm
      rwa [UInt32.toNat_ofNat_of_lt' hlt]
    · cases h
  · intro hs
    rw [(hparse _).mpr ⟨hs, n.toNat_lt⟩]
    exact congrArg Except.ok UInt32.ofNat_toNat

/-- What is said of a side that is no numeral, or one that is too large. -/
inductive SideFault (s : List Char) : String → Prop
  | intro {f : Fault} : Faulty UInt32.size (Text.trim s) f → SideFault s s!"{String.ofList s}: {f.text}"

theorem parseSide_eq_error_iff {e : String} : parseSide s = .error e ↔ SideFault s e := by
  unfold parseSide
  constructor
  · intro h
    split at h
    · cases h
    · rename_i f hf
      cases h
      exact ⟨(Text.Decimal.parse_eq_error_iff (by decide)).mp hf⟩
  · rintro ⟨hf⟩
    rw [(Text.Decimal.parse_eq_error_iff (by decide)).mpr hf]

theorem parseScale_of_sides (hc : IsCross c) (ha : ∀ d ∈ a, ¬ IsCross d) :
    parseScale (a ++ c :: b) = do return (← parseSide a, ← parseSide b) := by
  rw [parseScale, span_cross_eq_iff.mpr ⟨rfl, hc, ha⟩]

theorem parseScale_of_no_cross (hs : ∀ d ∈ s, ¬ IsCross d) :
    parseScale s = .error s!"expected WIDTHxHEIGHT, got {String.ofList s}" := by
  unfold parseScale
  split
  · rename_i a c b hspan
    obtain ⟨rfl, hc, -⟩ := span_cross_eq_iff.mp hspan
    exact absurd hc (hs c (List.mem_append_right a List.mem_cons_self))
  · rfl

theorem cross_cases (s : List Char) : (∀ d ∈ s, ¬ IsCross d) ∨
    ∃ a c b, s = a ++ c :: b ∧ IsCross c ∧ ∀ d ∈ a, ¬ IsCross d := by
  rcases hspan : s.span fun d => d != 'x' && d != 'X' with ⟨a, _ | ⟨c, b⟩⟩
  · refine .inl fun d hd hcross => ?_
    obtain ⟨rfl, hall, -⟩ := Text.span_eq_iff.mp hspan
    rw [List.append_nil] at hd
    rcases hcross with rfl | rfl <;> exact absurd (hall _ hd) (by decide)
  · exact .inr ⟨a, c, b, span_cross_eq_iff.mp hspan⟩

/-- **A text is read as the size that it asks for.** -/
theorem parseScale_eq_ok_iff {w h : UInt32} : parseScale s = .ok (w, h) ↔ Asks s w.toNat h.toNat := by
  rcases cross_cases s with hs | ⟨a, c, b, rfl, hc, ha⟩
  · rw [parseScale_of_no_cross hs]
    simp only [reduceCtorEq, false_iff]
    rintro ⟨a, c, b, rfl, hc, -⟩
    exact hs c (List.mem_append_right a List.mem_cons_self) hc
  · rw [parseScale_of_sides hc ha, bind_eq_ok_iff]
    constructor
    · rintro ⟨w', hw, hrest⟩
      obtain ⟨h', hh, heq⟩ := bind_eq_ok_iff.mp hrest
      cases heq
      exact ⟨a, c, b, rfl, hc, ha, parseSide_eq_ok_iff.mp hw, parseSide_eq_ok_iff.mp hh⟩
    · intro hs
      obtain ⟨hw, hh⟩ := hs.sides hc ha
      exact ⟨w, parseSide_eq_ok_iff.mpr hw, bind_eq_ok_iff.mpr ⟨h, parseSide_eq_ok_iff.mpr hh, rfl⟩⟩

/-- What is said of a text that is refused: what its first fault is, the width being looked at before the height. -/
inductive Complaint (s : List Char) : String → Prop
  | noCross : (∀ d ∈ s, ¬ IsCross d) → Complaint s s!"expected WIDTHxHEIGHT, got {String.ofList s}"
  | width {a b : List Char} {c : Char} {e : String} : s = a ++ c :: b → IsCross c → (∀ d ∈ a, ¬ IsCross d) →
      SideFault a e → Complaint s e
  | height {a b : List Char} {c : Char} {w : UInt32} {e : String} : s = a ++ c :: b → IsCross c →
      (∀ d ∈ a, ¬ IsCross d) → Padded a w.toNat → SideFault b e → Complaint s e

/-- **Any other text is refused for its first fault.** -/
theorem parseScale_eq_error_iff {e : String} : parseScale s = .error e ↔ Complaint s e := by
  constructor
  · intro hread
    rcases cross_cases s with hs | ⟨a, c, b, rfl, hc, ha⟩
    · rw [parseScale_of_no_cross hs] at hread
      cases hread
      exact .noCross hs
    · rw [parseScale_of_sides hc ha, bind_eq_error_iff] at hread
      rcases hread with hw | ⟨w, hw, hrest⟩
      · exact .width rfl hc ha (parseSide_eq_error_iff.mp hw)
      · rcases bind_eq_error_iff.mp hrest with hh | ⟨h, -, hnone⟩
        · exact .height rfl hc ha (parseSide_eq_ok_iff.mp hw) (parseSide_eq_error_iff.mp hh)
        · cases hnone
  · rintro (hs | ⟨rfl, hc, ha, hw⟩ | ⟨rfl, hc, ha, hw, hh⟩)
    · exact parseScale_of_no_cross hs
    · rw [parseScale_of_sides hc ha, parseSide_eq_error_iff.mpr hw]
      rfl
    · rw [parseScale_of_sides hc ha, parseSide_eq_ok_iff.mpr hw, parseSide_eq_error_iff.mpr hh]
      rfl

theorem parseScale_eq_error_of_forall (hs : ∀ w h, Asks s w h → UInt32.size ≤ w ∨ UInt32.size ≤ h) :
    ∃ e, parseScale s = .error e := by
  rcases hread : parseScale s with e | ⟨w, h⟩
  · exact ⟨e, rfl⟩
  · rcases hs _ _ (parseScale_eq_ok_iff.mp hread) with hw | hh
    · exact absurd w.toNat_lt (Nat.not_lt_of_le hw)
    · exact absurd h.toNat_lt (Nat.not_lt_of_le hh)

/-- How sizes are read. -/
structure ReadsSizes (read : List Char → Except String (UInt32 × UInt32)) : Prop where
  /-- A text is read as the size that it asks for. -/
  ok_iff : ∀ s w h, read s = .ok (w, h) ↔ Asks s w.toNat h.toNat
  /-- Any other text is refused: one that asks for no size, or for one that is too large. -/
  refused_iff : ∀ s, (∃ e, read s = .error e) ↔ ∀ w h, Asks s w h → 4294967295 < w ∨ 4294967295 < h
  /-- What is said then is what is at fault. -/
  error_iff : ∀ s e, read s = .error e ↔ Complaint s e
  /-- A side that is too large is refused, with any number of digits. -/
  tooLarge : ∀ s w h, Asks s w h → 4294967296 ≤ w ∨ 4294967296 ≤ h → ∃ e, read s = .error e
  /-- Both sides must be there. -/
  emptySide : ∀ a c b, IsCross c → (∀ d ∈ a, ¬ IsCross d) →
    (∀ d ∈ a, isBlank d = true) ∨ (∀ d ∈ b, isBlank d = true) → ∃ e, read (a ++ c :: b) = .error e
  /-- No side may be negative. -/
  minus : ∀ s, '-' ∈ s → ∃ e, read s = .error e
  /-- There may be one cross only. -/
  secondCross : ∀ a c b d e, IsCross c → IsCross d → ∃ e', read (a ++ c :: (b ++ d :: e)) = .error e'
  /-- A size that is written can be read. -/
  written : ∀ w h : UInt32, read ((toString w).toList ++ 'x' :: (toString h).toList) = .ok (w, h)

/-- **Sizes on the command line are read as promised.** -/
theorem parseScale_readsSizes : ReadsSizes parseScale where
  ok_iff _ _ _ := parseScale_eq_ok_iff
  refused_iff s := by
    refine ⟨fun ⟨e, hread⟩ w h hs => ?_, parseScale_eq_error_of_forall⟩
    by_contra hfits
    obtain ⟨hw, hh⟩ : w < UInt32.size ∧ h < UInt32.size := by
      simp only [UInt32.size]
      omega
    have hok : parseScale s = .ok (.ofNat w, .ofNat h) := by
      rw [parseScale_eq_ok_iff, UInt32.toNat_ofNat_of_lt' hw, UInt32.toNat_ofNat_of_lt' hh]
      exact hs
    rw [hok] at hread
    cases hread
  error_iff _ _ := parseScale_eq_error_iff
  tooLarge s w h hs hlarge := parseScale_eq_error_of_forall fun w' h' hs' => by
    obtain ⟨rfl, rfl⟩ := hs.unique hs'
    exact hlarge
  emptySide a c b hc ha hblank := parseScale_eq_error_of_forall fun w h hs => by
    obtain ⟨⟨d, hd, hnot⟩, e, he, hnot'⟩ := hs.exists_not_blank hc ha
    rcases hblank with hall | hall
    · exact absurd (hall d hd) (Bool.eq_false_iff.mp hnot)
    · exact absurd (hall e he) (Bool.eq_false_iff.mp hnot')
  minus s hminus := parseScale_eq_error_of_forall fun w h hs => absurd (hs.isBlank_or hminus) (by decide)
  secondCross a c b d e hc hd := parseScale_eq_error_of_forall fun w h hs =>
    absurd hd (hs.not_isCross hc (List.mem_append_right b List.mem_cons_self))
  written w h := by
    rw [parseScale_eq_ok_iff]
    refine ⟨_, 'x', _, rfl, .inl rfl, fun d hd => ?_, (Text.Numeral.toString _).padded,
      (Text.Numeral.toString _).padded⟩
    exact not_isCross_of_padded (Text.Numeral.toString w.toNat).padded hd

example : parseScale "+0064X 4294967295\t".toList = .ok (64, 4294967295) := by decide

example : parseScale "64x 4294967296y".toList =
    .error " 4294967296y: number too large to fit in target type" := by decide

end ImageLoader
