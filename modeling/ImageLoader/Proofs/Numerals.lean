import Mathlib.Data.List.TakeDrop
import ImageLoader.Proofs.Names
import ImageLoader.Text.Decimal

/-!
# Numerals

What people type for a number: digits, as many as they like, perhaps behind a plus sign, and perhaps between blanks.
The reader gives up as soon as what it has read reaches its bound.  Digits that follow can only add to the value, so
giving up early refuses just the numerals whose value is not below the bound, leading zeros or not.

* `Text.span_eq_iff`: what a run of characters of one kind is.
* `Text.Numeral`, `Text.Padded`: a text is a numeral, and is one between blanks.
* `Text.Decimal.digits_eq_ok_iff`: what digits are read as.
* `Text.Decimal.parse_eq_ok_iff`: **a numeral is read as its value, if that is below the bound.**
* `Text.Decimal.parse_eq_error_iff`: **any other text is refused for what is at fault with it.**
-/

namespace ImageLoader.Text

variable {s before after : List Char} {m n bound : Nat} {c : Char}

/-! ## Runs of characters -/

/-- A run takes all characters of its kind: behind it there is none, or one of another kind. -/
theorem span_eq_iff {p : Char → Bool} {run rest : List Char} : s.span p = (run, rest) ↔
    s = run ++ rest ∧ (∀ c ∈ run, p c = true) ∧ ∀ c ∈ rest.head?, p c = false := by
  rw [List.span_eq_takeWhile_dropWhile, Prod.mk.injEq]
  constructor
  · rintro ⟨rfl, rfl⟩
    refine ⟨List.takeWhile_append_dropWhile.symm, fun c => List.mem_takeWhile_imp, fun c hc => ?_⟩
    have hhead := List.head?_dropWhile_not p s
    rw [Option.mem_def.mp hc] at hhead
    simpa using hhead
  · rintro ⟨rfl, hrun, hrest⟩
    have hstop : rest.takeWhile p = [] ∧ rest.dropWhile p = rest := by
      cases rest with
      | nil => exact ⟨rfl, rfl⟩
      | cons c rest =>
        have hc : ¬ p c = true := by simp [hrest c rfl]
        exact ⟨List.takeWhile_cons_of_neg hc, List.dropWhile_cons_of_neg hc⟩
    rw [List.takeWhile_append_of_pos hrun, List.dropWhile_append_of_pos hrun, hstop.1, hstop.2, List.append_nil]
    exact ⟨rfl, rfl⟩

/-! ## Blanks around a text -/

theorem trim_pad (hbefore : ∀ c ∈ before, isBlank c = true) (hafter : ∀ c ∈ after, isBlank c = true) (s : List Char) :
    trim (before ++ s ++ after) = trim s := by
  have hend : ∀ s : List Char, trim (s ++ after) = trim s := by
    clear hbefore
    induction after with
    | nil => exact fun s => congrArg trim s.append_nil
    | cons c after ih =>
      intro s
      have hrest := ih (fun d hd => hafter d (.tail c hd)) (s ++ [c])
      rw [List.append_assoc] at hrest
      exact hrest.trans (trim_concat (hafter c List.mem_cons_self) s)
  rw [hend]
  induction before with
  | nil => rfl
  | cons c before ih =>
    rw [List.cons_append, trim_cons (hbefore c List.mem_cons_self), ih fun d hd => hbefore d (.tail c hd)]

theorem trim_of_forall_not_blank (h : ∀ c ∈ s, isBlank c = false) : trim s = s := by
  have hkept : ∀ t : List Char, (∀ c ∈ t, isBlank c = false) → t.dropWhile isBlank = t := by
    intro t ht
    cases t with
    | nil => rfl
    | cons c t => exact List.dropWhile_cons_of_neg (Bool.eq_false_iff.mp (ht c List.mem_cons_self))
  rw [trim, hkept s h, trimEnd, hkept _ fun c hc => h c (List.mem_reverse.mp hc), List.reverse_reverse]

/-! ## Digits -/

theorem isBlank_of_isDigit (h : c.isDigit = true) : isBlank c = false := by
  have hrange : 48 ≤ c.toNat ∧ c.toNat ≤ 57 := by
    simpa [Char.isDigit, UInt32.le_iff_toNat_le] using h
  rw [Bool.eq_false_iff]
  simp only [isBlank, ne_eq, Bool.or_eq_true, Bool.and_eq_true, decide_eq_true_eq, beq_iff_eq]
  omega

theorem le_ofDigitChars (s : List Char) (n : Nat) : n ≤ Nat.ofDigitChars 10 s n := by
  rw [Nat.ofDigitChars_eq_ofDigitChars_zero]
  exact Nat.le_add_right_of_le (Nat.le_mul_of_pos_left n (Nat.pow_pos (by decide)))

/-- The text is a numeral for `n`: digits, one or more, perhaps behind a plus sign. -/
inductive Numeral : List Char → Nat → Prop
  | plain {s : List Char} : s ≠ [] → (∀ c ∈ s, c.isDigit = true) → Numeral s (Nat.ofDigitChars 10 s 0)
  | plus {s : List Char} : s ≠ [] → (∀ c ∈ s, c.isDigit = true) → Numeral ('+' :: s) (Nat.ofDigitChars 10 s 0)

namespace Numeral

theorem ne_nil (h : Numeral s n) : s ≠ [] := by
  cases h with
  | plain hne _ => exact hne
  | plus _ _ => exact List.cons_ne_nil _ _

theorem isDigit_or_eq (h : Numeral s n) (hc : c ∈ s) : c.isDigit = true ∨ c = '+' := by
  cases h with
  | plain _ hdigits => exact .inl (hdigits c hc)
  | plus _ hdigits =>
    rcases List.mem_cons.mp hc with rfl | hc
    · exact .inr rfl
    · exact .inl (hdigits c hc)

theorem isBlank_eq_false (h : Numeral s n) (hc : c ∈ s) : isBlank c = false := by
  rcases h.isDigit_or_eq hc with hdigit | rfl
  · exact isBlank_of_isDigit hdigit
  · rfl

theorem unique (hm : Numeral s m) (hn : Numeral s n) : m = n := by
  -- a plus sign is no digit, so both were made by the same constructor
  cases hm with
  | plain _ hdigits =>
    cases hn with
    | plain _ _ => rfl
    | plus _ _ => exact absurd (hdigits '+' List.mem_cons_self) (by decide)
  | plus _ _ =>
    cases hn with
    | plain _ hdigits => exact absurd (hdigits '+' List.mem_cons_self) (by decide)
    | plus _ _ => rfl

theorem plus_iff : Numeral ('+' :: s) n ↔ s ≠ [] ∧ (∀ c ∈ s, c.isDigit = true) ∧ Nat.ofDigitChars 10 s 0 = n := by
  constructor
  · intro h
    cases h with
    | plain _ hdigits => exact absurd (hdigits '+' List.mem_cons_self) (by decide)
    | plus hne hdigits => exact ⟨hne, hdigits, rfl⟩
  · rintro ⟨hne, hdigits, rfl⟩
    exact .plus hne hdigits

theorem plain_iff (hplus : s.head? ≠ some '+') :
    Numeral s n ↔ s ≠ [] ∧ (∀ c ∈ s, c.isDigit = true) ∧ Nat.ofDigitChars 10 s 0 = n := by
  constructor
  · intro h
    cases h with
    | plain hne hdigits => exact ⟨hne, hdigits, rfl⟩
    | plus _ _ => exact absurd rfl hplus
  · rintro ⟨hne, hdigits, rfl⟩
    exact .plain hne hdigits

theorem toString (n : Nat) : Numeral (ToString.toString n).toList n := by
  have hdigits : ∀ c ∈ Nat.toDigits 10 n, c.isDigit = true := fun c hc =>
    Nat.isDigit_of_mem_toDigits (by decide) (by decide) hc
  have hnumeral := plain Nat.toDigits_ne_nil hdigits
  rw [Nat.ofDigitChars_ten_toDigits] at hnumeral
  rw [Nat.toString_eq_repr, Nat.toList_repr]
  exact hnumeral

end Numeral

/-- Between blanks, the text is a numeral for `n`. -/
def Padded (s : List Char) (n : Nat) : Prop :=
  ∃ before numeral after, s = before ++ numeral ++ after ∧ (∀ c ∈ before, isBlank c = true) ∧
    (∀ c ∈ after, isBlank c = true) ∧ Numeral numeral n

theorem Numeral.padded (h : Numeral s n) : Padded s n :=
  ⟨[], s, [], (List.append_nil s).symm, List.forall_mem_nil _, List.forall_mem_nil _, h⟩

theorem numeral_trim_iff : Numeral (trim s) n ↔ Padded s n := by
  constructor
  · intro h
    obtain ⟨before, after, hsplit, hbefore, hafter⟩ := exists_trim s
    exact ⟨before, trim s, after, hsplit, hbefore, hafter, h⟩
  · rintro ⟨before, numeral, after, rfl, hbefore, hafter, h⟩
    rw [trim_pad hbefore hafter, trim_of_forall_not_blank fun c hc => h.isBlank_eq_false hc]
    exact h

namespace Padded

theorem unique (hm : Padded s m) (hn : Padded s n) : m = n :=
  (numeral_trim_iff.mpr hm).unique (numeral_trim_iff.mpr hn)

theorem isBlank_or (h : Padded s n) (hc : c ∈ s) : isBlank c = true ∨ c.isDigit = true ∨ c = '+' := by
  obtain ⟨before, numeral, after, rfl, hbefore, hafter, h⟩ := h
  rw [List.mem_append, List.mem_append] at hc
  rcases hc with (hc | hc) | hc
  · exact .inl (hbefore c hc)
  · exact .inr (h.isDigit_or_eq hc)
  · exact .inl (hafter c hc)

/-- Blanks alone are no numeral. -/
theorem exists_not_blank (h : Padded s n) : ∃ c ∈ s, isBlank c = false := by
  obtain ⟨before, numeral, after, rfl, -, -, h⟩ := h
  obtain ⟨c, hc⟩ := List.exists_mem_of_ne_nil numeral h.ne_nil
  exact ⟨c, List.mem_append_left after (List.mem_append_right before hc), h.isBlank_eq_false hc⟩

end Padded

namespace Decimal

/-! ## The reader -/

theorem digit?_of_isDigit (h : c.isDigit = true) : digit? c = some (c.toNat - '0'.toNat) := by
  simp only [Char.isDigit, Bool.and_eq_true, decide_eq_true_eq] at h
  exact if_pos h

theorem digit?_of_not_isDigit (h : ¬ c.isDigit = true) : digit? c = none := by
  simp only [Char.isDigit, Bool.and_eq_true, decide_eq_true_eq] at h
  exact if_neg h

/-- **Digits are read as the value that they continue, if it is below the bound.** -/
theorem digits_eq_ok_iff (hn : n < bound) : digits bound n s = .ok m ↔
    (∀ c ∈ s, c.isDigit = true) ∧ Nat.ofDigitChars 10 s n = m ∧ m < bound := by
  induction s generalizing n with
  | nil =>
    simp only [digits, Except.ok.injEq, Nat.ofDigitChars_nil, List.not_mem_nil, false_imp_iff, implies_true,
      true_and]
    constructor
    · rintro rfl
      exact ⟨rfl, hn⟩
    · exact And.left
  | cons c r ih =>
    rw [List.forall_mem_cons, Nat.ofDigitChars_cons, Nat.mul_comm 10 n]
    by_cases hc : c.isDigit = true
    · simp only [digits, digit?_of_isDigit hc]
      by_cases hlt : n * 10 + (c.toNat - '0'.toNat) < bound
      · rw [if_pos hlt, ih hlt, and_assoc, and_iff_right hc]
      · -- the value is too large already, and will not become smaller
        rw [if_neg hlt]
        simp only [reduceCtorEq, false_iff]
        rintro ⟨-, rfl, hm⟩
        exact hlt (Nat.lt_of_le_of_lt (le_ofDigitChars r _) hm)
    · simp only [digits, digit?_of_not_isDigit hc, reduceCtorEq, false_iff]
      exact fun h => hc h.1.1

/-- What is at fault with a character, behind digits that were read as `n`. -/
inductive FaultAt (bound n : Nat) (c : Char) : Fault → Prop
  | invalidDigit : ¬ c.isDigit = true → FaultAt bound n c .invalidDigit
  | tooLarge : c.isDigit = true → bound ≤ n * 10 + (c.toNat - '0'.toNat) → FaultAt bound n c .tooLarge

/-- Digits are read up to the first character that is at fault. -/
inductive FaultIn (bound n : Nat) (s : List Char) (f : Fault) : Prop
  | intro {before after : List Char} {c : Char} : s = before ++ c :: after → (∀ d ∈ before, d.isDigit = true) →
      Nat.ofDigitChars 10 before n < bound → FaultAt bound (Nat.ofDigitChars 10 before n) c f → FaultIn bound n s f

variable {f : Fault}

theorem digits_cons_of_faultAt (h : FaultAt bound n c f) (r : List Char) : digits bound n (c :: r) = .error f := by
  cases h with
  | invalidDigit hc => simp only [digits, digit?_of_not_isDigit hc]
  | tooLarge hc hle => simp only [digits, digit?_of_isDigit hc, if_neg (Nat.not_lt_of_le hle)]

theorem faultIn_cons_iff (hn : n < bound) {r : List Char} : FaultIn bound n (c :: r) f ↔
    FaultAt bound n c f ∨ c.isDigit = true ∧ n * 10 + (c.toNat - '0'.toNat) < bound ∧
      FaultIn bound (n * 10 + (c.toNat - '0'.toNat)) r f := by
  constructor
  · rintro ⟨hsplit, hdigits, hlt, hfault⟩
    rename_i before after d
    cases before with
    | nil =>
      obtain ⟨rfl, -⟩ := List.cons.inj hsplit
      exact .inl hfault
    | cons e before =>
      obtain ⟨rfl, hr⟩ := List.cons.inj hsplit
      rw [Nat.ofDigitChars_cons, Nat.mul_comm 10 n] at hlt hfault
      obtain ⟨hc, hbefore⟩ := List.forall_mem_cons.mp hdigits
      exact .inr ⟨hc, Nat.lt_of_le_of_lt (le_ofDigitChars before _) hlt, hr, hbefore, hlt, hfault⟩
  · rintro (hfault | ⟨hc, -, hr, hbefore, hlt, hfault⟩)
    · exact ⟨(List.nil_append _).symm, List.forall_mem_nil _, hn, hfault⟩
    · rw [Nat.mul_comm n 10, ← Nat.ofDigitChars_cons] at hlt hfault
      exact ⟨by rw [hr, List.cons_append], List.forall_mem_cons.mpr ⟨hc, hbefore⟩, hlt, hfault⟩

/-- **The fault of digits is the fault of the first character that has one.** -/
theorem digits_eq_error_iff (hn : n < bound) : digits bound n s = .error f ↔ FaultIn bound n s f := by
  induction s generalizing n with
  | nil =>
    simp only [digits, reduceCtorEq, false_iff]
    rintro ⟨hsplit, -⟩
    cases List.append_ne_nil_of_right_ne_nil _ (List.cons_ne_nil _ _) hsplit.symm
  | cons c r ih =>
    rw [faultIn_cons_iff hn]
    by_cases hc : c.isDigit = true
    · by_cases hlt : n * 10 + (c.toNat - '0'.toNat) < bound
      · have hnone : ¬ FaultAt bound n c f := by
          rintro (hnot | ⟨-, hle⟩)
          · exact hnot hc
          · exact Nat.not_lt_of_le hle hlt
        rw [digits, digit?_of_isDigit hc]
        simp only [if_pos hlt, ih hlt, or_iff_right hnone, and_iff_right hc, and_iff_right hlt]
      · rw [digits_cons_of_faultAt (.tooLarge hc (Nat.le_of_not_lt hlt))]
        simp only [hlt, false_and, and_false, or_false, Except.error.injEq]
        constructor
        · rintro rfl
          exact .tooLarge hc (Nat.le_of_not_lt hlt)
        · rintro (hnot | -)
          · exact absurd hc hnot
          · rfl
    · rw [digits_cons_of_faultAt (.invalidDigit hc)]
      simp only [hc, Bool.false_eq_true, false_and, or_false, Except.error.injEq]
      constructor
      · rintro rfl
        exact .invalidDigit hc
      · rintro (- | hdigit)
        · rfl
        · exact absurd hdigit hc

/-- What is at fault with a text that is no numeral below the bound. -/
inductive Faulty (bound : Nat) : List Char → Fault → Prop
  | empty : Faulty bound [] .empty
  | signAlone : Faulty bound ['+'] .invalidDigit
  | plus {s : List Char} {f : Fault} : FaultIn bound 0 s f → Faulty bound ('+' :: s) f
  | plain {s : List Char} {f : Fault} : s.head? ≠ some '+' → FaultIn bound 0 s f → Faulty bound s f

theorem FaultIn.ne_nil (h : FaultIn bound n s f) : s ≠ [] := by
  obtain ⟨rfl, -⟩ := h
  exact List.append_ne_nil_of_right_ne_nil _ (List.cons_ne_nil _ _)

namespace Faulty

theorem nil_iff : Faulty bound [] f ↔ f = .empty := by
  constructor
  · rintro (_ | _ | _ | ⟨-, hin⟩)
    · rfl
    · exact absurd rfl hin.ne_nil
  · rintro rfl
    exact .empty

theorem signAlone_iff : Faulty bound ['+'] f ↔ f = .invalidDigit := by
  constructor
  · rintro (_ | _ | hin | ⟨hplus, -⟩)
    · rfl
    · exact absurd rfl hin.ne_nil
    · exact absurd rfl hplus
  · rintro rfl
    exact .signAlone

theorem plus_iff (hs : s ≠ []) : Faulty bound ('+' :: s) f ↔ FaultIn bound 0 s f := by
  constructor
  · rintro (_ | _ | hin | ⟨hplus, -⟩)
    · exact absurd rfl hs
    · exact hin
    · exact absurd rfl hplus
  · exact .plus

theorem plain_iff (hne : s ≠ []) (hplus : s.head? ≠ some '+') : Faulty bound s f ↔ FaultIn bound 0 s f := by
  constructor
  · rintro (_ | _ | _ | ⟨-, hin⟩)
    · exact absurd rfl hne
    · exact absurd rfl hplus
    · exact absurd rfl hplus
    · exact hin
  · exact .plain hplus

end Faulty

theorem parse_cases (bound : Nat) (s : List Char) :
    s = [] ∧ parse bound s = .error .empty ∨ s = ['+'] ∧ parse bound s = .error .invalidDigit ∨
      (∃ r, s = '+' :: r ∧ r ≠ [] ∧ parse bound s = digits bound 0 r) ∨
      s ≠ [] ∧ s.head? ≠ some '+' ∧ parse bound s = digits bound 0 s := by
  unfold parse
  split
  · exact .inl ⟨rfl, rfl⟩
  · exact .inr (.inl ⟨rfl, rfl⟩)
  · rename_i r hr
    refine .inr (.inr (.inl ⟨r, rfl, ?_, rfl⟩))
    rintro rfl
    exact hr rfl
  · rename_i hnil _ hplus
    refine .inr (.inr (.inr ⟨hnil, fun h => ?_, rfl⟩))
    obtain ⟨r, hr⟩ := List.head?_eq_some_iff.mp h
    exact hplus r hr

/-- **A numeral is read as its value, if that is below the bound**, and nothing else is read. -/
theorem parse_eq_ok_iff (hbound : 0 < bound) : parse bound s = .ok n ↔ Numeral s n ∧ n < bound := by
  rcases parse_cases bound s with ⟨rfl, h⟩ | ⟨rfl, h⟩ | ⟨r, rfl, hr, h⟩ | ⟨hne, hplus, h⟩
  · rw [h]
    simp only [reduceCtorEq, false_iff]
    exact fun hn => hn.1.ne_nil rfl
  · rw [h, Numeral.plus_iff]
    simp
  · rw [h, Numeral.plus_iff, digits_eq_ok_iff hbound, and_iff_right hr, and_assoc]
  · rw [h, Numeral.plain_iff hplus, digits_eq_ok_iff hbound, and_iff_right hne, and_assoc]

/-- **Any other text is refused for what is at fault with it.** -/
theorem parse_eq_error_iff (hbound : 0 < bound) : parse bound s = .error f ↔ Faulty bound s f := by
  rcases parse_cases bound s with ⟨rfl, h⟩ | ⟨rfl, h⟩ | ⟨r, rfl, hr, h⟩ | ⟨hne, hplus, h⟩
  · rw [h, Faulty.nil_iff, Except.error.injEq, eq_comm]
  · rw [h, Faulty.signAlone_iff, Except.error.injEq, eq_comm]
  · rw [h, Faulty.plus_iff hr, digits_eq_error_iff hbound]
  · rw [h, Faulty.plain_iff hne hplus, digits_eq_error_iff hbound]

theorem parse_trim_eq_ok_iff (hbound : 0 < bound) : parse bound (trim s) = .ok n ↔ Padded s n ∧ n < bound := by
  rw [parse_eq_ok_iff hbound, numeral_trim_iff]

end Decimal

end ImageLoader.Text
