import ImageLoader.Json.Reader
import ImageLoader.Json.Writer
import ImageLoader.Proofs.Numerals

/-!
# Numbers and strings in JSON texts

The parts of a JSON text that have no parts of their own.  A number goes as far as it can, so what follows it must not
be able to continue it; a string ends where it says so, and whatever may follow.

* `Json.NumberText`: the grammar of numbers, with the number that is written.
* `Json.exists_of_number?`, `Json.number?_append`: **the reader takes what the grammar allows**, and all that it takes
  is allowed.
* `Json.pieces?_append`, `Json.exists_of_pieces?`: where a string ends.
* `Json.numberText_render`, `Json.exists_stringText`: numbers and strings that are written can be read.
-/

namespace ImageLoader.Json

variable {s t r d w : List Char} {c : Char} {f : Option (List Char)} {e : Option Int} {n : JsonNumber}

/-! ## Digits -/

theorem isDigit_eq (c : Char) : isDigit c = c.isDigit := by
  by_cases h : c.isDigit = true
  · rw [isDigit, Text.Decimal.digit?_of_isDigit h, h, Option.isSome_some]
  · rw [isDigit, Text.Decimal.digit?_of_not_isDigit h, Option.isSome_none, Bool.eq_false_iff.mpr h]

structure IsDigits (d : List Char) : Prop where
  ne_nil : d ≠ []
  forall_mem : ∀ c ∈ d, isDigit c = true

theorem digits?_eq_some_iff : digits? s = some (d, r) ↔
    s = d ++ r ∧ IsDigits d ∧ ∀ c ∈ r.head?, isDigit c = false := by
  unfold digits?
  rcases hspan : s.span isDigit with ⟨run, rest⟩
  have hrun := Text.span_eq_iff.mp hspan
  cases run with
  | nil =>
    simp only [reduceCtorEq, false_iff]
    rintro ⟨hsplit, hd, hr⟩
    rw [Text.span_eq_iff.mpr ⟨hsplit, hd.forall_mem, hr⟩] at hspan
    exact hd.ne_nil (congrArg Prod.fst hspan)
  | cons c run =>
    simp only [Option.some.injEq, Prod.mk.injEq]
    constructor
    · rintro ⟨rfl, rfl⟩
      exact ⟨hrun.1, ⟨List.cons_ne_nil c run, hrun.2.1⟩, hrun.2.2⟩
    · rintro ⟨hsplit, hd, hr⟩
      rw [Text.span_eq_iff.mpr ⟨hsplit, hd.forall_mem, hr⟩] at hspan
      exact ⟨(congrArg Prod.fst hspan).symm, (congrArg Prod.snd hspan).symm⟩

/-! ## Numbers -/

/-- The integer part: a zero alone, or digits that begin with another. -/
inductive Whole : List Char → Prop
  | zero : Whole ['0']
  | digits {c : Char} {d : List Char} : c ≠ '0' → IsDigits (c :: d) → Whole (c :: d)

/-- A fraction with its digits, or none. -/
inductive Fraction : List Char → Option (List Char) → Prop
  | absent : Fraction [] none
  | digits {d : List Char} : IsDigits d → Fraction ('.' :: d) (some d)

/-- An exponent with its value, or none. -/
inductive Exponent : List Char → Option Int → Prop
  | absent : Exponent [] none
  | plain {c : Char} {d : List Char} : c = 'e' ∨ c = 'E' → IsDigits d → Exponent (c :: d) (some (digitsValue 0 d))
  | plus {c : Char} {d : List Char} : c = 'e' ∨ c = 'E' → IsDigits d →
      Exponent (c :: '+' :: d) (some (digitsValue 0 d))
  | minus {c : Char} {d : List Char} : c = 'e' ∨ c = 'E' → IsDigits d →
      Exponent (c :: '-' :: d) (some (-(digitsValue 0 d : Int)))

def numberOf (isNegative : Bool) (whole : List Char) (fraction : Option (List Char)) (exponent : Option Int) :
    JsonNumber :=
  match fraction, exponent with
  | none, none =>
    let n := digitsValue 0 whole
    if isNegative then if n = 0 then .real 0 0 else .negative n else .natural n
  | f, e =>
    let f := f.getD []
    .real (digitsValue 0 (whole ++ f)) (e.getD 0 - f.length)

inductive NumberText : List Char → JsonNumber → Prop
  | unsigned {w t u : List Char} {f : Option (List Char)} {e : Option Int} :
      Whole w → Fraction t f → Exponent u e → NumberText (w ++ t ++ u) (numberOf false w f e)
  | minus {w t u : List Char} {f : Option (List Char)} {e : Option Int} :
      Whole w → Fraction t f → Exponent u e → NumberText ('-' :: (w ++ t ++ u)) (numberOf true w f e)

/-- What stands here cannot continue a number. -/
def Stops (r : List Char) : Prop := ∀ c ∈ r.head?, isDigit c = false ∧ c ≠ '.' ∧ c ≠ 'e' ∧ c ≠ 'E'

theorem exists_of_integerPart? (h : integerPart? s = some (w, r)) : s = w ++ r ∧ Whole w := by
  unfold integerPart? at h
  split at h
  · split at h
    · split at h
      · cases h
      · cases h
        exact ⟨rfl, .zero⟩
    · cases h
      exact ⟨rfl, .zero⟩
  · rename_i hzero
    obtain ⟨rfl, hd, -⟩ := digits?_eq_some_iff.mp h
    refine ⟨rfl, ?_⟩
    cases w with
    | nil => exact absurd rfl hd.ne_nil
    | cons c d =>
      refine .digits ?_ hd
      rintro rfl
      exact hzero (d ++ r) rfl

theorem exists_of_fraction? (h : fraction? s = some (f, r)) : ∃ t, s = t ++ r ∧ Fraction t f := by
  unfold fraction? at h
  split at h
  · obtain ⟨⟨d, r'⟩, hd, hmap⟩ := Option.map_eq_some_iff.mp h
    cases hmap
    obtain ⟨rfl, hd, -⟩ := digits?_eq_some_iff.mp hd
    exact ⟨'.' :: d, rfl, .digits hd⟩
  · cases h
    exact ⟨[], rfl, .absent⟩

theorem exists_of_exponent? (h : exponent? s = some (e, r)) : ∃ t, s = t ++ r ∧ Exponent t e := by
  unfold exponent? at h
  split at h
  · rename_i c rest
    split at h
    · rename_i hc
      split at h
      all_goals
        obtain ⟨⟨d, r'⟩, hd, hmap⟩ := Option.map_eq_some_iff.mp h
        cases hmap
        obtain ⟨rfl, hd, -⟩ := digits?_eq_some_iff.mp hd
      · exact ⟨c :: '-' :: d, rfl, .minus hc hd⟩
      · exact ⟨c :: '+' :: d, rfl, .plus hc hd⟩
      · exact ⟨c :: d, rfl, .plain hc hd⟩
    · cases h
      exact ⟨[], rfl, .absent⟩
  · cases h
    exact ⟨[], rfl, .absent⟩

theorem unsigned?_eq (b : Bool) (s : List Char) : unsigned? b s =
    (integerPart? s).bind fun p => (fraction? p.2).bind fun q => (exponent? q.2).bind fun x =>
      some (numberOf b p.1 q.1 x.1, x.2) := rfl

theorem exists_of_unsigned? {b : Bool} (h : unsigned? b s = some (n, r)) :
    ∃ w t u f e, s = w ++ t ++ u ++ r ∧ Whole w ∧ Fraction t f ∧ Exponent u e ∧ n = numberOf b w f e := by
  simp only [unsigned?_eq, Option.bind_eq_some_iff] at h
  obtain ⟨⟨w, s₁⟩, hw, ⟨f, s₂⟩, hf, ⟨e, s₃⟩, he, hvalue⟩ := h
  cases hvalue
  obtain ⟨rfl, hwhole⟩ := exists_of_integerPart? hw
  obtain ⟨t, rfl, hfraction⟩ := exists_of_fraction? hf
  obtain ⟨u, rfl, hexponent⟩ := exists_of_exponent? he
  exact ⟨w, t, u, f, e, by simp only [List.append_assoc], hwhole, hfraction, hexponent, rfl⟩

/-- **What the reader takes for a number is a text of the number.** -/
theorem exists_of_number? (h : number? s = some (n, r)) : ∃ t, s = t ++ r ∧ NumberText t n := by
  unfold number? at h
  split at h
  · obtain ⟨w, t, u, f, e, rfl, hw, hf, he, rfl⟩ := exists_of_unsigned? h
    exact ⟨_, rfl, .minus hw hf he⟩
  · obtain ⟨w, t, u, f, e, rfl, hw, hf, he, rfl⟩ := exists_of_unsigned? h
    exact ⟨_, rfl, .unsigned hw hf he⟩

/-! ### Taking a number off a text -/

theorem digits?_append (hd : IsDigits d) (hr : ∀ c ∈ r.head?, isDigit c = false) :
    digits? (d ++ r) = some (d, r) :=
  digits?_eq_some_iff.mpr ⟨rfl, hd, hr⟩

theorem IsDigits.exists_cons (h : IsDigits d) : ∃ c d', d = c :: d' ∧ isDigit c = true := by
  cases d with
  | nil => exact absurd rfl h.ne_nil
  | cons c d' => exact ⟨c, d', rfl, h.forall_mem c List.mem_cons_self⟩

theorem IsDigits.append_ne_cons (h : IsDigits d) (hc : isDigit c = false) (r s : List Char) : d ++ r ≠ c :: s := by
  obtain ⟨c', d', rfl, hc'⟩ := h.exists_cons
  intro heq
  rw [(List.cons.inj heq).1, hc] at hc'
  cases hc'

theorem integerPart?_append (hw : Whole w) (hr : ∀ c ∈ r.head?, isDigit c = false) :
    integerPart? (w ++ r) = some (w, r) := by
  cases hw with
  | zero =>
    cases r with
    | nil => rfl
    | cons c r => exact if_neg (by simp [hr c rfl])
  | @digits c d hne hd =>
    have hskip : integerPart? (c :: d ++ r) = digits? (c :: d ++ r) :=
      integerPart?.eq_3 _ fun rest hrest => hne (List.cons.inj hrest).1
    rw [hskip, digits?_append hd hr]

theorem fraction?_append (hf : Fraction t f) (hr : ∀ c ∈ r.head?, isDigit c = false ∧ c ≠ '.') :
    fraction? (t ++ r) = some (f, r) := by
  cases hf with
  | absent =>
    rw [List.nil_append, fraction?]
    intro rest hrest
    exact (hr '.' (by rw [hrest]; rfl)).2 rfl
  | @digits d hd =>
    show (digits? (d ++ r)).map _ = _
    rw [digits?_append hd fun c hc => (hr c hc).1]
    rfl

theorem exponent?_append (he : Exponent t e) (hr : Stops r) : exponent? (t ++ r) = some (e, r) := by
  have hdigit : ∀ c ∈ r.head?, isDigit c = false := fun c hc => (hr c hc).1
  cases he with
  | absent =>
    cases r with
    | nil => rfl
    | cons c r =>
      obtain ⟨-, -, he, hE⟩ := hr c rfl
      exact if_neg (not_or.mpr ⟨he, hE⟩)
  | plus hc hd =>
    rw [List.cons_append, List.cons_append, exponent?, if_pos hc]
    simp only [digits?_append hd hdigit, Option.map_some]
  | minus hc hd =>
    rw [List.cons_append, List.cons_append, exponent?, if_pos hc]
    simp only [digits?_append hd hdigit, Option.map_some]
  | plain hc hd =>
    rw [List.cons_append, exponent?, if_pos hc]
    · simp only [digits?_append hd hdigit, Option.map_some]
    · exact fun s => hd.append_ne_cons (by decide) _ s
    · exact fun s => hd.append_ne_cons (by decide) _ s

theorem Exponent.eq_nil_or (he : Exponent t e) : t = [] ∨ ∃ c u, t = c :: u ∧ (c = 'e' ∨ c = 'E') := by
  cases he with
  | absent => exact .inl rfl
  | plain hc _ => exact .inr ⟨_, _, rfl, hc⟩
  | plus hc _ => exact .inr ⟨_, _, rfl, hc⟩
  | minus hc _ => exact .inr ⟨_, _, rfl, hc⟩

/-- An exponent continues neither the digits before it nor a point. -/
theorem Exponent.head_append (he : Exponent t e) (hr : Stops r) :
    ∀ c ∈ (t ++ r).head?, isDigit c = false ∧ c ≠ '.' := by
  intro c hc
  rcases he.eq_nil_or with rfl | ⟨x, u, rfl, hx⟩
  · exact ⟨(hr c hc).1, (hr c hc).2.1⟩
  · obtain rfl : x = c := Option.some.inj hc
    rcases hx with rfl | rfl <;> decide

theorem Fraction.head_append (hf : Fraction t f) (hr : ∀ c ∈ r.head?, isDigit c = false ∧ c ≠ '.') :
    ∀ c ∈ (t ++ r).head?, isDigit c = false := by
  intro c hc
  cases hf with
  | absent => exact (hr c hc).1
  | digits _ =>
    obtain rfl : '.' = c := Option.some.inj hc
    rfl

theorem unsigned?_append {u : List Char} (b : Bool) (hw : Whole w) (hf : Fraction t f) (he : Exponent u e)
    (hr : Stops r) : unsigned? b (w ++ t ++ u ++ r) = some (numberOf b w f e, r) := by
  have hexponent := he.head_append hr
  rw [List.append_assoc, List.append_assoc, unsigned?_eq, integerPart?_append hw (hf.head_append hexponent)]
  simp only [Option.bind_some, fraction?_append hf hexponent, exponent?_append he hr]

theorem Whole.exists_cons (hw : Whole w) : ∃ c d, w = c :: d ∧ isDigit c = true := by
  cases hw with
  | zero => exact ⟨_, _, rfl, rfl⟩
  | digits _ hd => exact ⟨_, _, rfl, hd.forall_mem _ List.mem_cons_self⟩

theorem NumberText.exists_cons (h : NumberText t n) : ∃ c u, t = c :: u ∧ (c = '-' ∨ isDigit c = true) := by
  cases h with
  | minus => exact ⟨_, _, rfl, .inl rfl⟩
  | unsigned hw _ _ =>
    obtain ⟨c, d, rfl, hc⟩ := hw.exists_cons
    exact ⟨c, _, rfl, .inr hc⟩

/-- **The reader takes a text of a number for the number.** -/
theorem number?_append (h : NumberText t n) (hr : Stops r) : number? (t ++ r) = some (n, r) := by
  cases h with
  | minus hw hf he => exact unsigned?_append true hw hf he hr
  | unsigned hw hf he =>
    rw [number?, unsigned?_append false hw hf he hr]
    obtain ⟨c, d, rfl, hc⟩ := hw.exists_cons
    intro s hs
    rw [(List.cons.inj hs).1] at hc
    exact absurd hc (by decide)

/-! ### Writing a number -/

theorem digitsValue_eq (h : ∀ c ∈ d, isDigit c = true) (m : Nat) : digitsValue m d = Nat.ofDigitChars 10 d m := by
  induction d generalizing m with
  | nil => rfl
  | cons c d ih =>
    obtain ⟨hc, hd⟩ := List.forall_mem_cons.mp h
    rw [isDigit_eq] at hc
    have hnext : digitsValue m (c :: d) = digitsValue (m * 10 + (c.toNat - '0'.toNat)) d := by
      simp only [digitsValue, List.foldl_cons, Text.Decimal.digit?_of_isDigit hc, Option.getD_some]
    rw [hnext, ih hd, Nat.ofDigitChars_cons, Nat.mul_comm]

theorem isDigits_toDigits (m : Nat) : IsDigits (Nat.toDigits 10 m) where
  ne_nil := Nat.toDigits_ne_nil
  forall_mem c hc := by
    rw [isDigit_eq]
    exact Nat.isDigit_of_mem_toDigits (by decide) (by decide) hc

theorem digitsValue_toDigits (m : Nat) : digitsValue 0 (Nat.toDigits 10 m) = m := by
  rw [digitsValue_eq (isDigits_toDigits m).forall_mem, Nat.ofDigitChars_ten_toDigits]

theorem head?_toDigits {m : Nat} (hm : 0 < m) : (Nat.toDigits 10 m).head? ≠ some '0' := by
  induction m using Nat.strongRecOn with
  | ind m ih =>
    by_cases hsmall : m < 10
    · have hdigit : ∀ k < 10, 0 < k → Nat.digitChar k ≠ '0' := by decide
      rw [Nat.toDigits_of_lt_base hsmall, List.head?_cons, ne_eq, Option.some.injEq]
      exact hdigit m hsmall hm
    · rw [Nat.toDigits_of_base_le (by decide) (Nat.le_of_not_lt hsmall),
        List.head?_append_of_ne_nil _ Nat.toDigits_ne_nil]
      exact ih (m / 10) (by omega) (by omega)

theorem whole_toDigits (m : Nat) : Whole (Nat.toDigits 10 m) := by
  by_cases hm : m = 0
  · rw [hm, Nat.toDigits_zero]
    exact .zero
  · have hhead := head?_toDigits (Nat.pos_of_ne_zero hm)
    have hdigits := isDigits_toDigits m
    revert hhead hdigits
    cases Nat.toDigits 10 m with
    | nil => exact fun _ hdigits => absurd rfl hdigits.ne_nil
    | cons c d => exact fun hhead hdigits => .digits (fun hc => hhead (congrArg some hc)) hdigits

theorem toList_toString (m : Nat) : (toString m).toList = Nat.toDigits 10 m := by
  rw [Nat.toString_eq_repr, Nat.toList_repr]

theorem exponent_toString (x : Int) : Exponent ('e' :: (toString x).toList) (some x) := by
  cases x with
  | ofNat m =>
    have htext := Exponent.plain (.inl rfl) (isDigits_toDigits m)
    rw [digitsValue_toDigits] at htext
    rw [← toList_toString] at htext
    exact htext
  | negSucc m =>
    have htext := Exponent.minus (.inl rfl) (isDigits_toDigits (m + 1))
    rw [digitsValue_toDigits, ← toList_toString] at htext
    have hrender : (toString (Int.negSucc m)).toList = '-' :: (toString (m + 1)).toList := String.toList_append
    rw [hrender]
    exact htext

/-- **A number that is written is a text of the number**, unless it is a negative zero that claims to be an integer. -/
theorem numberText_render (hn : n ≠ .negative 0) : NumberText n.render.toList n := by
  cases n with
  | natural m =>
    have htext := NumberText.unsigned (whole_toDigits m) .absent .absent
    rw [List.append_nil, List.append_nil] at htext
    rw [JsonNumber.render, toList_toString]
    rwa [numberOf, digitsValue_toDigits] at htext
  | negative m =>
    have htext := NumberText.minus (whole_toDigits m) .absent .absent
    have hm : m ≠ 0 := fun h => hn (congrArg JsonNumber.negative h)
    have hrender : (JsonNumber.negative m).render.toList = '-' :: Nat.toDigits 10 m := by
      rw [JsonNumber.render, ← toList_toString]
      exact String.toList_append
    rw [List.append_nil, List.append_nil] at htext
    rw [hrender]
    simpa only [numberOf, digitsValue_toDigits, if_neg hm, if_true] using htext
  | real m x =>
    have htext := NumberText.unsigned (whole_toDigits m) .absent (exponent_toString x)
    have hrender : (JsonNumber.real m x).render.toList = Nat.toDigits 10 m ++ 'e' :: (toString x).toList := by
      rw [JsonNumber.render, ← toList_toString]
      simp only [String.toList_append, List.append_assoc]
      rfl
    rw [List.append_nil] at htext
    rw [hrender]
    simpa [numberOf, digitsValue_toDigits] using htext

/-! ## Strings -/

/-- A text of a string, from behind its opening quote to its closing one. -/
inductive StringText : List Char → List Piece → Prop
  | close : StringText ['"'] []
  | unit {a b c d : Char} {i j k l : Nat} {t : List Char} {p : List Piece} : hexDigit? a = some i →
      hexDigit? b = some j → hexDigit? c = some k → hexDigit? d = some l → StringText t p →
      StringText ('\\' :: 'u' :: a :: b :: c :: d :: t) (.unit (i * 4096 + j * 256 + k * 16 + l) :: p)
  | escape {x c : Char} {t : List Char} {p : List Piece} : shortEscape? x = some c → StringText t p →
      StringText ('\\' :: x :: t) (.char c :: p)
  | plain {c : Char} {t : List Char} {p : List Piece} : 0x20 ≤ c.toNat → c ≠ '"' → c ≠ '\\' → StringText t p →
      StringText (c :: t) (.char c :: p)

variable {p : List Piece}

/-- **What the reader takes for a string is a text of the string.** -/
theorem exists_of_pieces? (h : pieces? s = some (p, r)) : ∃ t, s = t ++ r ∧ StringText t p := by
  fun_induction pieces? s generalizing p with
  | case1 => cases h
  | case2 rest =>
    cases h
    exact ⟨['"'], rfl, .close⟩
  | case3 a b c d rest ih =>
    simp only [Option.bind_eq_bind, Option.bind_eq_some_iff] at h
    obtain ⟨i, hi, j, hj, k, hk, l, hl, ⟨q, u⟩, hq, hvalue⟩ := h
    cases hvalue
    obtain ⟨t, rfl, ht⟩ := ih hq
    exact ⟨_, rfl, .unit hi hj hk hl ht⟩
  | case4 x rest hunit ih =>
    simp only [Option.bind_eq_bind, Option.bind_eq_some_iff] at h
    obtain ⟨c, hc, ⟨q, u⟩, hq, hvalue⟩ := h
    cases hvalue
    obtain ⟨t, rfl, ht⟩ := ih hq
    exact ⟨_, rfl, .escape hc ht⟩
  | case5 => cases h
  | case6 c rest hquote _ _ hc ih =>
    simp only [Option.bind_eq_bind, Option.bind_eq_some_iff] at h
    obtain ⟨⟨q, u⟩, hq, hvalue⟩ := h
    cases hvalue
    obtain ⟨t, rfl, ht⟩ := ih hq
    obtain ⟨hlow, hslash⟩ := not_or.mp hc
    exact ⟨_, rfl, .plain (Nat.le_of_not_lt hlow) hquote hslash ht⟩

/-- **The reader takes a text of a string for the string**, whatever follows. -/
theorem pieces?_append (h : StringText t p) (r : List Char) : pieces? (t ++ r) = some (p, r) := by
  induction h with
  | close => rfl
  | unit hi hj hk hl _ ih => simp [pieces?, hi, hj, hk, hl, ih]
  | @escape x c t p hc _ ih =>
    have hx : x ≠ 'u' := by
      rintro rfl
      cases hc
    rw [List.cons_append, List.cons_append, pieces?, hc, ih]
    · rfl
    · exact fun a b c d rest hxu => absurd hxu hx
  | @plain c t p hlow hquote hslash _ ih =>
    rw [List.cons_append, pieces?, if_neg (not_or.mpr ⟨Nat.not_lt_of_le hlow, hslash⟩), ih]
    · rfl
    · exact hquote
    · exact fun a b c' d rest hc => absurd hc hslash
    · exact fun x rest hc => absurd hc hslash

/-! ### Writing a string -/

/-- A unit that is half of no pair is read as a character. -/
theorem spell?_unit {m : Nat} (hm : m < 0xD800) (p : List Piece) :
    spell? (.unit m :: p) = (spell? p).map (Char.ofNat m :: ·) := by
  have hpair : ∀ k, ¬ (0xD800 ≤ m ∧ m < 0xDC00 ∧ 0xDC00 ≤ k ∧ k < 0xE000) := fun k => by omega
  have hhalf : ¬ (0xD800 ≤ m ∧ m < 0xE000) := by omega
  cases p with
  | nil => simp [spell?, hhalf]
  | cons x p =>
    cases x with
    | char c => simp [spell?, hhalf]
    | unit k => rw [spell?, if_neg (hpair k), if_neg hhalf]

theorem hexDigit?_hexDigit : ∀ m < 16, hexDigit? (hexDigit m) = some m := by decide

/-- What stands for a character is read as the character. -/
theorem exists_escape (c : Char) (ht : StringText t p) :
    ∃ q, StringText (escape c ++ t) q ∧ spell? q = (spell? p).map (c :: ·) := by
  unfold escape
  split
  case h_8 hquote hslash _ _ _ _ _ =>
    split
    · rename_i hlow
      have hzero : hexDigit? '0' = some 0 := rfl
      refine ⟨_, .unit hzero hzero (hexDigit?_hexDigit _ (by omega)) (hexDigit?_hexDigit _ (by omega)) ht, ?_⟩
      have hvalue : 0 * 4096 + 0 * 256 + c.toNat / 16 * 16 + c.toNat % 16 = c.toNat := by omega
      rw [hvalue, spell?_unit (by omega), Char.ofNat_toNat]
    · rename_i hlow
      exact ⟨_, .plain (Nat.le_of_not_lt hlow) hquote hslash ht, rfl⟩
  all_goals exact ⟨_, .escape rfl ht, rfl⟩

/-- **A text between quotes is a text of the string.** -/
theorem exists_stringText (s : List Char) : ∃ p, StringText (s.flatMap escape ++ ['"']) p ∧ spell? p = some s := by
  induction s with
  | nil => exact ⟨[], .close, rfl⟩
  | cons c s ih =>
    obtain ⟨p, hp, hspell⟩ := ih
    obtain ⟨q, hq, hc⟩ := exists_escape c hp
    rw [List.flatMap_cons, List.append_assoc]
    exact ⟨q, hq, by rw [hc, hspell, Option.map_some]⟩

end ImageLoader.Json
