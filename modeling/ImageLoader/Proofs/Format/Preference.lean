import Mathlib.Data.List.Lex
import ImageLoader.Proofs.Format.Choice
import ImageLoader.Proofs.Format.Known

/-!
# The preferred member of a set

Of the members of a set, one is chosen to represent a format.  Six questions are asked of every two of them, one after
another, and the first that they answer differently decides.  No two formats answer all of them alike, so every set has
one best member; it is chosen, unless the format itself is a member.

* `MemoryFormat.Preferred`: the order of the questions; `Preferred.trans`, `preferred_or`: it is linear.
* `MemoryFormat.preferred_iff_lower`: costs are compared in this order.
* `FormatSet.best?_eq_least`: **the best member is chosen**, where the format is not one.
* `FormatSet.best?_subset`: **who is not chosen does not matter.**
* `FormatSet.best?_prefers`: both together.
-/

namespace ImageLoader

namespace MemoryFormat

variable {source f g h : MemoryFormat}

/-! ## Questions -/

/-- The member of which `a` holds is ahead of the one of which `b` holds; where both or neither do, `rest` decides. -/
def Ahead (a b rest : Prop) : Prop := a ∧ ¬ b ∨ (a ↔ b) ∧ rest

instance {a b rest : Prop} [Decidable a] [Decidable b] [Decidable rest] : Decidable (Ahead a b rest) :=
  inferInstanceAs (Decidable (_ ∨ _))

/-- Alpha is kept, if there is any. -/
def KeepsAlpha (source f : MemoryFormat) : Prop := source.hasAlpha → f.hasAlpha

/-- Colour is kept, if there is any. -/
def KeepsColor (source f : MemoryFormat) : Prop := f.isGrayscale → source.isGrayscale

/-- Channels do not become smaller. -/
def KeepsSize (source f : MemoryFormat) : Prop := source.channelType.size ≤ f.channelType.size

/-- Colour is multiplied by alpha in both, or in neither. -/
def KeepsProduct (source f : MemoryFormat) : Prop := source.isPremultiplied = f.isPremultiplied

instance (source f : MemoryFormat) : Decidable (source.KeepsAlpha f) := inferInstanceAs (Decidable (_ → _))

instance (source f : MemoryFormat) : Decidable (source.KeepsColor f) := inferInstanceAs (Decidable (_ → _))

instance (source f : MemoryFormat) : Decidable (source.KeepsSize f) := inferInstanceAs (Decidable (_ ≤ _))

instance (source f : MemoryFormat) : Decidable (source.KeepsProduct f) := inferInstanceAs (Decidable (_ = _))

/-- `f` represents `source` better than `g`: it keeps alpha, colour, the size of channels or the product with alpha
where `g` does not, or has smaller pixels, or the lower number, whatever comes first. -/
def Preferred (source f g : MemoryFormat) : Prop :=
  Ahead (source.KeepsAlpha f) (source.KeepsAlpha g) <|
  Ahead (source.KeepsColor f) (source.KeepsColor g) <|
  Ahead (source.KeepsSize f) (source.KeepsSize g) <|
  Ahead (source.KeepsProduct f) (source.KeepsProduct g) <|
  f.nBytes < g.nBytes ∨ f.nBytes = g.nBytes ∧ f.value < g.value

instance (source f g : MemoryFormat) : Decidable (source.Preferred f g) :=
  inferInstanceAs (Decidable (Ahead _ _ _))

theorem Ahead.of_right {a b rest : Prop} (h : Ahead a b rest) (hb : b) : a ∧ rest := by
  rcases h with ⟨-, hnot⟩ | ⟨hab, hrest⟩
  · exact absurd hb hnot
  · exact ⟨hab.mpr hb, hrest⟩

theorem Preferred.keeps (h : source.Preferred f g) (halpha : source.KeepsAlpha g) (hcolor : source.KeepsColor g)
    (hsize : source.KeepsSize g) : source.KeepsAlpha f ∧ source.KeepsColor f ∧ source.KeepsSize f ∧
      (source.KeepsProduct g → source.KeepsProduct f) := by
  obtain ⟨hfa, h⟩ := h.of_right halpha
  obtain ⟨hfc, h⟩ := h.of_right hcolor
  obtain ⟨hfs, h⟩ := h.of_right hsize
  exact ⟨hfa, hfc, hfs, fun hproduct => (h.of_right hproduct).1⟩

/-! ## Costs -/

theorem value_injective (h : f.value = g.value) : f = g := by
  have hplace := getElem?_all_value f
  rw [h, getElem?_all_value g] at hplace
  exact (Option.some.inj hplace).symm

def costOf (source f : MemoryFormat) : List Nat := (ConversionCost.of source f).digits

/-- A loss is a digit, and the first digit that differs decides. -/
theorem digit_lt_iff {a b : Bool} {p q : Prop} {l m : List Nat} (hp : a = true ↔ ¬ p) (hq : b = true ↔ ¬ q) :
    a.toNat :: l < b.toNat :: m ↔ Ahead p q (l < m) := by
  rw [List.cons_lt_cons_iff, Ahead]
  cases a <;> cases b <;> simp_all

/-- **Costs are in the order of the questions.** -/
theorem preferred_iff_costOf : source.Preferred f g ↔ source.costOf f < source.costOf g := by
  have halpha : ∀ f : MemoryFormat, (ConversionCost.of source f).losesAlpha = true ↔ ¬ source.KeepsAlpha f := by
    intro f
    simp [ConversionCost.of, KeepsAlpha]
  have hcolor : ∀ f : MemoryFormat, (ConversionCost.of source f).losesColor = true ↔ ¬ source.KeepsColor f := by
    intro f
    simp [ConversionCost.of, KeepsColor, and_comm]
  have hsize : ∀ f : MemoryFormat, (ConversionCost.of source f).losesDepth = true ↔ ¬ source.KeepsSize f := by
    intro f
    simp [ConversionCost.of, KeepsSize]
  have hproduct : ∀ f : MemoryFormat,
      (ConversionCost.of source f).changesPremultiplication = true ↔ ¬ source.KeepsProduct f := by
    intro f
    simp [ConversionCost.of, KeepsProduct]
  have hlast : [f.nBytes, f.value] < [g.nBytes, g.value] ↔
      f.nBytes < g.nBytes ∨ f.nBytes = g.nBytes ∧ f.value < g.value := by
    simp [List.cons_lt_cons_iff]
  rw [costOf, costOf, ConversionCost.digits, ConversionCost.digits, digit_lt_iff (halpha f) (halpha g),
    digit_lt_iff (hcolor f) (hcolor g), digit_lt_iff (hsize f) (hsize g), digit_lt_iff (hproduct f) (hproduct g)]
  show _ ↔ Ahead _ _ (Ahead _ _ (Ahead _ _ (Ahead _ _ ([f.nBytes, f.value] < [g.nBytes, g.value]))))
  rw [hlast, Preferred]

theorem preferred_iff_lower : source.Preferred f g ↔
    (ConversionCost.of source f).lower (ConversionCost.of source g) = true :=
  preferred_iff_costOf.trans decide_eq_true_iff.symm

theorem Preferred.trans (hfg : source.Preferred f g) (hgh : source.Preferred g h) : source.Preferred f h := by
  rw [preferred_iff_costOf] at hfg hgh ⊢
  exact lt_trans hfg hgh

theorem not_preferred_self (source f : MemoryFormat) : ¬ source.Preferred f f := by
  rw [preferred_iff_costOf]
  exact lt_irrefl _

theorem preferred_or (source : MemoryFormat) (hne : f ≠ g) : source.Preferred f g ∨ source.Preferred g f := by
  rw [preferred_iff_costOf, preferred_iff_costOf]
  rcases lt_trichotomy (source.costOf f) (source.costOf g) with hlt | heq | hgt
  · exact .inl hlt
  · -- the last digit is the number of the format
    have hnumber : f.value = g.value := by
      simp only [costOf, ConversionCost.digits, List.cons.injEq] at heq
      exact heq.2.2.2.2.2.1
    exact absurd (value_injective hnumber) hne
  · exact .inr hgt

end MemoryFormat

namespace FormatSet

open MemoryFormat

variable {s t : FormatSet} {source m n f : MemoryFormat}

/-! ## The best member -/

/-- The member that is preferred to all others. -/
structure Least (s : FormatSet) (source m : MemoryFormat) : Prop where
  member : s.contains m = true
  preferred : ∀ f, s.contains f = true → f ≠ m → source.Preferred m f

theorem Least.unique (hm : s.Least source m) (hn : s.Least source n) : m = n := by
  by_contra hne
  have hmn := hm.preferred n hn.member (Ne.symm hne)
  have hnm := hn.preferred m hm.member hne
  exact not_preferred_self source m (hmn.trans hnm)

theorem Least.subset (hm : s.Least source m) (hmem : t.contains m = true)
    (hsub : ∀ f, t.contains f = true → s.contains f = true) : t.Least source m :=
  ⟨hmem, fun f hf hne => hm.preferred f (hsub f hf) hne⟩

theorem mem_toList : f ∈ s.toList ↔ s.contains f = true := by
  simp [toList]

/-- None of the candidates is preferred to the cheapest. -/
theorem not_preferred_cheapest (source best : MemoryFormat) (l : List MemoryFormat) :
    ∀ f ∈ best :: l, ¬ source.Preferred f (cheapest source best l) := by
  induction l generalizing best with
  | nil =>
    intro f hf
    obtain rfl := List.mem_singleton.mp hf
    exact not_preferred_self source f
  | cons g rest ih =>
    intro f hf
    rw [cheapest]
    by_cases hbetter : source.Preferred g best
    · rw [if_pos (preferred_iff_lower.mp hbetter)]
      -- what is preferred to the old candidate is preferred to neither
      rcases List.mem_cons.mp hf with rfl | hf
      · intro hpref
        exact ih g g List.mem_cons_self (hbetter.trans hpref)
      · exact ih g f hf
    · rw [if_neg (mt preferred_iff_lower.mpr hbetter)]
      rcases List.mem_cons.mp hf with rfl | hf
      · exact ih f f List.mem_cons_self
      rcases List.mem_cons.mp hf with rfl | hf
      · intro hpref
        by_cases hsame : f = best
        · subst hsame
          exact ih f f List.mem_cons_self hpref
        · -- the candidate that stayed is preferred to the one that did not come in
          have hstay := (preferred_or source hsame).resolve_left hbetter
          exact ih best best List.mem_cons_self (hstay.trans hpref)
      · exact ih best f (List.mem_cons_of_mem best hf)

theorem least_cheapest {best : MemoryFormat} {rest : List MemoryFormat} (hl : s.toList = best :: rest) :
    s.Least source (cheapest source best rest) := by
  have hmem := cheapest_mem source best rest
  rw [← hl] at hmem
  refine ⟨mem_toList.mp hmem, fun f hf hne => ?_⟩
  have hf' : f ∈ best :: rest := hl ▸ mem_toList.mpr hf
  exact (preferred_or source hne).resolve_left (not_preferred_cheapest source best rest f hf')

/-- **The best member is chosen**, unless the format itself is one. -/
theorem best?_eq_least (hsource : s.contains source = false) : s.best? source = some m ↔ s.Least source m := by
  rw [best?, hsource, if_neg Bool.false_ne_true]
  cases hl : s.toList with
  | nil =>
    refine ⟨(nomatch ·), fun hm => ?_⟩
    have hmem := mem_toList.mpr hm.member
    rw [hl] at hmem
    cases hmem
  | cons best rest =>
    have hleast : s.Least source (cheapest source best rest) := least_cheapest hl
    constructor
    · intro h
      obtain rfl := Option.some.inj h
      exact hleast
    · intro hm
      exact congrArg some (hleast.unique hm)

theorem best?_self : s.best? source = some source ↔ s.contains source = true := by
  constructor
  · exact contains_of_best?
  · intro h
    rw [best?, if_pos h]

theorem exists_best? (hm : s.contains m = true) (source : MemoryFormat) : ∃ n, s.best? source = some n := by
  refine Option.ne_none_iff_exists'.mp fun hnone => ?_
  have hmem := mem_toList.mpr hm
  rw [best?_eq_none_iff.mp hnone] at hmem
  cases hmem

/-- The choice keeps what a member keeps, if that is alpha, colour and the size of channels. -/
theorem best?_keeps (h : s.best? source = some n) (hm : s.contains m = true) (halpha : source.KeepsAlpha m)
    (hcolor : source.KeepsColor m) (hsize : source.KeepsSize m) : source.KeepsAlpha n ∧ source.KeepsColor n ∧
      source.KeepsSize n ∧ (source.KeepsProduct m → source.KeepsProduct n) := by
  by_cases hsource : s.contains source = true
  · obtain rfl : source = n := Option.some.inj ((best?_self.mpr hsource).symm.trans h)
    exact ⟨id, id, Nat.le_refl _, fun _ => rfl⟩
  · have hleast := (best?_eq_least (Bool.eq_false_iff.mpr hsource)).mp h
    by_cases hsame : m = n
    · subst hsame
      exact ⟨halpha, hcolor, hsize, id⟩
    · exact (hleast.preferred m hm hsame).keeps halpha hcolor hsize

/-! ## Parts and unions -/

/-- **Who is not chosen does not matter**: the choice from a set is the choice from every part of it that it is in. -/
theorem best?_subset (h : s.best? source = some m) (hmem : t.contains m = true)
    (hsub : ∀ f, t.contains f = true → s.contains f = true) : t.best? source = some m := by
  by_cases hsource : s.contains source = true
  · obtain rfl : source = m := Option.some.inj ((best?_self.mpr hsource).symm.trans h)
    exact best?_self.mpr hmem
  · have hs : s.contains source = false := Bool.eq_false_iff.mpr hsource
    have ht : t.contains source = false := Bool.eq_false_iff.mpr fun ht => hsource (hsub source ht)
    exact (best?_eq_least ht).mpr (((best?_eq_least hs).mp h).subset hmem hsub)

/-- The choice from a union is the choice from one of the two. -/
theorem best?_union (s t : FormatSet) (source : MemoryFormat) :
    (s.union t).best? source = s.best? source ∨ (s.union t).best? source = t.best? source := by
  have hleft : ∀ f, s.contains f = true → (s.union t).contains f = true := by
    intro f hf
    rw [contains_union, hf, Bool.true_or]
  have hright : ∀ f, t.contains f = true → (s.union t).contains f = true := by
    intro f hf
    rw [contains_union, hf, Bool.or_true]
  cases h : (s.union t).best? source with
  | none =>
    -- where the union has no member, neither has
    left
    cases hs : s.best? source with
    | none => rfl
    | some m =>
      obtain ⟨n, hn⟩ := exists_best? (hleft m (contains_of_best? hs)) source
      rw [h] at hn
      cases hn
  | some m =>
    have hmem := contains_of_best? h
    rw [contains_union, Bool.or_eq_true] at hmem
    rcases hmem with hmem | hmem
    · exact .inl (best?_subset h hmem hleft).symm
    · exact .inr (best?_subset h hmem hright).symm

/-! ## The choice -/

/-- How a member is chosen to represent `source`. -/
structure Prefers (s : FormatSet) (source : MemoryFormat) : Prop where
  /-- None is chosen from the empty set, and only from it. -/
  none_iff : s.best? source = none ↔ s.isEmpty = true
  /-- The format itself is chosen if it is a member, and only then. -/
  self_iff : s.best? source = some source ↔ s.contains source = true
  /-- Otherwise the best member is. -/
  least_iff : s.contains source = false → ∀ m, s.best? source = some m ↔ s.Least source m
  /-- There is exactly one. -/
  unique : s.isEmpty = false → ∃! m, s.Least source m
  /-- Members that are not chosen can be left out. -/
  subset : ∀ m, s.best? source = some m → ∀ t : FormatSet, t.contains m = true →
    (∀ f, t.contains f = true → s.contains f = true) → t.best? source = some m
  /-- Of two sets together, the choice from one is chosen. -/
  union : ∀ t : FormatSet,
    (s.union t).best? source = s.best? source ∨ (s.union t).best? source = t.best? source

/-- **A set of known formats chooses its best member**, or the format itself, and the choice does not depend on what is
not chosen. -/
theorem best?_prefers (hs : s.Known) (source : MemoryFormat) : s.Prefers source := by
  refine ⟨?_, best?_self, fun hsource m => best?_eq_least hsource, fun hne => ?_,
    fun m h t hmem hsub => best?_subset h hmem hsub, fun t => best?_union s t source⟩
  · rw [best?_eq_none_iff, hs.toList_eq_nil_iff]
  · have hlist : s.toList ≠ [] := by
      rw [Ne, hs.toList_eq_nil_iff, hne]
      exact Bool.false_ne_true
    obtain ⟨best, rest, hl⟩ := List.exists_cons_of_ne_nil hlist
    exact ⟨_, least_cheapest hl, fun n hn => hn.unique (least_cheapest hl)⟩

/-- Alpha is kept before all else: of two bytes of gray with alpha and four words of colour without, gray is chosen. -/
theorem best?_prefers_alpha :
    let s := ofList [.r16g16b16, .g8a8]
    s.Known ∧ s.contains .r8g8b8a8 = false ∧ s.best? .r8g8b8a8 = some .g8a8 := by
  intro s
  have hs : s.Known := (Made.ofList [.r16g16b16, .g8a8]).known
  have hsource : s.contains .r8g8b8a8 = false := by decide
  refine ⟨hs, hsource, ((best?_prefers hs .r8g8b8a8).least_iff hsource .g8a8).mpr ⟨by decide, ?_⟩⟩
  intro f
  cases f <;> decide

end FormatSet

end ImageLoader
