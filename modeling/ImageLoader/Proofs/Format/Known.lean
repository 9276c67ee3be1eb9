import Mathlib.Data.Nat.Bitwise
import ImageLoader.Format.Selection

/-!
# Sets without unknown bits

A set of formats is a word, and a word has more bits than there are formats.  Whether a set is empty is asked of
the word, what is in it is asked of the formats.  The two questions have the same answer for sets without unknown
bits, and there are no other sets among those that the operations make.

* `FormatSet.contains_eq_testBit`: a member is a bit.
* `FormatSet.contains_ofList_iff`: what is in a list is in its set, and nothing else is.
* `FormatSet.Made.known`: **the operations set known bits only.**
* `FormatSet.Known.toList_eq_nil_iff`: **a set without unknown bits and without members is empty.**
-/

namespace ImageLoader

theorem MemoryFormat.exists_value_eq {n : Nat} (h : n < 23) : ∃ f : MemoryFormat, f.value = n := by
  have hall : ∀ n < 23, ∃ f ∈ all, f.value = n := by decide
  obtain ⟨f, -, hf⟩ := hall n h
  exact ⟨f, hf⟩

namespace FormatSet

variable {s t : FormatSet} {f g : MemoryFormat} {l : List MemoryFormat}

/-- Every bit of the set stands for a format. -/
def Known (s : FormatSet) : Prop := ∀ i, s.bits.toNat.testBit i = true → i < 23

/-- The sets that the operations make. -/
inductive Made : FormatSet → Prop
  | empty : Made empty
  | all : Made all
  | of (f : MemoryFormat) : Made (of f)
  | ofBits (bits : UInt32) : Made (ofBits bits)
  | ofList (l : List MemoryFormat) : Made (ofList l)
  | insert {s : FormatSet} (f : MemoryFormat) : Made s → Made (s.insert f)
  | union {s t : FormatSet} : Made s → Made t → Made (s.union t)
  | inter {s t : FormatSet} : Made s → Made t → Made (s.inter t)

/-! ## Bits -/

theorem toNat_bits_of (f : MemoryFormat) : (of f).bits.toNat = 2 ^ f.value := by
  cases f <;> rfl

theorem toNat_bits_all : all.bits.toNat = 2 ^ 23 - 1 := rfl

theorem contains_eq_testBit (s : FormatSet) (f : MemoryFormat) :
    s.contains f = s.bits.toNat.testBit f.value := by
  have hand : (s.bits &&& (of f).bits).toNat = (s.bits.toNat.testBit f.value).toNat * 2 ^ f.value := by
    rw [UInt32.toNat_and, toNat_bits_of, Nat.and_two_pow]
  rw [Bool.eq_iff_iff, contains, bne_iff_ne, ne_eq, ← UInt32.toNat_inj, hand]
  cases s.bits.toNat.testBit f.value <;> simp

/-! ## Members -/

theorem contains_empty (f : MemoryFormat) : empty.contains f = false := by
  rw [contains_eq_testBit]
  exact Nat.zero_testBit _

theorem contains_union (s t : FormatSet) (f : MemoryFormat) :
    (s.union t).contains f = (s.contains f || t.contains f) := by
  rw [contains_eq_testBit, contains_eq_testBit, contains_eq_testBit, union, UInt32.toNat_or, Nat.testBit_or]

theorem contains_insert : (s.insert g).contains f = true ↔ f = g ∨ s.contains f = true := by
  show (s.union (of g)).contains f = true ↔ _
  rw [contains_union, Bool.or_eq_true, contains_of, decide_eq_true_eq, or_comm, eq_comm]

theorem contains_foldl_insert : (l.foldl insert s).contains f = true ↔ f ∈ l ∨ s.contains f = true := by
  induction l generalizing s with
  | nil => simp
  | cons g rest ih => rw [List.foldl_cons, ih, contains_insert, List.mem_cons, or_left_comm, or_assoc]

theorem contains_ofList_iff : (ofList l).contains f = true ↔ f ∈ l := by
  rw [ofList, contains_foldl_insert, contains_empty]
  simp

/-! ## Known bits -/

theorem known_empty : empty.Known := by
  intro i h
  simp [empty] at h

theorem known_all : all.Known := by
  intro i h
  rw [toNat_bits_all, Nat.testBit_two_pow_sub_one] at h
  exact of_decide_eq_true h

theorem known_of (f : MemoryFormat) : (of f).Known := by
  intro i h
  rw [toNat_bits_of, Nat.testBit_two_pow] at h
  have hi : f.value = i := of_decide_eq_true h
  have hf := f.value_lt
  omega

theorem Known.union (hs : s.Known) (ht : t.Known) : (s.union t).Known := by
  intro i h
  rw [FormatSet.union, UInt32.toNat_or, Nat.testBit_or, Bool.or_eq_true] at h
  exact h.elim (hs i) (ht i)

/-- One of the two sets is enough. -/
theorem Known.inter (hs : s.Known) (t : FormatSet) : (t.inter s).Known := by
  intro i h
  rw [FormatSet.inter, UInt32.toNat_and, Nat.testBit_and, Bool.and_eq_true] at h
  exact hs i h.2

theorem known_ofList (l : List MemoryFormat) : (ofList l).Known := by
  suffices hfold : ∀ (l : List MemoryFormat) (s : FormatSet), s.Known → (l.foldl insert s).Known from
    hfold l empty known_empty
  intro l
  induction l with
  | nil => exact fun s hs => hs
  | cons f rest ih => exact fun s hs => ih (s.insert f) (hs.union (known_of f))

/-- **The operations set known bits only.** -/
theorem Made.known (h : s.Made) : s.Known := by
  induction h with
  | empty => exact known_empty
  | all => exact known_all
  | of f => exact known_of f
  | ofBits bits => exact known_all.inter ⟨bits⟩
  | ofList l => exact known_ofList l
  | insert f _ ih => exact ih.union (known_of f)
  | union _ _ ihs iht => exact ihs.union iht
  | inter _ _ _ iht => exact iht.inter _

/-- **A set without unknown bits has no members only if it is empty.** -/
theorem Known.toList_eq_nil_iff (hs : s.Known) : s.toList = [] ↔ s.isEmpty = true := by
  rw [isEmpty, beq_iff_eq, toList, List.filter_eq_nil_iff]
  constructor
  · intro h
    -- a bit of a format that is set would make the format a member, and no other bit is known
    apply UInt32.toNat_inj.mp
    refine Nat.zero_of_testBit_eq_false fun i => ?_
    by_cases hi : i < 23
    · obtain ⟨f, rfl⟩ := MemoryFormat.exists_value_eq hi
      rw [← contains_eq_testBit]
      exact Bool.eq_false_iff.mpr (h f (MemoryFormat.mem_all f))
    · exact Bool.eq_false_iff.mpr fun hset => hi (hs i hset)
  · intro h f _ hf
    rw [contains_eq_testBit, h] at hf
    simp at hf

end FormatSet

end ImageLoader
