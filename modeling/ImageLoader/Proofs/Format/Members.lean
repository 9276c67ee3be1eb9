import Mathlib.Data.Finset.Basic
import Mathlib.Data.List.Sort
import ImageLoader.Frame.Json
import ImageLoader.Proofs.Format.Known
import ImageLoader.Proofs.Format.Preference

/-!
# Sets of formats are sets

Sets of formats are words, but one who uses them sees sets: what the operations make of words is what the operations of
the same names make of sets.  Members come in the order of their numbers, each once, and two words are the same only
if they hold the same formats.

* `FormatSet.contains_inter`, `contains_all`, `contains_ofBits`: membership in what the operations make.
* `FormatSet.Recipe`: a way to make a set, in any number of steps; `make` takes the steps on words, and `formats` on
  sets.
* `FormatSet.Recipe.mem_formats_iff`: **both have the same members.**
* `FormatSet.toList_ofList`: **a list that becomes a set is sorted, and loses its repetitions.**
* `FormatSet.Recipe.make_represents`: all that is promised of a set, however it was made.
-/

namespace ImageLoader

namespace MemoryFormat

def Precedes (f g : MemoryFormat) : Prop := f.value < g.value

instance (f g : MemoryFormat) : Decidable (f.Precedes g) := inferInstanceAs (Decidable (_ < _))

instance : Std.Irrefl Precedes := ⟨fun f => Nat.lt_irrefl f.value⟩

instance : Std.Antisymm Precedes := ⟨fun _ _ h h' => absurd h' (Nat.lt_asymm h)⟩

theorem pairwise_all : all.Pairwise Precedes := by decide

theorem pairwise_precedes {l : List MemoryFormat} (hsorted : l.Pairwise fun f g => f.value ≤ g.value)
    (hnodup : l.Nodup) : l.Pairwise Precedes := by
  refine (hsorted.and hnodup).imp fun ⟨hle, hne⟩ => ?_
  exact Nat.lt_of_le_of_ne hle fun heq => hne (value_injective heq)

theorem ofJson?_toJson (f : MemoryFormat) : ofJson? f.toJson = some f := by
  cases f <;> rfl

end MemoryFormat

namespace FormatSet

open MemoryFormat (Precedes)

variable {s t : FormatSet} {f g : MemoryFormat} {l : List MemoryFormat}

/-! ## Members -/

theorem contains_inter : (s.inter t).contains f = true ↔ s.contains f = true ∧ t.contains f = true := by
  rw [contains_eq_testBit, contains_eq_testBit, contains_eq_testBit, inter, UInt32.toNat_and, Nat.testBit_and,
    Bool.and_eq_true]

theorem contains_all : all.contains f = true := by
  rw [contains_eq_testBit, toNat_bits_all, Nat.testBit_two_pow_sub_one]
  exact decide_eq_true f.value_lt

theorem contains_ofBits {bits : UInt32} : (ofBits bits).contains f = bits.toNat.testBit f.value := by
  have hall : all.bits.toNat.testBit f.value = true := by
    rw [← contains_eq_testBit]
    exact contains_all
  rw [contains_eq_testBit, ofBits, UInt32.toNat_and, Nat.testBit_and, hall, Bool.and_true]

/-! ## Equality -/

/-- **Sets without unknown bits are the same if they have the same members.** -/
theorem Known.ext (hs : s.Known) (ht : t.Known) (h : ∀ f, s.contains f = true ↔ t.contains f = true) : s = t := by
  have hbits : s.bits.toNat = t.bits.toNat := by
    refine Nat.eq_of_testBit_eq fun i => ?_
    by_cases hi : i < 23
    · obtain ⟨f, rfl⟩ := MemoryFormat.exists_value_eq hi
      rw [← contains_eq_testBit, ← contains_eq_testBit, Bool.eq_iff_iff]
      exact h f
    · have hfalse : ∀ u : FormatSet, u.Known → u.bits.toNat.testBit i = false := fun u hu =>
        Bool.eq_false_iff.mpr fun hset => hi (hu i hset)
      rw [hfalse s hs, hfalse t ht]
  cases s
  cases t
  exact congrArg FormatSet.mk (UInt32.toNat_inj.mp hbits)

/-! ## Lists -/

theorem pairwise_toList (s : FormatSet) : s.toList.Pairwise Precedes :=
  MemoryFormat.pairwise_all.filter _

/-- **A set is the set of its list.** -/
theorem Known.ofList_toList (hs : s.Known) : ofList s.toList = s := by
  refine (known_ofList s.toList).ext hs fun f => ?_
  rw [contains_ofList_iff, mem_toList]

/-- **The list of the set of a list is the list, sorted and without repetitions.** -/
theorem toList_ofList (l : List MemoryFormat) :
    (ofList l).toList = (l.mergeSort fun f g => f.value ≤ g.value).dedup := by
  have hsorted : (l.mergeSort fun f g => f.value ≤ g.value).Pairwise fun f g => f.value ≤ g.value := by
    refine (List.pairwise_mergeSort (fun _ _ _ hfg hgh => ?_) (fun f g => ?_) l).imp of_decide_eq_true
    · exact decide_eq_true (Nat.le_trans (of_decide_eq_true hfg) (of_decide_eq_true hgh))
    · rw [Bool.or_eq_true, decide_eq_true_eq, decide_eq_true_eq]
      exact Nat.le_total f.value g.value
  have hdedup : (l.mergeSort fun f g => f.value ≤ g.value).dedup.Pairwise Precedes :=
    MemoryFormat.pairwise_precedes (hsorted.sublist (List.dedup_sublist _)) (List.nodup_dedup _)
  refine (pairwise_toList _).eq_of_mem_iff hdedup fun f => ?_
  rw [mem_toList, contains_ofList_iff, List.mem_dedup, List.mem_mergeSort]

theorem ofJson?_array (l : List MemoryFormat) : ofJson? (.array (l.map MemoryFormat.toJson)) = some (ofList l) := by
  have hitems : (l.map MemoryFormat.toJson).mapM MemoryFormat.ofJson? = some l := by
    induction l with
    | nil => rfl
    | cons f rest ih => rw [List.map_cons, List.mapM_cons, ih, MemoryFormat.ofJson?_toJson]; rfl
  rw [ofJson?, Json.asList?, hitems]
  rfl

/-! ## Ways to make a set -/

inductive Recipe where
  | empty
  /-- Every format, as a set is where nothing else is said. -/
  | all
  | of (f : MemoryFormat)
  | ofBits (bits : UInt32)
  | ofList (l : List MemoryFormat)
  /-- The list is read from a text. -/
  | read (l : List MemoryFormat)
  | insert (r : Recipe) (f : MemoryFormat)
  | union (r r' : Recipe)
  | inter (r r' : Recipe)

namespace Recipe

def make : Recipe → FormatSet
  | empty => .empty
  | all => .all
  | of f => .of f
  | ofBits bits => .ofBits bits
  | ofList l => .ofList l
  | read l => (FormatSet.ofJson? (.array (l.map MemoryFormat.toJson))).getD .empty
  | insert r f => r.make.insert f
  | union r r' => r.make.union r'.make
  | inter r r' => r.make.inter r'.make

/-- The same steps, taken on sets. -/
def formats : Recipe → Finset MemoryFormat
  | empty => ∅
  | all => MemoryFormat.all.toFinset
  | of f => {f}
  | ofBits bits => (MemoryFormat.all.filter fun f => bits.toNat.testBit f.value).toFinset
  | ofList l => l.toFinset
  | read l => l.toFinset
  | insert r f => Insert.insert f r.formats
  | union r r' => r.formats ∪ r'.formats
  | inter r r' => r.formats ∩ r'.formats

theorem make_read (l : List MemoryFormat) : (read l).make = .ofList l := by
  rw [make, ofJson?_array]
  rfl

theorem made (r : Recipe) : r.make.Made := by
  induction r with
  | empty => exact .empty
  | all => exact .all
  | of f => exact .of f
  | ofBits bits => exact .ofBits bits
  | ofList l => exact .ofList l
  | read l => exact make_read l ▸ .ofList l
  | insert r f ih => exact .insert f ih
  | union r r' ih ih' => exact .union ih ih'
  | inter r r' ih ih' => exact .inter ih ih'

/-- **What is made on words is what is made on sets.** -/
theorem mem_formats_iff (r : Recipe) : f ∈ r.formats ↔ r.make.contains f = true := by
  induction r with
  | empty => simp [formats, make, contains_empty]
  | all => simp [formats, make, contains_all, MemoryFormat.mem_all]
  | of g => simp [formats, make, contains_of, eq_comm]
  | ofBits bits => simp [formats, make, contains_ofBits, MemoryFormat.mem_all]
  | ofList l => simp [formats, make, contains_ofList_iff]
  | read l => simp [formats, make_read, contains_ofList_iff]
  | insert r g ih => rw [formats, make, contains_insert, Finset.mem_insert, ih]
  | union r r' ih ih' => rw [formats, make, contains_union, Finset.mem_union, Bool.or_eq_true, ih, ih']
  | inter r r' ih ih' => rw [formats, make, contains_inter, Finset.mem_inter, ih, ih']

theorem make_eq_iff (r r' : Recipe) : r.make = r'.make ↔ r.formats = r'.formats := by
  constructor
  · intro h
    ext f
    rw [mem_formats_iff, mem_formats_iff, h]
  · intro h
    refine r.made.known.ext r'.made.known fun f => ?_
    rw [← mem_formats_iff, ← mem_formats_iff, h]

end Recipe

/-- What is promised of a set that stands for a set of formats. -/
structure Represents (s : FormatSet) (formats : Finset MemoryFormat) : Prop where
  /-- Only bits that stand for formats are set. -/
  bits_lt : s.bits.toNat < 2 ^ 23
  contains_iff : ∀ f, s.contains f = true ↔ f ∈ formats
  isEmpty_iff : s.isEmpty = true ↔ s.toList = []
  /-- Each member is listed, once, in the order of the numbers. -/
  mem_toList_iff : ∀ f, f ∈ s.toList ↔ f ∈ formats
  pairwise_toList : s.toList.Pairwise Precedes
  ofList_toList : ofList s.toList = s

theorem Known.bits_lt (hs : s.Known) : s.bits.toNat < 2 ^ 23 := by
  refine Nat.lt_pow_two_of_testBit _ fun i hi => Bool.eq_false_iff.mpr fun hset => ?_
  exact absurd (hs i hset) (Nat.not_lt_of_le hi)

/-- **A set that is made by the operations, in whatever steps, stands for the set that the same steps make of sets**,
and for no other: two of them are the same if the sets are.  A list that becomes a set and a list again is sorted, and
loses its repetitions. -/
theorem Recipe.make_represents (r : Recipe) :
    r.make.Represents r.formats ∧ (∀ r' : Recipe, r.make = r'.make ↔ r.formats = r'.formats) ∧
      ∀ l : List MemoryFormat, (FormatSet.ofList l).toList = (l.mergeSort fun f g => f.value ≤ g.value).dedup := by
  have hknown : r.make.Known := r.made.known
  refine ⟨⟨hknown.bits_lt, fun f => r.mem_formats_iff.symm, hknown.toList_eq_nil_iff.symm, fun f => ?_,
    FormatSet.pairwise_toList _, hknown.ofList_toList⟩, r.make_eq_iff, toList_ofList⟩
  rw [mem_toList, r.mem_formats_iff]

end FormatSet

end ImageLoader
