import Mathlib.Data.List.Forall2
import ImageLoader.Format.Registry
import ImageLoader.Proofs.Format.Members

/-!
# Sets of formats as words of flags

Other systems hold a set of formats as a word of 64 bits, with a sign, and take it apart by the entries of the
registry.  The library holds 32 bits, and asks the formats.  Of any word, the entries found are those of the members,
one for one and in the same order: what the sign bit and the upper bits say is dropped on both sides.

* `ValueInfo.IsFlag`: the entry of a format, by its bit and its nick.
* `ValueInfo.forall₂_flagValues`: the entries are the entries of the formats, in order.
* `ValueInfo.IsFlag.mem_flags_iff`: an entry is found in a word if the set has the format.
* `ValueInfo.union_eq_toFlags`: the values found make up the known part of the word.
* `TypeInfo.flags_formatSet`: **the registry and the sets take a word apart in the same way.**
-/

namespace ImageLoader

namespace FormatSet

/-- The set that is held in a word: its lower half, as a number without a sign. -/
def ofFlags (bits : Int64) : FormatSet := ofBits (UInt32.ofNat (bits.toInt % 2 ^ 32).toNat)

def toFlags (s : FormatSet) : Int64 := Int64.ofNat s.bits.toNat

variable {s : FormatSet} {f : MemoryFormat} {bits : Int64} {i : Nat}

/-! ## Bits -/

theorem toInt_emod (bits : Int64) : (bits.toInt % 2 ^ 32).toNat = bits.toBitVec.toNat % 2 ^ 32 := by
  have hvalue : bits.toInt = if 2 * bits.toBitVec.toNat < 2 ^ 64 then (bits.toBitVec.toNat : Int)
      else bits.toBitVec.toNat - ((2 ^ 64 : Nat) : Int) := BitVec.toInt_eq_toNat_cond bits.toBitVec
  rw [hvalue]
  split <;> omega

theorem contains_ofFlags : (ofFlags bits).contains f = bits.toBitVec.getLsbD f.value := by
  have hlow : f.value < 32 := Nat.lt_trans f.value_lt (by decide)
  rw [ofFlags, contains_ofBits, UInt32.toNat_ofNat', toInt_emod, Nat.mod_mod, Nat.testBit_mod_two_pow,
    decide_eq_true hlow, Bool.true_and]
  rfl

/-- A bit of the word of a set is a bit of the set. -/
theorem getLsbD_toFlags (h : i < 64) : s.toFlags.toBitVec.getLsbD i = s.bits.toNat.testBit i := by
  show (BitVec.ofNat 64 s.bits.toNat).getLsbD i = _
  rw [BitVec.getLsbD_ofNat, decide_eq_true h, Bool.true_and]

theorem toBitVec_toFlags_of (f : MemoryFormat) : (of f).toFlags.toBitVec = BitVec.twoPow 64 f.value := by
  cases f <;> rfl

theorem ofFlags_toFlags (hs : s.Known) : ofFlags s.toFlags = s := by
  refine (Made.ofBits _).known.ext hs fun f => ?_
  have hword : f.value < 64 := Nat.lt_trans f.value_lt (by decide)
  rw [← ofFlags, contains_ofFlags, getLsbD_toFlags hword, ← contains_eq_testBit]

/-- **The set in a word is held by the known part of the word.** -/
theorem toFlags_ofFlags (bits : Int64) : (ofFlags bits).toFlags = bits &&& 0x7fffff := by
  have hmask : (0x7fffff : Int64).toBitVec = BitVec.ofNat 64 (2 ^ 23 - 1) := rfl
  refine Int64.toBitVec_inj.mp (BitVec.eq_of_getLsbD_eq fun i hi => ?_)
  rw [getLsbD_toFlags hi, Int64.toBitVec_and, BitVec.getLsbD_and, hmask, BitVec.getLsbD_ofNat,
    Nat.testBit_two_pow_sub_one, decide_eq_true hi, Bool.true_and]
  by_cases hformat : i < 23
  · obtain ⟨f, rfl⟩ := MemoryFormat.exists_value_eq hformat
    rw [← contains_eq_testBit, contains_ofFlags, decide_eq_true hformat, Bool.and_true]
  · rw [decide_eq_false hformat, Bool.and_false]
    exact Bool.eq_false_iff.mpr fun hset => hformat ((Made.ofBits _).known i hset)

end FormatSet

namespace ValueInfo

open FormatSet (ofFlags toFlags)

variable {v : ValueInfo} {f : MemoryFormat} {bits : Int64} {l : List ValueInfo} {formats : List MemoryFormat}

/-- `v` is the entry of the format as a flag. -/
def IsFlag (v : ValueInfo) (f : MemoryFormat) : Prop := v.value = (FormatSet.of f).toFlags ∧ v.nick = f.nick

instance (v : ValueInfo) (f : MemoryFormat) : Decidable (v.IsFlag f) := inferInstanceAs (Decidable (_ ∧ _))

/-- **The entries are those of the formats, in the order of their numbers.** -/
theorem forall₂_flagValues : List.Forall₂ IsFlag TypeInfo.flagValues MemoryFormat.all := by decide

/-- Every entry is the entry of a format. -/
theorem exists_isFlag (hv : v ∈ TypeInfo.flagValues) : ∃ f, v.IsFlag f := by
  have hpaired : List.Forall₂ (fun v f => (∃ f, v.IsFlag f) ∧ v.IsFlag f) TypeInfo.flagValues MemoryFormat.all :=
    forall₂_flagValues.imp fun v f h => ⟨⟨f, h⟩, h⟩
  exact ((List.forall₂_and_left _ _).mp hpaired).1 v hv

theorem IsFlag.value_ne_zero (h : v.IsFlag f) : v.value ≠ 0 := by
  rw [h.1]
  cases f <;> decide

/-- **The bit of an entry is set in a word if the set in the word has the format.** -/
theorem IsFlag.and_value_iff (h : v.IsFlag f) : bits &&& v.value = v.value ↔ (ofFlags bits).contains f = true := by
  have hone : BitVec.twoPow 64 f.value ≠ 0#64 := by
    cases f <;> decide
  rw [FormatSet.contains_ofFlags, h.1, ← Int64.toBitVec_inj, Int64.toBitVec_and, FormatSet.toBitVec_toFlags_of,
    BitVec.and_twoPow]
  cases bits.toBitVec.getLsbD f.value <;> simp [hone.symm]

/-- **An entry is found in a word if the set in the word has the format.** -/
theorem IsFlag.mem_flags_iff (h : v.IsFlag f) :
    (v.value != 0 && bits &&& v.value == v.value) = true ↔ (ofFlags bits).contains f = true := by
  rw [Bool.and_eq_true, bne_iff_ne, beq_iff_eq, h.and_value_iff]
  exact and_iff_right h.value_ne_zero

/-! ## The values together -/

def union (l : List ValueInfo) : Int64 := l.foldr (fun v bits => v.value ||| bits) 0

theorem getLsbD_union (h : List.Forall₂ IsFlag l formats) (i : Nat) :
    (union l).toBitVec.getLsbD i = true ↔ ∃ f ∈ formats, f.value = i := by
  induction h with
  | nil => simp [union]
  | @cons v f l formats hv _ ih =>
    have hbit : v.value.toBitVec.getLsbD i = decide (f.value = i) := by
      have hword : f.value < 64 := Nat.lt_trans f.value_lt (by decide)
      rw [hv.1, FormatSet.toBitVec_toFlags_of, BitVec.getLsbD_twoPow, decide_eq_true hword, Bool.true_and]
    show (v.value ||| union l).toBitVec.getLsbD i = true ↔ _
    rw [Int64.toBitVec_or, BitVec.getLsbD_or, hbit, Bool.or_eq_true, decide_eq_true_eq, ih]
    simp

/-- **The values of the entries of the members make up the word of the set.** -/
theorem union_eq_toFlags {s : FormatSet} (hs : s.Known) (h : List.Forall₂ IsFlag l s.toList) :
    union l = s.toFlags := by
  refine Int64.toBitVec_inj.mp (BitVec.eq_of_getLsbD_eq fun i hi => ?_)
  rw [Bool.eq_iff_iff, getLsbD_union h i, FormatSet.getLsbD_toFlags hi]
  constructor
  · rintro ⟨f, hf, rfl⟩
    rw [← FormatSet.contains_eq_testBit]
    exact FormatSet.mem_toList.mp hf
  · intro hset
    obtain ⟨f, rfl⟩ := MemoryFormat.exists_value_eq (hs i hset)
    refine ⟨f, FormatSet.mem_toList.mpr ?_, rfl⟩
    rw [FormatSet.contains_eq_testBit, hset]

end ValueInfo

namespace TypeInfo

open FormatSet (ofFlags toFlags)

/-- The entries found in a word are the entries of the members of its set. -/
theorem forall₂_flags (bits : Int64) : List.Forall₂ ValueInfo.IsFlag (formatSet.flags bits) (ofFlags bits).toList := by
  apply List.rel_filter
  · intro v f hv
    exact hv.mem_flags_iff
  · exact ValueInfo.forall₂_flagValues

theorem flags_congr {bits bits' : Int64} (h : ofFlags bits = ofFlags bits') :
    formatSet.flags bits = formatSet.flags bits' := by
  refine List.filter_congr fun v hv => ?_
  obtain ⟨f, hflag⟩ := ValueInfo.exists_isFlag hv
  rw [Bool.eq_iff_iff, hflag.mem_flags_iff, hflag.mem_flags_iff, h]

/-- **The registry and the sets take a word apart in the same way**: the entries found in a word, whatever its sign and
its upper bits, are those of the members of the set in the word, in order, each with the bit and the nick of its
format.  Together their values are the known part of the word, and taking that apart gives the same entries. -/
theorem flags_formatSet (bits : Int64) :
    List.Forall₂ ValueInfo.IsFlag (formatSet.flags bits) (ofFlags bits).toList ∧
      ValueInfo.union (formatSet.flags bits) = bits &&& 0x7fffff ∧
      formatSet.flags (ValueInfo.union (formatSet.flags bits)) = formatSet.flags bits := by
  have hknown : (ofFlags bits).Known := (FormatSet.Made.ofBits _).known
  have hunion : ValueInfo.union (formatSet.flags bits) = (ofFlags bits).toFlags :=
    ValueInfo.union_eq_toFlags hknown (forall₂_flags bits)
  refine ⟨forall₂_flags bits, ?_, ?_⟩
  · rw [hunion, FormatSet.toFlags_ofFlags]
  · rw [hunion]
    exact flags_congr (FormatSet.ofFlags_toFlags hknown)

end TypeInfo

end ImageLoader
