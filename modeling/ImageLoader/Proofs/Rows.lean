import ImageLoader.Bytes

/-!
# Rows of bytes

A buffer that holds an image holds its rows, each `stride` bytes after the one before.  `gather` is what the
rows hold without what lies between them; the ways in which frames are edited all come down to it.

* `extract_gather`: **what is gathered is found at its place in the rows.**
* `gather_congr`: **and depends on nothing else.**
* `gather_gather`: parts of rows can be gathered at once.
-/

namespace ImageLoader.Bytes

variable {b c part : Bytes} {start stride len n y i j k : Nat}

/-! ## Parts of parts -/

theorem extract_append_of_le (h : j ≤ b.size) : (b ++ c).extract i j = b.extract i j := by
  rw [ByteArray.extract_append, Nat.sub_eq_zero_of_le h,
    ByteArray.extract_eq_empty_iff.mpr (Nat.le_trans (Nat.min_le_left _ _) (Nat.zero_le _)),
    ByteArray.append_empty]

theorem extract_extract_of_le {l : Nat} (h : i + l ≤ j) :
    (b.extract i j).extract k l = b.extract (i + k) (i + l) := by
  rw [ByteArray.extract_extract, Nat.min_eq_left h]

theorem getElem?_extract (h : i < len) :
    (b.extract start (start + len))[i]? = b[start + i]? := by
  by_cases hi : start + i < b.size
  · have hi' : i < (b.extract start (start + len)).size := by
      rw [ByteArray.size_extract]
      omega
    rw [getElem?_pos b _ hi, getElem?_pos (b.extract _ _) _ hi', ByteArray.getElem_extract]
  · have hi' : ¬i < (b.extract start (start + len)).size := by
      rw [ByteArray.size_extract]
      omega
    rw [getElem?_neg b _ hi, getElem?_neg (b.extract _ _) _ hi']

theorem extract_overwrite_zero (h : start + part.size ≤ b.size) :
    (b.overwrite start part).extract 0 (start + part.size) = b.extract 0 start ++ part := by
  have hfront : (b.extract 0 start ++ part).size = start + part.size := by
    rw [ByteArray.size_append, ByteArray.size_extract]
    omega
  rw [overwrite, ByteArray.extract_append_eq_left hfront.symm]

theorem extract_overwrite_of_le (h : start + part.size ≤ b.size) (hi : start + part.size ≤ i) :
    (b.overwrite start part).extract i j = b.extract i j := by
  have hfront : (b.extract 0 start ++ part).size = start + part.size := by
    rw [ByteArray.size_append, ByteArray.size_extract]
    omega
  have hempty : (b.extract 0 start ++ part).extract i j = ByteArray.empty :=
    ByteArray.extract_eq_empty_iff.mpr (by omega)
  rw [overwrite, ByteArray.extract_append, hempty, hfront, ByteArray.empty_append,
    ByteArray.extract_extract]
  apply ByteArray.ext_getElem
  · simp only [ByteArray.size_extract]
    omega
  · intro k hk hk'
    simp only [ByteArray.getElem_extract]
    congr 1
    omega

/-! ## Gathering rows -/

/-- The `len` bytes at the start of each of `n` rows, one after another. -/
def gather (b : Bytes) (start stride len : Nat) : Nat → Bytes
  | 0 => ByteArray.empty
  | n + 1 => gather b start stride len n ++ b.extract (start + n * stride) (start + n * stride + len)

theorem size_gather (h : ∀ y < n, start + y * stride + len ≤ b.size) :
    (gather b start stride len n).size = n * len := by
  induction n with
  | zero => simp [gather]
  | succ n ih =>
    have hn := h n (Nat.lt_succ_self n)
    rw [gather, ByteArray.size_append, ih fun y hy => h y (Nat.lt_succ_of_lt hy),
      ByteArray.size_extract, Nat.succ_mul]
    omega

theorem extract_gather (h : ∀ y < n, start + y * stride + len ≤ b.size) (hy : y < n)
    (hik : i + k ≤ len) :
    (gather b start stride len n).extract (y * len + i) (y * len + i + k) =
      b.extract (start + y * stride + i) (start + y * stride + i + k) := by
  induction n with
  | zero => exact absurd hy (Nat.not_lt_zero y)
  | succ n ih =>
    have hsize := size_gather fun y hy => h y (Nat.lt_succ_of_lt hy)
    rw [gather]
    rcases Nat.lt_succ_iff_lt_or_eq.mp hy with hlt | rfl
    · have hend : y * len + i + k ≤ n * len :=
        calc y * len + i + k ≤ (y + 1) * len := by rw [Nat.succ_mul]; omega
          _ ≤ n * len := Nat.mul_le_mul_right len hlt
      rw [extract_append_of_le (Nat.le_trans hend (Nat.le_of_eq hsize.symm)),
        ih (fun y hy => h y (Nat.lt_succ_of_lt hy)) hlt]
    · have hbegin : (gather b start stride len y).extract (y * len + i) (y * len + i + k) =
          ByteArray.empty := ByteArray.extract_eq_empty_iff.mpr (by omega)
      rw [ByteArray.extract_append, hbegin, ByteArray.empty_append, hsize,
        extract_extract_of_le (by omega)]
      congr 1 <;> omega

/-- What is gathered depends on the rows alone. -/
theorem gather_congr {start' stride' : Nat}
    (h : ∀ y < n, b.extract (start + y * stride) (start + y * stride + len) =
      c.extract (start' + y * stride') (start' + y * stride' + len)) :
    gather b start stride len n = gather c start' stride' len n := by
  induction n with
  | zero => rfl
  | succ n ih =>
    rw [gather, gather, ih fun y hy => h y (Nat.lt_succ_of_lt hy), h n (Nat.lt_succ_self n)]

/-- Rows without a gap are gathered as they lie. -/
theorem gather_packed : gather b start len len n = b.extract start (start + n * len) := by
  induction n with
  | zero => simp [gather, ByteArray.extract_same]
  | succ n ih =>
    rw [gather, ih, Nat.succ_mul, Nat.add_assoc start, ByteArray.extract_append_extract]
    congr 1 <;> omega

/-- Buffers of the same pieces are the same. -/
theorem eq_of_pieces (hb : b.size = n * len) (hc : c.size = n * len)
    (h : ∀ i < n, b.extract (i * len) (i * len + len) = c.extract (i * len) (i * len + len)) : b = c := by
  have hgather : gather b 0 len len n = gather c 0 len len n :=
    gather_congr fun i hi => by rw [Nat.zero_add, h i hi]
  rw [gather_packed, gather_packed, Nat.zero_add] at hgather
  rwa [← hb, ByteArray.extract_zero_size, hb, ← hc, ByteArray.extract_zero_size] at hgather

theorem gather_gather {x y' len' n' : Nat} (h : ∀ y < n, start + y * stride + len ≤ b.size)
    (hx : x + len' ≤ len) (hy : y' + n' ≤ n) :
    gather (gather b start stride len n) (y' * len + x) len len' n' =
      gather b (start + y' * stride + x) stride len' n' := by
  refine gather_congr fun y hlt => ?_
  have hrow := extract_gather (i := x) (k := len') h (show y' + y < n by omega) hx
  rw [Nat.add_mul, Nat.add_mul] at hrow
  rw [show y' * len + x + y * len = y' * len + y * len + x by omega, hrow]
  congr 1 <;> omega

end ImageLoader.Bytes
