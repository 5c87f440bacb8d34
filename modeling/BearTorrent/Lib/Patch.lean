import Mathlib.Data.List.Basic

/-!
# Writing blocks into a file

A file is a list; `patch` writes a block at an offset as a random-access file does it: a gap
between the end of the file and the offset is filled with a default value, and an empty block
changes nothing. `slice` reads a block. A file is cut into chunks of one length, the last of
which may be shorter; two files with the same chunks are equal.
-/

namespace Patch

variable {α : Type*}

/-- The file `xs` after the block `ys` has been written at offset `off`. -/
def patch (z : α) (xs : List α) (off : ℕ) (ys : List α) : List α :=
  if ys.isEmpty then xs
  else (xs ++ List.replicate (off - xs.length) z).take off ++ ys ++ xs.drop (off + ys.length)

/-- The elements of `xs` from `off` on, at most `len` of them. -/
def slice (xs : List α) (off len : ℕ) : List α := (xs.drop off).take len

@[simp] lemma patch_nil (z : α) (xs : List α) (off : ℕ) : patch z xs off [] = xs := rfl

/-- A block at the start of an empty file is the whole file. -/
lemma patch_zero (z : α) (ys : List α) : patch z [] 0 ys = ys := by
  rw [patch]
  split_ifs with h
  · exact (List.isEmpty_iff.mp h).symm
  · simp

/-- A block at the end of a file is appended. -/
lemma patch_length (z : α) (xs ys : List α) : patch z xs xs.length ys = xs ++ ys := by
  rw [patch]
  split_ifs with h
  · rw [List.isEmpty_iff.mp h, List.append_nil]
  · simp

lemma patch_of_ne_nil (z : α) (xs : List α) (off : ℕ) {ys : List α} (h : ys ≠ []) :
    patch z xs off ys =
      (xs ++ List.replicate (off - xs.length) z).take off ++ ys ++ xs.drop (off + ys.length) := by
  simp [patch, h]

lemma length_patch (z : α) (xs : List α) (off : ℕ) {ys : List α} (h : ys ≠ []) :
    (patch z xs off ys).length = max xs.length (off + ys.length) := by
  rw [patch_of_ne_nil z xs off h]
  simp only [List.length_append, List.length_take, List.length_replicate, List.length_drop]
  omega

/-- Inside the block the file holds the block. -/
lemma getElem?_patch_of_mem (z : α) (xs : List α) {off j : ℕ} {ys : List α}
    (hl : off ≤ j) (hr : j < off + ys.length) : (patch z xs off ys)[j]? = ys[j - off]? := by
  have h : ys ≠ [] := by rintro rfl; simp at hr; omega
  have hlen : ((xs ++ List.replicate (off - xs.length) z).take off).length = off := by
    simp only [List.length_take, List.length_append, List.length_replicate]; omega
  rw [patch_of_ne_nil z xs off h, List.append_assoc, List.getElem?_append_right (by omega), hlen,
    List.getElem?_append_left (by omega)]

/-- Outside the block what the file held stays. -/
lemma getElem?_patch_of_notMem (z : α) {xs : List α} {off j : ℕ} {ys : List α}
    (hj : j < xs.length) (h : j < off ∨ off + ys.length ≤ j) :
    (patch z xs off ys)[j]? = xs[j]? := by
  by_cases hys : ys = []
  · simp [hys]
  have hlen : ((xs ++ List.replicate (off - xs.length) z).take off).length = off := by
    simp only [List.length_take, List.length_append, List.length_replicate]; omega
  rw [patch_of_ne_nil z xs off hys, List.append_assoc]
  rcases h with h | h
  · rw [List.getElem?_append_left (by omega), List.getElem?_take_of_lt h,
      List.getElem?_append_left hj]
  · rw [List.getElem?_append_right (by omega), hlen, List.getElem?_append_right (by omega),
      List.getElem?_drop]
    congr 1
    omega

lemma length_slice (xs : List α) (off len : ℕ) :
    (slice xs off len).length = min len (xs.length - off) := by
  simp [slice]

lemma getElem?_slice (xs : List α) (off : ℕ) {len j : ℕ} (h : j < len) :
    (slice xs off len)[j]? = xs[off + j]? := by
  simp [slice, List.getElem?_take_of_lt h]

/-- A block is known by its elements. -/
lemma slice_congr {xs ys : List α} {off len : ℕ} (h : ∀ j < len, xs[off + j]? = ys[off + j]?) :
    slice xs off len = slice ys off len := by
  refine List.ext_getElem? fun j => ?_
  by_cases hj : j < len
  · rw [getElem?_slice _ _ hj, getElem?_slice _ _ hj, h j hj]
  · have hxs := length_slice xs off len
    have hys := length_slice ys off len
    rw [List.getElem?_eq_none (by omega), List.getElem?_eq_none (by omega)]

lemma slice_min (xs : List α) (off len : ℕ) :
    slice xs off (min len (xs.length - off)) = slice xs off len := by
  rw [slice, slice, ← List.length_drop, ← List.take_eq_take_min]

/-- A block of the front part is a block of the whole. -/
lemma slice_take (xs : List α) {off len k : ℕ} (h : off + len ≤ (xs.take k).length) :
    slice (xs.take k) off len = slice xs off len := by
  rw [List.length_take] at h
  rw [slice, slice, List.drop_take, List.take_take, Nat.min_eq_left (by omega)]

/-- What has been written is read back. -/
lemma slice_patch_self (z : α) (xs : List α) (off : ℕ) (ys : List α) :
    slice (patch z xs off ys) off ys.length = ys := by
  by_cases h : ys = []
  · simp [h, slice]
  refine List.ext_getElem? fun j => ?_
  by_cases hj : j < ys.length
  · rw [getElem?_slice _ _ hj, getElem?_patch_of_mem z xs (by omega) (by omega)]
    congr 1
    omega
  · have hlen : (slice (patch z xs off ys) off ys.length).length = ys.length := by
      rw [length_slice, length_patch z xs off h]; omega
    rw [List.getElem?_eq_none (by omega), List.getElem?_eq_none (by omega)]

/-- A block that the write does not meet reads as before, if the file held all of it. -/
lemma slice_patch_disjoint (z : α) {xs : List α} {off off' len : ℕ} {ys : List α}
    (hlen : off' + len ≤ xs.length) (h : off' + len ≤ off ∨ off + ys.length ≤ off') :
    slice (patch z xs off ys) off' len = slice xs off' len := by
  refine slice_congr fun j hj => ?_
  rw [getElem?_patch_of_notMem z (by omega) (by omega)]

/-! ### Several blocks -/

/-- What a position holds after a write, where positions behind the end count as `z`. -/
lemma getD_patch (z : α) (xs : List α) (off : ℕ) (ys : List α) (j : ℕ) :
    (patch z xs off ys).getD j z
      = if off ≤ j ∧ j < off + ys.length then ys.getD (j - off) z else xs.getD j z := by
  simp only [List.getD_eq_getElem?_getD]
  split_ifs with hin
  · rw [getElem?_patch_of_mem z xs hin.1 hin.2]
  · have hout : j < off ∨ off + ys.length ≤ j := by omega
    rcases Nat.lt_or_ge j xs.length with hj | hj
    · rw [getElem?_patch_of_notMem z hj hout]
    · -- behind the end, a write leaves the gap in front of it
      have hnone : xs[j]? = none := List.getElem?_eq_none hj
      by_cases hys : ys = []
      · rw [hys, patch_nil]
      rcases hout with hlt | hle
      · have hfront : j < (xs ++ List.replicate (off - xs.length) z).length := by
          rw [List.length_append, List.length_replicate]; omega
        have hlen : ((xs ++ List.replicate (off - xs.length) z).take off).length = off := by
          rw [List.length_take, List.length_append, List.length_replicate]; omega
        rw [patch_of_ne_nil z xs off hys, List.append_assoc, List.getElem?_append_left (by omega),
          List.getElem?_take_of_lt hlt, List.getElem?_append_right hj,
          List.getElem?_replicate_of_lt (by omega), hnone]
        rfl
      · have hlen := length_patch z xs off hys
        rw [List.getElem?_eq_none (by omega), hnone]

lemma ext_getD (z : α) {xs ys : List α} (hlen : xs.length = ys.length)
    (h : ∀ j, xs.getD j z = ys.getD j z) : xs = ys := by
  refine List.ext_getElem hlen fun j hx hy => ?_
  have hj := h j
  rwa [List.getD_eq_getElem?_getD, List.getD_eq_getElem?_getD, List.getElem?_eq_getElem hx,
    List.getElem?_eq_getElem hy] at hj

/-- Blocks that do not meet are written in either order. -/
theorem patch_comm (z : α) (xs : List α) {off off' : ℕ} {ys zs : List α}
    (h : off + ys.length ≤ off' ∨ off' + zs.length ≤ off) :
    patch z (patch z xs off ys) off' zs = patch z (patch z xs off' zs) off ys := by
  by_cases hys : ys = []
  · simp only [hys, patch_nil]
  by_cases hzs : zs = []
  · simp only [hzs, patch_nil]
  apply ext_getD z
  · rw [length_patch z _ off' hzs, length_patch z _ off hys, length_patch z _ off hys,
      length_patch z _ off' hzs, Nat.max_right_comm]
  · intro j
    simp only [getD_patch]
    by_cases hy : off ≤ j ∧ j < off + ys.length
    · rw [if_neg (by omega), if_pos hy, if_pos hy]
    · rw [if_neg hy, if_neg hy]

/-- A write that changes nothing writes what is there. -/
lemma patch_eq_self_iff (z : α) (xs : List α) (off : ℕ) (ys : List α) :
    patch z xs off ys = xs ↔ ys = [] ∨ slice xs off ys.length = ys := by
  constructor
  · intro h
    right
    conv_lhs => rw [← h]
    exact slice_patch_self z xs off ys
  · rintro (rfl | h)
    · rfl
    · by_cases hys : ys = []
      · rw [hys, patch_nil]
      have hlen := length_slice xs off ys.length
      rw [h] at hlen
      have hpos := List.length_pos_iff.mpr hys
      apply ext_getD z
      · rw [length_patch z xs off hys]
        omega
      · intro j
        rw [getD_patch]
        split_ifs with hin
        · have hj : ys[j - off]? = xs[j]? := by
            conv_lhs => rw [← h]
            rw [getElem?_slice _ _ (by omega), Nat.add_sub_cancel' hin.1]
          rw [List.getD_eq_getElem?_getD, List.getD_eq_getElem?_getD, hj]
        · rfl

/-- A block is overwritten by one at the same place that is not shorter. -/
lemma patch_patch_of_le (z : α) (xs : List α) (off : ℕ) {ys zs : List α}
    (h : ys.length ≤ zs.length) : patch z (patch z xs off ys) off zs = patch z xs off zs := by
  by_cases hys : ys = []
  · rw [hys, patch_nil]
  have hzs : zs ≠ [] := by
    rintro rfl
    exact hys (List.eq_nil_of_length_eq_zero (Nat.le_zero.mp h))
  apply ext_getD z
  · rw [length_patch z _ off hzs, length_patch z _ off hys, length_patch z _ off hzs]
    omega
  · intro j
    simp only [getD_patch]
    split_ifs with hz hy
    · rfl
    · omega
    · rfl

/-- A block of one element inside the file. -/
lemma patch_singleton (z : α) {xs : List α} {i : ℕ} (h : i < xs.length) (y : α) :
    patch z xs i [y] = xs.set i y := by
  have hne : [y] ≠ [] := List.cons_ne_nil _ _
  refine List.ext_getElem? fun j => ?_
  by_cases hj : j = i
  · rw [hj, getElem?_patch_of_mem z xs (Nat.le_refl i) (by simp), Nat.sub_self,
      List.getElem?_set_self h]
    rfl
  · rw [List.getElem?_set_ne (Ne.symm hj)]
    rcases Nat.lt_or_ge j xs.length with hlt | hge
    · rw [getElem?_patch_of_notMem z hlt (by rw [List.length_singleton]; omega)]
    · have hlen := length_patch z xs i hne
      rw [List.length_singleton] at hlen
      rw [List.getElem?_eq_none (by omega), List.getElem?_eq_none hge]

/-- Of two blocks at the same place, one begins with the other when their order does not
matter. -/
theorem patch_same_comm_iff (z : α) (xs : List α) (off : ℕ) (ys zs : List α) :
    patch z (patch z xs off ys) off zs = patch z (patch z xs off zs) off ys ↔
      ys <+: zs ∨ zs <+: ys := by
  have hself {as bs : List α} (h : as <+: bs) :
      patch z (patch z xs off bs) off as = patch z xs off bs := by
    refine (patch_eq_self_iff z _ off as).mpr (.inr ?_)
    have hslice := slice_patch_self z xs off bs
    rw [List.prefix_iff_eq_take] at h
    conv_rhs => rw [h, ← hslice]
    have hle : as.length ≤ bs.length := by
      rw [h, List.length_take]
      exact Nat.min_le_right _ _
    rw [slice, slice, List.take_take, Nat.min_eq_left hle]
  have hbegins {as bs : List α} (hle : as.length ≤ bs.length)
      (h : patch z (patch z xs off as) off bs = patch z (patch z xs off bs) off as) :
      as <+: bs := by
    rw [patch_patch_of_le z xs off hle] at h
    rw [List.prefix_iff_eq_take]
    rcases (patch_eq_self_iff z _ off as).mp h.symm with hnil | hslice
    · rw [hnil]
      rfl
    · have hbs := slice_patch_self z xs off bs
      conv_lhs => rw [← hslice]
      conv_rhs => rw [← hbs]
      rw [slice, slice, List.take_take, Nat.min_eq_left hle]
  constructor
  · intro h
    rcases Nat.le_total ys.length zs.length with hle | hle
    · exact .inl (hbegins hle h)
    · exact .inr (hbegins hle h.symm)
  · rintro (h | h)
    · rw [hself h, patch_patch_of_le z xs off h.length_le]
    · rw [hself h, patch_patch_of_le z xs off h.length_le]

/-! ### Chunks -/

/-- Chunk `i` of a file cut into chunks of length `p`. -/
def chunk (p : ℕ) (xs : List α) (i : ℕ) : List α := slice xs (i * p) p

lemma length_chunk (p : ℕ) (xs : List α) (i : ℕ) :
    (chunk p xs i).length = min p (xs.length - i * p) := length_slice _ _ _

/-- The element at position `j` is found in chunk `j / p`. -/
lemma getElem?_chunk {p : ℕ} (hp : 0 < p) (xs : List α) (j : ℕ) :
    (chunk p xs (j / p))[j % p]? = xs[j]? := by
  rw [chunk, getElem?_slice _ _ (Nat.mod_lt _ hp)]
  congr 1
  exact Nat.div_add_mod' j p

/-- Files of one length with the same chunks are equal. -/
lemma eq_of_chunk_eq {p : ℕ} (hp : 0 < p) {xs ys : List α} (hlen : xs.length = ys.length)
    (h : ∀ i, i * p < xs.length → chunk p xs i = chunk p ys i) : xs = ys := by
  refine List.ext_getElem? fun j => ?_
  by_cases hj : j < xs.length
  · have hd : j / p * p < xs.length := Nat.lt_of_le_of_lt (Nat.div_mul_le_self j p) hj
    rw [← getElem?_chunk hp xs, ← getElem?_chunk hp ys, h _ hd]
  · rw [List.getElem?_eq_none (by omega), List.getElem?_eq_none (by omega)]

end Patch
