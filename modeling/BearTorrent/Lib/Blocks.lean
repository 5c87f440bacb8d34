import Mathlib.Algebra.BigOperators.Group.List.Basic

/-!
# Blocks of one width

A concatenation of blocks that all have the same width splits into them in one way. What precedes
such a concatenation is fixed only up to a number of whole blocks.
-/

namespace Blocks

variable {α : Type*} {w : ℕ} {L L' : List (List α)} {x : List α}

/-- All blocks have the width `w`. -/
def OfWidth (w : ℕ) (L : List (List α)) : Prop := ∀ b ∈ L, b.length = w

lemma OfWidth.map_length (hL : OfWidth w L) : L.map List.length = List.replicate L.length w :=
  List.eq_replicate_iff.mpr ⟨List.length_map _, by simpa [OfWidth] using hL⟩

lemma OfWidth.length_flatten (hL : OfWidth w L) : L.flatten.length = L.length * w := by
  rw [List.length_flatten, hL.map_length, List.sum_replicate_nat]

lemma OfWidth.take (hL : OfWidth w L) (k : ℕ) : OfWidth w (L.take k) :=
  fun b hb => hL b (List.mem_of_mem_take hb)

lemma OfWidth.drop (hL : OfWidth w L) (k : ℕ) : OfWidth w (L.drop k) :=
  fun b hb => hL b (List.mem_of_mem_drop hb)

/-- The blocks are found again. -/
lemma OfWidth.flatten_inj (hL : OfWidth w L) (hL' : OfWidth w L') (hw : 0 < w)
    (h : L.flatten = L'.flatten) : L = L' := by
  have hlen : L.length = L'.length := by
    have := congrArg List.length h
    rw [hL.length_flatten, hL'.length_flatten] at this
    exact Nat.eq_of_mul_eq_mul_right hw this
  rw [List.eq_iff_flatten_eq, hL.map_length, hL'.map_length, hlen]
  exact ⟨h, rfl⟩

/-- What the first blocks are more than the others. -/
lemma OfWidth.append_flatten (hL : OfWidth w L) (hL' : OfWidth w L') (hw : 0 < w)
    (h : x ++ L'.flatten = L.flatten) :
    ∃ k ≤ L.length, x = (L.take k).flatten ∧ L' = L.drop k := by
  have hlen : x.length + L'.length * w = L.length * w := by
    rw [← hL.length_flatten, ← hL'.length_flatten, ← List.length_append, h]
  have hle : L'.length ≤ L.length := by
    apply Nat.le_of_mul_le_mul_right _ hw
    rw [← hlen]
    exact Nat.le_add_left _ _
  have hsplit : (L.take (L.length - L'.length)).flatten ++ (L.drop (L.length - L'.length)).flatten
      = L.flatten := by
    rw [← List.flatten_append, List.take_append_drop]
  have hx : x.length = (L.take (L.length - L'.length)).flatten.length := by
    rw [(hL.take _).length_flatten, List.length_take, Nat.min_eq_left (Nat.sub_le _ _),
      Nat.sub_mul, ← hlen, Nat.add_sub_cancel]
  obtain ⟨hfront, hback⟩ := List.append_inj (h.trans hsplit.symm) hx
  exact ⟨L.length - L'.length, Nat.sub_le _ _, hfront, hL'.flatten_inj (hL.drop _) hw hback⟩

end Blocks
