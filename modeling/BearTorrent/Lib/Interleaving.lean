import Mathlib.Data.List.Basic
import Mathlib.Logic.Function.Basic

/-!
# Interleavings

A list is an interleaving of a family of lists when each of its elements can be attributed to a
member of the family such that the elements attributed to a member are exactly its list, in order.
-/

/-- `l` is an interleaving of the lists `f i`. -/
def Interleaving {ι α : Type*} [DecidableEq ι] (l : List α) (f : ι → List α) : Prop :=
  ∃ tags : List (ι × α), tags.map Prod.snd = l ∧
    ∀ i, (tags.filter (·.1 = i)).map Prod.snd = f i

namespace Interleaving

variable {ι α : Type*} [DecidableEq ι] {l : List α} {f g : ι → List α}

/-- The empty list is an interleaving of empty lists. -/
lemma nil (hf : ∀ i, f i = []) : Interleaving [] f := by
  refine ⟨[], rfl, fun i => ?_⟩
  rw [hf i]
  rfl

/-- The next element of one of the lists. -/
lemma snoc (h : Interleaving l f) (i : ι) (a : α) (hi : g i = f i ++ [a])
    (hg : ∀ j, j ≠ i → g j = f j) : Interleaving (l ++ [a]) g := by
  obtain ⟨tags, rfl, htags⟩ := h
  refine ⟨tags ++ [(i, a)], by simp, fun j => ?_⟩
  rw [List.filter_append, List.map_append, htags]
  by_cases hj : j = i
  · subst hj
    simp [hi]
  · simp [hg j hj, Ne.symm hj]

lemma congr (h : Interleaving l f) (hg : ∀ i, g i = f i) : Interleaving l g := by
  obtain rfl : g = f := funext hg
  exact h

end Interleaving
