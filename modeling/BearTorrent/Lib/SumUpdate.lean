import Mathlib.Algebra.BigOperators.Group.Finset.Basic
import Mathlib.Tactic.Abel

/-!
# Sums over an updated function

A sum over a table changes with one of its entries by what this entry contributes.
-/

namespace Finset

variable {ι β M : Type*} [DecidableEq ι] [AddCommMonoid M]

/-- Replacing an entry replaces its summand. -/
lemma sum_update_add {s : Finset ι} {i : ι} (hi : i ∈ s) (f : β → M) (g : ι → β) (b : β) :
    ∑ j ∈ s, f (Function.update g i b j) + f (g i) = ∑ j ∈ s, f (g j) + f b := by
  have hrest : ∑ j ∈ s.erase i, f (Function.update g i b j) = ∑ j ∈ s.erase i, f (g j) := by
    refine sum_congr rfl fun j hj => ?_
    rw [Function.update_of_ne (ne_of_mem_erase hj)]
  rw [← add_sum_erase _ _ hi, ← add_sum_erase _ (fun j => f (g j)) hi, Function.update_self, hrest]
  abel

/-- Replacing an entry that is not summed changes nothing. -/
lemma sum_update_of_not_mem {s : Finset ι} {i : ι} (hi : i ∉ s) (f : β → M) (g : ι → β) (b : β) :
    ∑ j ∈ s, f (Function.update g i b j) = ∑ j ∈ s, f (g j) := by
  refine sum_congr rfl fun j hj => ?_
  rw [Function.update_of_ne (ne_of_mem_of_not_mem hj hi)]

end Finset
