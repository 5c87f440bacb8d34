import Mathlib.Order.WellFounded

/-!
# Locks that are taken in order

Tasks that wait for a lock while they hold others cannot block one another for good when each waits
for a later lock than those it holds.
-/

namespace LockOrder

variable {ι τ ρ : Type*} [LT ρ] [WellFoundedLT ρ] {holder : ι → Option τ}

/-- If a blocked task that holds a lock waits for a held lock of lower rank, then a task that holds
a lock is not blocked. -/
lemma exists_not_blocked (Blocked : τ → Prop) (rank : ι → ρ)
    (hwaits : ∀ k x, holder k = some x → Blocked x →
      ∃ j, rank j < rank k ∧ (holder j).isSome = true)
    {k : ι} (hk : (holder k).isSome = true) : ∃ j x, holder j = some x ∧ ¬ Blocked x := by
  induction hr : rank k using WellFoundedLT.induction generalizing k with
  | _ r ih =>
    obtain ⟨x, hx⟩ := Option.isSome_iff_exists.mp hk
    by_cases hblocked : Blocked x
    · obtain ⟨j, hj, hheld⟩ := hwaits k x hx hblocked
      exact ih (rank j) (hr ▸ hj) hheld rfl
    · exact ⟨k, x, hx, hblocked⟩

end LockOrder
