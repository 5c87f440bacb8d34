import Mathlib.Data.List.Basic

/-!
# Leaving out the actions of another party

A system performs the actions of two parties, and only those of one are visible to an observer.
When the visible actions keep two states related, and the others do not lead out of the relation,
a run is related to the run with the others left out.
-/

namespace Unwinding

variable {σ α : Type*}

/-- `ok` holds of every action in the state where it is performed. -/
def Along (step : σ → α → σ) (ok : σ → α → Prop) : σ → List α → Prop
  | _, []      => True
  | s, a :: as => ok s a ∧ Along step ok (step s a) as

/-- The unwinding rule. -/
theorem related_filter {step : σ → α → σ} {ok : σ → α → Prop} {visible : α → Bool}
    {R : σ → σ → Prop}
    (hvisible : ∀ s t a, visible a = true → R s t → R (step s a) (step t a))
    (hhidden : ∀ s t a, visible a = false → ok s a → R s t → R (step s a) t)
    {s t : σ} {as : List α} (has : Along step ok s as) (hst : R s t) :
    R (as.foldl step s) ((as.filter visible).foldl step t) := by
  induction as generalizing s t with
  | nil => exact hst
  | cons a as ih =>
    cases ha : visible a with
    | true =>
      rw [List.filter_cons_of_pos ha]
      exact ih has.2 (hvisible s t a ha hst)
    | false =>
      rw [List.filter_cons_of_neg (by simp [ha])]
      exact ih has.2 (hhidden s t a ha has.1 hst)

end Unwinding
