import Mathlib.Data.List.Nodup

/-!
# Positions in a list that shrinks

Elements are erased from a list one after the other, each by its position at that time. An element
stays at its position exactly as long as only later positions are erased.
-/

namespace Erasure

variable {α : Type*} {l : List α} {rs : List ℕ} {p : ℕ} {a : α}

/-- Erase the positions `rs`, one after the other. -/
def eraseAll (l : List α) (rs : List ℕ) : List α := rs.foldl List.eraseIdx l

@[simp] lemma eraseAll_nil (l : List α) : eraseAll l [] = l := rfl

@[simp] lemma eraseAll_cons (l : List α) (r : ℕ) (rs : List ℕ) :
    eraseAll l (r :: rs) = eraseAll (l.eraseIdx r) rs := rfl

lemma eraseAll_append (l : List α) (rs rs' : List ℕ) :
    eraseAll l (rs ++ rs') = eraseAll (eraseAll l rs) rs' :=
  List.foldl_append

lemma sublist_eraseAll (l : List α) (rs : List ℕ) : (eraseAll l rs).Sublist l := by
  induction rs generalizing l with
  | nil => exact List.Sublist.refl l
  | cons r rs ih => exact (ih (l.eraseIdx r)).trans (List.eraseIdx_sublist l r)

lemma nodup_eraseAll (hl : l.Nodup) (rs : List ℕ) : (eraseAll l rs).Nodup :=
  (sublist_eraseAll l rs).nodup hl

lemma eq_of_getElem?_eq (hl : l.Nodup) {j : ℕ} (hj : l[j]? = some a) (hp : l[p]? = some a) :
    j = p :=
  (List.getElem?_inj (List.getElem?_eq_some_iff.mp hj).1 hl).mp (hj.trans hp.symm)

/-- One erasure leaves an element at its position when it is at a later one. -/
lemma getElem?_eraseIdx_iff (hl : l.Nodup) (ha : l[p]? = some a) (r : ℕ) :
    (l.eraseIdx r)[p]? = some a ↔ p < r := by
  rw [List.getElem?_eraseIdx]
  split_ifs with hpr
  · exact ⟨fun _ => hpr, fun _ => ha⟩
  · refine ⟨fun ha' => ?_, fun h => absurd h hpr⟩
    exact absurd (eq_of_getElem?_eq hl ha' ha) (Nat.succ_ne_self p)

/-- An element that is only found before `p` does not come to `p`. -/
lemma getElem?_eraseAll_ne (hbefore : ∀ j, l[j]? = some a → j < p) (rs : List ℕ) :
    (eraseAll l rs)[p]? ≠ some a := by
  induction rs generalizing l with
  | nil => exact fun ha => absurd (hbefore p ha) (Nat.lt_irrefl p)
  | cons r rs ih =>
    refine ih fun j hj => ?_
    rw [List.getElem?_eraseIdx] at hj
    split_ifs at hj
    · exact hbefore j hj
    · exact Nat.lt_of_succ_lt (hbefore (j + 1) hj)

/-- An element is still at its position exactly when only later positions have been erased. -/
theorem getElem?_eraseAll_iff (hl : l.Nodup) (ha : l[p]? = some a) :
    (eraseAll l rs)[p]? = some a ↔ ∀ r ∈ rs, p < r := by
  induction rs generalizing l with
  | nil => simpa using ha
  | cons r rs ih =>
    rw [eraseAll_cons, List.forall_mem_cons]
    by_cases hpr : p < r
    · rw [ih (hl.eraseIdx r) ((getElem?_eraseIdx_iff hl ha r).mpr hpr)]
      exact ⟨fun h => ⟨hpr, h⟩, And.right⟩
    · refine ⟨fun h => absurd h (getElem?_eraseAll_ne (fun j hj => ?_) rs), fun h => absurd h.1 hpr⟩
      -- the element has moved to the left, or is gone
      rw [List.getElem?_eraseIdx] at hj
      split_ifs at hj with hjr
      · have := eq_of_getElem?_eq hl hj ha
        omega
      · have := eq_of_getElem?_eq hl hj ha
        omega

/-- Erasing the position `p` erases the element `a` exactly when `a` is at `p`. -/
lemma eraseIdx_eq_erase_iff [DecidableEq α] (hl : l.Nodup) (hp : p < l.length) :
    l.eraseIdx p = l.erase a ↔ l[p]? = some a := by
  rw [List.getElem?_eq_getElem hp, Option.some.injEq]
  constructor
  · intro h
    by_contra hne
    have hmem : l[p] ∈ l.erase a := (List.mem_erase_of_ne hne).mpr (List.getElem_mem hp)
    rw [← h, ← hl.erase_getElem p hp] at hmem
    exact (List.Nodup.not_mem_erase hl) hmem
  · rintro rfl
    exact (hl.erase_getElem p hp).symm

end Erasure
