import Mathlib.Data.Finset.Card

/-!
# Values with several owners

A value that is freed, or taken out, by the last of its owners. Owners are the places that hold a
handle, each at most one; a counter says how many there are, and only the counter is looked at when
the value is taken out.
-/

/-- A value, the places that hold a handle to it, and the counter of the handles. -/
structure SharedValue (α ω : Type*) where
  value : α
  owners : Finset ω
  strong : ℕ
  counted : strong = owners.card

namespace SharedValue

variable {α ω : Type*} {c : SharedValue α ω} {o o' x : ω}

/-- The value with its first handle. -/
def new (a : α) (o : ω) : SharedValue α ω := ⟨a, {o}, 1, (Finset.card_singleton o).symm⟩

/-- Take the value out, if there is no other handle. -/
def tryUnwrap (c : SharedValue α ω) : Except (SharedValue α ω) α :=
  if c.strong = 1 then .ok c.value else .error c

@[simp] lemma value_new (a : α) (o : ω) : (new a o).value = a := rfl

@[simp] lemma mem_owners_new {a : α} : x ∈ (new a o).owners ↔ x = o := Finset.mem_singleton

/-- The counter is one exactly when there is one owner. -/
lemma strong_eq_one_iff : c.strong = 1 ↔ ∃ o, ∀ x, x ∈ c.owners ↔ x = o := by
  rw [c.counted, Finset.card_eq_one]
  constructor
  · rintro ⟨o, h⟩
    exact ⟨o, fun x => by rw [h, Finset.mem_singleton]⟩
  · rintro ⟨o, h⟩
    exact ⟨o, Finset.ext fun x => (h x).trans Finset.mem_singleton.symm⟩

/-- The last owner takes the value out. -/
lemma tryUnwrap_of_sole (h : ∀ x, x ∈ c.owners ↔ x = o) : c.tryUnwrap = .ok c.value :=
  if_pos (strong_eq_one_iff.mpr ⟨o, h⟩)

variable [DecidableEq ω]

/-- One more handle. -/
def clone (c : SharedValue α ω) (o : ω) : SharedValue α ω :=
  if h : o ∈ c.owners then c
  else ⟨c.value, insert o c.owners, c.strong + 1, by
    rw [Finset.card_insert_of_notMem h, c.counted]⟩

/-- A handle is dropped. -/
def release (c : SharedValue α ω) (o : ω) : SharedValue α ω :=
  if h : o ∈ c.owners then ⟨c.value, c.owners.erase o, c.strong - 1, by
    rw [Finset.card_erase_of_mem h, c.counted]⟩
  else c

/-- A handle is moved to another place. -/
def move (c : SharedValue α ω) (o o' : ω) : SharedValue α ω :=
  if h : o ∈ c.owners ∧ o' ∉ c.owners then ⟨c.value, insert o' (c.owners.erase o), c.strong, by
    have hpos := Finset.card_pos.mpr ⟨o, h.1⟩
    rw [Finset.card_insert_of_notMem fun ho' => h.2 (Finset.mem_of_mem_erase ho'),
      Finset.card_erase_of_mem h.1, c.counted, Nat.sub_add_cancel hpos]⟩
  else c

@[simp] lemma value_clone : (c.clone o).value = c.value := by
  unfold clone
  split_ifs <;> rfl

@[simp] lemma value_release : (c.release o).value = c.value := by
  unfold release
  split_ifs <;> rfl

@[simp] lemma value_move : (c.move o o').value = c.value := by
  unfold move
  split_ifs <;> rfl

@[simp] lemma mem_owners_clone : x ∈ (c.clone o).owners ↔ x = o ∨ x ∈ c.owners := by
  unfold clone
  split_ifs with h
  · exact (or_iff_right_of_imp fun hx => hx ▸ h).symm
  · exact Finset.mem_insert

@[simp] lemma mem_owners_release : x ∈ (c.release o).owners ↔ x ≠ o ∧ x ∈ c.owners := by
  unfold release
  split_ifs with h
  · exact Finset.mem_erase
  · refine (and_iff_right_of_imp ?_).symm
    rintro hx rfl
    exact h hx

lemma mem_owners_move (ho : o ∈ c.owners) (ho' : o' ∉ c.owners) :
    x ∈ (c.move o o').owners ↔ x = o' ∨ x ≠ o ∧ x ∈ c.owners := by
  rw [move, dif_pos ⟨ho, ho'⟩, Finset.mem_insert, Finset.mem_erase]

end SharedValue
