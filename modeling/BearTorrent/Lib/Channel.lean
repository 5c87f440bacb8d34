import Mathlib.Algebra.BigOperators.Group.Finset.Basic

/-!
# Bounded channels

A first-in-first-out channel of fixed capacity. The capacity is a field of the structure, so an
overfull channel cannot be built: a send into a full channel is not defined, the sender waits.
-/

/-- A channel that holds at most `cap` messages, the oldest first. -/
structure Channel (α : Type*) (cap : ℕ) where
  queue : List α
  bounded : queue.length ≤ cap

namespace Channel

variable {α : Type*} {cap : ℕ}

@[ext] lemma ext {c d : Channel α cap} (h : c.queue = d.queue) : c = d := by
  cases c; cases d; cases h; rfl

instance [DecidableEq α] : DecidableEq (Channel α cap) := fun c d =>
  decidable_of_iff (c.queue = d.queue) ⟨ext, congrArg queue⟩

/-- The channel as it is created. -/
def empty : Channel α cap := ⟨[], Nat.zero_le _⟩

instance : Inhabited (Channel α cap) := ⟨empty⟩

@[simp] lemma queue_empty : (empty : Channel α cap).queue = [] := rfl

/-- The channel holds `cap` messages: a sender has to wait. -/
def Full (c : Channel α cap) : Prop := c.queue.length = cap

instance (c : Channel α cap) : Decidable c.Full := inferInstanceAs (Decidable (_ = _))

/-- Append a message when there is room. -/
def send? (c : Channel α cap) (a : α) : Option (Channel α cap) :=
  if h : c.queue.length < cap then some ⟨c.queue ++ [a], by rw [List.length_append]; exact h⟩
  else none

/-- Take the oldest message. -/
def recv? (c : Channel α cap) : Option (α × Channel α cap) :=
  match c with
  | ⟨[], _⟩     => none
  | ⟨a :: q, h⟩ => some (a, ⟨q, Nat.le_of_succ_le h⟩)

lemma send?_eq_some {c d : Channel α cap} {a : α} :
    c.send? a = some d ↔ c.queue.length < cap ∧ d.queue = c.queue ++ [a] := by
  unfold send?
  split_ifs with h
  · simp only [Option.some.injEq, h, true_and]
    exact ⟨fun hd => hd ▸ rfl, fun hd => (ext hd).symm⟩
  · simp [h]

lemma send?_eq_none {c : Channel α cap} {a : α} : c.send? a = none ↔ c.Full := by
  unfold send? Full
  have hbounded := c.bounded
  split_ifs with h
  · exact ⟨False.elim, fun hfull => absurd hfull h.ne⟩
  · exact ⟨fun _ => Nat.le_antisymm hbounded (Nat.not_lt.mp h), fun _ => rfl⟩

lemma exists_send? {c : Channel α cap} (a : α) (h : c.queue.length < cap) :
    ∃ d, c.send? a = some d ∧ d.queue = c.queue ++ [a] :=
  ⟨⟨c.queue ++ [a], by rw [List.length_append]; exact h⟩, send?_eq_some.mpr ⟨h, rfl⟩, rfl⟩

lemma recv?_eq_some {c d : Channel α cap} {a : α} :
    c.recv? = some (a, d) ↔ c.queue = a :: d.queue := by
  obtain ⟨q, h⟩ := c
  cases q with
  | nil => simp [recv?]
  | cons b q =>
    simp only [recv?, Option.some.injEq, Prod.mk.injEq, List.cons.injEq]
    exact ⟨fun ⟨hb, hd⟩ => ⟨hb, hd ▸ rfl⟩, fun ⟨hb, hd⟩ => ⟨hb, ext hd⟩⟩

lemma recv?_eq_none {c : Channel α cap} : c.recv? = none ↔ c.queue = [] := by
  obtain ⟨q, h⟩ := c
  cases q <;> simp [recv?]

lemma exists_recv? {c : Channel α cap} {a : α} {q : List α} (h : c.queue = a :: q) :
    ∃ d, c.recv? = some (a, d) ∧ d.queue = q := by
  obtain ⟨q', h'⟩ := c
  obtain rfl : q' = a :: q := h
  exact ⟨⟨q, Nat.le_of_succ_le h'⟩, rfl, rfl⟩

end Channel
