import Mathlib.Data.Int.CardIntervalMod

/-!
# Dealing in turn

Items that are numbered from zero are dealt to `k` receivers in turn: item `i` goes to receiver
`i % k`. The shares of the receivers differ by at most one.
-/

namespace RoundRobin

variable {n k c c' : ℕ}

/-- How many of the first `n` items receiver `c` gets. -/
def share (n k c : ℕ) : ℕ := (List.range n).countP fun i => i % k = c

/-- The rounds that are complete, and the one that is not. -/
lemma share_eq (hc : c < k) : share n k c = n / k + if c < n % k then 1 else 0 := by
  have hmodEq : ∀ i, i ≡ c [MOD k] ↔ i % k = c := fun i => by
    rw [Nat.ModEq, Nat.mod_eq_of_lt hc]
  calc share n k c
    _ = Nat.count (· ≡ c [MOD k]) n := by simp only [share, Nat.count, hmodEq]
    _ = n / k + if c % k < n % k then 1 else 0 := Nat.count_modEq_card n (Nat.zero_lt_of_lt hc) c
    _ = n / k + if c < n % k then 1 else 0 := by rw [Nat.mod_eq_of_lt hc]

/-- The shares differ by at most one. -/
lemma share_le_succ (hc : c < k) (hc' : c' < k) : share n k c ≤ share n k c' + 1 := by
  rw [share_eq hc, share_eq hc', Nat.add_assoc]
  apply Nat.add_le_add_left
  split_ifs <;> omega

end RoundRobin
