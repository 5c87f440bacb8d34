import BearTorrent.Client.Pipeline.Registration

/-!
# Looking up a connection

`send_requests` computes a position from a number of connections that it has read earlier. The
lookup hits a registered connection exactly when the position is not among the last ones, as many
as connections were removed without being subtracted from that number.
-/

namespace BearTorrent.Pipeline

variable {cfg : Config} {s t : Pipeline}

/-- The connections that have been removed, but not from the count `m`. -/
def missed (cfg : Config) (s : Pipeline) (m : ℕ) : ℕ :=
  s.removals.length - (cfg.numConnections - m)

/-- A lookup, while there are connections, finds one. -/
def LookupHits (cfg : Config) (s : Pipeline) : Prop :=
  ∀ m position, s.lookup? cfg = some (m, position) → s.assembler.requestTxs ≠ [] →
    position < s.assembler.requestTxs.length

/-- A lookup, while there are connections, keeps clear of the positions that the count covers only
because it misses removals. -/
def CountSuffices (cfg : Config) (s : Pipeline) : Prop :=
  ∀ m position, s.lookup? cfg = some (m, position) → s.assembler.requestTxs ≠ [] →
    position + s.missed cfg m < m

lemma count_of_lookup? {m position : ℕ} (h : s.lookup? cfg = some (m, position)) :
    s.sender.count = some m := by
  unfold lookup? at h
  cases hs : s.sender with
  | requesting m' i =>
    simp only [hs] at h
    split_ifs at h
    cases h
    rfl
  | resending m' i request =>
    simp only [hs] at h
    cases h
    rfl
  | _ => simp [hs] at h

/-- The length of the list is the count less the removals that it misses. -/
lemma Registered.lookupHits_iff (hs : Registered cfg s) :
    LookupHits cfg s ↔ CountSuffices cfg s := by
  unfold LookupHits CountSuffices missed
  refine forall₂_congr fun m position => forall₂_congr fun hl hne => ?_
  obtain ⟨hle, hcount⟩ := hs.sender m (count_of_lookup? hl)
  rcases hs.txs with ⟨-, hlen⟩ | ⟨-, hnil⟩
  · omega
  · exact absurd hnil hne

/-- Connections are only removed. -/
lemma Steps.length_requestTxs_le {a : Action} (h : Steps cfg s a t) :
    t.assembler.requestTxs.length ≤ s.assembler.requestTxs.length := by
  cases h with
  | send h => cases h <;> exact le_rfl
  | connection _ _ h =>
    rw [h.frame]
  | reassemble h =>
    cases h with
    | remove => exact List.length_eraseIdx_le _ _
    | complete => exact Nat.zero_le _
    | _ => exact le_rfl

/-- `send_requests` reports a missing connection only in a lookup. -/
lemma Steps.connectionMissing {a : Action} (h : Steps cfg s a t)
    (ht : t.sender = .ended (.error connectionMissing)) :
    s.sender = .ended (.error connectionMissing) ∨ a = .send ∧ s.LookupMisses cfg := by
  cases h with
  | send h =>
    cases h with
    | miss hmiss => exact .inr ⟨rfl, hmiss⟩
    | fail fault hne =>
      cases ht
      exact absurd rfl hne
    | _ => cases ht
  | reassemble h => cases h <;> exact .inl ht
  | connection _ _ h =>
    rw [h.frame] at ht
    exact .inl ht

/-- Once a missing connection is reported, no connection is left. -/
def NoneLeft (s : Pipeline) : Prop :=
  s.sender = .ended (.error connectionMissing) → s.assembler.requestTxs = []

lemma Registered.step_noneLeft (hs : Registered cfg s) (hnone : NoneLeft s) {a : Action}
    (hcount : a = .send → CountSuffices cfg s) (h : s.step cfg a = some t) : NoneLeft t := by
  intro ht
  have hsteps := steps_of_eq_some h
  have hnil : s.assembler.requestTxs = [] := by
    rcases hsteps.connectionMissing ht with hend | ⟨ha, m, position, hl, hlen⟩
    · exact hnone hend
    · by_contra hne
      have := hs.lookupHits_iff.mpr (hcount ha) m position hl hne
      omega
  have hlen := hsteps.length_requestTxs_le
  rw [hnil, List.length_nil, Nat.le_zero] at hlen
  exact List.eq_nil_of_length_eq_zero hlen

/-- Every lookup of a run hits a registered connection if and only if the count it relies on
suffices. When this is so in every lookup, `send_requests` does not report a missing connection
while one is left. -/
theorem lookups_hit_iff (cfg : Config) (σ : Store) {tr : List (Pipeline × Action)} {s : Pipeline}
    (hrun : Transition.Run (step cfg) (init cfg σ) tr s) :
    (∀ p ∈ tr, p.2 = .send → (LookupHits cfg p.1 ↔ CountSuffices cfg p.1)) ∧
      ((∀ p ∈ tr, p.2 = .send → CountSuffices cfg p.1) → s.assembler.requestTxs ≠ [] →
        s.sender ≠ .ended (.error connectionMissing)) := by
  refine ⟨fun p hp _ => ?_, fun hcount hne hend => ?_⟩
  · obtain ⟨tr₁, tr₂, -, h₁⟩ := hrun.of_mem hp
    exact (registered_run h₁).lookupHits_iff
  · have hinv : Registered cfg s ∧ NoneLeft s :=
      hrun.invariant (P := fun s a => a = .send → CountSuffices cfg s)
        (I := fun s => Registered cfg s ∧ NoneLeft s)
        (fun s a t hs hok h => ⟨hs.1.step h, hs.1.step_noneLeft hs.2 hok h⟩) hcount
        ⟨registered_init cfg σ, fun h => by cases h⟩
    exact hne (hinv.2 hend)

/-! ### Two connections -/

/-- The first connection refuses its request and is removed before the second piece is asked
for. -/
def refusedActions : List Action :=
  [.send, .send, .send, .connection 0 .take, .connection 0 .refuse, .reassemble, .reassemble,
    .reassemble]

theorem lookups_hit_pair :
    ∃ tr s, Transition.Run (step (unitConfig 2 2)) (init (unitConfig 2 2) ∅) tr s ∧
      (∀ p ∈ tr, p.2 = .send →
        (LookupHits (unitConfig 2 2) p.1 ↔ CountSuffices (unitConfig 2 2) p.1)) ∧
      s.assembler.requestTxs = [1] := by
  obtain ⟨s, hs, htxs⟩ : ∃ s, Transition.exec (step (unitConfig 2 2)) (init (unitConfig 2 2) ∅)
      refusedActions = some s ∧ s.assembler.requestTxs = [1] := ⟨_, rfl, rfl⟩
  obtain ⟨tr, hrun, -⟩ := Transition.run_of_exec hs
  exact ⟨tr, s, hrun, (lookups_hit_iff (unitConfig 2 2) ∅ hrun).1, htxs⟩

/-- The next lookup still relies on two connections: `send_requests` ends while one is left. -/
theorem lookup_misses_registered :
    ∃ tr s t, Transition.Run (step (unitConfig 2 2)) (init (unitConfig 2 2) ∅) tr s ∧
      s.assembler.requestTxs = [1] ∧ ¬ LookupHits (unitConfig 2 2) s ∧
      s.step (unitConfig 2 2) .send = some t ∧
      t.sender = .ended (.error connectionMissing) := by
  obtain ⟨s, t, hs, htxs, hl, ht, hend⟩ : ∃ s t,
      Transition.exec (step (unitConfig 2 2)) (init (unitConfig 2 2) ∅) refusedActions = some s ∧
        s.assembler.requestTxs = [1] ∧ s.lookup? (unitConfig 2 2) = some (2, 1) ∧
        s.step (unitConfig 2 2) .send = some t ∧ t.sender = .ended (.error connectionMissing) :=
    ⟨_, _, rfl, rfl, rfl, rfl, rfl⟩
  obtain ⟨tr, hrun, -⟩ := Transition.run_of_exec hs
  refine ⟨tr, s, t, hrun, htxs, fun hhits => ?_, ht, hend⟩
  have := hhits 2 1 hl (by simp [htxs])
  simp [htxs] at this

end BearTorrent.Pipeline
