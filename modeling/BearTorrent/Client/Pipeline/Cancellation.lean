import BearTorrent.Client.Pipeline.Registration

/-!
# Removing the connection that failed

A `Cancel` carries the `seeder` field of its request, the position that the connection had when the
request was sent. Handling the `Cancel` removes that connection exactly when no connection at or
before that position has been removed in the meantime.
-/

namespace BearTorrent

open Erasure

/-- A reply that is a piece, or the `Cancel` of the request it answers. -/
def Reply.Own (reply : Reply) : Prop :=
  (∃ index piece, reply.msg = .piece index piece) ∨
    ∃ sent, reply.request = some sent ∧ sent.msg.toCancel = some reply.msg

/-- The position in `sent` still is the position of its connection: it fits into the field, and
since `sent` was sent only connections at later positions have been removed. -/
def Sent.Current (removals : List ℕ) (sent : Sent) : Prop :=
  sent.position < 2 ^ 32 ∧ ∀ r ∈ removals.drop sent.removed, sent.position < r

namespace Pipeline

variable {cfg : Config} {s t : Pipeline} {c : ConnId} {seeder : UInt32} {reply : Reply}

/-- A connection answers its request with a piece or with the `Cancel` of that request, and nothing
but pieces arrives that was not asked for. -/
def AnswersOwn (s : Pipeline) : Action → Prop
  | .connection c (.answer msg) =>
    (∃ index piece, msg = .piece index piece) ∨
      ∃ sent, (s.conns c).hand = some sent ∧ sent.msg.toCancel = some msg
  | .connection _ (.pass msg) => ∃ index piece, msg = .piece index piece
  | _ => True

/-- Every reply under way is one of a connection that answers its own requests. -/
structure OwnReplies (s : Pipeline) : Prop where
  own : ∀ reply ∈ s.pendingReplies, reply.Own
  removing : ∀ seeder reply, s.reassembler = .removing seeder reply →
    ∃ index begin length, reply.msg = .cancel seeder index begin length

/-- A step removes the connection `c` from the list and no other, and nothing when `c` is not in
the list. -/
def RemovesOnly (c : ConnId) (s t : Pipeline) : Prop :=
  t.assembler.requestTxs = s.assembler.requestTxs.erase c ∧
    t.reassembler ≠ .ended (.error .panic)

lemma ownReplies_init (cfg : Config) (σ : Store) : OwnReplies (init cfg σ) where
  own reply h := by simp [init, pendingReplies, ReassembleState.handling] at h
  removing seeder reply h := by cases h

/-- Nothing but a `Cancel` just received is added to what the loop handles. -/
lemma OwnReplies.setReassembler (hs : OwnReplies s) {reassembler : ReassembleState}
    {assembler : FileAssembler} {store : Store} {replies : Channel Reply replyCapacity}
    {resends : Channel Message resendCapacity} {removals : List ℕ}
    (hreplies : ∀ reply ∈ replies.queue, reply ∈ s.pendingReplies)
    (hhandling : reassembler.handling = none) :
    OwnReplies { s with assembler, store, reassembler, replies, resends, removals } where
  own reply h := hs.own reply (hreplies reply (by simpa [pendingReplies, hhandling] using h))
  removing seeder reply h := by
    rw [show reassembler = .removing seeder reply from h] at hhandling
    cases hhandling

lemma OwnReplies.stepReassembler (hs : OwnReplies s) (h : ReassemblerStep cfg s t) :
    OwnReplies t := by
  have hqueue : ∀ reply ∈ s.replies.queue, reply ∈ s.pendingReplies := fun reply hmem =>
    List.mem_append_right _ hmem
  have htail : ∀ {r : Reply} {q : List Reply}, s.replies.queue = r :: q →
      ∀ reply ∈ q, reply ∈ s.pendingReplies := fun hq reply hmem =>
    hqueue reply (hq ▸ List.mem_cons_of_mem _ hmem)
  cases h with
  | @piece _ reply _ _ result _ hst hq =>
    exact hs.setReassembler (htail hq) (ReassembleState.afterPiece_handling reply.msg result).1
  | cancel hst hq hmsg =>
    refine ⟨fun reply hmem => hs.own reply (hqueue reply ?_), fun seeder reply h => ?_⟩
    · simpa [pendingReplies, ReassembleState.handling, hq] using hmem
    · cases h
      exact ⟨_, _, _, hmsg⟩
  | wrong hst hq => exact hs.setReassembler (htail hq) rfl
  | _ => exact hs.setReassembler hqueue rfl

lemma OwnReplies.deliver (hs : OwnReplies s) (hd : Delivered s reply t) (hreply : reply.Own) :
    OwnReplies t := by
  cases hd with
  | dropped => exact hs
  | queued he hq =>
    refine ⟨fun r hr => ?_, hs.removing⟩
    simp only [pendingReplies, hq, ← List.append_assoc, List.mem_append, List.mem_singleton] at hr
    rcases hr with hr | rfl
    · exact hs.own r (List.mem_append.mpr hr)
    · exact hreply

lemma OwnReplies.step {a : Action} (hs : OwnReplies s) (ha : AnswersOwn s a)
    (h : s.step cfg a = some t) : OwnReplies t := by
  cases steps_of_eq_some h with
  | send h => cases h <;> exact ⟨hs.own, hs.removing⟩
  | reassemble h => exact hs.stepReassembler h
  | connection _ _ h =>
    cases h with
    | @answer msg sent t hh hd =>
      refine OwnReplies.deliver (s := s.clearHand _) ⟨hs.own, hs.removing⟩ hd ?_
      rcases ha with hpiece | ⟨sent', hh', hcancel⟩
      · exact .inl hpiece
      · obtain rfl : sent' = sent := Option.some.inj (hh'.symm.trans hh)
        exact .inr ⟨sent', rfl, hcancel⟩
    | @refuse sent cancel t hh hmsg hd =>
      exact OwnReplies.deliver (s := s.clearHand _) ⟨hs.own, hs.removing⟩ hd
        (.inr ⟨sent, rfl, hmsg⟩)
    | pass hd => exact hs.deliver hd (.inl ha)
    | _ => exact ⟨hs.own, hs.removing⟩

/-- The `seeder` field of a `Cancel` under way is the position its request was sent to. -/
lemma seeder_eq_position (hreg : Registered cfg s) (hown : OwnReplies s)
    (hs : s.reassembler = .removing seeder reply) :
    ∃ sent, reply.request = some sent ∧ Placed cfg.numConnections s.removals reply.origin sent ∧
      seeder = .ofNat sent.position := by
  have hmem : reply ∈ s.pendingReplies := by simp [pendingReplies, hs, ReassembleState.handling]
  obtain ⟨index, begin, length, hmsg⟩ := hown.removing seeder reply hs
  rcases hown.own reply hmem with ⟨_, _, hpiece⟩ | ⟨sent, hsent, hcancel⟩
  · rw [hmsg] at hpiece
    cases hpiece
  · have hplaced := hreg.placed reply.origin sent (.inr (.inr ⟨reply, hmem, rfl, hsent⟩))
    obtain ⟨index', begin', length', hash, hrequest⟩ := hplaced.seeder
    rw [hrequest, hmsg] at hcancel
    cases hcancel
    exact ⟨sent, hsent, hplaced, rfl⟩

/-- What handling the `Cancel` does to the list. -/
lemma removesOnly_iff (hreg : Registered cfg s) (hs : s.reassembler = .removing seeder reply)
    (h : s.step cfg .reassemble = some t) :
    RemovesOnly c s t ↔ s.assembler.requestTxs[seeder.toNat]? = some c := by
  have htxs : s.assembler.requestTxs.Nodup := by
    rcases hreg.txs with ⟨htxs, -⟩ | ⟨-, htxs⟩
    · exact htxs ▸ nodup_eraseAll List.nodup_range _
    · exact htxs ▸ List.nodup_nil
  rw [RemovesOnly]
  cases reassemblerStep_of_eq_some h with
  | removePanic hst _ hlen =>
    obtain ⟨rfl, rfl⟩ : seeder = _ ∧ reply = _ := by simpa [hs] using hst
    simp [List.getElem?_eq_none hlen]
  | remove hst _ hbad =>
    obtain ⟨rfl, rfl⟩ : seeder = _ ∧ reply = _ := by simpa [hs] using hst
    have hlt := (List.getElem?_eq_some_iff.mp hbad).1
    rw [← eraseIdx_eq_erase_iff htxs hlt]
    exact and_iff_left (by simp)
  | _ => simp [hs] at *

/-- Every connection answers its own requests. Then handling a `Cancel` removes the connection that
the cancelled request was sent on, and nothing else, if the position in the request is current; and
only then, unless there are more connections than the `seeder` field can number. -/
theorem cancel_removes_own (cfg : Config) (σ : Store) {tr : List (Pipeline × Action)}
    {s t : Pipeline} (hrun : Transition.Run (step cfg) (init cfg σ) tr s)
    (hanswers : ∀ p ∈ tr, AnswersOwn p.1 p.2) {seeder : UInt32} {reply : Reply}
    (hs : s.reassembler = .removing seeder reply) (h : s.step cfg .reassemble = some t) :
    ∃ sent, reply.request = some sent ∧
      (sent.Current s.removals → RemovesOnly reply.origin s t) ∧
      (cfg.numConnections ≤ 2 ^ 32 → RemovesOnly reply.origin s t → sent.Current s.removals) := by
  have hreg := registered_run hrun
  have hown : OwnReplies s := hrun.invariant (P := AnswersOwn)
    (fun s a t hs ha h => hs.step ha h) hanswers (ownReplies_init cfg σ)
  obtain ⟨sent, hsent, hplaced, rfl⟩ := seeder_eq_position hreg hown hs
  refine ⟨sent, hsent, ?_⟩
  rw [removesOnly_iff hreg hs h]
  -- the list now is the list when the request was sent, less the later removals
  have htxs : s.assembler.requestTxs = eraseAll
      (eraseAll (List.range cfg.numConnections) (s.removals.take sent.removed))
      (s.removals.drop sent.removed) := by
    rw [← eraseAll_append, List.take_append_drop]
    rcases hreg.txs with ⟨htxs, -⟩ | ⟨hd, -⟩
    · exact htxs
    · simp [hs, ReassembleState.resendDropped] at hd
  have hstays : s.assembler.requestTxs[sent.position]? = some reply.origin
      ↔ ∀ r ∈ s.removals.drop sent.removed, sent.position < r := by
    rw [htxs]
    exact getElem?_eraseAll_iff (nodup_eraseAll List.nodup_range _) hplaced.position
  have htoNat : sent.position < 2 ^ 32 → (UInt32.ofNat sent.position).toNat = sent.position :=
    fun hlt => UInt32.toNat_ofNat_of_lt' hlt
  constructor
  · rintro ⟨hlt, hlater⟩
    rw [htoNat hlt]
    exact hstays.mpr hlater
  · intro hk hcurrent
    have hposition : sent.position < cfg.numConnections := by
      have hlt := (List.getElem?_eq_some_iff.mp hplaced.position).1
      have hle := (sublist_eraseAll (List.range cfg.numConnections)
        (s.removals.take sent.removed)).length_le
      rw [List.length_range] at hle
      omega
    have hlt : sent.position < 2 ^ 32 := by omega
    rw [htoNat hlt] at hcurrent
    exact ⟨hlt, hstays.mp hcurrent⟩

/-! ### Three connections -/

/-- Three pieces are asked for, and the first two connections refuse. -/
def refusedTwice : List Action :=
  [.send, .send, .send, .send, .send, .send, .send, .connection 0 .take, .connection 0 .refuse,
    .connection 1 .take, .connection 1 .refuse, .reassemble]

/-- The first connection is removed and its request sent again. -/
def removedOnce : List Action :=
  [.reassemble, .reassemble, .reassemble, .reassemble]

lemma answersOwn_of_mem {tr : List (Pipeline × Action)} {as : List Action}
    (htr : tr.map Prod.snd = as)
    (has : ∀ a ∈ as, a = .send ∨ a = .reassemble ∨
      ∃ c, a = .connection c .take ∨ a = .connection c .refuse) :
    ∀ p ∈ tr, AnswersOwn p.1 p.2 := by
  rintro ⟨s, a⟩ hp
  rcases has a (htr ▸ List.mem_map_of_mem hp) with rfl | rfl | ⟨c, rfl | rfl⟩ <;> trivial

theorem cancel_removes_own_first :
    ∃ tr s t reply, Transition.Run (step (unitConfig 3 3)) (init (unitConfig 3 3) ∅) tr s ∧
      s.reassembler = .removing 0 reply ∧ reply.origin = 0 ∧
      s.step (unitConfig 3 3) .reassemble = some t ∧ RemovesOnly 0 s t := by
  obtain ⟨s, t, reply, hs, hst, horigin, hreply, hremovals, ht⟩ : ∃ s t reply,
      Transition.exec (step (unitConfig 3 3)) (init (unitConfig 3 3) ∅) refusedTwice = some s ∧
        s.reassembler = .removing 0 reply ∧ reply.origin = 0 ∧
        reply.request.map Sent.position = some 0 ∧ s.removals = [] ∧
        s.step (unitConfig 3 3) .reassemble = some t :=
    ⟨_, _, _, rfl, rfl, rfl, rfl, rfl, rfl⟩
  obtain ⟨tr, hrun, htr⟩ := Transition.run_of_exec hs
  obtain ⟨sent, hsent, hremoves, -⟩ := cancel_removes_own (unitConfig 3 3) ∅ hrun
    (answersOwn_of_mem htr (by simp [refusedTwice])) hst ht
  rw [hsent] at hreply
  refine ⟨tr, s, t, reply, hrun, hst, horigin, ht, horigin ▸ hremoves ⟨?_, by simp [hremovals]⟩⟩
  rw [Option.some.inj hreply]
  decide

/-- The second `Cancel` still names position 1, where now the third connection is. -/
theorem cancel_removes_another :
    ∃ tr s t reply, Transition.Run (step (unitConfig 3 3)) (init (unitConfig 3 3) ∅) tr s ∧
      (∀ p ∈ tr, AnswersOwn p.1 p.2) ∧ s.reassembler = .removing 1 reply ∧ reply.origin = 1 ∧
      s.step (unitConfig 3 3) .reassemble = some t ∧ ¬ RemovesOnly 1 s t ∧
      s.assembler.requestTxs = [1, 2] ∧ t.assembler.requestTxs = [1] := by
  obtain ⟨s, t, reply, hs, hst, horigin, ht, htxs, htxs'⟩ : ∃ s t reply,
      Transition.exec (step (unitConfig 3 3)) (init (unitConfig 3 3) ∅)
          (refusedTwice ++ removedOnce ++ [.reassemble]) = some s ∧
        s.reassembler = .removing 1 reply ∧ reply.origin = 1 ∧
        s.step (unitConfig 3 3) .reassemble = some t ∧ s.assembler.requestTxs = [1, 2] ∧
        t.assembler.requestTxs = [1] :=
    ⟨_, _, _, rfl, rfl, rfl, rfl, rfl, rfl⟩
  obtain ⟨tr, hrun, htr⟩ := Transition.run_of_exec hs
  refine ⟨tr, s, t, reply, hrun, answersOwn_of_mem htr (by simp [refusedTwice, removedOnce]), hst,
    horigin, ht, fun hremoves => ?_, htxs, htxs'⟩
  have herase := hremoves.1
  rw [htxs, htxs'] at herase
  exact absurd herase (by decide)

end Pipeline

end BearTorrent
