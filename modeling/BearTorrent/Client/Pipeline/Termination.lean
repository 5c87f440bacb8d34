import BearTorrent.Client.Pipeline.Outstanding
import BearTorrent.Lib.SumUpdate

/-!
# Every download ends

The work that is left in the pipeline goes down with every step, except where a connection hands in
something else than a piece that passes. So the tasks cannot turn in circles by themselves: a run
is as long as what the connections feed it.
-/

namespace BearTorrent

open Function

instance (env : Env) (h : InfoHash) (index : UInt32) (piece : Bytes) :
    Decidable (Accepted env h index piece) :=
  inferInstanceAs (Decidable (_ → _))

/-- The work that a message brings to `reassemble_loop`: a piece that is not accepted comes back as
a request, and a `Cancel` has a connection removed before. -/
def Message.work (cfg : Config) : Message → ℕ
  | .piece index payload => if Accepted cfg.env cfg.infoHash index payload then 1 else 9
  | .cancel _ _ _ _      => 12
  | .request _ _ _ _ _   => 1

/-- The work of `send_requests` for `n` pieces, with that of the requests it still has to send. -/
def SenderState.work (n : ℕ) : SenderState → ℕ
  | .starting               => 5 * n + 3
  | .requesting _ i         => 5 * (n - i) + 2
  | .sendingRequest _ i _ _ => 5 * (n - (i + 1)) + 6
  | .waiting _              => 1
  | .counting _ _           => 7
  | .resending _ _ _        => 6
  | .sendingResend _ _ _    => 5
  | .ended _                => 0

/-- The work of `reassemble_loop`, with that of the message it holds. -/
def ReassembleState.work : ReassembleState → ℕ
  | .receiving        => 3
  | .resending _      => 11
  | .removing _ _     => 14
  | .decrementing _ _ => 13
  | .checking _       => 12
  | .completing       => 2
  | .building         => 1
  | .ended _          => 0

/-- The work of a connection task. -/
def Connection.work (conn : Connection) : ℕ :=
  3 * conn.requests.queue.length + 2 * conn.hand.toList.length + conn.running.toNat

namespace Pipeline

variable {cfg : Config} {s t : Pipeline} {c : ConnId}

/-- The work that is left in the pipeline. -/
def work (cfg : Config) (s : Pipeline) : ℕ :=
  s.sender.work cfg.infoHash.pieces.length + s.reassembler.work
    + (s.replies.queue.map fun reply => reply.msg.work cfg).sum + 7 * s.resends.queue.length
    + ∑ c ∈ Finset.range cfg.numConnections, (s.conns c).work

/-- The work that a connection brings in by a step, beyond that of a piece that is accepted. -/
def brought (cfg : Config) : Pipeline × Action → ℕ
  | (_, .connection _ (.answer msg)) => msg.work cfg - 1
  | (_, .connection _ .refuse)       => 11
  | (_, .connection _ (.pass msg))   => msg.work cfg + 1
  | _                                => 0

lemma one_le_work (cfg : Config) (msg : Message) : 1 ≤ msg.work cfg := by
  cases msg with
  | piece index piece =>
    rw [Message.work]
    split_ifs <;> decide
  | cancel => exact Nat.succ_le_succ (Nat.zero_le _)
  | request => exact le_rfl

lemma work_toCancel {msg cancel : Message} (h : msg.toCancel = some cancel) :
    cancel.work cfg = 12 := by
  obtain ⟨_, _, _, _, rfl⟩ := toCancel_isCancel h
  rfl

/-- A payload that is found corrupted was not accepted. -/
lemma not_accepted_of_corrupted {env : Env} {h : InfoHash} {index : UInt32} {piece : Bytes}
    {σ σ' : Store} (hrun : runOn (receivePiece env h index piece) σ = (.ok .corrupted, σ')) :
    ¬ Accepted env h index piece := by
  intro hacc
  rw [runOn_receivePiece_of_accepted env hacc, runOn_bind] at hrun
  split at hrun
  · rw [runOn_bind_ok (runOn_isFileComplete h _)] at hrun
    split_ifs at hrun <;> cases hrun
  · cases hrun

/-- Replacing one connection replaces its work. -/
lemma sum_work_update {k : ℕ} (hc : c ∈ Finset.range k) (conns : ConnId → Connection)
    (conn : Connection) :
    ∑ c' ∈ Finset.range k, (update conns c conn c').work + (conns c).work
      = ∑ c' ∈ Finset.range k, (conns c').work + conn.work :=
  Finset.sum_update_add hc Connection.work conns conn

/-- A request in a channel is work for its connection. -/
lemma sum_work_push_le (k : ℕ) {sent : Sent} {requests : Channel Sent requestCapacity}
    (hq : requests.queue = (s.conns c).requests.queue ++ [sent]) :
    ∑ c' ∈ Finset.range k,
        (update s.conns c ⟨requests, (s.conns c).hand, (s.conns c).running⟩ c').work
      ≤ ∑ c' ∈ Finset.range k, (s.conns c').work + 3 := by
  by_cases hc : c ∈ Finset.range k
  · have hsum := sum_work_update hc s.conns ⟨requests, (s.conns c).hand, (s.conns c).running⟩
    have hpush : Connection.work ⟨requests, (s.conns c).hand, (s.conns c).running⟩
        = (s.conns c).work + 3 := by
      simp only [Connection.work, hq, List.length_append, List.length_singleton]
      omega
    omega
  · rw [Finset.sum_update_of_not_mem hc Connection.work]
    exact Nat.le_add_right _ _

/-! ### The steps -/

lemma SenderStep.work_lt (h : SenderStep cfg s t) : 1 + work cfg t ≤ work cfg s := by
  have hend : ∀ fault, s.SendFails cfg →
      1 + work cfg { s with sender := .ended (.error fault) } ≤ work cfg s := by
    intro fault hfails
    have hpos : 1 ≤ s.sender.work cfg.infoHash.pieces.length := by
      have hne := hfails.outstanding_ne_zero
      cases hst : s.sender with
      | ended => simp [hst, SenderState.outstanding] at hne
      | _ => simp [SenderState.work]
    have hzero : (SenderState.ended (.error fault)).work cfg.infoHash.pieces.length = 0 := rfl
    simp only [work, hzero]
    omega
  cases h with
  | miss hmiss => exact hend _ (.inl hmiss)
  | fail fault hne hf => exact hend fault hf
  | start hst =>
    simp only [work, hst, SenderState.work]
    omega
  | look hst hi =>
    simp only [work, hst, SenderState.work]
    omega
  | send hst hrun hq =>
    have hpush := sum_work_push_le cfg.numConnections hq
    simp only [work, hst, SenderState.work]
    omega
  | listen hst hi =>
    simp only [work, hst, SenderState.work]
    omega
  | recv hst hq =>
    simp only [work, hst, SenderState.work, hq, List.length_cons]
    omega
  | finish hst hd =>
    simp only [work, hst, SenderState.work]
    omega
  | skip hst =>
    simp only [work, hst, SenderState.work]
    omega
  | count hst =>
    simp only [work, hst, SenderState.work]
    omega
  | lookAgain hst =>
    simp only [work, hst, SenderState.work]
    omega
  | sendAgain hst hrun hq =>
    have hpush := sum_work_push_le cfg.numConnections hq
    simp only [work, hst, SenderState.work]
    omega

/-- What a received piece leaves to do. -/
lemma work_afterPiece {index : UInt32} {piece : Bytes} {result : Except Fault PieceResult}
    {σ σ' : Store} (hrun : runOn (receivePiece cfg.env cfg.infoHash index piece) σ = (result, σ')) :
    (ReassembleState.afterPiece (.piece index piece) result).work
      ≤ 2 + (Message.piece index piece).work cfg := by
  have hpos := one_le_work cfg (.piece index piece)
  rcases result with fault | result
  · exact Nat.zero_le _
  · cases result with
    | corrupted =>
      rw [Message.work, if_neg (not_accepted_of_corrupted hrun)]
      rfl
    | written => exact Nat.add_le_add_left hpos 2
    | complete => exact Nat.le_add_right 2 _

lemma ReassemblerStep.work_lt (h : ReassemblerStep cfg s t) : 1 + work cfg t ≤ work cfg s := by
  cases h with
  | piece hst hq hmsg hrun =>
    have hafter := work_afterPiece hrun
    have hbefore : ReassembleState.receiving.work = 3 := rfl
    simp only [work, hst, hq, hmsg, hbefore, List.map_cons, List.sum_cons]
    omega
  | cancel hst hq hmsg =>
    simp only [work, hst, hq, hmsg, ReassembleState.work, Message.work, List.map_cons,
      List.sum_cons]
    omega
  | @wrong _ reply _ _ _ _ _ hst hq hmsg =>
    simp only [work, hst, hq, ReassembleState.work, List.map_cons, List.sum_cons]
    omega
  | resendClosed hst =>
    simp only [work, hst, ReassembleState.work]
    omega
  | resend hst he hq =>
    simp only [work, hst, hq, ReassembleState.work, List.length_append, List.length_singleton]
    omega
  | removePanic hst =>
    simp only [work, hst, ReassembleState.work]
    omega
  | remove hst =>
    simp only [work, hst, ReassembleState.work]
    omega
  | decrementPanic hst =>
    simp only [work, hst, ReassembleState.work]
    omega
  | decrement hst =>
    simp only [work, hst, ReassembleState.work]
    omega
  | retrieveFailed hst =>
    simp only [work, hst, ReassembleState.work]
    omega
  | check hst =>
    simp only [work, hst, ReassembleState.work]
    omega
  | complete hst =>
    simp only [work, hst, ReassembleState.work]
    omega
  | build hst =>
    simp only [work, hst, ReassembleState.work]
    omega

/-- A connection hands a message over, or drops it. -/
lemma Delivered.work_le (cfg : Config) {msg : Message} {request : Option Sent}
    (hd : Delivered s ⟨msg, c, request⟩ t) : work cfg t ≤ work cfg s + msg.work cfg := by
  cases hd with
  | dropped he => exact Nat.le_add_right _ _
  | queued he hq =>
    simp only [work, hq, List.map_append, List.map_cons, List.map_nil, List.sum_append,
      List.sum_cons, List.sum_nil]
    omega

/-- The work of the other connections stays. -/
lemma work_setConn (hc : c < cfg.numConnections) (conn : Connection) :
    work cfg (s.setConn c conn) + (s.conns c).work = work cfg s + conn.work := by
  have hsum := sum_work_update (Finset.mem_range.mpr hc) s.conns conn
  simp only [work, setConn]
  omega

lemma work_clearHand (hc : c < cfg.numConnections) {sent : Sent}
    (hh : (s.conns c).hand = some sent) : work cfg (s.clearHand c) + 2 = work cfg s := by
  have hset := work_setConn (s := s) hc ⟨(s.conns c).requests, none, (s.conns c).running⟩
  simp only [Connection.work, hh, Option.toList_some, Option.toList_none, List.length_singleton,
    List.length_nil] at hset
  simp only [clearHand]
  omega

/-- A task that ends leaves no work behind. -/
lemma work_close (hc : c < cfg.numConnections) (hrun : (s.conns c).running = true) :
    1 + work cfg (s.setConn c .closed) ≤ work cfg s := by
  have hset := work_setConn (s := s) hc .closed
  have hpos : 1 ≤ (s.conns c).work := by
    rw [Connection.work, hrun]
    exact Nat.le_add_left 1 _
  have hzero : Connection.closed.work = 0 := rfl
  omega

lemma ConnectionStep.work_lt {act : ConnectionAction} (hc : c < cfg.numConnections)
    (hrun : (s.conns c).running = true) (h : ConnectionStep s c act t) :
    1 + work cfg t ≤ brought cfg (s, .connection c act) + work cfg s := by
  have hclose := (work_close hc hrun).trans
    (Nat.le_add_left _ (brought cfg (s, .connection c act)))
  cases h with
  | @take sent requests hh hq =>
    have hset := work_setConn (s := s) hc ⟨requests, some sent, (s.conns c).running⟩
    simp only [Connection.work, hh, hq, Option.toList_some, Option.toList_none, List.length_cons,
      List.length_nil] at hset
    simp only [brought]
    omega
  | close => exact hclose
  | @answer msg sent _ hh hd =>
    have hclear := work_clearHand hc hh
    have hwork := hd.work_le cfg
    have hpos := one_le_work cfg msg
    simp only [brought]
    omega
  | refuse hh hmsg hd =>
    have hclear := work_clearHand hc hh
    have hwork := hd.work_le cfg
    rw [work_toCancel hmsg] at hwork
    simp only [brought]
    omega
  | refuseClosed => exact hclose
  | refuseOther hh =>
    have hclear := work_clearHand hc hh
    omega
  | lose hh =>
    have hclear := work_clearHand hc hh
    omega
  | pass hd =>
    have hwork := hd.work_le cfg
    simp only [brought]
    omega
  | drop => exact hclose

lemma work_init (cfg : Config) (σ : Store) :
    work cfg (init cfg σ) = 5 * cfg.infoHash.pieces.length + cfg.numConnections + 6 := by
  simp [work, init, SenderState.work, ReassembleState.work, Connection.work, Connection.idle]
  omega

/-- A download takes at most five steps for each piece, one for each connection and six more, and
what its connections hand in besides the pieces it accepts. -/
theorem length_run_le (cfg : Config) (σ : Store) {tr : List (Pipeline × Action)} {s : Pipeline}
    (hrun : Transition.Run (Pipeline.step cfg) (init cfg σ) tr s) :
    tr.length + work cfg s
      ≤ (tr.map (brought cfg)).sum + (5 * cfg.infoHash.pieces.length + cfg.numConnections + 6) := by
  rw [← work_init cfg σ]
  refine hrun.length_le (P := fun _ _ => True) (I := fun _ => True)
    (fun s a t _ _ ha => ⟨trivial, ?_⟩) (fun _ _ => trivial) trivial
  cases steps_of_eq_some ha with
  | send h => exact h.work_lt.trans (Nat.le_add_left _ _)
  | reassemble h => exact h.work_lt.trans (Nat.le_add_left _ _)
  | connection hc hrun h => exact h.work_lt hc hrun

/-- The only connection refuses the only request, and the download fails. -/
def singleRefusal : List Action :=
  [.send, .send, .send, .connection 0 .take, .connection 0 .refuse, .reassemble, .reassemble,
    .reassemble, .reassemble]

theorem length_run_le_refused :
    ∃ tr s, Transition.Run (step (unitConfig 1 1)) (init (unitConfig 1 1) ∅) tr s ∧
      s.reassembler = .ended (.error failedToRetrieve) ∧
      tr.length + work (unitConfig 1 1) s ≤ (tr.map (brought (unitConfig 1 1))).sum + 12 := by
  obtain ⟨s, hexec, hfail⟩ : ∃ s, Transition.exec (step (unitConfig 1 1))
      (init (unitConfig 1 1) ∅) singleRefusal = some s ∧
      s.reassembler = .ended (.error failedToRetrieve) := ⟨_, rfl, rfl⟩
  obtain ⟨tr, hrun, -⟩ := Transition.run_of_exec hexec
  exact ⟨tr, s, hrun, hfail, length_run_le (unitConfig 1 1) ∅ hrun⟩

end Pipeline

end BearTorrent
