import BearTorrent.Client.Pipeline.Steps
import BearTorrent.Lib.Erasure

/-!
# The registered connections

A request names the connection it is sent on by a position in `request_txs`, and the positions
shift when a connection is removed. The invariant says where every request that is still under way
was sent, in terms of the removals so far.
-/

namespace BearTorrent

open Erasure

/-- The request that is being sent, with its connection. -/
def SenderState.target : SenderState → Option (ConnId × Sent)
  | .sendingRequest _ _ c sent => some (c, sent)
  | .sendingResend _ c sent    => some (c, sent)
  | _                          => none

/-- The number of connections that the next lookup relies on. -/
def SenderState.count : SenderState → Option ℕ
  | .requesting m _         => some m
  | .sendingRequest m _ _ _ => some m
  | .resending m _ _        => some m
  | _                       => none

/-- The reply whose connection is to be removed. -/
def ReassembleState.handling : ReassembleState → Option Reply
  | .removing _ reply => some reply
  | _                 => none

/-- A connection has been removed and not yet counted down. -/
def ReassembleState.uncounted : ReassembleState → ℕ
  | .decrementing _ _ => 1
  | _                 => 0

/-- The requests that a connection still has to deal with. -/
def Connection.pending (conn : Connection) : List Sent := conn.hand.toList ++ conn.requests.queue

@[simp] lemma Connection.pending_closed : Connection.closed.pending = [] := rfl

lemma Connection.mem_pending_clear {conn : Connection} {sent : Sent}
    (h : sent ∈ Connection.pending { conn with hand := none }) : sent ∈ conn.pending :=
  List.mem_append_right _ (by simpa [Connection.pending] using h)

lemma Connection.hand_mem_pending {conn : Connection} {sent : Sent} (h : conn.hand = some sent) :
    sent ∈ conn.pending := by
  simp [Connection.pending, h]

namespace Pipeline

open Function

/-- The replies that `reassemble_loop` still has to deal with, as far as they may remove a
connection. -/
def pendingReplies (s : Pipeline) : List Reply :=
  s.reassembler.handling.toList ++ s.replies.queue

/-- The request was sent on connection `c`, and it or its answer is under way. -/
def InFlight (s : Pipeline) (c : ConnId) (sent : Sent) : Prop :=
  s.sender.target = some (c, sent) ∨ sent ∈ (s.conns c).pending ∨
    ∃ reply ∈ s.pendingReplies, reply.origin = c ∧ reply.request = some sent

/-- The connection that `sent` was sent on was at `sent.position` when the first `sent.removed`
connections had been removed, and the request says so. -/
structure Placed (k : ℕ) (removals : List ℕ) (c : ConnId) (sent : Sent) : Prop where
  removed_le : sent.removed ≤ removals.length
  position : (eraseAll (List.range k) (removals.take sent.removed))[sent.position]? = some c
  seeder : ∃ index begin length hash,
    sent.msg = .request (.ofNat sent.position) index begin length hash

/-- What the lists of connections and of removals have to do with each other. -/
structure Registered (cfg : Config) (s : Pipeline) : Prop where
  txs : s.assembler.requestTxs = eraseAll (List.range cfg.numConnections) s.removals ∧
      s.assembler.requestTxs.length + s.removals.length = cfg.numConnections ∨
    s.reassembler.resendDropped = true ∧ s.assembler.requestTxs = []
  count_le : s.assembler.numConnections ≤ cfg.numConnections
  le_count : cfg.numConnections + s.reassembler.uncounted
    ≤ s.assembler.numConnections + s.removals.length
  sender : ∀ m, s.sender.count = some m →
    m ≤ cfg.numConnections ∧ cfg.numConnections ≤ m + s.removals.length
  request : ∀ m i msg, s.sender = .resending m i msg →
    ∃ index begin length hash, msg = .request (newSeeder m i) index begin length hash
  placed : ∀ c sent, s.InFlight c sent → Placed cfg.numConnections s.removals c sent

variable {cfg : Config} {s t : Pipeline} {c : ConnId} {sent : Sent}

lemma Placed.append {k : ℕ} {rs : List ℕ} (h : Placed k rs c sent) (rs' : List ℕ) :
    Placed k (rs ++ rs') c sent where
  removed_le := by
    rw [List.length_append]
    exact Nat.le_add_right_of_le h.removed_le
  position := by
    rw [List.take_append_of_le_length h.removed_le]
    exact h.position
  seeder := h.seeder

/-- A request that is sent now. -/
lemma Placed.now {k : ℕ} {rs : List ℕ} {position : ℕ} {msg : Message}
    (hc : (eraseAll (List.range k) rs)[position]? = some c)
    (hmsg : ∃ index begin length hash, msg = .request (.ofNat position) index begin length hash) :
    Placed k rs c ⟨msg, position, rs.length⟩ where
  removed_le := le_rfl
  position := by
    rw [List.take_length]
    exact hc
  seeder := hmsg

lemma Placed.lt {k : ℕ} {rs : List ℕ} (h : Placed k rs c sent) : c < k :=
  List.mem_range.mp ((sublist_eraseAll _ _).subset (List.mem_of_getElem? h.position))

/-- Nothing is under way that was not so before. -/
lemma InFlight.mono (h : t.InFlight c sent)
    (htarget : ∀ p, t.sender.target = some p → s.sender.target = some p)
    (hconns : ∀ c, ∀ sent ∈ (t.conns c).pending, sent ∈ (s.conns c).pending)
    (hreplies : ∀ reply ∈ t.pendingReplies, reply ∈ s.pendingReplies) : s.InFlight c sent := by
  rcases h with h | h | ⟨reply, hmem, h⟩
  · exact .inl (htarget _ h)
  · exact .inr (.inl (hconns c sent h))
  · exact .inr (.inr ⟨reply, hreplies reply hmem, h⟩)

/-- Only connection `c` changes, and nothing new is pending there. -/
lemma pending_setConn {conn : Connection} (hconn : ∀ sent ∈ conn.pending,
    sent ∈ (s.conns c).pending) (c' : ConnId) :
    ∀ sent ∈ ((s.setConn c conn).conns c').pending, sent ∈ (s.conns c').pending := by
  intro sent h
  by_cases hc : c' = c
  · subst hc
    rw [setConn_conns, update_self] at h
    exact hconn sent h
  · rwa [setConn_conns, update_of_ne hc] at h

/-- The first request and the requests sent again name a position. -/
lemma initialRequest_eq_ok {m i : ℕ} {request : Message}
    (h : initialRequest cfg.env cfg.infoHash cfg.hash m i = .ok request) :
    m ≠ 0 ∧ ∃ begin, mulU32 cfg.env cfg.infoHash.pieceLength (.ofNat i) = .ok begin ∧
      request = .request (.ofNat (i % m)) (.ofNat i) begin cfg.infoHash.pieceLength cfg.hash := by
  unfold initialRequest at h
  split_ifs at h with hm
  obtain ⟨begin, hbegin, h⟩ := except_bind_eq_ok.mp h
  exact ⟨hm, begin, hbegin, (Except.ok.inj h).symm⟩

lemma resendRequest_eq_ok {seeder : UInt32} {msg request : Message}
    (h : resendRequest cfg.env cfg.infoHash cfg.hash seeder msg = .ok (some request)) :
    ∃ begin length, request = .request seeder msg.index begin length cfg.hash := by
  cases msg with
  | request => simp [resendRequest] at h
  | piece index piece =>
    obtain ⟨begin, -, h⟩ := except_bind_eq_ok.mp h
    exact ⟨begin, _, (Option.some.inj (Except.ok.inj h)).symm⟩
  | cancel seeder' index begin length =>
    exact ⟨begin, length, (Option.some.inj (Except.ok.inj h)).symm⟩

lemma registered_init (cfg : Config) (σ : Store) : Registered cfg (init cfg σ) where
  txs := .inl ⟨rfl, List.length_range⟩
  count_le := le_rfl
  le_count := le_rfl
  sender m h := by cases h
  request m i msg h := by cases h
  placed c sent h := by
    rcases h with h | h | ⟨reply, h, -⟩
    · cases h
    · simp [init, Connection.idle, Connection.pending] at h
    · simp [init, pendingReplies, ReassembleState.handling] at h

/-! ### The steps -/

/-- A step of `send_requests` that leaves the connections alone and sends nothing new. -/
lemma Registered.setSender (hs : Registered cfg s) {sender : SenderState}
    {resends : Channel Message resendCapacity} (htarget : sender.target = none)
    (hcount : ∀ m, sender.count = some m →
      m ≤ cfg.numConnections ∧ cfg.numConnections ≤ m + s.removals.length)
    (hrequest : ∀ m i msg, sender = .resending m i msg →
      ∃ index begin length hash, msg = .request (newSeeder m i) index begin length hash) :
    Registered cfg { s with sender, resends } where
  txs := hs.txs
  count_le := hs.count_le
  le_count := hs.le_count
  sender := hcount
  request := hrequest
  placed c sent h := by
    refine hs.placed c sent (h.mono ?_ (fun _ _ h => h) (fun _ h => h))
    simp [htarget]

/-- The read lock is taken for a registered connection. -/
lemma Registered.look (hs : Registered cfg s) {sender : SenderState} {position : ℕ}
    {msg : Message} (hc : s.assembler.requestTxs[position]? = some c)
    (htarget : sender.target = some (c, ⟨msg, position, s.removals.length⟩))
    (hcount : ∀ m, sender.count = some m → s.sender.count = some m)
    (hmsg : ∃ index begin length hash, msg = .request (.ofNat position) index begin length hash) :
    Registered cfg { s with sender } where
  txs := hs.txs
  count_le := hs.count_le
  le_count := hs.le_count
  sender m h := hs.sender m (hcount m h)
  request m i msg h := by
    rw [show sender = .resending m i msg from h] at htarget
    cases htarget
  placed c' sent h := by
    rcases h with h | h | h
    · obtain ⟨rfl, rfl⟩ : c = c' ∧ ⟨msg, position, s.removals.length⟩ = sent := by
        simpa [htarget] using h
      rcases hs.txs with ⟨htxs, -⟩ | ⟨-, htxs⟩
      · exact .now (htxs ▸ hc) hmsg
      · simp [htxs] at hc
    · exact hs.placed c' sent (.inr (.inl h))
    · exact hs.placed c' sent (.inr (.inr h))

/-- The request arrives in the channel of its connection. -/
lemma Registered.send (hs : Registered cfg s) {sender : SenderState}
    {requests : Channel Sent requestCapacity} (hold : s.sender.target = some (c, sent))
    (htarget : sender.target = none) (hcount : ∀ m, sender.count = some m → s.sender.count = some m)
    (hrequest : ∀ m i msg, sender ≠ .resending m i msg)
    (hq : requests.queue = (s.conns c).requests.queue ++ [sent]) :
    Registered cfg { s with conns := update s.conns c { s.conns c with requests }, sender } where
  txs := hs.txs
  count_le := hs.count_le
  le_count := hs.le_count
  sender m h := hs.sender m (hcount m h)
  request m i msg h := absurd h (hrequest m i msg)
  placed c' sent' h := by
    rcases h with h | h | h
    · simp [htarget] at h
    · by_cases hcc : c' = c
      · subst hcc
        simp only [update_self, Connection.pending, hq, ← List.append_assoc, List.mem_append,
          List.mem_singleton] at h
        rcases h with h | rfl
        · exact hs.placed c' sent' (.inr (.inl (List.mem_append.mpr h)))
        · exact hs.placed c' sent' (.inl hold)
      · simp only [update_of_ne hcc] at h
        exact hs.placed c' sent' (.inr (.inl h))
    · exact hs.placed c' sent' (.inr (.inr h))

lemma Registered.stepSender (hs : Registered cfg s) (h : SenderStep cfg s t) :
    Registered cfg t := by
  cases h with
  | start =>
    refine hs.setSender rfl (fun m hm => ?_) (by simp)
    obtain rfl := Option.some.inj hm
    exact ⟨hs.count_le, Nat.le_of_add_right_le hs.le_count⟩
  | miss => exact hs.setSender rfl (by simp [SenderState.count]) (by simp)
  | fail => exact hs.setSender rfl (by simp [SenderState.count]) (by simp)
  | look hst hi hreq hc =>
    obtain ⟨-, begin, -, rfl⟩ := initialRequest_eq_ok hreq
    exact hs.look hc rfl (by simp [hst, SenderState.count]) ⟨_, _, _, _, rfl⟩
  | send hst _ hq =>
    exact hs.send (by simp [hst, SenderState.target]) rfl (by simp [hst, SenderState.count])
      (by simp) hq
  | listen => exact hs.setSender rfl (by simp [SenderState.count]) (by simp)
  | recv => exact hs.setSender rfl (by simp [SenderState.count]) (by simp)
  | finish => exact hs.setSender rfl (by simp [SenderState.count]) (by simp)
  | skip => exact hs.setSender rfl (by simp [SenderState.count]) (by simp)
  | count hst hm hreq =>
    obtain ⟨begin, length, rfl⟩ := resendRequest_eq_ok hreq
    refine hs.setSender rfl (fun m hm => ?_) fun m i msg h => ?_
    · obtain rfl := Option.some.inj hm
      exact ⟨hs.count_le, Nat.le_of_add_right_le hs.le_count⟩
    · cases h
      exact ⟨_, _, _, _, rfl⟩
  | lookAgain hst hc =>
    obtain ⟨index, begin, length, hash, rfl⟩ := hs.request _ _ _ hst
    exact hs.look hc rfl (by simp [SenderState.count])
      ⟨index, begin, length, hash, by rw [UInt32.ofNat_toNat]⟩
  | sendAgain hst _ hq =>
    exact hs.send (by simp [hst, SenderState.target]) rfl (by simp [SenderState.count]) (by simp) hq

/-- A step of `reassemble_loop` that leaves the assembler alone. -/
lemma Registered.setReassembler (hs : Registered cfg s) {reassembler : ReassembleState}
    {store : Store} {replies : Channel Reply replyCapacity}
    {resends : Channel Message resendCapacity}
    (hdropped : s.reassembler.resendDropped = true → reassembler.resendDropped = true)
    (huncounted : reassembler.uncounted ≤ s.reassembler.uncounted)
    (hreplies : ∀ reply ∈ reassembler.handling.toList ++ replies.queue, reply ∈ s.pendingReplies) :
    Registered cfg { s with store, reassembler, replies, resends } where
  txs := hs.txs.imp_right fun h => ⟨hdropped h.1, h.2⟩
  count_le := hs.count_le
  le_count := (Nat.add_le_add_left huncounted _).trans hs.le_count
  sender := hs.sender
  request := hs.request
  placed c sent h := hs.placed c sent (h.mono (fun _ h => h) (fun _ _ h => h) hreplies)

lemma ReassembleState.afterPiece_handling (msg : Message) (result : Except Fault PieceResult) :
    (ReassembleState.afterPiece msg result).handling = none ∧
      (ReassembleState.afterPiece msg result).uncounted = 0 := by
  rcases result with fault | result
  · exact ⟨rfl, rfl⟩
  · cases result <;> exact ⟨rfl, rfl⟩

lemma Registered.stepReassembler (hs : Registered cfg s) (h : ReassemblerStep cfg s t) :
    Registered cfg t := by
  cases h with
  | @piece replies reply _ _ result _ hst hq hmsg hrun =>
    obtain ⟨hhandling, huncounted⟩ := ReassembleState.afterPiece_handling reply.msg result
    refine hs.setReassembler (by simp [hst, ReassembleState.resendDropped])
      (by simp [huncounted]) fun r hr => ?_
    rw [hhandling] at hr
    exact List.mem_append_right _ (by simpa [hq] using .inr hr)
  | cancel hst hq hmsg =>
    refine hs.setReassembler (by simp [hst, ReassembleState.resendDropped]) (Nat.zero_le _)
      fun r hr => List.mem_append_right _ ?_
    simpa [hq, ReassembleState.handling] using hr
  | wrong hst hq hmsg =>
    refine hs.setReassembler (fun _ => rfl) (Nat.zero_le _)
      fun r hr => List.mem_append_right _ ?_
    simpa [hq, ReassembleState.handling] using .inr hr
  | resendClosed =>
    exact hs.setReassembler (fun _ => rfl) (Nat.zero_le _) fun r hr => List.mem_append_right _ hr
  | resend hst =>
    exact hs.setReassembler (by simp [hst, ReassembleState.resendDropped]) (Nat.zero_le _)
      fun r hr => List.mem_append_right _ hr
  | removePanic =>
    exact hs.setReassembler (fun _ => rfl) (Nat.zero_le _) fun r hr => List.mem_append_right _ hr
  | @remove seeder reply badTx hst hlock hbad =>
    obtain ⟨htxs, hlen⟩ : s.assembler.requestTxs
          = eraseAll (List.range cfg.numConnections) s.removals ∧
        s.assembler.requestTxs.length + s.removals.length = cfg.numConnections := by
      rcases hs.txs with h | ⟨h, -⟩
      · exact h
      · simp [hst, ReassembleState.resendDropped] at h
    have hlt : seeder.toNat < s.assembler.requestTxs.length :=
      (List.getElem?_eq_some_iff.mp hbad).1
    have hle := hs.le_count
    refine ⟨.inl ⟨?_, ?_⟩, hs.count_le, ?_, fun m hm => ?_, hs.request, fun c sent h => ?_⟩
    · rw [eraseAll_append, ← htxs]
      rfl
    · simp only [List.length_append, List.length_singleton, List.length_eraseIdx_of_lt hlt]
      omega
    · simp only [ReassembleState.uncounted, List.length_append, List.length_singleton]
      omega
    · obtain ⟨hm₁, hm₂⟩ := hs.sender m hm
      exact ⟨hm₁, by rw [List.length_append]; omega⟩
    · refine (hs.placed c sent (h.mono (fun _ h => h) (fun _ _ h => h) fun r hr => ?_)).append _
      exact List.mem_append_right _ hr
  | decrementPanic =>
    exact hs.setReassembler (fun _ => rfl) (Nat.zero_le _) fun r hr => List.mem_append_right _ hr
  | @decrement badTx msg n hst hlock hn =>
    have hle := hs.le_count
    have hcount := hs.count_le
    simp only [hst, ReassembleState.uncounted] at hle
    have hpos : 1 ≤ s.assembler.numConnections := by
      rcases hs.txs with ⟨-, hlen⟩ | ⟨h, -⟩
      · omega
      · simp [hst, ReassembleState.resendDropped] at h
    rw [subUsize_of_le cfg.env hpos] at hn
    obtain rfl := Except.ok.inj hn
    refine ⟨hs.txs.imp_right fun h => ?_, ?_, ?_, hs.sender, hs.request, fun c sent h => ?_⟩
    · simp [hst, ReassembleState.resendDropped] at h
    · simp only; omega
    · simp only [ReassembleState.uncounted]; omega
    · exact hs.placed c sent (h.mono (fun _ h => h) (fun _ _ h => h) fun r hr =>
        List.mem_append_right _ hr)
  | retrieveFailed =>
    exact hs.setReassembler (fun _ => rfl) (Nat.zero_le _) fun r hr => List.mem_append_right _ hr
  | check hst =>
    exact hs.setReassembler (by simp [hst, ReassembleState.resendDropped]) (Nat.zero_le _)
      fun r hr => List.mem_append_right _ hr
  | complete hst =>
    exact ⟨.inr ⟨rfl, rfl⟩, hs.count_le, (Nat.add_le_add_left (Nat.zero_le _) _).trans hs.le_count,
      hs.sender, hs.request, fun c sent h => hs.placed c sent
        (h.mono (fun _ h => h) (fun _ _ h => h) fun r hr => List.mem_append_right _ hr)⟩
  | build hst =>
    exact hs.setReassembler (fun _ => rfl) (Nat.zero_le _) fun r hr => List.mem_append_right _ hr

/-- A connection to which no new request comes. -/
lemma Registered.setConn (hs : Registered cfg s) {conn : Connection}
    (hconn : ∀ sent ∈ conn.pending, sent ∈ (s.conns c).pending) :
    Registered cfg (s.setConn c conn) where
  txs := hs.txs
  count_le := hs.count_le
  le_count := hs.le_count
  sender := hs.sender
  request := hs.request
  placed c' sent h :=
    hs.placed c' sent (h.mono (fun _ h => h) (pending_setConn hconn) (fun _ h => h))

lemma Registered.clearHand (hs : Registered cfg s) (c : ConnId) :
    Registered cfg (s.clearHand c) :=
  hs.setConn fun _ => Connection.mem_pending_clear

/-- A reply to a request that was sent on the connection it comes from. -/
lemma Registered.deliver (hs : Registered cfg s) {reply : Reply} (hd : Delivered s reply t)
    (hreply : ∀ sent, reply.request = some sent →
      Placed cfg.numConnections s.removals reply.origin sent) : Registered cfg t := by
  cases hd with
  | dropped => exact hs
  | queued he hq =>
    refine ⟨hs.txs, hs.count_le, hs.le_count, hs.sender, hs.request, fun c sent h => ?_⟩
    rcases h with h | h | ⟨r, hr, hc, hrequest⟩
    · exact hs.placed c sent (.inl h)
    · exact hs.placed c sent (.inr (.inl h))
    · simp only [pendingReplies, hq, ← List.append_assoc, List.mem_append, List.mem_singleton] at hr
      rcases hr with hr | rfl
      · exact hs.placed c sent (.inr (.inr ⟨r, List.mem_append.mpr hr, hc, hrequest⟩))
      · exact hc ▸ hreply sent hrequest

lemma Registered.stepConnection (hs : Registered cfg s) {act : ConnectionAction}
    (h : ConnectionStep s c act t) : Registered cfg t := by
  have hand : ∀ sent, (s.conns c).hand = some sent →
      Placed cfg.numConnections s.removals c sent := fun sent hh =>
    hs.placed c sent (.inr (.inl (Connection.hand_mem_pending hh)))
  cases h with
  | take hh hq =>
    refine hs.setConn fun sent h => ?_
    simpa [Connection.pending, hh, hq] using h
  | close => exact hs.setConn (by simp)
  | answer hh hd =>
    refine (hs.clearHand c).deliver hd fun sent h => ?_
    obtain rfl := Option.some.inj h
    exact hand _ hh
  | refuse hh hmsg hd =>
    refine (hs.clearHand c).deliver hd fun sent h => ?_
    obtain rfl := Option.some.inj h
    exact hand _ hh
  | refuseClosed => exact hs.setConn (by simp)
  | refuseOther => exact hs.clearHand c
  | lose => exact hs.clearHand c
  | pass hd => exact hs.deliver hd (by simp)
  | drop => exact hs.setConn (by simp)

lemma Registered.step {a : Action} (hs : Registered cfg s) (h : s.step cfg a = some t) :
    Registered cfg t := by
  cases steps_of_eq_some h with
  | send h => exact hs.stepSender h
  | reassemble h => exact hs.stepReassembler h
  | connection _ _ h => exact hs.stepConnection h

/-- The registration is in order in every state that a run leaves or reaches. -/
theorem registered_run {σ : Store} {tr : List (Pipeline × Action)}
    (hrun : Transition.Run (Pipeline.step cfg) (init cfg σ) tr s) : Registered cfg s :=
  hrun.preserve (fun _ _ _ hs h => hs.step h) (registered_init cfg σ)

end Pipeline

end BearTorrent
