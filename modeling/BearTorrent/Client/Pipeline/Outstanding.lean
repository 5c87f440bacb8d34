import BearTorrent.Client.Pipeline.Registration
import BearTorrent.Client.Reassembly
import Mathlib.Algebra.BigOperators.Group.Finset.Basic
import Mathlib.Algebra.Order.Group.Multiset
import Mathlib.Tactic.Abel

/-!
# The outstanding pieces

Every piece that is still to be had is in one place of the pipeline: `send_requests` has not asked
for it yet, or one request or one reply for it is under way. A step moves pieces, and takes a piece
out only when it hands one to the disk or loses it.
-/

namespace BearTorrent

/-- The piece that a message is about, as a number. -/
def Message.pieceIndex (msg : Message) : ℕ := msg.index.toNat

/-- The pieces that `send_requests` has not asked for, or holds a message about. -/
def SenderState.outstanding (n : ℕ) : SenderState → Multiset ℕ
  | .starting                  => List.range' 0 n
  | .requesting _ i            => List.range' i (n - i)
  | .sendingRequest _ i _ sent => {sent.msg.pieceIndex} + (List.range' (i + 1) (n - (i + 1)) : List ℕ)
  | .waiting _                 => 0
  | .counting _ msg            => {msg.pieceIndex}
  | .resending _ _ request     => {request.pieceIndex}
  | .sendingResend _ _ sent    => {sent.msg.pieceIndex}
  | .ended _                   => 0

/-- The message that `reassemble_loop` holds. -/
def ReassembleState.held : ReassembleState → Option Message
  | .resending msg      => some msg
  | .removing _ reply   => some reply.msg
  | .decrementing _ msg => some msg
  | .checking msg       => some msg
  | _                   => none

/-- The piece that `reassemble_loop` holds a message about. -/
def ReassembleState.outstanding (state : ReassembleState) : Multiset ℕ :=
  (state.held.toList.map Message.pieceIndex : List ℕ)

/-- What is asked for again: not a request. -/
def Message.IsFailure : Message → Prop
  | .request _ _ _ _ _ => False
  | _                  => True

/-- The pieces that a connection has requests for. -/
def Connection.outstanding (conn : Connection) : Multiset ℕ :=
  (conn.pending.map fun sent => sent.msg.pieceIndex : List ℕ)

namespace Pipeline

open Function

/-- The pieces in the reply channel. -/
def outstandingReplies (replies : Channel Reply replyCapacity) : Multiset ℕ :=
  (replies.queue.map fun reply => reply.msg.pieceIndex : List ℕ)

/-- The pieces in the resend channel. -/
def outstandingResends (resends : Channel Message resendCapacity) : Multiset ℕ :=
  (resends.queue.map Message.pieceIndex : List ℕ)

/-- The pieces that are still to be had. -/
def outstanding (cfg : Config) (s : Pipeline) : Multiset ℕ :=
  s.sender.outstanding cfg.infoHash.pieces.length + s.reassembler.outstanding
    + outstandingReplies s.replies + outstandingResends s.resends
    + ∑ c ∈ Finset.range cfg.numConnections, (s.conns c).outstanding

/-- Connections answer each request with a payload for the piece that passes or with full-length
garbage, or with the `Cancel` of the request; no message arrives that was not asked for. -/
def Answers (cfg : Config) (s : Pipeline) : Action → Prop
  | .connection c (.answer msg) =>
    ∃ sent piece, (s.conns c).hand = some sent ∧ msg = .piece sent.msg.index piece ∧
      (Accepted cfg.env cfg.infoHash sent.msg.index piece ∨
        Corrupted cfg.env cfg.infoHash sent.msg.index piece)
  | .connection _ (.pass _) => False
  | _ => True

/-- A reply of such a connection. -/
def GoodReply (cfg : Config) (reply : Reply) : Prop :=
  (∃ index piece, reply.msg = .piece index piece ∧
    (Accepted cfg.env cfg.infoHash index piece ∨ Corrupted cfg.env cfg.infoHash index piece)) ∨
    ∃ seeder index begin length, reply.msg = .cancel seeder index begin length

/-- The messages under way are those of such connections. -/
structure Answered (cfg : Config) (s : Pipeline) : Prop where
  replies : ∀ reply ∈ s.replies.queue, GoodReply cfg reply
  held : ∀ msg, s.reassembler.held = some msg → msg.IsFailure
  resends : ∀ msg ∈ s.resends.queue, msg.IsFailure
  counting : ∀ i msg, s.sender = .counting i msg → msg.IsFailure

/-- The next step of `reassemble_loop` gives the piece up that its message is about. -/
def ReassembleFails (cfg : Config) (s : Pipeline) : Prop :=
  match s.reassembler with
  | .receiving =>
    ∃ reply ∈ s.replies.queue.head?, ∃ index piece fault, reply.msg = .piece index piece ∧
      Accepted cfg.env cfg.infoHash index piece ∧
      mulU32 cfg.env index cfg.infoHash.pieceLength = .error fault
  | .resending _       => s.sender.hasEnded = true
  | .removing seeder _ => s.assembler.requestTxs.length ≤ seeder.toNat
  | .checking _        => s.assembler.numConnections = 0
  | _                  => False

/-- The step loses a piece: a task gives up the message it holds, or a connection ends or goes on
without having dealt with its requests. -/
def Loses (cfg : Config) (s : Pipeline) : Action → Prop
  | .send => s.SendFails cfg
  | .reassemble => s.ReassembleFails cfg
  | .connection _ (.answer _) => s.reassembler.hasEnded = true
  | .connection _ .refuse => s.reassembler.hasEnded = true
  | .connection _ .lose => True
  | .connection c .drop => (s.conns c).pending ≠ []
  | .connection _ _ => False

variable {cfg : Config} {s t : Pipeline} {c : ConnId} {gone : Multiset ℕ}

/-! ### The messages under way -/

lemma answered_init (cfg : Config) (σ : Store) : Answered cfg (init cfg σ) where
  replies reply h := by simp [init] at h
  held msg h := by cases h
  resends msg h := by simp [init] at h
  counting i msg h := by cases h

lemma Answered.deliver (hs : Answered cfg s) {reply : Reply} (hd : Delivered s reply t)
    (hreply : GoodReply cfg reply) : Answered cfg t := by
  cases hd with
  | dropped => exact hs
  | queued he hq =>
    refine ⟨fun r hr => ?_, hs.held, hs.resends, hs.counting⟩
    rcases List.mem_append.mp (hq ▸ hr) with hr | hr
    · exact hs.replies r hr
    · exact List.mem_singleton.mp hr ▸ hreply

lemma Answered.stepSender (hs : Answered cfg s) (h : SenderStep cfg s t) : Answered cfg t := by
  cases h with
  | @recv i msg resends hst hq =>
    refine ⟨hs.replies, hs.held, fun m hm => hs.resends m ?_, fun j m h => ?_⟩
    · exact hq ▸ List.mem_cons_of_mem _ hm
    · obtain ⟨rfl, rfl⟩ : i = j ∧ msg = m := by simpa using h
      exact hs.resends msg (hq ▸ List.mem_cons_self)
  | _ => exact ⟨hs.replies, hs.held, hs.resends, fun i msg h => by cases h⟩

/-- What is held after a step was held before, and no reply is new. -/
lemma Answered.setReassembler (hs : Answered cfg s) {reassembler : ReassembleState}
    {assembler : FileAssembler} {store : Store} {replies : Channel Reply replyCapacity}
    {removals : List ℕ} (hreplies : ∀ reply ∈ replies.queue, reply ∈ s.replies.queue)
    (hheld : ∀ msg, reassembler.held = some msg → msg.IsFailure) :
    Answered cfg { s with assembler, store, reassembler, replies, removals } :=
  ⟨fun reply h => hs.replies reply (hreplies reply h), hheld, hs.resends, hs.counting⟩

lemma Answered.stepReassembler (hs : Answered cfg s) (h : ReassemblerStep cfg s t) :
    Answered cfg t := by
  have htail : ∀ {r : Reply} {q : List Reply}, s.replies.queue = r :: q →
      ∀ reply ∈ q, reply ∈ s.replies.queue := fun hq reply hmem =>
    hq ▸ List.mem_cons_of_mem _ hmem
  have hsame : ∀ reply ∈ s.replies.queue, reply ∈ s.replies.queue := fun _ h => h
  cases h with
  | @piece _ reply _ _ result _ hst hq hmsg =>
    refine hs.setReassembler (htail hq) fun msg hheld => ?_
    rcases result with fault | result
    · cases hheld
    · cases result with
      | corrupted =>
        obtain rfl : reply.msg = msg := Option.some.inj hheld
        rw [hmsg]
        trivial
      | written => cases hheld
      | complete => cases hheld
  | @cancel _ reply _ _ _ _ hst hq hmsg =>
    refine hs.setReassembler (htail hq) fun msg hheld => ?_
    obtain rfl : reply.msg = msg := Option.some.inj hheld
    rw [hmsg]
    trivial
  | wrong hst hq => exact hs.setReassembler (htail hq) fun _ h => by cases h
  | @resend msg resends hst he hq =>
    refine ⟨hs.replies, fun _ h => (by cases h), fun m hm => ?_, hs.counting⟩
    rcases List.mem_append.mp (hq ▸ hm) with hm | hm
    · exact hs.resends m hm
    · exact List.mem_singleton.mp hm ▸ hs.held msg (by simp [hst, ReassembleState.held])
  | remove hst => exact hs.setReassembler hsame fun m h => hs.held m (by rw [hst]; exact h)
  | decrement hst => exact hs.setReassembler hsame fun m h => hs.held m (by rw [hst]; exact h)
  | check hst => exact hs.setReassembler hsame fun m h => hs.held m (by rw [hst]; exact h)
  | _ => exact hs.setReassembler hsame fun _ h => by cases h

lemma toCancel_isCancel {msg cancel : Message} (h : msg.toCancel = some cancel) :
    ∃ seeder index begin length, cancel = .cancel seeder index begin length := by
  cases msg with
  | request => exact ⟨_, _, _, _, (Option.some.inj h).symm⟩
  | piece => cases h
  | cancel => cases h

lemma Answered.step {a : Action} (hs : Answered cfg s) (ha : Answers cfg s a)
    (h : Steps cfg s a t) : Answered cfg t := by
  cases h with
  | send h => exact hs.stepSender h
  | reassemble h => exact hs.stepReassembler h
  | @connection c _ _ _ _ h =>
    have hclear : ∀ conn, Answered cfg (s.setConn c conn) := fun conn =>
      ⟨hs.replies, hs.held, hs.resends, hs.counting⟩
    cases h with
    | answer hh hd =>
      obtain ⟨sent, piece, -, rfl, hpiece⟩ := ha
      exact (hclear _).deliver hd (.inl ⟨_, _, rfl, hpiece⟩)
    | refuse hh hmsg hd => exact (hclear _).deliver hd (.inr (toCancel_isCancel hmsg))
    | pass => exact ha.elim
    | _ => exact hclear _

/-! ### Where the pieces go -/

lemma outstanding_sender {sender : SenderState} {resends : Channel Message resendCapacity}
    (h : s.sender.outstanding cfg.infoHash.pieces.length + outstandingResends s.resends
      = sender.outstanding cfg.infoHash.pieces.length + outstandingResends resends + gone) :
    outstanding cfg s = outstanding cfg { s with sender, resends } + gone := by
  unfold outstanding
  calc _ = s.sender.outstanding cfg.infoHash.pieces.length + outstandingResends s.resends
          + (s.reassembler.outstanding + outstandingReplies s.replies
            + ∑ c ∈ Finset.range cfg.numConnections, (s.conns c).outstanding) := by abel
    _ = _ := by rw [h]; abel

lemma outstanding_reassembler {reassembler : ReassembleState} {assembler : FileAssembler}
    {store : Store} {replies : Channel Reply replyCapacity}
    {resends : Channel Message resendCapacity} {removals : List ℕ}
    (h : s.reassembler.outstanding + outstandingReplies s.replies + outstandingResends s.resends
      = reassembler.outstanding + outstandingReplies replies + outstandingResends resends + gone) :
    outstanding cfg s
      = outstanding cfg { s with assembler, store, reassembler, replies, resends, removals }
        + gone := by
  unfold outstanding
  calc _ = s.reassembler.outstanding + outstandingReplies s.replies + outstandingResends s.resends
          + (s.sender.outstanding cfg.infoHash.pieces.length
            + ∑ c ∈ Finset.range cfg.numConnections, (s.conns c).outstanding) := by abel
    _ = _ := by rw [h]; abel

/-- Replacing one connection replaces its part. -/
lemma outstanding_update (hc : c < cfg.numConnections) (conns : ConnId → Connection)
    (conn : Connection) :
    ∑ c' ∈ Finset.range cfg.numConnections, (update conns c conn c').outstanding
        + (conns c).outstanding
      = ∑ c' ∈ Finset.range cfg.numConnections, (conns c').outstanding + conn.outstanding := by
  have hmem := Finset.mem_range.mpr hc
  rw [← Finset.add_sum_erase _ _ hmem,
    ← Finset.add_sum_erase _ (fun c' => (conns c').outstanding) hmem, update_self]
  have hrest :
      ∑ c' ∈ (Finset.range cfg.numConnections).erase c, (update conns c conn c').outstanding
      = ∑ c' ∈ (Finset.range cfg.numConnections).erase c, (conns c').outstanding := by
    refine Finset.sum_congr rfl fun c' hc' => ?_
    rw [update_of_ne (Finset.ne_of_mem_erase hc')]
  rw [hrest]
  abel

lemma outstanding_connection (hc : c < cfg.numConnections) {conn : Connection}
    {sender : SenderState} {replies : Channel Reply replyCapacity}
    (h : s.sender.outstanding cfg.infoHash.pieces.length + (s.conns c).outstanding
        + outstandingReplies s.replies
      = sender.outstanding cfg.infoHash.pieces.length + conn.outstanding
        + outstandingReplies replies + gone) :
    outstanding cfg s
      = outstanding cfg { s with conns := update s.conns c conn, sender, replies } + gone := by
  refine add_right_cancel (b := (s.conns c).outstanding) ?_
  have hupdate := outstanding_update hc s.conns conn
  unfold outstanding
  calc _ = s.sender.outstanding cfg.infoHash.pieces.length + (s.conns c).outstanding
          + outstandingReplies s.replies
          + (s.reassembler.outstanding + outstandingResends s.resends
            + ∑ c ∈ Finset.range cfg.numConnections, (s.conns c).outstanding) := by abel
    _ = sender.outstanding cfg.infoHash.pieces.length + outstandingReplies replies + gone
          + (s.reassembler.outstanding + outstandingResends s.resends)
          + (∑ c ∈ Finset.range cfg.numConnections, (s.conns c).outstanding
            + conn.outstanding) := by rw [h]; abel
    _ = _ := by rw [← hupdate]; abel

/-! ### The steps of `send_requests` -/

/-- `send_requests` fails only while it has a piece to give up. -/
lemma SendFails.outstanding_ne_zero (h : s.SendFails cfg) :
    s.sender.outstanding cfg.infoHash.pieces.length ≠ 0 := by
  have hasked : ∀ {i n : ℕ}, i < n → (List.range' i (n - i) : Multiset ℕ) ≠ 0 := by
    intro i n hi hzero
    have := congrArg Multiset.card hzero
    simp at this
    omega
  rcases h with ⟨m, position, hl, -⟩ | h
  · unfold lookup? at hl
    cases hs : s.sender with
    | requesting m' i =>
      simp only [hs] at hl
      split_ifs at hl with hi
      exact hasked hi
    | resending m' i request => simp [SenderState.outstanding]
    | _ => simp [hs] at hl
  · cases hs : s.sender with
    | requesting m i =>
      simp only [hs] at h
      exact hasked h.1
    | sendingRequest m i c sent => simp [SenderState.outstanding]
    | counting i msg => simp [SenderState.outstanding]
    | sendingResend i c sent => simp [SenderState.outstanding]
    | _ => simp [hs] at h

/-- The first piece that is not asked for yet is asked for. -/
lemma range'_outstanding {i n : ℕ} (hi : i < n) :
    (List.range' i (n - i) : Multiset ℕ)
      = {i} + (List.range' (i + 1) (n - (i + 1)) : List ℕ) := by
  rw [show n - i = n - (i + 1) + 1 by omega, List.range'_succ]
  rfl

lemma pieceIndex_resendRequest {seeder : UInt32} {msg request : Message}
    (h : resendRequest cfg.env cfg.infoHash cfg.hash seeder msg = .ok (some request)) :
    request.pieceIndex = msg.pieceIndex := by
  obtain ⟨begin, length, rfl⟩ := resendRequest_eq_ok h
  rfl

lemma outstanding_pushRequest {conn : Connection} {requests : Channel Sent requestCapacity}
    {sent : Sent} (hq : requests.queue = conn.requests.queue ++ [sent]) :
    Connection.outstanding { conn with requests }
      = conn.outstanding + {sent.msg.pieceIndex} := by
  rw [Connection.outstanding, Connection.pending]
  rw [hq, ← List.append_assoc, List.map_append, ← Multiset.coe_add]
  rfl

/-- A piece that is asked for has an index that fits into its request. -/
def IndexFits (cfg : Config) (s : Pipeline) : Prop :=
  ∀ m i, s.sender = .requesting m i → i < cfg.infoHash.pieces.length → i < 2 ^ 32

lemma SenderStep.outstanding (hreg : Registered cfg s) (hans : Answered cfg s)
    (hfits : IndexFits cfg s) (h : SenderStep cfg s t) :
    ∃ gone, Pipeline.outstanding cfg s = Pipeline.outstanding cfg t + gone ∧
      (gone = 0 ↔ ¬ s.SendFails cfg) := by
  have hend : ∀ fault, s.SendFails cfg →
      ∃ gone, Pipeline.outstanding cfg s
          = Pipeline.outstanding cfg { s with sender := .ended (.error fault) } + gone ∧
        (gone = 0 ↔ ¬ s.SendFails cfg) := fun fault hf =>
    ⟨_, outstanding_sender (by simp only [SenderState.outstanding]; abel),
      iff_of_false hf.outstanding_ne_zero (not_not.mpr hf)⟩
  cases h with
  | start hst =>
    refine ⟨0, outstanding_sender ?_, iff_of_true rfl ?_⟩
    · simp only [hst, SenderState.outstanding, Nat.sub_zero, add_zero]
    · simp [SendFails, LookupMisses, lookup?, hst]
  | miss hmiss => exact hend _ (.inl hmiss)
  | fail fault hne hf => exact hend fault hf
  | @look m i request c hst hi hreq hc =>
    refine ⟨0, outstanding_sender ?_, iff_of_true rfl ?_⟩
    · obtain ⟨-, begin, -, rfl⟩ := initialRequest_eq_ok hreq
      have hindex : (UInt32.ofNat i).toNat = i := UInt32.toNat_ofNat_of_lt' (hfits m i hst hi)
      simp only [hst, SenderState.outstanding, Message.pieceIndex, Message.index, hindex, add_zero]
      rw [range'_outstanding hi]
    · have hlt := (List.getElem?_eq_some_iff.mp hc).1
      simp only [SendFails, LookupMisses, lookup?, hst, hi, if_true, hreq, Option.some.injEq,
        Prod.mk.injEq]
      rintro (⟨_, _, ⟨rfl, rfl⟩, hle⟩ | ⟨-, fault, hfault⟩)
      · omega
      · cases hfault
  | @send m i c sent requests hst hrun hq =>
    have hc := (hreg.placed c sent (.inl (by simp [hst, SenderState.target]))).lt
    refine ⟨0, outstanding_connection hc ?_, iff_of_true rfl ?_⟩
    · rw [outstanding_pushRequest hq]
      simp only [hst, SenderState.outstanding]
      abel
    · simp [SendFails, LookupMisses, lookup?, hst, hrun]
  | listen hst hi =>
    refine ⟨0, outstanding_sender ?_, iff_of_true rfl ?_⟩
    · simp [hst, SenderState.outstanding, Nat.sub_eq_zero_of_le hi]
    · simp [SendFails, LookupMisses, lookup?, hst, Nat.not_lt.mpr hi]
  | recv hst hq =>
    refine ⟨0, outstanding_sender ?_, iff_of_true rfl ?_⟩
    · simp only [hst, SenderState.outstanding, outstandingResends, hq, List.map_cons, zero_add,
        add_zero, Multiset.singleton_add, Multiset.cons_coe]
    · simp [SendFails, LookupMisses, lookup?, hst]
  | finish hst hd =>
    refine ⟨0, outstanding_sender ?_, iff_of_true rfl ?_⟩
    · simp [hst, SenderState.outstanding]
    · simp [SendFails, LookupMisses, lookup?, hst]
  | @skip i msg hst hm hreq =>
    -- what comes back to be asked for again is a piece or a `Cancel`
    have hfailure := hans.counting i msg hst
    cases msg with
    | request => exact hfailure.elim
    | piece =>
      obtain ⟨begin, -, hreq⟩ := except_bind_eq_ok.mp hreq
      cases hreq
    | cancel => cases hreq
  | @count i msg request hst hm hreq =>
    refine ⟨0, outstanding_sender ?_, iff_of_true rfl ?_⟩
    · simp only [hst, SenderState.outstanding, pieceIndex_resendRequest hreq, add_zero]
    · simp [SendFails, LookupMisses, lookup?, hst, hm, hreq]
  | @lookAgain m i request c hst hc =>
    refine ⟨0, outstanding_sender ?_, iff_of_true rfl ?_⟩
    · simp only [hst, SenderState.outstanding, add_zero]
    · have hlt := (List.getElem?_eq_some_iff.mp hc).1
      simp [SendFails, LookupMisses, lookup?, hst, hlt]
  | @sendAgain i c sent requests hst hrun hq =>
    have hc := (hreg.placed c sent (.inl (by simp [hst, SenderState.target]))).lt
    refine ⟨0, outstanding_connection hc ?_, iff_of_true rfl ?_⟩
    · rw [outstanding_pushRequest hq]
      simp only [hst, SenderState.outstanding]
      abel
    · simp [SendFails, LookupMisses, lookup?, hst, hrun]

/-! ### The steps of `reassemble_loop` -/

lemma outstanding_popReply {replies replies' : Channel Reply replyCapacity} {reply : Reply}
    (hq : replies.queue = reply :: replies'.queue) :
    outstandingReplies replies = {reply.msg.pieceIndex} + outstandingReplies replies' := by
  unfold outstandingReplies
  rw [hq, List.map_cons, Multiset.singleton_add, Multiset.cons_coe]

lemma outstanding_pushResend {resends resends' : Channel Message resendCapacity} {msg : Message}
    (hq : resends'.queue = resends.queue ++ [msg]) :
    outstandingResends resends' = outstandingResends resends + {msg.pieceIndex} := by
  rw [outstandingResends]
  rw [hq, List.map_append, ← Multiset.coe_add]
  rfl

/-- The message that `reassemble_loop` would take next is a `Cancel`. -/
def ReceivesCancel (s : Pipeline) : Prop :=
  s.reassembler = .receiving → ∀ reply ∈ s.replies.queue.head?,
    ∃ seeder index begin length, reply.msg = .cancel seeder index begin length

/-- `reassemble_loop` receives a piece, or does something else. -/
lemma ReassemblerStep.piece_or (hans : Answered cfg s) (h : ReassemblerStep cfg s t) :
    (∃ (replies : Channel Reply replyCapacity) (reply : Reply) (index : UInt32) (piece : Bytes)
      (result : Except Fault PieceResult) (store : Store), s.reassembler = .receiving ∧
        s.replies.queue = reply :: replies.queue ∧ reply.msg = .piece index piece ∧
        runOn (receivePiece cfg.env cfg.infoHash index piece) s.store = (result, store) ∧
        t = { s with replies, store, reassembler := .afterPiece reply.msg result }) ∨
      ReceivesCancel s := by
  have hother : ∀ {state : ReassembleState}, s.reassembler = state → state ≠ .receiving →
      ReceivesCancel s := fun hst hne hrecv => absurd (hst.symm.trans hrecv) hne
  cases h with
  | piece hst hq hmsg hrun => exact .inl ⟨_, _, _, _, _, _, hst, hq, hmsg, hrun, rfl⟩
  | cancel hst hq hmsg =>
    refine .inr fun _ reply hreply => ?_
    rw [hq] at hreply
    exact Option.some.inj hreply ▸ ⟨_, _, _, _, hmsg⟩
  | @wrong _ reply _ _ _ _ _ hst hq hmsg =>
    rcases hans.replies reply (hq ▸ List.mem_cons_self) with ⟨_, _, h, -⟩ | ⟨_, _, _, _, h⟩
    · rw [h] at hmsg
      cases hmsg
    · rw [h] at hmsg
      cases hmsg
  | resendClosed hst => exact .inr (hother hst (by simp))
  | resend hst => exact .inr (hother hst (by simp))
  | removePanic hst => exact .inr (hother hst (by simp))
  | remove hst => exact .inr (hother hst (by simp))
  | decrementPanic hst => exact .inr (hother hst (by simp))
  | decrement hst => exact .inr (hother hst (by simp))
  | retrieveFailed hst => exact .inr (hother hst (by simp))
  | check hst => exact .inr (hother hst (by simp))
  | complete hst => exact .inr (hother hst (by simp))
  | build hst => exact .inr (hother hst (by simp))

/-- A step of `reassemble_loop` in which it does not receive a piece. -/
lemma ReassemblerStep.outstanding (hreg : Registered cfg s) (h : ReassemblerStep cfg s t)
    (hpiece : ReceivesCancel s) :
    ∃ gone, Pipeline.outstanding cfg s = Pipeline.outstanding cfg t + gone ∧
      (gone = 0 ↔ ¬ s.ReassembleFails cfg) := by
  have hend : ∀ fault, s.ReassembleFails cfg → s.reassembler.outstanding ≠ 0 →
      ∃ gone, Pipeline.outstanding cfg s
          = Pipeline.outstanding cfg { s with reassembler := .ended (.error fault) } + gone ∧
        (gone = 0 ↔ ¬ s.ReassembleFails cfg) := by
    intro fault hf hne
    refine ⟨s.reassembler.outstanding, outstanding_reassembler ?_,
      iff_of_false hne (not_not.mpr hf)⟩
    rw [show (ReassembleState.ended (.error fault)).outstanding = 0 from rfl]
    abel
  cases h with
  | piece hst hq hmsg =>
    obtain ⟨_, _, _, _, hcancel⟩ := hpiece hst _ (by rw [hq]; rfl)
    rw [hcancel] at hmsg
    cases hmsg
  | cancel hst hq hmsg =>
    refine ⟨0, outstanding_reassembler ?_, iff_of_true rfl ?_⟩
    · rw [outstanding_popReply hq, hst]
      simp [ReassembleState.outstanding, ReassembleState.held]
    · simp only [ReassembleFails, hst, hq, List.head?_cons, Option.mem_some_iff]
      rintro ⟨reply, rfl, index, piece, fault, hpiece, -⟩
      rw [hmsg] at hpiece
      cases hpiece
  | wrong hst hq hmsg =>
    obtain ⟨_, _, _, _, hcancel⟩ := hpiece hst _ (by rw [hq]; rfl)
    rw [hcancel] at hmsg
    cases hmsg
  | resendClosed hst he =>
    refine hend _ ?_ ?_
    · simpa [ReassembleFails, hst] using he
    · simp [hst, ReassembleState.outstanding, ReassembleState.held]
  | resend hst he hq =>
    refine ⟨0, outstanding_reassembler ?_, iff_of_true rfl ?_⟩
    · rw [outstanding_pushResend hq, hst]
      simp only [ReassembleState.outstanding, ReassembleState.held, Option.toList_some,
        Option.toList_none, List.map_cons, List.map_nil, Multiset.coe_singleton, Multiset.coe_nil]
      abel
    · simp [ReassembleFails, hst, he]
  | removePanic hst hlock hlen =>
    refine hend _ ?_ ?_
    · simpa [ReassembleFails, hst] using hlen
    · simp [hst, ReassembleState.outstanding, ReassembleState.held]
  | remove hst hlock hbad =>
    refine ⟨0, outstanding_reassembler ?_, iff_of_true rfl ?_⟩
    · simp [hst, ReassembleState.outstanding, ReassembleState.held]
    · have hlt := (List.getElem?_eq_some_iff.mp hbad).1
      simp [ReassembleFails, hst, hlt]
  | decrementPanic hst hm =>
    have hle := hreg.le_count
    rcases hreg.txs with ⟨-, hlen⟩ | ⟨hd, -⟩
    · simp only [hst, ReassembleState.uncounted, hm] at hle
      omega
    · simp [hst, ReassembleState.resendDropped] at hd
  | decrement hst hlock hn =>
    refine ⟨0, outstanding_reassembler ?_, iff_of_true rfl ?_⟩
    · simp [hst, ReassembleState.outstanding, ReassembleState.held]
    · simp [ReassembleFails, hst]
  | retrieveFailed hst hm =>
    refine hend _ ?_ ?_
    · simpa [ReassembleFails, hst] using hm
    · simp [hst, ReassembleState.outstanding, ReassembleState.held]
  | check hst hm =>
    refine ⟨0, outstanding_reassembler ?_, iff_of_true rfl ?_⟩
    · simp [hst, ReassembleState.outstanding, ReassembleState.held]
    · simp [ReassembleFails, hst, hm]
  | complete hst hlock =>
    refine ⟨0, outstanding_reassembler ?_, iff_of_true rfl ?_⟩
    · simp [hst, ReassembleState.outstanding, ReassembleState.held]
    · simp [ReassembleFails, hst]
  | build hst hrun =>
    refine ⟨0, outstanding_reassembler ?_, iff_of_true rfl ?_⟩
    · simp [hst, ReassembleState.outstanding, ReassembleState.held]
    · simp [ReassembleFails, hst]

/-- What is not outstanding any more once a piece has been handled. -/
def settled (index : ℕ) : Except Fault PieceResult → Multiset ℕ
  | .ok .corrupted => 0
  | _              => {index}

lemma outstanding_piece (cfg : Config) {replies : Channel Reply replyCapacity} {reply : Reply}
    {index : UInt32} {piece : Bytes} (hst : s.reassembler = .receiving)
    (hq : s.replies.queue = reply :: replies.queue) (hmsg : reply.msg = .piece index piece)
    (result : Except Fault PieceResult) (store : Store) :
    outstanding cfg s
      = outstanding cfg { s with replies, store, reassembler := .afterPiece reply.msg result }
        + settled index.toNat result := by
  have hindex : reply.msg.pieceIndex = index.toNat := by rw [hmsg]; rfl
  have hafter : {index.toNat} = (ReassembleState.afterPiece reply.msg result).outstanding
      + settled index.toNat result := by
    rw [← hindex]
    rcases result with fault | result
    · rfl
    · cases result <;> rfl
  refine outstanding_reassembler ?_
  rw [outstanding_popReply hq, hst, hindex, hafter]
  rw [show ReassembleState.receiving.outstanding = 0 from rfl]
  abel

/-! ### The steps of the connections -/

lemma outstanding_clearHand {conn : Connection} {sent : Sent} (hh : conn.hand = some sent) :
    conn.outstanding
      = {sent.msg.pieceIndex} + Connection.outstanding { conn with hand := none } := by
  unfold Connection.outstanding Connection.pending
  rw [hh, Multiset.singleton_add, Multiset.cons_coe]
  rfl

lemma outstanding_pushReply {replies replies' : Channel Reply replyCapacity} {reply : Reply}
    (hq : replies'.queue = replies.queue ++ [reply]) :
    outstandingReplies replies' = outstandingReplies replies + {reply.msg.pieceIndex} := by
  rw [outstandingReplies]
  rw [hq, List.map_append, ← Multiset.coe_add]
  rfl

lemma pieceIndex_toCancel {msg cancel : Message} (h : msg.toCancel = some cancel) :
    cancel.pieceIndex = msg.pieceIndex := by
  cases msg with
  | request => cases h; rfl
  | piece => cases h
  | cancel => cases h

/-- A connection passes on a reply for the piece of its request. -/
lemma Delivered.outstanding (hc : c < cfg.numConnections) {sent : Sent} {msg : Message}
    {request : Option Sent} (hh : (s.conns c).hand = some sent)
    (hindex : msg.pieceIndex = sent.msg.pieceIndex)
    (hd : Delivered (s.clearHand c) ⟨msg, c, request⟩ t) :
    ∃ gone, Pipeline.outstanding cfg s = Pipeline.outstanding cfg t + gone ∧
      (gone = 0 ↔ ¬ s.reassembler.hasEnded = true) := by
  cases hd with
  | dropped he =>
    refine ⟨{sent.msg.pieceIndex}, outstanding_connection hc ?_, iff_of_false (by simp) ?_⟩
    · rw [outstanding_clearHand hh]
      abel
    · exact not_not.mpr he
  | queued he hq =>
    refine ⟨0, outstanding_connection hc ?_, iff_of_true rfl ?_⟩
    · rw [outstanding_clearHand hh, outstanding_pushReply hq, hindex]
      simp only [clearHand, setConn]
      abel
    · exact Bool.eq_false_iff.mp he

lemma ConnectionStep.outstanding (hreg : Registered cfg s) (hc : c < cfg.numConnections)
    {act : ConnectionAction} (hact : Answers cfg s (.connection c act))
    (h : ConnectionStep s c act t) :
    ∃ gone, Pipeline.outstanding cfg s = Pipeline.outstanding cfg t + gone ∧
      (gone = 0 ↔ ¬ s.Loses cfg (.connection c act)) := by
  have hclose : ∃ gone, Pipeline.outstanding cfg s
      = Pipeline.outstanding cfg (s.setConn c .closed) + gone ∧
        (gone = 0 ↔ (s.conns c).pending = []) := by
    refine ⟨(s.conns c).outstanding, outstanding_connection hc ?_, ?_⟩
    · rw [show Connection.closed.outstanding = 0 from rfl]
      abel
    · simp [Connection.outstanding]
  cases h with
  | @take sent requests hh hq =>
    refine ⟨0, outstanding_connection hc ?_, iff_of_true rfl not_false⟩
    simp [Connection.outstanding, Connection.pending, hh, hq]
  | close hh hq =>
    obtain ⟨gone, heq, hgone⟩ := hclose
    refine ⟨gone, heq, iff_of_true (hgone.mpr ?_) not_false⟩
    simp [Connection.pending, hh, hq]
  | answer hh hd =>
    obtain ⟨sent', piece, hh', rfl, -⟩ := hact
    obtain rfl := Option.some.inj (hh'.symm.trans hh)
    have hindex : (Message.piece sent'.msg.index piece).pieceIndex = sent'.msg.pieceIndex := rfl
    exact Delivered.outstanding hc hh hindex hd
  | refuse hh hmsg hd => exact hd.outstanding hc hh (pieceIndex_toCancel hmsg)
  | refuseClosed hh he =>
    obtain ⟨gone, heq, hgone⟩ := hclose
    refine ⟨gone, heq, iff_of_false (fun h => ?_) (not_not.mpr he)⟩
    have hnil := hgone.mp h
    simp [Connection.pending, hh] at hnil
  | @refuseOther sent hh hmsg =>
    obtain ⟨index, begin, length, hash, hrequest⟩ :=
      (hreg.placed c sent (.inr (.inl (Connection.hand_mem_pending hh)))).seeder
    rw [hrequest] at hmsg
    cases hmsg
  | @lose sent hh =>
    refine ⟨{sent.msg.pieceIndex}, outstanding_connection hc ?_,
      iff_of_false (by simp) (not_not.mpr trivial)⟩
    rw [outstanding_clearHand hh]
    abel
  | pass => exact hact.elim
  | drop =>
    obtain ⟨gone, heq, hgone⟩ := hclose
    exact ⟨gone, heq, hgone.trans not_not.symm⟩

end Pipeline

end BearTorrent
