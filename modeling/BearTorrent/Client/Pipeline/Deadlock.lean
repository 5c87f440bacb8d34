import BearTorrent.Client.Pipeline.Outstanding

/-!
# The deadlock of the pipeline

`send_requests` keeps the read lock while it waits for room in a request channel. The connection of
that channel may be waiting for room among the replies, and `reassemble_loop`, which would make
room, may be waiting for the write lock. All this takes 303 pieces, and 303 pieces are enough.
-/

namespace BearTorrent

/-- `reassemble_loop` waits for the write lock. -/
def ReassembleState.wantsLock : ReassembleState → Bool
  | .removing _ _     => true
  | .decrementing _ _ => true
  | .completing       => true
  | _                 => false

/-- The piece that has completed the file is neither outstanding nor to be had. -/
def ReassembleState.completed : ReassembleState → ℕ
  | .completing => 1
  | .building   => 1
  | _           => 0

namespace Pipeline

open Function

/-- All tasks wait for each other: `send_requests`, with the read lock, for room in a request
channel, every connection with a request for room among the replies, and `reassemble_loop` for the
write lock or for room in the resend channel. -/
structure Deadlocked (cfg : Config) (s : Pipeline) : Prop where
  sender : ∃ c sent, s.sender.target = some (c, sent) ∧ (s.conns c).running = true ∧
    (s.conns c).requests.Full
  reassembler : s.reassembler.wantsLock = true ∨
    ∃ msg, s.reassembler = .resending msg ∧ s.resends.Full
  connections : ∀ c < cfg.numConnections, (s.conns c).running = true →
    (s.conns c).hand = none ∧ (s.conns c).requests.queue = [] ∨
      (s.conns c).hand.isSome = true ∧ s.replies.Full

/-- The connections stay open and answer every request. -/
def StaysOpen (cfg : Config) (s : Pipeline) : Action → Prop
  | .connection _ .lose => False
  | .connection _ .drop => False
  | a                   => Answers cfg s a

variable {cfg : Config} {s t : Pipeline}

lemma StaysOpen.answers {a : Action} (h : StaysOpen cfg s a) : Answers cfg s a := by
  rcases a with _ | _ | ⟨c, act⟩
  · exact h
  · exact h
  · cases act <;> first | exact h | exact h.elim

lemma readLocked_of_target {sender : SenderState} {p : ConnId × Sent}
    (h : sender.target = some p) : sender.readLocked = true ∧ sender.hasEnded = false := by
  cases sender with
  | sendingRequest => exact ⟨rfl, rfl⟩
  | sendingResend => exact ⟨rfl, rfl⟩
  | _ => cases h

lemma sendRequest_eq_none {c : ConnId} {sent : Sent} {next : SenderState}
    (hrun : (s.conns c).running = true) (hfull : (s.conns c).requests.Full) :
    s.sendRequest c sent next = none := by
  simp [sendRequest, hrun, Channel.send?_eq_none.mpr hfull]

lemma deliver_eq_none {reply : Reply} (he : s.reassembler.hasEnded = false)
    (hfull : s.replies.Full) : s.deliver reply = none := by
  simp [deliver, he, Channel.send?_eq_none.mpr hfull]

lemma Deadlocked.hasEnded (h : Deadlocked cfg s) : s.reassembler.hasEnded = false := by
  rcases h.reassembler with hlock | ⟨msg, hst, -⟩
  · cases hst : s.reassembler with
    | ended => simp [hst, ReassembleState.wantsLock] at hlock
    | _ => rfl
  · rw [hst]
    rfl

/-- In a deadlock no task can take a step, as long as the connections are registered. -/
lemma Deadlocked.stuck (h : Deadlocked cfg s) (hreg : Registered cfg s)
    (hopen : ∀ c < cfg.numConnections, s.hasSender c = true) {a : Action}
    (ha : StaysOpen cfg s a) : s.step cfg a = none := by
  obtain ⟨c, sent, htarget, hrun, hfull⟩ := h.sender
  obtain ⟨hlocked, hended⟩ := readLocked_of_target htarget
  cases a with
  | send =>
    simp only [Pipeline.step, stepSender]
    cases hs : s.sender with
    | sendingRequest m i c' sent' =>
      obtain ⟨rfl, rfl⟩ : c' = c ∧ sent' = sent := by simpa [hs, SenderState.target] using htarget
      exact sendRequest_eq_none hrun hfull
    | sendingResend i c' sent' =>
      obtain ⟨rfl, rfl⟩ : c' = c ∧ sent' = sent := by simpa [hs, SenderState.target] using htarget
      exact sendRequest_eq_none hrun hfull
    | _ => simp [hs, SenderState.target] at htarget
  | reassemble =>
    simp only [Pipeline.step, stepReassembler]
    rcases h.reassembler with hlock | ⟨msg, hst, hresends⟩
    · cases hst : s.reassembler with
      | removing => simp [hlocked]
      | decrementing => simp [hlocked]
      | completing => simp [hlocked]
      | _ => simp [hst, ReassembleState.wantsLock] at hlock
    · simp [hst, hended, Channel.send?_eq_none.mpr hresends]
  | connection c act =>
    simp only [Pipeline.step]
    split_ifs with hc
    · rcases h.connections c hc.1 hc.2 with ⟨hhand, hqueue⟩ | ⟨hhand, hreplies⟩
      · have hrecv := Channel.recv?_eq_none.mpr hqueue
        cases act with
        | take => simp [stepConnection, Pipeline.take, hhand, hrecv, hopen c hc.1]
        | answer => simp [stepConnection, Pipeline.answer, hhand]
        | refuse => simp [stepConnection, Pipeline.refuse, hhand]
        | _ => exact ha.elim
      · obtain ⟨sent', hhand⟩ := Option.isSome_iff_exists.mp hhand
        cases act with
        | take => simp [stepConnection, Pipeline.take, hhand]
        | answer msg =>
          simp only [stepConnection, Pipeline.answer, hhand]
          exact deliver_eq_none h.hasEnded hreplies
        | refuse =>
          have hpending := Connection.hand_mem_pending hhand
          obtain ⟨index, begin, length, hash, hrequest⟩ :=
            (hreg.placed c sent' (.inr (.inl hpending))).seeder
          simp only [stepConnection, Pipeline.refuse, hhand, hrequest, Message.toCancel, h.hasEnded,
            Bool.false_eq_true, if_false]
          exact deliver_eq_none h.hasEnded hreplies
        | _ => exact ha.elim
    · rfl

/-! ### At most 302 pieces -/

/-- The number of pieces that are outstanding, or have just completed the file, does not grow. -/
lemma Steps.card_outstanding_le {a : Action} (hreg : Registered cfg s) (hans : Answered cfg s)
    (hfits : IndexFits cfg s) (ha : Answers cfg s a) (h : Steps cfg s a t) :
    (outstanding cfg t).card + t.reassembler.completed
      ≤ (outstanding cfg s).card + s.reassembler.completed := by
  have hcard : ∀ {gone : Multiset ℕ}, outstanding cfg s = outstanding cfg t + gone →
      (outstanding cfg t).card ≤ (outstanding cfg s).card := fun heq => by
    rw [heq, Multiset.card_add]
    exact Nat.le_add_right _ _
  cases h with
  | send h =>
    have hsame : t.reassembler = s.reassembler := by cases h <;> rfl
    obtain ⟨gone, heq, -⟩ := h.outstanding hreg hans hfits
    rw [hsame]
    exact Nat.add_le_add_right (hcard heq) _
  | connection hc hrun h =>
    have hsame : t.reassembler = s.reassembler := by rw [h.frame]
    obtain ⟨gone, heq, -⟩ := h.outstanding hreg hc ha
    rw [hsame]
    exact Nat.add_le_add_right (hcard heq) _
  | reassemble h =>
    rcases h.piece_or hans with ⟨replies, reply, index, piece, result, store, hst, hq, hmsg, -, rfl⟩
        | hcancel
    · have heq := outstanding_piece cfg hst hq hmsg result store
      rw [heq, Multiset.card_add, hst]
      rcases result with fault | result
      · exact Nat.le_add_right _ _
      · cases result <;> simp [settled, ReassembleState.afterPiece, ReassembleState.completed]
    · obtain ⟨gone, heq, -⟩ := h.outstanding hreg hcancel
      refine Nat.add_le_add (hcard heq) ?_
      cases h with
      | piece hst hq hmsg =>
        obtain ⟨_, _, _, _, h⟩ := hcancel hst _ (by rw [hq]; rfl)
        rw [h] at hmsg
        cases hmsg
      | complete hst => simp [hst, ReassembleState.completed]
      | _ => exact Nat.zero_le _

/-- The pieces that a deadlock takes besides those of `send_requests`: 151 for the connection, 150
in the reply channel, and one that `reassemble_loop` is dealing with. -/
lemma Deadlocked.card_outstanding (h : Deadlocked cfg s) (hreg : Registered cfg s) :
    (s.sender.outstanding cfg.infoHash.pieces.length).card + 302
      ≤ (outstanding cfg s).card + s.reassembler.completed := by
  obtain ⟨c, sent, htarget, hrun, hfull⟩ := h.sender
  have hc := (hreg.placed c sent (.inl htarget)).lt
  have hloop : 1 ≤ s.reassembler.outstanding.card + s.reassembler.completed := by
    rcases h.reassembler with hlock | ⟨msg, hst, -⟩
    · cases hst : s.reassembler with
      | removing => exact le_rfl
      | decrementing => exact le_rfl
      | completing => exact le_rfl
      | _ => simp [hst, ReassembleState.wantsLock] at hlock
    · rw [hst]
      exact le_rfl
  obtain ⟨hhand, hreplies⟩ : (s.conns c).hand.isSome = true ∧ s.replies.Full := by
    rcases h.connections c hc hrun with ⟨-, hqueue⟩ | h
    · rw [Channel.Full, hqueue] at hfull
      cases hfull
    · exact h
  obtain ⟨sent', hhand⟩ := Option.isSome_iff_exists.mp hhand
  have hconn : (s.conns c).outstanding.card = 151 := by
    have hlen : (s.conns c).requests.queue.length = 150 := hfull
    simp [Connection.outstanding, Connection.pending, hhand, hlen]
  have hsum : (s.conns c).outstanding.card
      ≤ (∑ c ∈ Finset.range cfg.numConnections, (s.conns c).outstanding).card := by
    rw [← Finset.add_sum_erase _ _ (Finset.mem_range.mpr hc), Multiset.card_add]
    exact Nat.le_add_right _ _
  have hreplies' : (outstandingReplies s.replies).card = 150 := by
    have hlen : s.replies.queue.length = 150 := hreplies
    simp [outstandingReplies, hlen]
  simp only [outstanding, Multiset.card_add]
  omega

/-- The offset of piece `i` does not overflow. -/
def OffsetFits (cfg : Config) (i : ℕ) : Prop :=
  ∃ begin, mulU32 cfg.env cfg.infoHash.pieceLength (.ofNat i) = .ok begin

/-- The offsets of the pieces that have been asked for did not overflow. -/
def AskedFits (cfg : Config) (s : Pipeline) : Prop :=
  match s.sender with
  | .starting               => True
  | .requesting _ i         => ∀ j < i, OffsetFits cfg j
  | .sendingRequest _ i _ _ => i < cfg.infoHash.pieces.length ∧ ∀ j ≤ i, OffsetFits cfg j
  | .ended _                => True
  | _                       => ∀ j < cfg.infoHash.pieces.length, OffsetFits cfg j

lemma AskedFits.step {a : Action} (hs : AskedFits cfg s) (h : Steps cfg s a t) :
    AskedFits cfg t := by
  cases h with
  | send h =>
    cases h with
    | start => exact fun j hj => absurd hj (Nat.not_lt_zero j)
    | miss => trivial
    | fail => trivial
    | @look m i request c hst hi hreq =>
      simp only [AskedFits, hst] at hs
      obtain ⟨-, begin, hbegin, -⟩ := initialRequest_eq_ok hreq
      refine ⟨hi, fun j hj => ?_⟩
      rcases Nat.lt_or_eq_of_le hj with hlt | rfl
      · exact hs j hlt
      · exact ⟨begin, hbegin⟩
    | send hst =>
      simp only [AskedFits, hst] at hs
      exact fun j hj => hs.2 j (Nat.le_of_lt_succ hj)
    | listen hst hi =>
      simp only [AskedFits, hst] at hs
      exact fun j hj => hs j (hj.trans_le hi)
    | finish => trivial
    | recv hst => simpa only [AskedFits, hst] using hs
    | skip hst => simpa only [AskedFits, hst] using hs
    | count hst => simpa only [AskedFits, hst] using hs
    | lookAgain hst => simpa only [AskedFits, hst] using hs
    | sendAgain hst => simpa only [AskedFits, hst] using hs
  | reassemble h => cases h <;> exact hs
  | connection _ _ h =>
    rw [h.frame]
    exact hs

/-- What holds in every run in which the connections answer. -/
structure Accounted (cfg : Config) (s : Pipeline) : Prop where
  registered : Registered cfg s
  answered : Answered cfg s
  askedFits : AskedFits cfg s
  card_le : (outstanding cfg s).card + s.reassembler.completed ≤ cfg.infoHash.pieces.length

lemma accounted_init (cfg : Config) (σ : Store) : Accounted cfg (init cfg σ) where
  registered := registered_init cfg σ
  answered := answered_init cfg σ
  askedFits := trivial
  card_le := by
    simp [outstanding, init, SenderState.outstanding, ReassembleState.outstanding,
      ReassembleState.held, ReassembleState.completed, outstandingReplies, outstandingResends,
      Connection.outstanding, Connection.pending, Connection.idle]

/-- In a deadlock 303 pieces have been asked for. -/
lemma Deadlocked.enough_pieces (h : Deadlocked cfg s) (hs : Accounted cfg s) :
    303 ≤ cfg.infoHash.pieces.length ∧ ∀ i ≤ 302, OffsetFits cfg i := by
  have hcard := h.card_outstanding hs.registered
  have hle := hs.card_le
  have hasked := hs.askedFits
  obtain ⟨c, sent, htarget, -⟩ := h.sender
  cases hst : s.sender with
  | sendingRequest m i c sent =>
    simp only [AskedFits, hst] at hasked
    simp only [hst, SenderState.outstanding, Multiset.card_add, Multiset.card_singleton,
      Multiset.coe_card, List.length_range'] at hcard
    exact ⟨by omega, fun j hj => hasked.2 j (by omega)⟩
  | sendingResend i c sent =>
    simp only [AskedFits, hst] at hasked
    simp only [hst, SenderState.outstanding, Multiset.card_singleton] at hcard
    exact ⟨by omega, fun j hj => hasked j (by omega)⟩
  | _ => simp [hst, SenderState.target] at htarget

/-- With at most 302 pieces, or when no more can be asked for, there is no deadlock. -/
lemma not_deadlocked (cfg : Config)
    (hfew : cfg.infoHash.pieces.length ≤ 302 ∨ ∃ i ≤ 302, ¬ OffsetFits cfg i) {σ : Store}
    {tr : List (Pipeline × Action)} {s : Pipeline}
    (hrun : Transition.Run (Pipeline.step cfg) (init cfg σ) tr s)
    (hopen : ∀ p ∈ tr, StaysOpen cfg p.1 p.2) : ¬ Deadlocked cfg s := by
  intro hdead
  have hfits : ∀ s, AskedFits cfg s → IndexFits cfg s := by
    intro s hs m i hst hi
    simp only [AskedFits, hst] at hs
    rcases hfew with hn | ⟨j, hj, hover⟩
    · omega
    · have : ¬ j < i := fun hlt => hover (hs j hlt)
      omega
  have hinv : Accounted cfg s := by
    refine hrun.invariant (P := fun s a => StaysOpen cfg s a) (fun s a t hs ha h => ?_) hopen
      (accounted_init cfg σ)
    have hsteps := steps_of_eq_some h
    exact ⟨hs.registered.step h, hs.answered.step ha.answers hsteps, hs.askedFits.step hsteps,
      (hsteps.card_outstanding_le hs.registered hs.answered (hfits s hs.askedFits)
        ha.answers).trans hs.card_le⟩
  obtain ⟨hn, hall⟩ := hdead.enough_pieces hinv
  rcases hfew with hn' | ⟨i, hi, hover⟩
  · omega
  · exact hover (hall i hi)

/-! ### 303 pieces -/

/-- The one connection never gets anything from its peer. -/
def Refusing : Action → Prop
  | .send                => True
  | .reassemble          => True
  | .connection _ .take   => True
  | .connection _ .refuse => True
  | _                     => False

lemma Refusing.staysOpen {a : Action} (h : Refusing a) : StaysOpen cfg s a := by
  rcases a with _ | _ | ⟨c, act⟩
  · trivial
  · trivial
  · cases act <;> trivial

/-- The initial loop has sent `asked` requests to the only connection. It has refused some of them
and still has the rest: `queued` ones in its channel, and one in hand if `busy`. -/
structure Feeding (cfg : Config) (asked refused queued : ℕ) (busy : Bool) (s : Pipeline) :
    Prop where
  registered : Registered cfg s
  sender : s.sender = .requesting 1 asked
  txs : s.assembler.requestTxs = [0]
  running : (s.conns 0).running = true
  busy : (s.conns 0).hand.isSome = busy
  queued : (s.conns 0).requests.queue.length = queued
  refused : s.replies.queue.length = refused
  cancels : ∀ reply ∈ s.replies.queue, ∃ seeder index begin length,
    reply.msg = .cancel seeder index begin length
  reassembler : s.reassembler.hasEnded = false

section Feed

variable {asked refused queued : ℕ} {busy : Bool}

/-- The read lock is taken for the only connection. -/
lemma Feeding.look (h : Feeding cfg asked refused queued busy s)
    (hasked : asked < cfg.infoHash.pieces.length)
    (hreq : ∃ request, initialRequest cfg.env cfg.infoHash cfg.hash 1 asked = .ok request) :
    ∃ t, s.step cfg .send = some t ∧
      ∃ sent, t = { s with sender := .sendingRequest 1 asked 0 sent } := by
  obtain ⟨request, hreq⟩ := hreq
  refine ⟨_, ?_, ⟨request, 0, s.removals.length⟩, rfl⟩
  simp [step, stepSender, h.sender, hasked, hreq, lookup, h.txs, Nat.mod_one]

/-- The next request is looked up and sent. -/
lemma Feeding.ask (h : Feeding cfg asked refused queued busy s)
    (hasked : asked < cfg.infoHash.pieces.length) (hqueued : queued < requestCapacity)
    (hreq : ∃ request, initialRequest cfg.env cfg.infoHash cfg.hash 1 asked = .ok request) :
    ∃ t, Transition.Reaches (step cfg) Refusing s t ∧ t.reassembler = s.reassembler ∧
      Feeding cfg (asked + 1) refused (queued + 1) busy t := by
  obtain ⟨t, hlook, sent, rfl⟩ := h.look hasked hreq
  obtain ⟨requests, hsend, hq⟩ := Channel.exists_send? (c := (s.conns 0).requests) sent
    (by rwa [h.queued])
  have hstep : step cfg { s with sender := .sendingRequest 1 asked 0 sent } .send
      = some { s with
        conns := update s.conns 0 { s.conns 0 with requests }
        sender := .requesting 1 (asked + 1) } := by
    simp [step, stepSender, sendRequest, h.running, hsend]
  refine ⟨_, (Transition.Reaches.single hlook trivial).tail hstep trivial, rfl,
    (h.registered.step hlook).step hstep, rfl, h.txs, ?_, ?_, ?_, h.refused, h.cancels,
    h.reassembler⟩
  · simpa using h.running
  · simpa using h.busy
  · simp [hq, h.queued]

/-- The connection takes a request. -/
lemma Feeding.take (h : Feeding cfg asked refused (queued + 1) false s)
    (hk : 0 < cfg.numConnections) :
    ∃ t, Transition.Reaches (step cfg) Refusing s t ∧ t.reassembler = s.reassembler ∧
      Feeding cfg asked refused queued true t := by
  obtain ⟨sent, q, hq⟩ := List.exists_cons_of_length_eq_add_one h.queued
  obtain ⟨requests, hrecv, hrequests⟩ := Channel.exists_recv? hq
  have hhand : (s.conns 0).hand = none := by simpa using h.busy
  have hstep : step cfg s (.connection 0 .take)
      = some (s.setConn 0 { s.conns 0 with requests, hand := some sent }) := by
    simp [step, stepConnection, Pipeline.take, hk, h.running, hhand, hrecv]
  refine ⟨_, .single hstep trivial, rfl, h.registered.step hstep, h.sender, h.txs, ?_, ?_, ?_,
    h.refused, h.cancels, h.reassembler⟩
  · simpa using h.running
  · simp
  · have hlen := h.queued
    rw [hq] at hlen
    simpa [hrequests] using hlen

/-- The connection refuses its request. -/
lemma Feeding.refuse (h : Feeding cfg asked refused queued true s) (hk : 0 < cfg.numConnections)
    (hrefused : refused < replyCapacity) :
    ∃ t, Transition.Reaches (step cfg) Refusing s t ∧ t.reassembler = s.reassembler ∧
      Feeding cfg asked (refused + 1) queued false t := by
  obtain ⟨sent, hhand⟩ := Option.isSome_iff_exists.mp h.busy
  obtain ⟨index, begin, length, hash, hmsg⟩ :=
    (h.registered.placed 0 sent (.inr (.inl (Connection.hand_mem_pending hhand)))).seeder
  obtain ⟨replies, hsend, hq⟩ := Channel.exists_send? (c := s.replies)
    ⟨.cancel (.ofNat sent.position) index begin length, 0, some sent⟩ (by rwa [h.refused])
  have hstep : step cfg s (.connection 0 .refuse)
      = some { s.clearHand 0 with replies } := by
    simp only [step, stepConnection, Pipeline.refuse, hk, h.running, hhand, hmsg, Message.toCancel,
      h.reassembler, deliver, clearHand, setConn, and_self, if_true, Bool.false_eq_true, if_false,
      hsend, Option.map_some]
  refine ⟨_, .single hstep trivial, rfl, h.registered.step hstep, h.sender, h.txs, ?_, ?_, ?_, ?_,
    fun reply hreply => ?_, h.reassembler⟩
  · simpa [clearHand] using h.running
  · simp [clearHand]
  · simpa [clearHand] using h.queued
  · simp [hq, h.refused]
  · rcases List.mem_append.mp (hq ▸ hreply) with hreply | hreply
    · exact h.cancels reply hreply
    · exact List.mem_singleton.mp hreply ▸ ⟨_, _, _, _, rfl⟩

/-- `reassemble_loop` takes a `Cancel` and wants the write lock. -/
lemma Feeding.receive (h : Feeding cfg asked (refused + 1) queued busy s)
    (hs : s.reassembler = .receiving) :
    ∃ t, Transition.Reaches (step cfg) Refusing s t ∧ t.reassembler.wantsLock = true ∧
      Feeding cfg asked refused queued busy t := by
  obtain ⟨reply, q, hq⟩ := List.exists_cons_of_length_eq_add_one h.refused
  obtain ⟨replies, hrecv, hreplies⟩ := Channel.exists_recv? hq
  obtain ⟨seeder, index, begin, length, hmsg⟩ := h.cancels reply (hq ▸ List.mem_cons_self)
  have hstep : step cfg s .reassemble
      = some { s with replies, reassembler := .removing seeder reply } := by
    simp [step, stepReassembler, hs, hrecv, Pipeline.receive, hmsg]
  refine ⟨_, .single hstep trivial, rfl, h.registered.step hstep, h.sender, h.txs, h.running,
    h.busy, h.queued, ?_, fun reply hreply => h.cancels reply ?_, rfl⟩
  · have hlen := h.refused
    rw [hq] at hlen
    simpa [hreplies] using hlen
  · rw [hq]
    exact List.mem_cons_of_mem _ (hreplies ▸ hreply)

variable (hn : 303 ≤ cfg.infoHash.pieces.length)
  (hreq : ∀ i ≤ 302, ∃ request, initialRequest cfg.env cfg.infoHash cfg.hash 1 i = .ok request)

include hn hreq

/-- Requests pile up in the channel. -/
lemma Feeding.ask_many (h : Feeding cfg asked refused queued busy s) (j : ℕ)
    (hasked : asked + j ≤ 302) (hqueued : queued + j ≤ requestCapacity) :
    ∃ t, Transition.Reaches (step cfg) Refusing s t ∧ t.reassembler = s.reassembler ∧
      Feeding cfg (asked + j) refused (queued + j) busy t := by
  induction j with
  | zero => exact ⟨s, .refl s, rfl, h⟩
  | succ j ih =>
    obtain ⟨t, hreach, hsame, ht⟩ := ih (by omega) (by omega)
    obtain ⟨u, hreach', hsame', hu⟩ := ht.ask (by omega) (by omega) (hreq (asked + j) (by omega))
    exact ⟨u, hreach.trans hreach', hsame'.trans hsame, hu⟩

/-- Each request is refused at once. -/
lemma Feeding.refuse_many (h : Feeding cfg asked refused 0 false s)
    (hk : 0 < cfg.numConnections) (j : ℕ) (hasked : asked + j ≤ 302)
    (hrefused : refused + j ≤ replyCapacity) :
    ∃ t, Transition.Reaches (step cfg) Refusing s t ∧ t.reassembler = s.reassembler ∧
      Feeding cfg (asked + j) (refused + j) 0 false t := by
  induction j with
  | zero => exact ⟨s, .refl s, rfl, h⟩
  | succ j ih =>
    obtain ⟨t, hreach, hsame, ht⟩ := ih (by omega) (by omega)
    obtain ⟨u, hreach₁, hsame₁, hu⟩ := ht.ask (by omega) (by decide) (hreq (asked + j) (by omega))
    obtain ⟨v, hreach₂, hsame₂, hv⟩ := hu.take hk
    obtain ⟨w, hreach₃, hsame₃, hw⟩ := hv.refuse hk (by omega)
    exact ⟨w, ((hreach.trans hreach₁).trans hreach₂).trans hreach₃,
      hsame₃.trans (hsame₂.trans (hsame₁.trans hsame)), hw⟩

end Feed

lemma initialRequest_of_offsetFits {i : ℕ} (h : OffsetFits cfg i) :
    ∃ request, initialRequest cfg.env cfg.infoHash cfg.hash 1 i = .ok request := by
  obtain ⟨begin, hbegin⟩ := h
  rw [initialRequest, if_neg (by decide), hbegin]
  exact ⟨_, rfl⟩

/-- One connection and 303 pieces. -/
lemma exists_deadlocked (cfg : Config) (hk : cfg.numConnections = 1)
    (hn : 303 ≤ cfg.infoHash.pieces.length)
    (hreq : ∀ i ≤ 302, ∃ request,
      initialRequest cfg.env cfg.infoHash cfg.hash 1 i = .ok request) (σ : Store) :
    ∃ s, Transition.Reaches (step cfg) Refusing (init cfg σ) s ∧ Deadlocked cfg s ∧
      s.assembler.requestTxs = [0] := by
  have hpos : 0 < cfg.numConnections := by omega
  have hstart : step cfg (init cfg σ) .send
      = some { init cfg σ with sender := .requesting 1 0 } := by
    simp [step, stepSender, init, FileAssembler.new, hk]
  have h₀ : Feeding cfg 0 0 0 false { init cfg σ with sender := .requesting 1 0 } :=
    ⟨(registered_init cfg σ).step hstart, rfl, by simp [init, FileAssembler.new, hk], rfl, rfl, rfl,
      rfl, by simp [init], rfl⟩
  -- the reply channel fills up, and once more when `reassemble_loop` has taken a `Cancel`
  obtain ⟨s₁, hreach₁, hsame₁, h₁⟩ := h₀.refuse_many hn hreq hpos 150 (by decide) (by decide)
  obtain ⟨s₂, hreach₂, hlock₂, h₂⟩ := h₁.receive hsame₁
  obtain ⟨s₃, hreach₃, hsame₃, h₃⟩ := h₂.refuse_many hn hreq hpos 1 (by decide) (by decide)
  -- the connection takes one request that it cannot refuse any more, and its channel fills up
  obtain ⟨s₄, hreach₄, hsame₄, h₄⟩ := h₃.ask (by omega) (by decide) (hreq 151 (by decide))
  obtain ⟨s₅, hreach₅, hsame₅, h₅⟩ := h₄.take hpos
  obtain ⟨s₆, hreach₆, hsame₆, h₆⟩ := h₅.ask_many hn hreq 150 (by decide) (by decide)
  obtain ⟨s₇, hlook, sent, rfl⟩ := h₆.look (by omega) (hreq 302 le_rfl)
  refine ⟨_, ((((((Transition.Reaches.single hstart trivial).trans hreach₁).trans hreach₂).trans
    hreach₃).trans hreach₄).trans hreach₅).trans hreach₆ |>.tail hlook trivial,
    ⟨⟨0, sent, rfl, h₆.running, h₆.queued⟩, .inl ?_, fun c hc _ => .inr ?_⟩, h₆.txs⟩
  · rw [hsame₆, hsame₅, hsame₄, hsame₃]
    exact hlock₂
  · obtain rfl : c = 0 := by omega
    exact ⟨h₆.busy, h₆.refused⟩

/-- The pipeline of a download cannot deadlock, whatever the number of connections and their
answers, if and only if not more than 302 of its pieces can be asked for: it has no more, or the
offset of one of the first 303 overflows. -/
theorem deadlock_free_iff (env : Env) (infoHash : InfoHash) (hash : Digest) :
    (∀ k ≥ 1, ∀ σ tr s, Transition.Run (step ⟨env, infoHash, hash, k⟩)
        (init ⟨env, infoHash, hash, k⟩ σ) tr s →
      (∀ p ∈ tr, StaysOpen ⟨env, infoHash, hash, k⟩ p.1 p.2) →
        ¬ Deadlocked ⟨env, infoHash, hash, k⟩ s) ↔
      infoHash.pieces.length ≤ 302 ∨
        ∃ i ≤ 302, ¬ OffsetFits ⟨env, infoHash, hash, 1⟩ i := by
  constructor
  · intro hfree
    by_contra hmany
    obtain ⟨hn, hfits⟩ := not_or.mp hmany
    push Not at hfits
    obtain ⟨s, ⟨tr, hrun, hrefusing⟩, hdead, -⟩ :=
      exists_deadlocked ⟨env, infoHash, hash, 1⟩ rfl (by simp only; omega)
        (fun i hi => initialRequest_of_offsetFits (hfits i hi)) ∅
    exact hfree 1 le_rfl ∅ tr s hrun (fun p hp => (hrefusing p hp).staysOpen) hdead
  · intro hfew k _ σ tr s hrun hopen
    exact not_deadlocked ⟨env, infoHash, hash, k⟩ hfew hrun hopen

/-- A file of 303 pieces of one byte and one connection. -/
theorem deadlock_303 :
    ∃ tr s, Transition.Run (step (unitConfig 303 1)) (init (unitConfig 303 1) ∅) tr s ∧
      (∀ p ∈ tr, StaysOpen (unitConfig 303 1) p.1 p.2) ∧ Deadlocked (unitConfig 303 1) s ∧
      ∀ a, StaysOpen (unitConfig 303 1) s a → s.step (unitConfig 303 1) a = none := by
  have hfits : ∀ i ≤ 302, OffsetFits (unitConfig 303 1) i := by
    intro i hi
    have hindex : (UInt32.ofNat i).toNat = i :=
      UInt32.toNat_ofNat_of_lt' (hi.trans_lt (by decide))
    refine ⟨_, mulU32_of_lt _ ?_⟩
    rw [hindex, show (unitConfig 303 1).infoHash.pieceLength.toNat = 1 from rfl]
    omega
  obtain ⟨s, ⟨tr, hrun, hrefusing⟩, hdead, htxs⟩ := exists_deadlocked (unitConfig 303 1) rfl
    List.length_replicate.ge (fun i hi => initialRequest_of_offsetFits (hfits i hi)) ∅
  refine ⟨tr, s, hrun, fun p hp => (hrefusing p hp).staysOpen, hdead, fun a ha => ?_⟩
  refine hdead.stuck (registered_run hrun) (fun c hc => ?_) ha
  obtain rfl : c = 0 := Nat.lt_one_iff.mp hc
  simp [hasSender, htxs]

end Pipeline

end BearTorrent
