import BearTorrent.Client.Pipeline.Basic

/-!
# What a step can do

One rule for each way in which a task may proceed. Every property of the runs of the pipeline is
proved by cases on these rules.
-/

namespace BearTorrent.Pipeline

open Function

variable (cfg : Config)

/-! ### `send_requests` -/

/-- The position that `send_requests` is about to look up, with the number of connections it was
computed from. -/
def lookup? (s : Pipeline) : Option (ℕ × ℕ) :=
  match s.sender with
  | .requesting m i  => if i < cfg.infoHash.pieces.length then some (m, i % m) else none
  | .resending m i _ => some (m, (newSeeder m i).toNat)
  | _                => none

/-- There is no connection at the position that is looked up. -/
def LookupMisses (s : Pipeline) : Prop :=
  ∃ m position, s.lookup? cfg = some (m, position) ∧ s.assembler.requestTxs.length ≤ position

/-- The next step of `send_requests` ends it with an error. -/
def SendFails (s : Pipeline) : Prop :=
  s.LookupMisses cfg ∨
    match s.sender with
    | .requesting m i =>
      i < cfg.infoHash.pieces.length ∧
        ∃ fault, initialRequest cfg.env cfg.infoHash cfg.hash m i = .error fault
    | .counting i msg =>
      s.assembler.numConnections = 0 ∨
        ∃ fault, resendRequest cfg.env cfg.infoHash cfg.hash
          (newSeeder s.assembler.numConnections i) msg = .error fault
    | .sendingRequest _ _ c _ => (s.conns c).running = false
    | .sendingResend _ c _    => (s.conns c).running = false
    | _ => False

/-- The steps of `send_requests`. -/
inductive SenderStep (s : Pipeline) : Pipeline → Prop
  | start (hs : s.sender = .starting) :
    SenderStep s { s with sender := .requesting s.assembler.numConnections 0 }
  | miss (hmiss : s.LookupMisses cfg) :
    SenderStep s { s with sender := .ended (.error connectionMissing) }
  | fail (fault : Fault) (hne : fault ≠ connectionMissing) (hf : s.SendFails cfg) :
    SenderStep s { s with sender := .ended (.error fault) }
  | look {m i : ℕ} {request : Message} {c : ConnId} (hs : s.sender = .requesting m i)
    (hi : i < cfg.infoHash.pieces.length)
    (hreq : initialRequest cfg.env cfg.infoHash cfg.hash m i = .ok request)
    (hc : s.assembler.requestTxs[i % m]? = some c) :
    SenderStep s { s with sender := .sendingRequest m i c ⟨request, i % m, s.removals.length⟩ }
  | send {m i : ℕ} {c : ConnId} {sent : Sent} {requests : Channel Sent requestCapacity}
    (hs : s.sender = .sendingRequest m i c sent) (hrun : (s.conns c).running = true)
    (hq : requests.queue = (s.conns c).requests.queue ++ [sent]) :
    SenderStep s { s with
      conns := update s.conns c { s.conns c with requests }, sender := .requesting m (i + 1) }
  | listen {m i : ℕ} (hs : s.sender = .requesting m i) (hi : cfg.infoHash.pieces.length ≤ i) :
    SenderStep s { s with sender := .waiting 0 }
  | recv {i : ℕ} {msg : Message} {resends : Channel Message resendCapacity}
    (hs : s.sender = .waiting i) (hq : s.resends.queue = msg :: resends.queue) :
    SenderStep s { s with resends, sender := .counting i msg }
  | finish {i : ℕ} (hs : s.sender = .waiting i) (hd : s.reassembler.resendDropped = true) :
    SenderStep s { s with sender := .ended (.ok ()) }
  | skip {i : ℕ} {msg : Message} (hs : s.sender = .counting i msg)
    (hm : s.assembler.numConnections ≠ 0)
    (hreq : resendRequest cfg.env cfg.infoHash cfg.hash (newSeeder s.assembler.numConnections i) msg
      = .ok none) :
    SenderStep s { s with sender := .waiting i }
  | count {i : ℕ} {msg request : Message} (hs : s.sender = .counting i msg)
    (hm : s.assembler.numConnections ≠ 0)
    (hreq : resendRequest cfg.env cfg.infoHash cfg.hash (newSeeder s.assembler.numConnections i) msg
      = .ok (some request)) :
    SenderStep s { s with sender := .resending s.assembler.numConnections i request }
  | lookAgain {m i : ℕ} {request : Message} {c : ConnId} (hs : s.sender = .resending m i request)
    (hc : s.assembler.requestTxs[(newSeeder m i).toNat]? = some c) :
    SenderStep s { s with
      sender := .sendingResend i c ⟨request, (newSeeder m i).toNat, s.removals.length⟩ }
  | sendAgain {i : ℕ} {c : ConnId} {sent : Sent} {requests : Channel Sent requestCapacity}
    (hs : s.sender = .sendingResend i c sent) (hrun : (s.conns c).running = true)
    (hq : requests.queue = (s.conns c).requests.queue ++ [sent]) :
    SenderStep s { s with
      conns := update s.conns c { s.conns c with requests }, sender := .waiting (i + 1) }

variable {cfg} {s t : Pipeline}

/-- Sending a request puts it into the channel or meets a dropped receiver. -/
lemma sendRequest_eq_some {c : ConnId} {sent : Sent} {next : SenderState}
    (h : s.sendRequest c sent next = some t) :
    (s.conns c).running = false ∧ t = { s with sender := .ended (.error sendError) } ∨
      ∃ requests : Channel Sent requestCapacity, (s.conns c).running = true ∧
        requests.queue = (s.conns c).requests.queue ++ [sent] ∧
        t = { s with conns := update s.conns c { s.conns c with requests }, sender := next } := by
  unfold sendRequest at h
  cases hrun : (s.conns c).running with
  | false =>
    simp only [hrun, Bool.false_eq_true, if_false, Option.some.injEq] at h
    exact .inl ⟨rfl, h.symm⟩
  | true =>
    simp only [hrun, if_true] at h
    obtain ⟨requests, hq, rfl⟩ := Option.map_eq_some_iff.mp h
    exact .inr ⟨requests, rfl, (Channel.send?_eq_some.mp hq).2, by simp [hrun]⟩

/-- A connection is found, or `send_requests` ends. -/
lemma lookup_cases (s : Pipeline) (position : ℕ) (msg : Message)
    (next : ConnId → Sent → SenderState) :
    s.assembler.requestTxs.length ≤ position ∧
        s.lookup position msg next = { s with sender := .ended (.error connectionMissing) } ∨
      ∃ c, s.assembler.requestTxs[position]? = some c ∧
        s.lookup position msg next
          = { s with sender := next c ⟨msg, position, s.removals.length⟩ } := by
  rw [lookup]
  cases hc : s.assembler.requestTxs[position]? with
  | none   => exact .inl ⟨List.getElem?_eq_none_iff.mp hc, rfl⟩
  | some c => exact .inr ⟨c, rfl, rfl⟩

/-- The only fault of a request that cannot be made is a panic. -/
lemma mulU32_eq_error {env : Env} {a b : UInt32} {fault : Fault}
    (h : mulU32 env a b = .error fault) : fault = .panic := by
  unfold mulU32 at h
  split_ifs at h
  exact (Except.error.inj h).symm

lemma initialRequest_eq_error {m i : ℕ} {fault : Fault}
    (h : initialRequest cfg.env cfg.infoHash cfg.hash m i = .error fault) : fault = .panic := by
  unfold initialRequest at h
  split_ifs at h
  · exact (Except.error.inj h).symm
  · cases hmul : mulU32 cfg.env cfg.infoHash.pieceLength (.ofNat i) with
    | error fault' =>
      rw [hmul] at h
      exact Except.error.inj h ▸ mulU32_eq_error hmul
    | ok begin =>
      rw [hmul] at h
      cases h

lemma resendRequest_eq_error {seeder : UInt32} {msg : Message} {fault : Fault}
    (h : resendRequest cfg.env cfg.infoHash cfg.hash seeder msg = .error fault) :
    fault = .panic := by
  cases msg with
  | piece index piece =>
    unfold resendRequest at h
    cases hmul : mulU32 cfg.env cfg.infoHash.pieceLength index with
    | error fault' =>
      simp only [hmul] at h
      exact Except.error.inj h ▸ mulU32_eq_error hmul
    | ok begin =>
      simp only [hmul] at h
      cases h
  | cancel => cases h
  | request => cases h

lemma senderStep_of_eq_some (h : s.stepSender cfg = some t) : SenderStep cfg s t := by
  unfold stepSender at h
  cases hs : s.sender with
  | starting =>
    simp only [hs, Option.some.injEq] at h
    exact h ▸ .start hs
  | requesting m i =>
    simp only [hs] at h
    split_ifs at h with hi
    · cases hreq : initialRequest cfg.env cfg.infoHash cfg.hash m i with
      | error fault =>
        simp only [hreq, Option.some.injEq] at h
        refine h ▸ .fail fault ?_ (.inr (by simp [hs, hi, hreq]))
        simp [initialRequest_eq_error hreq, connectionMissing]
      | ok request =>
        simp only [hreq, Option.some.injEq] at h
        subst h
        rcases lookup_cases s (i % m) request (.sendingRequest m i) with ⟨hlen, heq⟩ | ⟨c, hc, heq⟩
        · exact heq ▸ .miss ⟨m, i % m, by simp [lookup?, hs, hi], hlen⟩
        · exact heq ▸ .look hs hi hreq hc
    · rw [← Option.some.inj h]
      exact .listen hs (Nat.not_lt.mp hi)
  | sendingRequest m i c sent =>
    simp only [hs] at h
    rcases sendRequest_eq_some h with ⟨hrun, rfl⟩ | ⟨requests, hrun, hq, rfl⟩
    · exact .fail _ (by decide) (.inr (by simp [hs, hrun]))
    · exact .send hs hrun hq
  | waiting i =>
    simp only [hs] at h
    cases hr : s.resends.recv? with
    | none =>
      simp only [hr] at h
      split_ifs at h with hd
      rw [← Option.some.inj h]
      exact .finish hs hd
    | some p =>
      obtain ⟨msg, resends⟩ := p
      simp only [hr, Option.some.injEq] at h
      exact h ▸ .recv hs (Channel.recv?_eq_some.mp hr)
  | counting i msg =>
    simp only [hs] at h
    split_ifs at h with hm
    · rw [← Option.some.inj h]
      exact .fail _ (by decide) (.inr (by simp [hs, hm]))
    · cases hreq : resendRequest cfg.env cfg.infoHash cfg.hash
          (newSeeder s.assembler.numConnections i) msg with
      | error fault =>
        simp only [hreq, Option.some.injEq] at h
        refine h ▸ .fail _ ?_ (.inr ?_)
        · simp [resendRequest_eq_error hreq, connectionMissing]
        · simp only [hs]
          exact .inr ⟨_, hreq⟩
      | ok result =>
        cases result with
        | none =>
          simp only [hreq, Option.some.injEq] at h
          exact h ▸ .skip hs hm hreq
        | some request =>
          simp only [hreq, Option.some.injEq] at h
          exact h ▸ .count hs hm hreq
  | resending m i request =>
    simp only [hs, Option.some.injEq] at h
    subst h
    rcases lookup_cases s (newSeeder m i).toNat request (.sendingResend i)
      with ⟨hlen, heq⟩ | ⟨c, hc, heq⟩
    · exact heq ▸ .miss ⟨m, _, by simp [lookup?, hs], hlen⟩
    · exact heq ▸ .lookAgain hs hc
  | sendingResend i c sent =>
    simp only [hs] at h
    rcases sendRequest_eq_some h with ⟨hrun, rfl⟩ | ⟨requests, hrun, hq, rfl⟩
    · exact .fail _ (by decide) (.inr (by simp [hs, hrun]))
    · exact .sendAgain hs hrun hq
  | ended result => simp [hs] at h

/-! ### `reassemble_loop` -/

variable (cfg) in
/-- The steps of `reassemble_loop`. -/
inductive ReassemblerStep (s : Pipeline) : Pipeline → Prop
  | piece {replies : Channel Reply replyCapacity} {reply : Reply} {index : UInt32} {piece : Bytes}
    {result : Except Fault PieceResult} {store : Store} (hs : s.reassembler = .receiving)
    (hq : s.replies.queue = reply :: replies.queue) (hmsg : reply.msg = .piece index piece)
    (hrun : runOn (receivePiece cfg.env cfg.infoHash index piece) s.store = (result, store)) :
    ReassemblerStep s { s with
      replies, store, reassembler := .afterPiece reply.msg result }
  | cancel {replies : Channel Reply replyCapacity} {reply : Reply}
    {seeder index begin length : UInt32} (hs : s.reassembler = .receiving)
    (hq : s.replies.queue = reply :: replies.queue)
    (hmsg : reply.msg = .cancel seeder index begin length) :
    ReassemblerStep s { s with replies, reassembler := .removing seeder reply }
  | wrong {replies : Channel Reply replyCapacity} {reply : Reply}
    {seeder index begin length : UInt32} {hash : Digest} (hs : s.reassembler = .receiving)
    (hq : s.replies.queue = reply :: replies.queue)
    (hmsg : reply.msg = .request seeder index begin length hash) :
    ReassemblerStep s { s with replies, reassembler := .ended (.error wrongMessageType) }
  | resendClosed {msg : Message} (hs : s.reassembler = .resending msg)
    (he : s.sender.hasEnded = true) :
    ReassemblerStep s { s with reassembler := .ended (.error sendError) }
  | resend {msg : Message} {resends : Channel Message resendCapacity}
    (hs : s.reassembler = .resending msg) (he : s.sender.hasEnded = false)
    (hq : resends.queue = s.resends.queue ++ [msg]) :
    ReassemblerStep s { s with resends, reassembler := .receiving }
  | removePanic {seeder : UInt32} {reply : Reply} (hs : s.reassembler = .removing seeder reply)
    (hlock : s.sender.readLocked = false)
    (hlen : s.assembler.requestTxs.length ≤ seeder.toNat) :
    ReassemblerStep s { s with reassembler := .ended (.error .panic) }
  | remove {seeder : UInt32} {reply : Reply} {badTx : ConnId}
    (hs : s.reassembler = .removing seeder reply) (hlock : s.sender.readLocked = false)
    (hbad : s.assembler.requestTxs[seeder.toNat]? = some badTx) :
    ReassemblerStep s { s with
      assembler :=
        { s.assembler with requestTxs := s.assembler.requestTxs.eraseIdx seeder.toNat }
      reassembler := .decrementing badTx reply.msg
      removals := s.removals ++ [seeder.toNat] }
  | decrementPanic {badTx : ConnId} {msg : Message} {fault : Fault}
    (hs : s.reassembler = .decrementing badTx msg) (hm : s.assembler.numConnections = 0) :
    ReassemblerStep s { s with reassembler := .ended (.error fault) }
  | decrement {badTx : ConnId} {msg : Message} {n : ℕ}
    (hs : s.reassembler = .decrementing badTx msg)
    (hlock : s.sender.readLocked = false)
    (hn : subUsize cfg.env s.assembler.numConnections 1 = .ok n) :
    ReassemblerStep s { s with
      assembler := { s.assembler with numConnections := n }, reassembler := .checking msg }
  | retrieveFailed {msg : Message} (hs : s.reassembler = .checking msg)
    (hm : s.assembler.numConnections = 0) :
    ReassemblerStep s { s with reassembler := .ended (.error failedToRetrieve) }
  | check {msg : Message} (hs : s.reassembler = .checking msg)
    (hm : s.assembler.numConnections ≠ 0) :
    ReassemblerStep s { s with reassembler := .resending msg }
  | complete (hs : s.reassembler = .completing) (hlock : s.sender.readLocked = false) :
    ReassemblerStep s { s with
      assembler := s.assembler.drainRequestTxs, reassembler := .building }
  | build {result : Except Fault Unit} {store : Store} (hs : s.reassembler = .building)
    (hrun : runOn (buildFile cfg.infoHash) s.store = (result, store)) :
    ReassemblerStep s { s with store, reassembler := .ended result }

lemma reassemblerStep_of_eq_some (h : s.stepReassembler cfg = some t) :
    ReassemblerStep cfg s t := by
  unfold stepReassembler at h
  cases hs : s.reassembler with
  | receiving =>
    simp only [hs] at h
    cases hr : s.replies.recv? with
    | none => simp [hr] at h
    | some p =>
      obtain ⟨reply, replies⟩ := p
      have hq := Channel.recv?_eq_some.mp hr
      simp only [hr, Option.some.injEq, receive] at h
      cases hmsg : reply.msg with
      | piece index piece =>
        simp only [hmsg] at h
        rw [← h, ← hmsg]
        exact .piece hs hq hmsg rfl
      | cancel seeder index begin length =>
        simp only [hmsg] at h
        exact h ▸ .cancel hs hq hmsg
      | request seeder index begin length hash =>
        simp only [hmsg] at h
        exact h ▸ .wrong hs hq hmsg
  | resending msg =>
    simp only [hs] at h
    split_ifs at h with he
    · exact Option.some.inj h ▸ .resendClosed hs he
    · obtain ⟨resends, hq, rfl⟩ := Option.map_eq_some_iff.mp h
      exact .resend hs (Bool.eq_false_iff.mpr he) (Channel.send?_eq_some.mp hq).2
  | removing seeder reply =>
    simp only [hs] at h
    split_ifs at h with hlock
    rw [Bool.not_eq_true] at hlock
    by_cases hlt : seeder.toNat < s.assembler.requestTxs.length
    · simp only [List.getElem?_eq_getElem hlt, FileAssembler.removeRequestTx, if_pos hlt,
        Option.some.injEq] at h
      exact h ▸ .remove hs hlock (List.getElem?_eq_getElem hlt)
    · rw [Nat.not_lt] at hlt
      simp only [List.getElem?_eq_none hlt, Option.some.injEq] at h
      exact h ▸ .removePanic hs hlock hlt
  | decrementing badTx msg =>
    simp only [hs] at h
    split_ifs at h with hlock
    rw [Bool.not_eq_true] at hlock
    cases hn : subUsize cfg.env s.assembler.numConnections 1 with
    | error fault =>
      have hm : s.assembler.numConnections = 0 := by
        by_contra hm
        rw [subUsize_of_le cfg.env (Nat.one_le_iff_ne_zero.mpr hm)] at hn
        cases hn
      simp only [FileAssembler.decrementConnections, hn] at h
      exact Option.some.inj h ▸ .decrementPanic hs hm
    | ok n =>
      simp only [FileAssembler.decrementConnections, hn] at h
      exact Option.some.inj h ▸ .decrement hs hlock hn
  | checking msg =>
    simp only [hs] at h
    split_ifs at h with hm
    · exact Option.some.inj h ▸ .retrieveFailed hs hm
    · exact Option.some.inj h ▸ .check hs hm
  | completing =>
    simp only [hs] at h
    split_ifs at h with hlock
    exact Option.some.inj h ▸ .complete hs (Bool.eq_false_iff.mpr hlock)
  | building =>
    simp only [hs, Option.some.injEq] at h
    exact h ▸ .build hs rfl
  | ended result => simp [hs] at h

/-! ### The connection tasks -/

/-- What becomes of a reply: it waits in the channel, unless the loop has ended. -/
inductive Delivered (s : Pipeline) (reply : Reply) : Pipeline → Prop
  | dropped (he : s.reassembler.hasEnded = true) : Delivered s reply s
  | queued {replies : Channel Reply replyCapacity} (he : s.reassembler.hasEnded = false)
    (hq : replies.queue = s.replies.queue ++ [reply]) : Delivered s reply { s with replies }

/-- The steps of connection `c`. -/
inductive ConnectionStep (s : Pipeline) (c : ConnId) : ConnectionAction → Pipeline → Prop
  | take {sent : Sent} {requests : Channel Sent requestCapacity} (hh : (s.conns c).hand = none)
    (hq : (s.conns c).requests.queue = sent :: requests.queue) :
    ConnectionStep s c .take (s.setConn c { s.conns c with requests, hand := some sent })
  | close (hh : (s.conns c).hand = none) (hq : (s.conns c).requests.queue = []) :
    ConnectionStep s c .take (s.setConn c .closed)
  | answer {msg : Message} {sent : Sent} {t : Pipeline} (hh : (s.conns c).hand = some sent)
    (hd : Delivered (s.clearHand c) ⟨msg, c, some sent⟩ t) : ConnectionStep s c (.answer msg) t
  | refuse {sent : Sent} {cancel : Message} {t : Pipeline} (hh : (s.conns c).hand = some sent)
    (hmsg : sent.msg.toCancel = some cancel)
    (hd : Delivered (s.clearHand c) ⟨cancel, c, some sent⟩ t) : ConnectionStep s c .refuse t
  | refuseClosed {sent : Sent} (hh : (s.conns c).hand = some sent)
    (he : s.reassembler.hasEnded = true) : ConnectionStep s c .refuse (s.setConn c .closed)
  | refuseOther {sent : Sent} (hh : (s.conns c).hand = some sent)
    (hmsg : sent.msg.toCancel = none) : ConnectionStep s c .refuse (s.clearHand c)
  | lose {sent : Sent} (hh : (s.conns c).hand = some sent) :
    ConnectionStep s c .lose (s.clearHand c)
  | pass {msg : Message} {t : Pipeline} (hd : Delivered s ⟨msg, c, none⟩ t) :
    ConnectionStep s c (.pass msg) t
  | drop : ConnectionStep s c .drop (s.setConn c .closed)

lemma delivered_of_eq_some {reply : Reply} (h : s.deliver reply = some t) :
    Delivered s reply t := by
  unfold deliver at h
  split_ifs at h with he
  · exact Option.some.inj h ▸ .dropped he
  · obtain ⟨replies, hq, rfl⟩ := Option.map_eq_some_iff.mp h
    exact .queued (Bool.eq_false_iff.mpr he) (Channel.send?_eq_some.mp hq).2

lemma connectionStep_of_eq_some {c : ConnId} {act : ConnectionAction}
    (h : s.stepConnection c act = some t) : ConnectionStep s c act t := by
  cases act with
  | take =>
    simp only [stepConnection, Pipeline.take] at h
    cases hh : (s.conns c).hand with
    | some sent => simp [hh] at h
    | none =>
      cases hr : (s.conns c).requests.recv? with
      | none =>
        simp only [hh, hr] at h
        split_ifs at h
        exact Option.some.inj h ▸ .close hh (Channel.recv?_eq_none.mp hr)
      | some p =>
        obtain ⟨sent, requests⟩ := p
        simp only [hh, hr, Option.some.injEq] at h
        exact h ▸ .take hh (Channel.recv?_eq_some.mp hr)
  | answer msg =>
    simp only [stepConnection, Pipeline.answer] at h
    cases hh : (s.conns c).hand with
    | none      => simp [hh] at h
    | some sent =>
      simp only [hh] at h
      exact .answer hh (delivered_of_eq_some h)
  | refuse =>
    simp only [stepConnection, Pipeline.refuse] at h
    cases hh : (s.conns c).hand with
    | none      => simp [hh] at h
    | some sent =>
      simp only [hh] at h
      cases hmsg : sent.msg.toCancel with
      | none =>
        simp only [hmsg, Option.some.injEq] at h
        exact h ▸ .refuseOther hh hmsg
      | some cancel =>
        simp only [hmsg] at h
        split_ifs at h with he
        · exact Option.some.inj h ▸ .refuseClosed hh he
        · exact .refuse hh hmsg (delivered_of_eq_some h)
  | lose =>
    obtain ⟨sent, hh, rfl⟩ := Option.map_eq_some_iff.mp h
    exact .lose hh
  | pass msg => exact .pass (delivered_of_eq_some h)
  | drop => exact Option.some.inj h ▸ .drop

/-- A connection leaves everything but the connections and the replies as it is. -/
lemma ConnectionStep.frame {c : ConnId} {act : ConnectionAction} (h : ConnectionStep s c act t) :
    t = { s with conns := t.conns, replies := t.replies } := by
  cases h with
  | answer _ hd   => cases hd <;> rfl
  | refuse _ _ hd => cases hd <;> rfl
  | pass hd       => cases hd <;> rfl
  | _             => rfl

variable (cfg) in
/-- The steps of the pipeline. -/
inductive Steps (s : Pipeline) : Action → Pipeline → Prop
  | send {t : Pipeline} (h : SenderStep cfg s t) : Steps s .send t
  | reassemble {t : Pipeline} (h : ReassemblerStep cfg s t) : Steps s .reassemble t
  | connection {c : ConnId} {act : ConnectionAction} {t : Pipeline} (hc : c < cfg.numConnections)
    (hrun : (s.conns c).running = true) (h : ConnectionStep s c act t) :
    Steps s (.connection c act) t

/-- A step follows one of the rules. -/
theorem steps_of_eq_some {a : Action} (h : s.step cfg a = some t) : Steps cfg s a t := by
  cases a with
  | send => exact .send (senderStep_of_eq_some h)
  | reassemble => exact .reassemble (reassemblerStep_of_eq_some h)
  | connection c act =>
    simp only [step] at h
    split_ifs at h with hc
    exact .connection hc.1 hc.2 (connectionStep_of_eq_some h)

end BearTorrent.Pipeline
