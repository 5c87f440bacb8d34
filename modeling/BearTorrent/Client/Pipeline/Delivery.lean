import BearTorrent.Client.Pipeline.Deadlock

/-!
# No piece is lost

Every piece is outstanding, on disk, or lost, and a piece is only lost in a step in which a task
gives up the message it holds or a connection ends with requests. When nothing can move any more,
all pieces are on disk unless one was lost or the pipeline is deadlocked.
-/

namespace BearTorrent.Pipeline

variable {cfg : Config} {s t : Pipeline} {W : Finset ℕ}

/-- Piece `i` is on disk: it is marked as written, or the file is built. -/
def OnDisk (cfg : Config) (s : Pipeline) (i : ℕ) : Prop :=
  (download s.store cfg.infoHash.name).file.isSome = true ∨
    ((download s.store cfg.infoHash.name).status cfg.infoHash.pieces.length)[i]? = some 1

/-- Neither `send_requests` nor `reassemble_loop` nor a connection that runs can go on. -/
structure Stuck (cfg : Config) (s : Pipeline) : Prop where
  send : s.step cfg .send = none
  reassemble : s.step cfg .reassemble = none
  take : ∀ c, s.step cfg (.connection c .take) = none
  answer : ∀ c msg, s.step cfg (.connection c (.answer msg)) = none

/-- Exactly the pieces in `W` are on disk, all of them once the loop has found the file complete. -/
def Stored (cfg : Config) (s : Pipeline) (W : Finset ℕ) : Prop :=
  match s.reassembler with
  | .completing   =>
    W = Finset.range cfg.infoHash.pieces.length ∧
      Written cfg.infoHash (download s.store cfg.infoHash.name) W
  | .building     =>
    W = Finset.range cfg.infoHash.pieces.length ∧
      Written cfg.infoHash (download s.store cfg.infoHash.name) W
  | .ended (.ok _) =>
    W = Finset.range cfg.infoHash.pieces.length ∧
      (download s.store cfg.infoHash.name).file.isSome = true
  | _ => Written cfg.infoHash (download s.store cfg.infoHash.name) W

lemma stored_init {σ : Store} (hσ : Fresh σ cfg.infoHash.name) :
    Stored cfg (init cfg σ) ∅ := by
  change Written _ (download σ _) ∅
  rw [hσ]
  exact written_fresh _

/-- The pieces in `W` are those on disk. -/
lemma Stored.onDisk_iff (hs : Stored cfg s W) :
    (∀ i < cfg.infoHash.pieces.length, OnDisk cfg s i) ↔
      W = Finset.range cfg.infoHash.pieces.length := by
  have hwritten : Written cfg.infoHash (download s.store cfg.infoHash.name) W →
      ((∀ i < cfg.infoHash.pieces.length, OnDisk cfg s i) ↔
        W = Finset.range cfg.infoHash.pieces.length) := by
    intro hw
    rw [hw.eq_range_iff]
    refine forall₂_congr fun i _ => ?_
    simp [OnDisk, hw.file]
  unfold Stored at hs
  split at hs
  · exact hwritten hs.2
  · exact hwritten hs.2
  · exact iff_of_true (fun i _ => .inl hs.2) hs.1
  · exact hwritten hs

/-- What a received piece does to the disk. -/
lemma Stored.piece (hs : Stored cfg s W) (hst : s.reassembler = .receiving)
    {replies : Channel Reply replyCapacity} {reply : Reply} {index : UInt32} {piece : Bytes}
    {result : Except Fault PieceResult} {store : Store}
    (hq : s.replies.queue = reply :: replies.queue) (hmsg : reply.msg = .piece index piece)
    (hrun : runOn (receivePiece cfg.env cfg.infoHash index piece) s.store = (result, store))
    (hgood : GoodReply cfg reply) (hindex : index.toNat < cfg.infoHash.pieces.length) :
    (s.ReassembleFails cfg ∧ settled index.toNat result = {index.toNat} ∧
        Stored cfg { s with replies, store, reassembler := .afterPiece reply.msg result } W) ∨
      (¬ s.ReassembleFails cfg ∧ (∃ r, result = .ok r) ∧
        (settled index.toNat result = 0 ∧
            Stored cfg { s with replies, store, reassembler := .afterPiece reply.msg result } W ∨
          settled index.toNat result = {index.toNat} ∧
            Stored cfg { s with replies, store, reassembler := .afterPiece reply.msg result }
              (insert index.toNat W))) := by
  simp only [Stored, hst] at hs
  have hfails : s.ReassembleFails cfg ↔ Accepted cfg.env cfg.infoHash index piece ∧
      ∃ fault, mulU32 cfg.env index cfg.infoHash.pieceLength = .error fault := by
    simp [ReassembleFails, hst, hq, hmsg]
  rw [hfails]
  have hpayload : Accepted cfg.env cfg.infoHash index piece ∨
      Corrupted cfg.env cfg.infoHash index piece := by
    rcases hgood with ⟨_, _, hpiece, hpayload⟩ | ⟨_, _, _, _, hcancel⟩
    · rw [hmsg] at hpiece
      cases hpiece
      exact hpayload
    · rw [hmsg] at hcancel
      cases hcancel
  by_cases hacc : Accepted cfg.env cfg.infoHash index piece
  · cases hoff : mulU32 cfg.env index cfg.infoHash.pieceLength with
    | error fault =>
      rw [runOn_receivePiece_overflow cfg.env hacc hoff] at hrun
      cases hrun
      exact .inl ⟨⟨hacc, fault, rfl⟩, rfl, hs.touch⟩
    | ok offset =>
      obtain ⟨σ', hrun', hd⟩ := runOn_receivePiece_written cfg.env hs hindex hoff hacc
      rw [hrun'] at hrun
      cases hrun
      have hw : Written cfg.infoHash (download (initInfo σ' cfg.infoHash) cfg.infoHash.name)
          (insert index.toNat W) := by
        refine Written.initInfo ?_
        rw [hd]
        exact hs.write hindex _ piece
      refine .inr ⟨by simp, ⟨_, rfl⟩, .inr ?_⟩
      split_ifs with hc
      · exact ⟨rfl, hc, hw⟩
      · exact ⟨rfl, hw⟩
  · obtain ⟨digest, hdigest, hfull, hne⟩ := hpayload.resolve_left hacc
    rw [runOn_receivePiece_corrupted cfg.env hfull (expectedHash_eq_ok.mpr hdigest) hne] at hrun
    cases hrun
    exact .inr ⟨fun h => hacc h.1, ⟨_, rfl⟩, .inl ⟨rfl, hs⟩⟩

/-- The other steps of `reassemble_loop` leave the pieces on disk as they are. -/
lemma Stored.stepReassembler (hs : Stored cfg s W) (h : ReassemblerStep cfg s t)
    (hpiece : ReceivesCancel s) : Stored cfg t W := by
  cases h with
  | piece hst hq hmsg =>
    obtain ⟨_, _, _, _, hcancel⟩ := hpiece hst _ (by rw [hq]; rfl)
    rw [hcancel] at hmsg
    cases hmsg
  | @build result store hst hrun =>
    simp only [Stored, hst] at hs
    obtain ⟨hW, hw⟩ := hs
    obtain ⟨σ', hbuild, hd⟩ :=
      runOn_buildFile_ok cfg.infoHash s.store (hw.hasAllPieces_iff.mpr hW) hw.file
    rw [hbuild] at hrun
    cases hrun
    exact ⟨hW, by rw [hd]; rfl⟩
  | complete hst => simpa only [Stored, hst] using hs
  | cancel hst => simpa only [Stored, hst] using hs
  | wrong hst => simpa only [Stored, hst] using hs
  | resendClosed hst => simpa only [Stored, hst] using hs
  | resend hst => simpa only [Stored, hst] using hs
  | removePanic hst => simpa only [Stored, hst] using hs
  | remove hst => simpa only [Stored, hst] using hs
  | decrementPanic hst => simpa only [Stored, hst] using hs
  | decrement hst => simpa only [Stored, hst] using hs
  | retrieveFailed hst => simpa only [Stored, hst] using hs
  | check hst => simpa only [Stored, hst] using hs

lemma Stored.stepSender (hs : Stored cfg s W) (h : SenderStep cfg s t) : Stored cfg t W := by
  cases h <;> exact hs

lemma Stored.stepConnection (hs : Stored cfg s W) {c : ConnId} {act : ConnectionAction}
    (h : ConnectionStep s c act t) : Stored cfg t W := by
  rw [h.frame]
  exact hs

/-- Only pieces that a request can number get on disk. -/
def StoredNumbered (cfg : Config) (s : Pipeline) : Prop :=
  Answered cfg s ∧ ∃ W, Stored cfg s W ∧ ∀ i ∈ W, i < 2 ^ 32

lemma StoredNumbered.step (hn : 2 ^ 32 < cfg.infoHash.pieces.length)
    (hs : StoredNumbered cfg s) {a : Action} (ha : Answers cfg s a) (h : Steps cfg s a t) :
    StoredNumbered cfg t := by
  obtain ⟨hans, W, hstored, hW⟩ := hs
  refine ⟨hans.step ha h, ?_⟩
  cases h with
  | send h => exact ⟨W, hstored.stepSender h, hW⟩
  | connection _ _ h => exact ⟨W, hstored.stepConnection h, hW⟩
  | reassemble h =>
    rcases h.piece_or hans with
      ⟨replies, reply, index, piece, result, store, hst, hq, hmsg, hrun, rfl⟩ | hcancel
    · have hlt : index.toNat < 2 ^ 32 := index.toNat_lt
      rcases hstored.piece hst hq hmsg hrun (hans.replies reply (hq ▸ List.mem_cons_self))
        (hlt.trans hn) with ⟨-, -, hstored⟩ | ⟨-, -, ⟨-, hstored⟩ | ⟨-, hstored⟩⟩
      · exact ⟨W, hstored, hW⟩
      · exact ⟨W, hstored, hW⟩
      · refine ⟨_, hstored, fun i hi => ?_⟩
        rcases Finset.mem_insert.mp hi with rfl | hi
        · exact hlt
        · exact hW i hi
    · exact ⟨W, hstored.stepReassembler h hcancel, hW⟩

/-! ### The balance of the pieces -/

/-- Every piece is outstanding, on disk or lost, and in no two of these places. -/
structure Balanced (cfg : Config) (s : Pipeline) (W : Finset ℕ) (lost : Multiset ℕ) : Prop where
  registered : Registered cfg s
  answered : Answered cfg s
  stored : Stored cfg s W
  total : outstanding cfg s + W.val + lost = Multiset.range cfg.infoHash.pieces.length

variable {lost : Multiset ℕ}

lemma balanced_init {σ : Store} (hσ : Fresh σ cfg.infoHash.name) :
    Balanced cfg (init cfg σ) ∅ 0 where
  registered := registered_init cfg σ
  answered := answered_init cfg σ
  stored := stored_init hσ
  total := by
    simp [outstanding, init, SenderState.outstanding, ReassembleState.outstanding,
      ReassembleState.held, outstandingReplies, outstandingResends, Connection.outstanding,
      Connection.pending, Connection.idle, Multiset.range, List.range_eq_range']

/-- A piece that is under way is not on disk. -/
lemma Balanced.head_reply (hs : Balanced cfg s W lost) {reply : Reply} {q : List Reply}
    (hq : s.replies.queue = reply :: q) :
    reply.msg.pieceIndex < cfg.infoHash.pieces.length ∧ reply.msg.pieceIndex ∉ W := by
  have hmem : reply.msg.pieceIndex ∈ outstanding cfg s := by
    simp [outstanding, outstandingReplies, hq]
  have hnodup : (outstanding cfg s + W.val + lost).Nodup :=
    hs.total ▸ Multiset.nodup_range _
  constructor
  · rw [← Multiset.mem_range, ← hs.total]
    simp [hmem]
  · have hdisjoint := (Multiset.nodup_add.mp (Multiset.nodup_add.mp hnodup).1).2.2
    exact Multiset.disjoint_left.mp hdisjoint hmem

/-- A step keeps the balance, and it adds to the lost pieces exactly when it loses one. -/
lemma Balanced.step (hn : cfg.infoHash.pieces.length ≤ 2 ^ 32) (hs : Balanced cfg s W lost)
    {a : Action} (ha : Answers cfg s a) (h : s.step cfg a = some t) :
    ∃ W' gone, Balanced cfg t W' (lost + gone) ∧ (gone = 0 ↔ ¬ s.Loses cfg a) := by
  have hfits : IndexFits cfg s := fun m i _ hi => hi.trans_le hn
  have hsteps := steps_of_eq_some h
  have hreg := hs.registered.step h
  have hans := hs.answered.step ha hsteps
  -- nothing is written in a step of another task
  have hkeep : ∀ gone, Stored cfg t W → outstanding cfg s = outstanding cfg t + gone →
      Balanced cfg t W (lost + gone) := by
    intro gone hstored heq
    refine ⟨hreg, hans, hstored, ?_⟩
    rw [← hs.total, heq]
    abel
  cases hsteps with
  | send h =>
    obtain ⟨gone, heq, hgone⟩ := h.outstanding hs.registered hs.answered hfits
    exact ⟨W, gone, hkeep gone (hs.stored.stepSender h) heq, hgone⟩
  | connection hc hrun h =>
    obtain ⟨gone, heq, hgone⟩ := h.outstanding hs.registered hc ha
    exact ⟨W, gone, hkeep gone (hs.stored.stepConnection h) heq, hgone⟩
  | reassemble h =>
    rcases h.piece_or hs.answered with
      ⟨replies, reply, index, piece, result, store, hst, hq, hmsg, hrun, rfl⟩ | hcancel
    · have heq := outstanding_piece cfg hst hq hmsg result store
      obtain ⟨hlt, hnot⟩ := hs.head_reply hq
      rw [show reply.msg.pieceIndex = index.toNat by rw [hmsg]; rfl] at hlt hnot
      rcases hs.stored.piece hst hq hmsg hrun (hs.answered.replies reply (hq ▸ List.mem_cons_self))
        hlt with ⟨hfails, hsettled, hstored⟩ |
          ⟨hfails, -, ⟨hsettled, hstored⟩ | ⟨hsettled, hstored⟩⟩
      · exact ⟨W, _, hkeep _ hstored heq, iff_of_false (by simp [hsettled]) (not_not.mpr hfails)⟩
      · exact ⟨W, _, hkeep _ hstored heq, iff_of_true hsettled hfails⟩
      · refine ⟨insert index.toNat W, 0, ⟨hreg, hans, hstored, ?_⟩, iff_of_true rfl hfails⟩
        rw [← hs.total, heq, hsettled, Finset.insert_val_of_notMem hnot, ← Multiset.singleton_add]
        abel
    · obtain ⟨gone, heq, hgone⟩ := h.outstanding hs.registered hcancel
      exact ⟨W, gone, hkeep gone (hs.stored.stepReassembler h hcancel) heq, hgone⟩

/-- The lost pieces of a run: there are none exactly when no step loses one. -/
lemma exists_balanced (hn : cfg.infoHash.pieces.length ≤ 2 ^ 32) {σ : Store}
    (hσ : Fresh σ cfg.infoHash.name) {tr : List (Pipeline × Action)}
    (hrun : Transition.Run (Pipeline.step cfg) (init cfg σ) tr s)
    (hanswers : ∀ p ∈ tr, Answers cfg p.1 p.2) :
    ∃ W lost, Balanced cfg s W lost ∧ (lost = 0 ↔ ∀ p ∈ tr, ¬ p.1.Loses cfg p.2) := by
  induction hrun with
  | nil => exact ⟨∅, 0, balanced_init hσ, by simp⟩
  | @snoc t u tr a hrun ha ih =>
    obtain ⟨W, lost, hs, hlost⟩ := ih fun p hp => hanswers p (List.mem_append_left _ hp)
    obtain ⟨W', gone, ht, hgone⟩ := hs.step hn (hanswers (t, a) (by simp)) ha
    refine ⟨W', lost + gone, ht, ?_⟩
    have hadd : lost + gone = 0 ↔ lost = 0 ∧ gone = 0 := by
      simp only [← Multiset.card_eq_zero, Multiset.card_add, Nat.add_eq_zero_iff]
    rw [hadd, hlost, hgone]
    simp only [List.mem_append, List.mem_singleton, or_imp, forall_and, forall_eq]

/-! ### When nothing can move any more -/

/-- As long as no piece is lost, no task ends before its time. -/
structure Unbroken (s : Pipeline) : Prop where
  sender : s.sender.hasEnded = true → s.reassembler.resendDropped = true
  reassembler : ∀ fault, s.reassembler ≠ .ended (.error fault)

/-- A task that has ended holds no requests. -/
def ClosedEmpty (s : Pipeline) : Prop :=
  ∀ c, (s.conns c).running = false → (s.conns c).pending = []

lemma ClosedEmpty.update {conns : ConnId → Connection} {c : ConnId} {conn : Connection}
    (hs : ∀ c, (conns c).running = false → (conns c).pending = [])
    (hconn : conn.running = false → conn.pending = []) (c' : ConnId)
    (h : (Function.update conns c conn c').running = false) :
    (Function.update conns c conn c').pending = [] := by
  by_cases hc : c' = c
  · subst hc
    rw [Function.update_self] at h ⊢
    exact hconn h
  · rw [Function.update_of_ne hc] at h ⊢
    exact hs c' h

lemma ClosedEmpty.step {a : Action} (hs : ClosedEmpty s) (h : Steps cfg s a t) :
    ClosedEmpty t := by
  cases h with
  | send h =>
    cases h with
    | send hst hrun hq => exact ClosedEmpty.update hs (by simp [hrun])
    | sendAgain hst hrun hq => exact ClosedEmpty.update hs (by simp [hrun])
    | _ => exact hs
  | reassemble h => cases h <;> exact hs
  | @connection c _ _ _ hrun h =>
    have hclear : ClosedEmpty (s.clearHand c) := ClosedEmpty.update hs (by simp [hrun])
    cases h with
    | take => exact ClosedEmpty.update hs (by simp [hrun])
    | answer _ hd => cases hd <;> exact hclear
    | refuse _ _ hd => cases hd <;> exact hclear
    | pass hd => cases hd <;> exact hs
    | lose => exact hclear
    | refuseOther => exact hclear
    | _ => exact ClosedEmpty.update hs fun _ => rfl

lemma Unbroken.stepReassembler (hs : Unbroken s) (hb : Balanced cfg s W lost)
    (hkept : ¬ s.ReassembleFails cfg) (h : ReassemblerStep cfg s t) : Unbroken t := by
  -- `send_requests` only ends after the loop has dropped the resend channel
  have hrunning : ∀ {state : ReassembleState}, s.reassembler = state →
      state.resendDropped = false → s.sender.hasEnded = true → False := by
    intro state hst hd he
    have := hs.sender he
    rw [hst, hd] at this
    cases this
  rcases h.piece_or hb.answered with
    ⟨replies, reply, index, piece, result, store, hst, hq, hmsg, hrun, rfl⟩ | hcancel
  · obtain ⟨hlt, -⟩ := hb.head_reply hq
    rw [show reply.msg.pieceIndex = index.toNat by rw [hmsg]; rfl] at hlt
    rcases hb.stored.piece hst hq hmsg hrun (hb.answered.replies reply (hq ▸ List.mem_cons_self))
      hlt with ⟨hfails, -⟩ | ⟨-, ⟨r, rfl⟩, -⟩
    · exact absurd hfails hkept
    · exact ⟨fun he => (hrunning hst rfl he).elim, fun fault => by cases r <;> simp
        [ReassembleState.afterPiece]⟩
  have hstored := hb.stored.stepReassembler h hcancel
  cases h with
  | piece hst hq hmsg =>
    obtain ⟨_, _, _, _, hcancel⟩ := hcancel hst _ (by rw [hq]; rfl)
    rw [hcancel] at hmsg
    cases hmsg
  | wrong hst hq hmsg =>
    obtain ⟨_, _, _, _, hcancel⟩ := hcancel hst _ (by rw [hq]; rfl)
    rw [hcancel] at hmsg
    cases hmsg
  | resendClosed hst he => exact (hrunning hst rfl he).elim
  | removePanic hst _ hlen => exact absurd (by simpa [ReassembleFails, hst] using hlen) hkept
  | decrementPanic hst hm =>
    have hle := hb.registered.le_count
    rcases hb.registered.txs with ⟨-, hlen⟩ | ⟨hd, -⟩
    · simp only [hst, ReassembleState.uncounted, hm] at hle
      omega
    · simp [hst, ReassembleState.resendDropped] at hd
  | retrieveFailed hst hm => exact absurd (by simpa [ReassembleFails, hst] using hm) hkept
  | @build result store hst hrun =>
    refine ⟨fun _ => rfl, fun fault h => ?_⟩
    obtain ⟨hW, hw⟩ : W = Finset.range cfg.infoHash.pieces.length ∧
        Written cfg.infoHash (download s.store cfg.infoHash.name) W := by
      simpa only [Stored, hst] using hb.stored
    obtain ⟨σ', hbuild, -⟩ :=
      runOn_buildFile_ok cfg.infoHash s.store (hw.hasAllPieces_iff.mpr hW) hw.file
    rw [hbuild] at hrun
    cases hrun
    cases h
  | cancel hst => exact ⟨fun he => (hrunning hst rfl he).elim, by simp⟩
  | resend hst => exact ⟨fun he => (hrunning hst rfl he).elim, by simp⟩
  | remove hst => exact ⟨fun he => (hrunning hst rfl he).elim, by simp⟩
  | decrement hst => exact ⟨fun he => (hrunning hst rfl he).elim, by simp⟩
  | check hst => exact ⟨fun he => (hrunning hst rfl he).elim, by simp⟩
  | complete hst => exact ⟨fun he => (hrunning hst rfl he).elim, by simp⟩

lemma Unbroken.step (hs : Unbroken s) (hb : Balanced cfg s W lost) {a : Action}
    (hkept : ¬ s.Loses cfg a) (h : Steps cfg s a t) : Unbroken t := by
  cases h with
  | send h =>
    cases h with
    | miss hmiss => exact absurd (.inl hmiss) hkept
    | fail fault hne hf => exact absurd hf hkept
    | finish hst hd => exact ⟨fun _ => hd, hs.reassembler⟩
    | _ => exact ⟨fun he => (by cases he), hs.reassembler⟩
  | reassemble h => exact hs.stepReassembler hb hkept h
  | connection _ _ h =>
    rw [h.frame]
    exact ⟨hs.sender, hs.reassembler⟩

/-- A connection that cannot go on has nothing to do, or waits for room among the replies. -/
lemma Stuck.connection (h : Stuck cfg s) (hended : s.reassembler.hasEnded = false) {c : ConnId}
    (hc : c < cfg.numConnections) (hrun : (s.conns c).running = true) :
    (s.conns c).hand = none ∧ (s.conns c).requests.queue = [] ∨
      (s.conns c).hand.isSome = true ∧ s.replies.Full := by
  cases hhand : (s.conns c).hand with
  | none =>
    refine .inl ⟨rfl, ?_⟩
    have htake := h.take c
    simp only [Pipeline.step, hc, hrun, and_self, if_true, stepConnection, Pipeline.take,
      hhand] at htake
    cases hrecv : (s.conns c).requests.recv? with
    | none => exact Channel.recv?_eq_none.mp hrecv
    | some p => simp [hrecv] at htake
  | some sent =>
    refine .inr ⟨rfl, ?_⟩
    have hanswer := h.answer c sent.msg
    simp only [Pipeline.step, hc, hrun, and_self, if_true, stepConnection, Pipeline.answer, hhand,
      deliver, clearHand, setConn, hended, Bool.false_eq_true, if_false, Option.map_eq_none_iff,
      Channel.send?_eq_none] at hanswer
    exact hanswer

/-- Where `send_requests` cannot go on. -/
lemma Stuck.sender (h : Stuck cfg s) (hs : Unbroken s) :
    (∃ i, s.sender = .waiting i ∧ s.resends.queue = [] ∧ s.reassembler.resendDropped = false) ∨
      (∃ c sent, s.sender.target = some (c, sent) ∧ (s.conns c).running = true ∧
        (s.conns c).requests.Full) ∨
      s.reassembler.resendDropped = true := by
  have hsend := h.send
  simp only [Pipeline.step, stepSender] at hsend
  have hfull : ∀ {c : ConnId} {sent : Sent} {next : SenderState},
      s.sendRequest c sent next = none →
        (s.conns c).running = true ∧ (s.conns c).requests.Full := by
    intro c sent next hnone
    unfold sendRequest at hnone
    cases hrun : (s.conns c).running with
    | false => simp [hrun] at hnone
    | true => exact ⟨rfl, by simpa [hrun, Channel.send?_eq_none] using hnone⟩
  cases hst : s.sender with
  | starting => simp [hst] at hsend
  | requesting m i =>
    simp only [hst] at hsend
    split_ifs at hsend
    split at hsend <;> cases hsend
  | sendingRequest m i c sent =>
    simp only [hst] at hsend
    exact .inr (.inl ⟨c, sent, rfl, hfull hsend⟩)
  | waiting i =>
    simp only [hst] at hsend
    cases hrecv : s.resends.recv? with
    | some p => simp [hrecv] at hsend
    | none =>
      simp only [hrecv] at hsend
      split_ifs at hsend with hd
      exact .inl ⟨i, rfl, Channel.recv?_eq_none.mp hrecv, Bool.eq_false_iff.mpr hd⟩
  | counting i msg =>
    simp only [hst] at hsend
    split_ifs at hsend
    split at hsend <;> cases hsend
  | resending m i request => simp [hst] at hsend
  | sendingResend i c sent =>
    simp only [hst] at hsend
    exact .inr (.inl ⟨c, sent, rfl, hfull hsend⟩)
  | ended result => exact .inr (.inr (hs.sender (by simp [hst, SenderState.hasEnded])))

/-- Where `reassemble_loop` cannot go on. -/
lemma Stuck.reassembler (h : Stuck cfg s) (hs : Unbroken s) :
    s.reassembler = .receiving ∧ s.replies.queue = [] ∨
      s.sender.readLocked = true ∧ s.reassembler.wantsLock = true ∨
      (∃ msg, s.reassembler = .resending msg ∧ s.resends.Full) ∨
      s.reassembler = .ended (.ok ()) := by
  have hreassemble := h.reassemble
  simp only [Pipeline.step, stepReassembler] at hreassemble
  cases hst : s.reassembler with
  | receiving =>
    simp only [hst] at hreassemble
    cases hrecv : s.replies.recv? with
    | none => exact .inl ⟨rfl, Channel.recv?_eq_none.mp hrecv⟩
    | some p => simp [hrecv] at hreassemble
  | resending msg =>
    simp only [hst] at hreassemble
    split_ifs at hreassemble
    exact .inr (.inr (.inl ⟨msg, rfl, by
      simpa [Channel.send?_eq_none] using hreassemble⟩))
  | removing seeder reply =>
    simp only [hst] at hreassemble
    split_ifs at hreassemble with hlock
    · exact .inr (.inl ⟨hlock, rfl⟩)
    · split at hreassemble <;> cases hreassemble
  | decrementing badTx msg =>
    simp only [hst] at hreassemble
    split_ifs at hreassemble with hlock
    · exact .inr (.inl ⟨hlock, rfl⟩)
    · split at hreassemble <;> cases hreassemble
  | checking msg =>
    simp only [hst] at hreassemble
    split_ifs at hreassemble
  | completing =>
    simp only [hst] at hreassemble
    split_ifs at hreassemble with hlock
    exact .inr (.inl ⟨hlock, rfl⟩)
  | building => simp [hst] at hreassemble
  | ended result =>
    cases result with
    | error fault => exact absurd hst (hs.reassembler fault)
    | ok u => exact .inr (.inr (.inr rfl))

/-- Once all pieces are on disk, none is outstanding or lost. -/
lemma Balanced.eq_zero (hb : Balanced cfg s W lost)
    (hW : W = Finset.range cfg.infoHash.pieces.length) : outstanding cfg s = 0 ∧ lost = 0 := by
  have htotal := congrArg Multiset.card hb.total
  rw [hW, Multiset.card_add, Multiset.card_add, ← Finset.card_def, Finset.card_range,
    Multiset.card_range] at htotal
  exact ⟨Multiset.card_eq_zero.mp (by omega), Multiset.card_eq_zero.mp (by omega)⟩

/-- When nothing can move and nothing is lost, all pieces are on disk or the tasks wait for each
other. -/
lemma Stuck.outstanding_eq_zero (h : Stuck cfg s) (hs : Unbroken s) (hb : Balanced cfg s W 0)
    (hclosed : ClosedEmpty s) (hfree : ¬ Deadlocked cfg s) : outstanding cfg s = 0 := by
  rcases h.reassembler hs with ⟨hst, hreplies⟩ | ⟨hlocked, hlock⟩ | ⟨msg, hst, hfull⟩ | hst
  · have hended : s.reassembler.hasEnded = false := by rw [hst]; rfl
    -- no connection has anything to do
    have hidle : ∀ c < cfg.numConnections, (s.conns c).pending = [] := by
      intro c hc
      cases hrun : (s.conns c).running with
      | false => exact hclosed c hrun
      | true =>
        rcases h.connection hended hc hrun with ⟨hhand, hqueue⟩ | ⟨-, hfull⟩
        · simp [Connection.pending, hhand, hqueue]
        · rw [Channel.Full, hreplies] at hfull
          cases hfull
    rcases h.sender hs with ⟨i, hsender, hresends, -⟩ | ⟨c, sent, htarget, -, hfull⟩ | hd
    · have hconns : ∑ c ∈ Finset.range cfg.numConnections, (s.conns c).outstanding = 0 := by
        refine Finset.sum_eq_zero fun c hc => ?_
        rw [Connection.outstanding, hidle c (Finset.mem_range.mp hc)]
        rfl
      simp [outstanding, hsender, hst, SenderState.outstanding, ReassembleState.outstanding,
        ReassembleState.held, outstandingReplies, outstandingResends, hreplies, hresends, hconns]
    · have hpending := hidle c (hb.registered.placed c sent (.inl htarget)).lt
      have hqueue := (List.append_eq_nil_iff.mp hpending).2
      rw [Channel.Full, hqueue] at hfull
      cases hfull
    · rw [hst] at hd
      cases hd
  · have hdropped : s.reassembler.resendDropped = false ∧ s.reassembler.hasEnded = false := by
      cases hst : s.reassembler <;> simp_all [ReassembleState.wantsLock,
        ReassembleState.resendDropped, ReassembleState.hasEnded]
    rcases h.sender hs with ⟨i, hsender, -⟩ | htarget | hd
    · rw [hsender] at hlocked
      cases hlocked
    · exact absurd ⟨htarget, .inl hlock, fun c hc hrun => h.connection hdropped.2 hc hrun⟩ hfree
    · rw [hdropped.1] at hd
      cases hd
  · rcases h.sender hs with ⟨i, -, hresends, -⟩ | htarget | hd
    · rw [Channel.Full, hresends] at hfull
      cases hfull
    · refine absurd ⟨htarget, .inr ⟨msg, hst, hfull⟩, fun c hc hrun => ?_⟩ hfree
      exact h.connection (by rw [hst]; rfl) hc hrun
    · rw [hst] at hd
      cases hd
  · have hstored := hb.stored
    simp only [Stored, hst] at hstored
    exact (hb.eq_zero hstored.1).1

/-- In a run that has lost nothing no task has ended before its time. -/
lemma unbroken_run (hn : cfg.infoHash.pieces.length ≤ 2 ^ 32) {σ : Store}
    (hσ : Fresh σ cfg.infoHash.name) {tr : List (Pipeline × Action)}
    (hrun : Transition.Run (Pipeline.step cfg) (init cfg σ) tr s)
    (hanswers : ∀ p ∈ tr, Answers cfg p.1 p.2) (hkept : ∀ p ∈ tr, ¬ p.1.Loses cfg p.2) :
    Unbroken s := by
  induction hrun with
  | nil => exact ⟨fun he => (by cases he), fun fault h => by cases h⟩
  | @snoc t u tr a hrun ha ih =>
    have hanswers' := fun p hp => hanswers p (List.mem_append_left _ hp)
    have ht := ih hanswers' (fun p hp => hkept p (List.mem_append_left _ hp))
    obtain ⟨W, lost, hb, -⟩ := exists_balanced hn hσ hrun hanswers'
    exact ht.step hb (hkept (t, a) (by simp)) (steps_of_eq_some ha)

lemma closedEmpty_run {σ : Store} {tr : List (Pipeline × Action)}
    (hrun : Transition.Run (Pipeline.step cfg) (init cfg σ) tr s) : ClosedEmpty s :=
  hrun.preserve (fun _ _ _ hs h => hs.step (steps_of_eq_some h)) fun _ _ => rfl

/-- A deadlock needs a piece that is not on disk. -/
lemma Deadlocked.outstanding_ne_zero (h : Deadlocked cfg s) : outstanding cfg s ≠ 0 := by
  obtain ⟨c, sent, htarget, -⟩ := h.sender
  have hsender : s.sender.outstanding cfg.infoHash.pieces.length ≠ 0 := by
    cases hs : s.sender with
    | sendingRequest => simp [SenderState.outstanding]
    | sendingResend => simp [SenderState.outstanding]
    | _ => simp [hs, SenderState.target] at htarget
  intro hzero
  have hcard := congrArg Multiset.card hzero
  simp only [outstanding, Multiset.card_add, Multiset.card_zero] at hcard
  exact hsender (Multiset.card_eq_zero.mp (by omega))

/-- Performing `as` and then passing on an answer. -/
lemma answered_run {s t u : Pipeline} {tr : List (Pipeline × Action)} {as : List Action}
    {c : ConnId} {msg : Message} (hrun : Transition.Run (step cfg) s tr t)
    (htr : ∀ p ∈ tr, Answers cfg p.1 p.2) (has : ∀ a ∈ as, ∀ s, Answers cfg s a)
    {v : Pipeline} (hexec : Transition.exec (step cfg) t as = some u)
    (hanswers : Answers cfg u (.connection c (.answer msg)))
    (hstep : u.step cfg (.connection c (.answer msg)) = some v) :
    ∃ tr', Transition.Run (step cfg) s tr' v ∧ ∀ p ∈ tr', Answers cfg p.1 p.2 := by
  obtain ⟨tr', hrun', hmap⟩ := Transition.run_of_exec hexec
  refine ⟨_, (hrun.append hrun').snoc hstep, fun p hp => ?_⟩
  rcases List.mem_append.mp hp with hp | hp
  · rcases List.mem_append.mp hp with hp | hp
    · exact htr p hp
    · exact Transition.forall_of_map hmap has p hp
  · obtain rfl := List.mem_singleton.mp hp
    exact hanswers

/-- Any payload of one byte is right for a piece of `unitConfig`. -/
lemma answers_unit {n k : ℕ} {s : Pipeline} {c : ConnId} {index : UInt32} {b : UInt8}
    (hhand : (s.conns c).hand.map (·.msg.index) = some index) (hindex : index.toNat < n) :
    Answers (unitConfig n k) s (.connection c (.answer (.piece index [b]))) := by
  obtain ⟨sent, hsent, rfl⟩ := Option.map_eq_some_iff.mp hhand
  refine ⟨sent, [b], hsent, rfl, .inl fun _ => expectedHash_eq_ok.mpr ?_⟩
  exact List.getElem?_replicate_of_lt hindex

/-- Both pieces are asked for. -/
def askedActions : List Action := [.send, .send, .send, .send, .send, .send, .connection 0 .take]

/-- The second connection refuses its request, which is sent again to the first one. -/
def rerequestedActions : List Action :=
  [.connection 1 .take, .connection 1 .refuse, .reassemble, .reassemble, .reassemble, .reassemble,
    .reassemble, .reassemble, .connection 1 .take, .send, .send, .send, .send,
    .connection 0 .take]

/-- The second connection ends; `send_requests` has its request for it at hand. -/
def closedActions : List Action :=
  [.send, .send, .send, .connection 1 .drop, .send, .send, .connection 0 .take]

/-- The file is built, and the tasks end. -/
def builtActions : List Action :=
  [.reassemble, .reassemble, .reassemble, .send, .connection 0 .take]

end BearTorrent.Pipeline
