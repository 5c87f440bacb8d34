import BearTorrent.Client.HonestDownload
import BearTorrent.Client.Pipeline.Delivery
import BearTorrent.Client.Pipeline.Termination

/-!
# A download that is served completes

The connections stay open and answer every request, with the piece of the file or with full-length
garbage. Then no task gives anything up, and when nothing can go on any more the file is there and
all tasks have ended. Together with the bound on the number of steps, the download completes.
-/

namespace BearTorrent

open Patch

/-- `reassemble_loop` is not removing a connection. -/
def ReassembleState.Calm : ReassembleState → Prop
  | .removing _ _     => False
  | .decrementing _ _ => False
  | .checking _       => False
  | _                 => True

/-- The payload for piece `i` that the file has. -/
def IsPiece (h : InfoHash) (content : Bytes) (i : ℕ) (piece : Bytes) : Prop :=
  piece = chunk h.pieceLength.toNat content i

/-- The payload is the piece of the file, or full-length garbage. -/
def Payload (cfg : Config) (content : Bytes) (index : UInt32) (piece : Bytes) : Prop :=
  IsPiece cfg.infoHash content index.toNat piece ∨ Corrupted cfg.env cfg.infoHash index piece

namespace Pipeline

variable {cfg : Config} {content : Bytes} {s t : Pipeline} {c : ConnId} {a : Action}

/-- The connections answer each request with such a payload for its piece, and do nothing else. -/
def Serves (cfg : Config) (content : Bytes) (s : Pipeline) : Action → Prop
  | .connection c (.answer msg) =>
    ∃ sent piece, (s.conns c).hand = some sent ∧ msg = .piece sent.msg.index piece ∧
      Payload cfg content sent.msg.index piece
  | .connection _ .take => True
  | .connection _ _     => False
  | _                   => True

/-- No connection has been removed, no task has failed, and the senders are there until the file is
complete. -/
structure Steady (cfg : Config) (content : Bytes) (s : Pipeline) : Prop where
  sender : ∀ fault, s.sender ≠ .ended (.error fault)
  count : s.assembler.numConnections = cfg.numConnections
  removals : s.removals = []
  calm : s.reassembler.Calm
  dropped : s.reassembler.resendDropped = true → s.assembler.requestTxs = []
  closed : ∀ c < cfg.numConnections, (s.conns c).running = false → s.assembler.requestTxs = []
  replies : ∀ reply ∈ s.replies.queue, ∃ index piece, reply.msg = .piece index piece ∧
    Payload cfg content index piece

/-- The pieces that are written are those of the file, not all of them before the loop has found
them complete, and in the end the file is built. -/
def Saved (cfg : Config) (content : Bytes) (s : Pipeline) : Prop :=
  match s.reassembler with
  | .ended _ => download s.store cfg.infoHash.name = ⟨none, none, some content⟩
  | state =>
    ∃ W, (W = Finset.range cfg.infoHash.pieces.length ↔ state.completed = 1) ∧
      Progress cfg.infoHash (IsPiece cfg.infoHash content) (download s.store cfg.infoHash.name) W

/-- How a download stands while it is served. -/
structure Served (cfg : Config) (content : Bytes) (s : Pipeline) : Prop where
  balanced : ∃ W, Balanced cfg s W 0
  unbroken : Unbroken s
  closedEmpty : ClosedEmpty s
  steady : Steady cfg content s
  saved : Saved cfg content s

lemma served_init {σ : Store} (hσ : Fresh σ cfg.infoHash.name)
    (hn : 0 < cfg.infoHash.pieces.length) : Served cfg content (init cfg σ) where
  balanced := ⟨∅, balanced_init hσ⟩
  unbroken := ⟨fun he => (by cases he), fun fault h => by cases h⟩
  closedEmpty _ _ := rfl
  steady := ⟨fun _ h => (by cases h), rfl, rfl, trivial, fun h => (by cases h),
    fun _ _ h => (by cases h), fun _ h => (by cases h)⟩
  saved := by
    refine ⟨∅, iff_of_false (fun h => ?_) Nat.zero_ne_one, ?_⟩
    · exact Finset.nonempty_range_iff.mpr hn.ne' |>.ne_empty h.symm
    · change Progress _ _ (download σ _) ∅
      rw [hσ]
      exact progress_fresh _ _

/-! ### No piece is lost -/

section Kept

variable (hd : Describes cfg.env cfg.infoHash content) (hmax : content.length ≤ 2 ^ 32)

include hd hmax

/-- The offset of a piece fits. -/
lemma offset_lt {i : ℕ} (hi : i < cfg.infoHash.pieces.length) :
    i * cfg.infoHash.pieceLength.toNat < 2 ^ 32 := by
  have hin := hd.wellFormed.mul_lt hi
  rw [← hd.fileLength] at hin
  exact hin.trans_le hmax

lemma length_pieces_le : cfg.infoHash.pieces.length ≤ 2 ^ 32 := by
  by_contra hn
  have hlt := offset_lt hd hmax (Nat.not_le.mp hn)
  have hpos := hd.wellFormed.pieceLength_pos
  exact absurd hlt (Nat.not_lt.mpr (Nat.le_mul_of_pos_right _ hpos))

end Kept

/-- What a connection is working on is outstanding. -/
lemma mem_outstanding_hand (hc : c < cfg.numConnections) {sent : Sent}
    (hh : (s.conns c).hand = some sent) : sent.msg.pieceIndex ∈ outstanding cfg s := by
  refine Multiset.mem_add.mpr (.inr (Multiset.mem_sum.mpr ⟨c, Finset.mem_range.mpr hc, ?_⟩))
  exact List.mem_map.mpr ⟨sent, Connection.hand_mem_pending hh, rfl⟩

/-- As long as a piece is outstanding, the loop receives pieces or has them asked for again. -/
lemma Served.looping (hs : Served cfg content s) (hout : outstanding cfg s ≠ 0) :
    s.reassembler = .receiving ∨ ∃ msg, s.reassembler = .resending msg := by
  obtain ⟨W, hb⟩ := hs.balanced
  have hcalm := hs.steady.calm
  have hstored := hb.stored
  cases hst : s.reassembler with
  | receiving => exact .inl rfl
  | resending msg => exact .inr ⟨msg, rfl⟩
  | completing =>
    simp only [Stored, hst] at hstored
    exact absurd (hb.eq_zero hstored.1).1 hout
  | building =>
    simp only [Stored, hst] at hstored
    exact absurd (hb.eq_zero hstored.1).1 hout
  | ended result =>
    cases result with
    | error fault => exact absurd hst (hs.unbroken.reassembler fault)
    | ok _ =>
      simp only [Stored, hst] at hstored
      exact absurd (hb.eq_zero hstored.1).1 hout
  | _ => simp [hst, ReassembleState.Calm] at hcalm

/-- Until then all senders are there. -/
lemma Served.requestTxs_eq (hs : Served cfg content s)
    (hloop : s.reassembler = .receiving ∨ ∃ msg, s.reassembler = .resending msg) :
    s.assembler.requestTxs = List.range cfg.numConnections := by
  obtain ⟨W, hb⟩ := hs.balanced
  rcases hb.registered.txs with ⟨htxs, -⟩ | ⟨hd, -⟩
  · rw [htxs, hs.steady.removals]
    rfl
  · rcases hloop with hst | ⟨msg, hst⟩ <;> simp [hst, ReassembleState.resendDropped] at hd

/-- A piece that is outstanding has a number. -/
lemma Balanced.lt_of_mem {W : Finset ℕ} {lost : Multiset ℕ} (hb : Balanced cfg s W lost) {i : ℕ}
    (hi : i ∈ outstanding cfg s) : i < cfg.infoHash.pieces.length := by
  rw [← Multiset.mem_range, ← hb.total]
  exact Multiset.mem_add.mpr (.inl (Multiset.mem_add.mpr (.inl hi)))

lemma conn_lt_of_step (h : s.step cfg a = some t) :
    ∀ c act, a = .connection c act → c < cfg.numConnections := by
  rintro c act rfl
  cases steps_of_eq_some h with
  | connection hc _ _ => exact hc

lemma ne_zero_of_mem {m : Multiset ℕ} {i : ℕ} (hi : i ∈ m) : m ≠ 0 :=
  fun h => Multiset.notMem_zero i (h ▸ hi)

section Kept

variable (hd : Describes cfg.env cfg.infoHash content) (hmax : content.length ≤ 2 ^ 32)
  (hk : 0 < cfg.numConnections)

include hd hmax hk

omit hk in
/-- The offset of a piece can be computed. -/
lemma mulU32_offset {index : UInt32} (hindex : index.toNat < cfg.infoHash.pieces.length) :
    mulU32 cfg.env index cfg.infoHash.pieceLength = .ok (index * cfg.infoHash.pieceLength) :=
  mulU32_of_lt cfg.env (offset_lt hd hmax hindex)

omit hk in
lemma initialRequest_ne_error {m i : ℕ} (hm : m ≠ 0) (hi : i < cfg.infoHash.pieces.length)
    (fault : Fault) : initialRequest cfg.env cfg.infoHash cfg.hash m i ≠ .error fault := by
  have hle : (UInt32.ofNat i).toNat ≤ i := by
    rw [UInt32.toNat_ofNat']
    exact Nat.mod_le _ _
  have hmul : mulU32 cfg.env cfg.infoHash.pieceLength (.ofNat i)
      = .ok (cfg.infoHash.pieceLength * .ofNat i) := by
    refine mulU32_of_lt cfg.env ?_
    rw [Nat.mul_comm]
    exact offset_lt hd hmax (hle.trans_lt hi)
  rw [initialRequest, if_neg hm, hmul]
  exact fun h => by cases h

omit hk in
lemma resendRequest_ne_error {seeder : UInt32} {msg : Message}
    (hmsg : msg.pieceIndex < cfg.infoHash.pieces.length) (fault : Fault) :
    resendRequest cfg.env cfg.infoHash cfg.hash seeder msg ≠ .error fault := by
  intro h
  cases msg with
  | piece index piece =>
    have hmul : mulU32 cfg.env cfg.infoHash.pieceLength index
        = .ok (cfg.infoHash.pieceLength * index) := by
      refine mulU32_of_lt cfg.env ?_
      rw [Nat.mul_comm]
      exact offset_lt hd hmax hmsg
    rw [resendRequest, hmul] at h
    cases h
  | cancel => cases h
  | request => cases h

/-- `send_requests` does not fail. -/
lemma Served.not_sendFails (hs : Served cfg content s) : ¬ s.SendFails cfg := by
  intro hfails
  have hsub : ∀ i ∈ s.sender.outstanding cfg.infoHash.pieces.length, i ∈ outstanding cfg s := by
    intro i hi
    simp only [outstanding, Multiset.mem_add]
    tauto
  obtain ⟨i, hi⟩ := Multiset.exists_mem_of_ne_zero hfails.outstanding_ne_zero
  have hout := ne_zero_of_mem (hsub i hi)
  have htxs := hs.requestTxs_eq (hs.looping hout)
  have hrunning : ∀ c < cfg.numConnections, (s.conns c).running = true := by
    intro c hc
    by_contra hrun
    have hnil := hs.steady.closed c hc (Bool.eq_false_iff.mpr hrun)
    rw [htxs, List.range_eq_nil] at hnil
    exact hk.ne' hnil
  obtain ⟨W, hb⟩ := hs.balanced
  have hcount : ∀ m, s.sender.count = some m → m = cfg.numConnections := by
    intro m hm
    have hle := hb.registered.sender m hm
    rw [hs.steady.removals] at hle
    exact Nat.le_antisymm hle.1 hle.2
  rcases hfails with ⟨m, position, hlookup, hle⟩ | hfails
  · rw [htxs, List.length_range] at hle
    unfold lookup? at hlookup
    cases hst : s.sender with
    | requesting m' i =>
      simp only [hst] at hlookup
      split_ifs at hlookup
      obtain ⟨rfl, rfl⟩ : m' = m ∧ i % m' = position := by simpa using hlookup
      rw [hcount m' (by rw [hst]; rfl)] at hle
      exact absurd (Nat.mod_lt i hk) (Nat.not_lt.mpr hle)
    | resending m' i request =>
      simp only [hst] at hlookup
      obtain ⟨rfl, rfl⟩ : m' = m ∧ (newSeeder m' i).toNat = position := by simpa using hlookup
      rw [hcount m' (by rw [hst]; rfl), newSeeder, UInt32.toNat_ofNat'] at hle
      exact absurd (Nat.mod_lt i hk) (Nat.not_lt.mpr (hle.trans (Nat.mod_le _ _)))
    | _ => simp [hst] at hlookup
  · cases hst : s.sender with
    | requesting m i =>
      simp only [hst] at hfails
      obtain ⟨hi, fault, hfault⟩ := hfails
      have hm : m ≠ 0 := by
        rw [hcount m (by rw [hst]; rfl)]
        exact hk.ne'
      exact initialRequest_ne_error hd hmax hm hi fault hfault
    | counting i msg =>
      simp only [hst] at hfails
      rcases hfails with hzero | ⟨fault, hfault⟩
      · rw [hs.steady.count] at hzero
        exact hk.ne' hzero
      · refine resendRequest_ne_error hd hmax (hb.lt_of_mem (hsub _ ?_)) fault hfault
        rw [hst]
        exact Multiset.mem_singleton_self _
    | sendingRequest m i c sent =>
      simp only [hst] at hfails
      have hc := (hb.registered.placed c sent (.inl (by rw [hst]; rfl))).lt
      rw [hrunning c hc] at hfails
      cases hfails
    | sendingResend i c sent =>
      simp only [hst] at hfails
      have hc := (hb.registered.placed c sent (.inl (by rw [hst]; rfl))).lt
      rw [hrunning c hc] at hfails
      cases hfails
    | _ => simp [hst] at hfails

omit hk in
/-- `reassemble_loop` does not give a message up. -/
lemma Served.not_reassembleFails (hs : Served cfg content s) : ¬ s.ReassembleFails cfg := by
  intro hfails
  obtain ⟨W, hb⟩ := hs.balanced
  have hcalm := hs.steady.calm
  unfold ReassembleFails at hfails
  cases hst : s.reassembler with
  | receiving =>
    simp only [hst] at hfails
    obtain ⟨reply, hreply, index, piece, fault, hmsg, -, hfault⟩ := hfails
    obtain ⟨q, hq⟩ := List.head?_eq_some_iff.mp hreply
    have hindex : index.toNat < cfg.infoHash.pieces.length := by
      have hlt := (hb.head_reply hq).1
      rwa [hmsg] at hlt
    rw [mulU32_offset hd hmax hindex] at hfault
    cases hfault
  | resending msg =>
    simp only [hst] at hfails
    have hdropped := hs.unbroken.sender hfails
    rw [hst] at hdropped
    cases hdropped
  | removing => simp [hst, ReassembleState.Calm] at hcalm
  | checking => simp [hst, ReassembleState.Calm] at hcalm
  | _ => simp [hst] at hfails

/-- No step loses a piece. -/
lemma Served.not_loses (hs : Served cfg content s) (ha : Serves cfg content s a)
    (hc : ∀ c act, a = .connection c act → c < cfg.numConnections) : ¬ s.Loses cfg a := by
  cases a with
  | send => exact hs.not_sendFails hd hmax hk
  | reassemble => exact hs.not_reassembleFails hd hmax
  | connection c act =>
    cases act with
    | answer msg =>
      obtain ⟨sent, piece, hh, -, -⟩ := ha
      intro hended
      rcases hs.looping (ne_zero_of_mem (mem_outstanding_hand (hc c _ rfl) hh)) with
        hst | ⟨msg', hst⟩ <;> simp [Loses, hst, ReassembleState.hasEnded] at hended
    | take => exact not_false
    | _ => exact ha.elim

omit hmax hk in
/-- An answer is of the kind the balance is about. -/
lemma Served.answers (hs : Served cfg content s) (ha : Serves cfg content s a)
    (hc : ∀ c act, a = .connection c act → c < cfg.numConnections) : Answers cfg s a := by
  cases a with
  | send => trivial
  | reassemble => trivial
  | connection c act =>
    cases act with
    | answer msg =>
      obtain ⟨sent, piece, hh, hmsg, hpayload⟩ := ha
      refine ⟨sent, piece, hh, hmsg, ?_⟩
      obtain ⟨W, hb⟩ := hs.balanced
      have hindex := hb.lt_of_mem (mem_outstanding_hand (hc c _ rfl) hh)
      rcases hpayload with rfl | hcorrupted
      · exact .inl (hd.accepted _ hindex)
      · exact .inr hcorrupted
    | take => trivial
    | _ => exact ha.elim

omit hmax hk in
lemma Served.staysOpen (hs : Served cfg content s) (ha : Serves cfg content s a)
    (hc : ∀ c act, a = .connection c act → c < cfg.numConnections) : StaysOpen cfg s a := by
  have hanswers := hs.answers hd ha hc
  cases a with
  | send => trivial
  | reassemble => trivial
  | connection c act => cases act <;> first | exact hanswers | exact ha.elim

end Kept

/-! ### The steps -/

/-- A connection that goes on does not close. -/
lemma Steady.setConn (hs : Steady cfg content s) {conn : Connection}
    (hconn : conn.running = false → s.assembler.requestTxs = []) :
    Steady cfg content (s.setConn c conn) where
  sender := hs.sender
  count := hs.count
  removals := hs.removals
  calm := hs.calm
  dropped := hs.dropped
  closed c' hc' hrun := by
    by_cases hcc : c' = c
    · subst hcc
      rw [setConn_conns, Function.update_self] at hrun
      exact hconn hrun
    · rw [setConn_conns, Function.update_of_ne hcc] at hrun
      exact hs.closed c' hc' hrun
  replies := hs.replies

lemma Steady.deliver (hs : Steady cfg content s) {reply : Reply} (hdelivered : Delivered s reply t)
    (hreply : ∃ index piece, reply.msg = .piece index piece ∧ Payload cfg content index piece) :
    Steady cfg content t := by
  cases hdelivered with
  | dropped => exact hs
  | queued he hq =>
    refine ⟨hs.sender, hs.count, hs.removals, hs.calm, hs.dropped, hs.closed, fun r hr => ?_⟩
    rcases List.mem_append.mp (hq ▸ hr) with hr | hr
    · exact hs.replies r hr
    · exact List.mem_singleton.mp hr ▸ hreply

/-- A task ends when the senders are dropped. -/
lemma Steady.stepConnection (hs : Steady cfg content s) (hreg : Registered cfg s)
    (hc : c < cfg.numConnections) (hrun : (s.conns c).running = true) {act : ConnectionAction}
    (ha : Serves cfg content s (.connection c act)) (hact : s.stepConnection c act = some t) :
    Steady cfg content t := by
  have hkeep : ∀ {conn : Connection}, conn.running = (s.conns c).running →
      Steady cfg content (s.setConn c conn) := fun hconn =>
    hs.setConn fun h => by
      rw [hconn, hrun] at h
      cases h
  cases connectionStep_of_eq_some hact with
  | take hh hq => exact hkeep rfl
  | close hh hq =>
    refine hs.setConn fun _ => ?_
    simp only [Pipeline.stepConnection, Pipeline.take, hh, Channel.recv?_eq_none.mpr hq] at hact
    split_ifs at hact with hsender
    have hnot : c ∉ s.assembler.requestTxs := by
      simp only [hasSender, Bool.or_eq_true, decide_eq_true_eq, not_or] at hsender
      exact hsender.1
    rcases hreg.txs with ⟨htxs, -⟩ | ⟨-, htxs⟩
    · rw [htxs, hs.removals] at hnot
      exact absurd (List.mem_range.mpr hc) hnot
    · exact htxs
  | answer hh hdelivered =>
    obtain ⟨sent, piece, -, rfl, hpayload⟩ := ha
    have hclear : Steady cfg content (s.clearHand c) := hkeep rfl
    exact hclear.deliver hdelivered ⟨_, _, rfl, hpayload⟩
  | _ => exact ha.elim

lemma Steady.stepSender (hs : Steady cfg content s)
    (hkept : ¬ s.SendFails cfg) (h : SenderStep cfg s t) : Steady cfg content t := by
  have hset : ∀ {sender : SenderState} {resends : Channel Message resendCapacity},
      (∀ fault, sender ≠ .ended (.error fault)) →
        Steady cfg content { s with sender, resends } := fun hsender =>
    ⟨hsender, hs.count, hs.removals, hs.calm, hs.dropped, hs.closed, hs.replies⟩
  have hpush : ∀ {sender : SenderState} {conn : Connection} {c : ConnId},
      (∀ fault, sender ≠ .ended (.error fault)) → conn.running = true →
        Steady cfg content { s with sender, conns := Function.update s.conns c conn } := by
    intro sender conn c hsender hrun
    have hconn : Steady cfg content (s.setConn c conn) := hs.setConn fun h => by
      rw [hrun] at h
      cases h
    exact ⟨hsender, hconn.count, hconn.removals, hconn.calm, hconn.dropped, hconn.closed,
      hconn.replies⟩
  cases h with
  | miss hmiss => exact absurd (.inl hmiss) hkept
  | fail fault hne hf => exact absurd hf hkept
  | send hst hrun hq => exact hpush (by simp) hrun
  | sendAgain hst hrun hq => exact hpush (by simp) hrun
  | _ => exact hset (by simp)

variable (cfg content) in
/-- The steps that `reassemble_loop` takes while the download is served. -/
inductive LoopStep (s : Pipeline) : Pipeline → Prop
  | piece {replies : Channel Reply replyCapacity} {reply : Reply} {index : UInt32} {piece : Bytes}
    {result : PieceResult} {store : Store} (hst : s.reassembler = .receiving)
    (hq : s.replies.queue = reply :: replies.queue) (hmsg : reply.msg = .piece index piece)
    (hpayload : Payload cfg content index piece)
    (hrun : runOn (receivePiece cfg.env cfg.infoHash index piece) s.store = (.ok result, store)) :
    LoopStep s { s with replies, store, reassembler := .afterPiece reply.msg (.ok result) }
  | resend {msg : Message} {resends : Channel Message resendCapacity}
    (hst : s.reassembler = .resending msg) (hq : resends.queue = s.resends.queue ++ [msg]) :
    LoopStep s { s with resends, reassembler := .receiving }
  | complete (hst : s.reassembler = .completing) :
    LoopStep s { s with assembler := s.assembler.drainRequestTxs, reassembler := .building }
  | build {store : Store} (hst : s.reassembler = .building)
    (hrun : runOn (buildFile cfg.infoHash) s.store = (.ok (), store)) :
    LoopStep s { s with store, reassembler := .ended (.ok ()) }

lemma Steady.loopStep (hs : Steady cfg content s) (hunbroken : Unbroken t)
    (h : ReassemblerStep cfg s t) : LoopStep cfg content s t := by
  have hcalm := hs.calm
  cases h with
  | @piece replies reply index piece result store hst hq hmsg hrun =>
    obtain ⟨index', piece', hmsg', hpayload⟩ := hs.replies reply (hq ▸ List.mem_cons_self)
    rw [hmsg] at hmsg'
    cases hmsg'
    rcases result with fault | result
    · exact absurd rfl (hunbroken.reassembler fault)
    · exact .piece hst hq hmsg hpayload hrun
  | @cancel _ reply _ _ _ _ hst hq hmsg =>
    obtain ⟨_, _, hmsg', -⟩ := hs.replies reply (hq ▸ List.mem_cons_self)
    rw [hmsg] at hmsg'
    cases hmsg'
  | @wrong _ reply _ _ _ _ _ hst hq hmsg =>
    obtain ⟨_, _, hmsg', -⟩ := hs.replies reply (hq ▸ List.mem_cons_self)
    rw [hmsg] at hmsg'
    cases hmsg'
  | resendClosed => exact absurd rfl (hunbroken.reassembler _)
  | resend hst he hq => exact .resend hst hq
  | complete hst hlock => exact .complete hst
  | @build result store hst hrun =>
    rcases result with fault | _
    · exact absurd rfl (hunbroken.reassembler fault)
    · exact .build hst hrun
  | removePanic hst => simp [hst, ReassembleState.Calm] at hcalm
  | remove hst => simp [hst, ReassembleState.Calm] at hcalm
  | decrementPanic hst => simp [hst, ReassembleState.Calm] at hcalm
  | decrement hst => simp [hst, ReassembleState.Calm] at hcalm
  | retrieveFailed hst => simp [hst, ReassembleState.Calm] at hcalm
  | check hst => simp [hst, ReassembleState.Calm] at hcalm

lemma Steady.stepReassembler (hs : Steady cfg content s) (h : LoopStep cfg content s t) :
    Steady cfg content t := by
  cases h with
  | @piece replies reply _ _ result store hst hq hmsg hpayload hrun =>
    refine ⟨hs.sender, hs.count, hs.removals, ?_, fun h => ?_, hs.closed,
      fun r hr => hs.replies r (hq ▸ List.mem_cons_of_mem _ hr)⟩
    · cases result <;> trivial
    · cases result <;> cases h
  | resend hst =>
    exact ⟨hs.sender, hs.count, hs.removals, trivial, fun h => (by cases h), hs.closed, hs.replies⟩
  | complete hst =>
    exact ⟨hs.sender, hs.count, hs.removals, trivial, fun _ => rfl, fun _ _ _ => rfl, hs.replies⟩
  | build hst =>
    exact ⟨hs.sender, hs.count, hs.removals, trivial, fun _ => hs.dropped (by rw [hst]; rfl),
      hs.closed, hs.replies⟩

section Files

variable (hd : Describes cfg.env cfg.infoHash content) (hmax : content.length ≤ 2 ^ 32)

include hd hmax

/-- A received piece gets on disk, or is asked for again. -/
lemma Saved.piece {W V : Finset ℕ} (hb : Balanced cfg s W 0)
    (hV : V ≠ Finset.range cfg.infoHash.pieces.length)
    (hp : Progress cfg.infoHash (IsPiece cfg.infoHash content)
      (download s.store cfg.infoHash.name) V)
    {replies : Channel Reply replyCapacity} {reply : Reply} {index : UInt32} {piece : Bytes}
    {result : PieceResult} {store : Store} (hq : s.replies.queue = reply :: replies.queue)
    (hmsg : reply.msg = .piece index piece) (hpayload : Payload cfg content index piece)
    (hrun : runOn (receivePiece cfg.env cfg.infoHash index piece) s.store = (.ok result, store)) :
    Saved cfg content
      { s with replies, store, reassembler := .afterPiece reply.msg (.ok result) } := by
  have hindex : index.toNat < cfg.infoHash.pieces.length := by
    have hlt := (hb.head_reply hq).1
    rwa [hmsg] at hlt
  rcases hpayload with hpiece | ⟨digest, hdigest, hfull, hne⟩
  · have hlen : piece.length = cfg.infoHash.pieceLen index.toNat := by
      rw [hpiece, length_chunk, InfoHash.pieceLen, hd.fileLength]
    have hacc : Accepted cfg.env cfg.infoHash index piece := hpiece ▸ hd.accepted index hindex
    obtain ⟨σ', hrun', hp'⟩ := runOn_receivePiece cfg.env hd.wellFormed hp hindex
      (offset_lt hd hmax hindex) hlen hacc hpiece
    rw [hrun'] at hrun
    cases hrun
    split_ifs with hc
    · exact ⟨_, iff_of_true hc rfl, hp'⟩
    · exact ⟨_, iff_of_false hc Nat.zero_ne_one, hp'⟩
  · rw [runOn_receivePiece_corrupted cfg.env hfull (expectedHash_eq_ok.mpr hdigest) hne] at hrun
    cases hrun
    exact ⟨V, iff_of_false hV Nat.zero_ne_one, hp⟩

lemma Saved.stepReassembler {W : Finset ℕ} (hs : Saved cfg content s) (hb : Balanced cfg s W 0)
    (hn : 0 < cfg.infoHash.pieces.length) (h : LoopStep cfg content s t) :
    Saved cfg content t := by
  cases h with
  | piece hst hq hmsg hpayload hrun =>
    simp only [Saved, hst] at hs
    obtain ⟨V, hV, hp⟩ := hs
    exact .piece hd hmax hb (fun h => Nat.zero_ne_one (hV.mp h)) hp hq hmsg hpayload hrun
  | resend hst =>
    simp only [Saved, hst] at hs
    exact hs
  | complete hst =>
    simp only [Saved, hst] at hs
    exact hs
  | build hst hrun =>
    simp only [Saved, hst] at hs
    obtain ⟨V, hV, hp⟩ := hs
    obtain rfl := hV.mpr rfl
    obtain ⟨σ', hbuild, hfile⟩ :=
      runOn_buildFile_ok cfg.infoHash s.store (hp.hasAllPieces_iff.mpr rfl) hp.file
    rw [hbuild] at hrun
    cases hrun
    change download _ _ = _
    rw [hfile, (hp.assembled hd.wellFormed hn).eq_content hd]

/-- The step lemma. -/
lemma Served.step (hk : 0 < cfg.numConnections) (hn : 0 < cfg.infoHash.pieces.length)
    (hs : Served cfg content s) (ha : Serves cfg content s a) (h : s.step cfg a = some t) :
    Served cfg content t := by
  have hsteps := steps_of_eq_some h
  have hc := conn_lt_of_step h
  have hkept := hs.not_loses hd hmax hk ha hc
  obtain ⟨W, hb⟩ := hs.balanced
  have hunbroken := hs.unbroken.step hb hkept hsteps
  obtain ⟨W', gone, hb', hgone⟩ := hb.step (length_pieces_le hd hmax) (hs.answers hd ha hc) h
  rw [hgone.mpr hkept, add_zero] at hb'
  refine ⟨⟨W', hb'⟩, hunbroken, hs.closedEmpty.step hsteps, ?_, ?_⟩
  · cases hsteps with
    | send h => exact hs.steady.stepSender hkept h
    | reassemble h => exact hs.steady.stepReassembler (hs.steady.loopStep hunbroken h)
    | @connection c act _ hlt hrun _ =>
      simp only [Pipeline.step, hlt, hrun, and_self, if_true] at h
      exact hs.steady.stepConnection hb.registered hlt hrun ha h
  · have hsaved := hs.saved
    cases hsteps with
    | send h => cases h <;> exact hsaved
    | reassemble h => exact hsaved.stepReassembler hd hmax hb hn (hs.steady.loopStep hunbroken h)
    | connection _ _ h =>
      rw [h.frame]
      exact hsaved

/-- The run lemma. -/
lemma served_run (hk : 0 < cfg.numConnections) (hn : 0 < cfg.infoHash.pieces.length) {σ : Store}
    (hσ : Fresh σ cfg.infoHash.name) {tr : List (Pipeline × Action)}
    (hrun : Transition.Run (Pipeline.step cfg) (init cfg σ) tr s)
    (hserves : ∀ p ∈ tr, Serves cfg content p.1 p.2) : Served cfg content s :=
  hrun.invariant (P := Serves cfg content) (fun _ _ _ hs ha h => hs.step hd hmax hk hn ha h)
    hserves (served_init hσ hn)

end Files

/-! ### Garbage -/

/-- A full-length payload that is not accepted. -/
def isGarbage (cfg : Config) : Message → Bool
  | .piece index payload => !decide (Accepted cfg.env cfg.infoHash index payload)
  | _                    => false

/-- The step hands in garbage. -/
def handsGarbage (cfg : Config) : Pipeline × Action → Bool
  | (_, .connection _ (.answer msg)) => isGarbage cfg msg
  | _                                => false

/-- Garbage is paid for with eight steps. -/
lemma brought_eq (ha : Serves cfg content s a) :
    brought cfg (s, a) = 8 * if handsGarbage cfg (s, a) then 1 else 0 := by
  cases a with
  | send => rfl
  | reassemble => rfl
  | connection c act =>
    cases act with
    | answer msg =>
      obtain ⟨sent, piece, -, rfl, -⟩ := ha
      by_cases hacc : Accepted cfg.env cfg.infoHash sent.msg.index piece
      · simp [brought, handsGarbage, isGarbage, Message.work, hacc]
      · simp [brought, handsGarbage, isGarbage, Message.work, hacc]
    | take => rfl
    | _ => exact ha.elim

lemma sum_brought {tr : List (Pipeline × Action)} (htr : ∀ p ∈ tr, Serves cfg content p.1 p.2) :
    (tr.map (brought cfg)).sum = 8 * tr.countP (handsGarbage cfg) := by
  induction tr with
  | nil => rfl
  | cons p tr ih =>
    rw [List.map_cons, List.sum_cons, ih fun q hq => htr q (List.mem_cons_of_mem _ hq),
      brought_eq (htr p List.mem_cons_self), List.countP_cons, Nat.mul_add, Nat.add_comm]

/-- The garbage that is under way, up to the request for the piece. -/
def failures (cfg : Config) (s : Pipeline) : ℕ :=
  s.replies.queue.countP (fun reply => isGarbage cfg reply.msg)
    + s.reassembler.held.toList.length + s.resends.queue.length

/-- Only garbage is asked for again. -/
lemma held_afterPiece_le {msg : Message} {index : UInt32} {piece : Bytes} {result : PieceResult}
    {σ σ' : Store} (hmsg : msg = .piece index piece)
    (hrun : runOn (receivePiece cfg.env cfg.infoHash index piece) σ = (.ok result, σ')) :
    (ReassembleState.afterPiece msg (.ok result)).held.toList.length
      ≤ if isGarbage cfg msg then 1 else 0 := by
  cases result with
  | corrupted =>
    rw [if_pos]
    · exact le_rfl
    · simp [hmsg, isGarbage, not_accepted_of_corrupted hrun]
  | written => exact Nat.zero_le _
  | complete => exact Nat.zero_le _

lemma Served.failures_step (hs : Served cfg content s) (ht : Served cfg content t)
    (ha : Serves cfg content s a) (h : s.step cfg a = some t) :
    failures cfg t ≤ failures cfg s + if handsGarbage cfg (s, a) then 1 else 0 := by
  cases steps_of_eq_some h with
  | send h =>
    refine Nat.le_add_right_of_le ?_
    cases h with
    | recv hst hq =>
      simp only [failures, hq, List.length_cons]
      omega
    | _ => exact le_rfl
  | reassemble h =>
    refine Nat.le_add_right_of_le ?_
    cases hs.steady.loopStep ht.unbroken h with
    | piece hst hq hmsg hpayload hrun =>
      have hheld := held_afterPiece_le hmsg hrun
      have hnone : ReassembleState.receiving.held.toList.length = 0 := rfl
      simp only [failures, hst, hq, List.countP_cons, hnone]
      omega
    | resend hst hq =>
      simp only [failures, hst, hq, ReassembleState.held, List.length_append, List.length_singleton,
        Option.toList_some, Option.toList_none, List.length_nil]
      omega
    | complete hst => simp [failures, hst, ReassembleState.held]
    | build hst => simp [failures, hst, ReassembleState.held]
  | connection hc hrun h =>
    cases h with
    | take => exact le_rfl
    | close => exact le_rfl
    | @answer msg _ _ hh hd =>
      change _ ≤ failures cfg s + if isGarbage cfg msg then 1 else 0
      cases hd with
      | dropped he => exact Nat.le_add_right _ _
      | queued he hq =>
        simp only [failures, hq, List.countP_append, List.countP_singleton]
        simp only [clearHand, setConn]
        omega
    | _ => exact ha.elim

/-! ### When nothing can go on any more -/

/-- The file is there, and all tasks have ended. -/
structure Completed (cfg : Config) (content : Bytes) (s : Pipeline) : Prop where
  file : download s.store cfg.infoHash.name = ⟨none, none, some content⟩
  reassembler : s.reassembler = .ended (.ok ())
  sender : s.sender = .ended (.ok ())
  closed : ∀ c < cfg.numConnections, (s.conns c).running = false

section Completion

variable (hd : Describes cfg.env cfg.infoHash content) (hmax : content.length ≤ 2 ^ 32)
  (hk : 0 < cfg.numConnections) (hn : 0 < cfg.infoHash.pieces.length)

include hd hmax hk hn

lemma failures_le {σ : Store} (hσ : Fresh σ cfg.infoHash.name) {tr : List (Pipeline × Action)}
    (hrun : Transition.Run (Pipeline.step cfg) (init cfg σ) tr s)
    (hserves : ∀ p ∈ tr, Serves cfg content p.1 p.2) :
    failures cfg s ≤ tr.countP (handsGarbage cfg) := by
  induction hrun with
  | nil => exact Nat.zero_le _
  | @snoc t u tr a hrun ha ih =>
    have hserves' := fun p hp => hserves p (List.mem_append_left _ hp)
    have ht := served_run hd hmax hk hn hσ hrun hserves'
    have hlast := hserves (t, a) (by simp)
    rw [List.countP_append, List.countP_singleton]
    exact (ht.failures_step (ht.step hd hmax hk hn hlast ha) hlast ha).trans
      (Nat.add_le_add_right (ih hserves') _)

omit hd hmax hk hn in
/-- A deadlock takes a full resend channel, and one more message for it. -/
lemma Served.lt_failures (hs : Served cfg content s) (hdead : Deadlocked cfg s) :
    resendCapacity < failures cfg s := by
  have hcalm := hs.steady.calm
  rcases hdead.reassembler with hlock | ⟨msg, hst, hfull⟩
  · rcases hs.looping hdead.outstanding_ne_zero with hst | ⟨msg, hst⟩ <;>
      simp [hst, ReassembleState.wantsLock] at hlock
  · have hlen : s.resends.queue.length = resendCapacity := hfull
    have hheld : s.reassembler.held.toList.length = 1 := by rw [hst]; rfl
    rw [failures, hlen, hheld]
    omega

lemma not_deadlocked_of_serves {σ : Store} (hσ : Fresh σ cfg.infoHash.name)
    {tr : List (Pipeline × Action)}
    (hrun : Transition.Run (Pipeline.step cfg) (init cfg σ) tr s)
    (hserves : ∀ p ∈ tr, Serves cfg content p.1 p.2)
    (hfew : cfg.infoHash.pieces.length ≤ 302 ∨ tr.countP (handsGarbage cfg) ≤ resendCapacity) :
    ¬ Deadlocked cfg s := by
  rcases hfew with hfew | hfew
  · refine not_deadlocked cfg (.inl hfew) hrun fun p hp => ?_
    obtain ⟨tr₁, tr₂, rfl, hrun₁⟩ := hrun.of_mem hp
    have hs := served_run hd hmax hk hn hσ hrun₁ fun q hq => hserves q (by simp [hq])
    obtain ⟨u, -, hstep, -⟩ := hrun.split_cons
    exact hs.staysOpen hd (hserves p (by simp)) (conn_lt_of_step hstep)
  · intro hdead
    have hs := served_run hd hmax hk hn hσ hrun hserves
    have hle := failures_le hd hmax hk hn hσ hrun hserves
    exact absurd (hs.lt_failures hdead) (Nat.not_lt.mpr (hle.trans hfew))

end Completion

/-- Where nothing is outstanding. -/
lemma parts_of_outstanding_eq_zero (h : outstanding cfg s = 0) :
    s.sender.outstanding cfg.infoHash.pieces.length = 0 ∧ s.reassembler.outstanding = 0 ∧
      ∀ c < cfg.numConnections, (s.conns c).pending = [] := by
  have hnot : ∀ i, i ∉ outstanding cfg s := fun i => h ▸ Multiset.notMem_zero i
  simp only [outstanding, Multiset.mem_add, not_or] at hnot
  refine ⟨Multiset.eq_zero_of_forall_notMem fun i => (hnot i).1.1.1.1,
    Multiset.eq_zero_of_forall_notMem fun i => (hnot i).1.1.1.2, fun c hc => ?_⟩
  refine List.eq_nil_iff_forall_not_mem.mpr fun sent hsent => ?_
  exact (hnot sent.msg.pieceIndex).2 (Multiset.mem_sum.mpr
    ⟨c, Finset.mem_range.mpr hc, List.mem_map.mpr ⟨sent, hsent, rfl⟩⟩)

/-- Whether a connection can hand its answer in does not depend on the answer. -/
lemma step_answer_eq_none {msg : Message} (msg' : Message)
    (h : s.step cfg (.connection c (.answer msg)) = none) :
    s.step cfg (.connection c (.answer msg')) = none := by
  simp only [step] at h ⊢
  split_ifs at h ⊢
  · simp only [stepConnection, Pipeline.answer] at h ⊢
    cases hh : (s.conns c).hand with
    | none => rfl
    | some sent =>
      simp only [hh, deliver] at h ⊢
      split_ifs at h ⊢
      rw [Option.map_eq_none_iff, Channel.send?_eq_none] at h ⊢
      exact h
  · rfl

/-- When no step that serves the download is possible, no step is. -/
lemma stuck_of_serves (hstuck : ∀ a, Serves cfg content s a → s.step cfg a = none) :
    Stuck cfg s where
  send := hstuck .send trivial
  reassemble := hstuck .reassemble trivial
  take c := hstuck (.connection c .take) trivial
  answer c msg := by
    cases hh : (s.conns c).hand with
    | none => simp [step, stepConnection, Pipeline.answer, hh]
    | some sent => exact step_answer_eq_none msg (hstuck _ ⟨sent, _, hh, rfl, .inl rfl⟩)

/-- `send_requests` only stops for good. -/
lemma Served.sender_ended (hs : Served cfg content s) (hsend : s.step cfg .send = none)
    (hout : s.sender.outstanding cfg.infoHash.pieces.length = 0)
    (hst : s.reassembler = .ended (.ok ())) : s.sender = .ended (.ok ()) := by
  simp only [Pipeline.step, stepSender] at hsend
  cases hsender : s.sender with
  | starting => simp [hsender] at hsend
  | requesting m i =>
    simp only [hsender] at hsend
    split_ifs at hsend
    split at hsend <;> cases hsend
  | waiting i =>
    simp only [hsender, hst] at hsend
    cases hrecv : s.resends.recv? with
    | some p => simp [hrecv] at hsend
    | none => simp [hrecv, ReassembleState.resendDropped] at hsend
  | ended result =>
    cases result with
    | error fault => exact absurd hsender (hs.steady.sender fault)
    | ok _ => rfl
  | _ => simp [hsender, SenderState.outstanding] at hout

/-- The connections end when the senders are dropped. -/
lemma Served.conn_closed (hs : Served cfg content s) (hc : c < cfg.numConnections)
    (htake : s.step cfg (.connection c .take) = none) (hpending : (s.conns c).pending = [])
    (hst : s.reassembler = .ended (.ok ())) : (s.conns c).running = false := by
  by_contra hrun
  rw [Bool.not_eq_false] at hrun
  have htxs := hs.steady.dropped (by rw [hst]; rfl)
  obtain ⟨hhand, hqueue⟩ := List.append_eq_nil_iff.mp hpending
  have hnone : (s.conns c).hand = none := by
    cases hh : (s.conns c).hand with
    | none => rfl
    | some sent => simp [hh] at hhand
  simp [Pipeline.step, stepConnection, Pipeline.take, hc, hrun, hnone,
    Channel.recv?_eq_none.mpr hqueue, hasSender, htxs, hst] at htake

/-- When nothing can go on any more, the download is complete, unless the tasks wait for each
other. -/
lemma Served.completed (hs : Served cfg content s) (hstuck : Stuck cfg s)
    (hfree : ¬ Deadlocked cfg s) : Completed cfg content s := by
  obtain ⟨W, hb⟩ := hs.balanced
  have hout := hstuck.outstanding_eq_zero hs.unbroken hb hs.closedEmpty hfree
  obtain ⟨hsender, hreassembler, hpending⟩ := parts_of_outstanding_eq_zero hout
  have hW : W = Finset.range cfg.infoHash.pieces.length := by
    have htotal := hb.total
    rw [hout, zero_add, add_zero] at htotal
    exact Finset.val_injective htotal
  have hst : s.reassembler = .ended (.ok ()) := by
    rcases hstuck.reassembler hs.unbroken with ⟨hst, -⟩ | ⟨hlocked, -⟩ | ⟨msg, hst, -⟩ | hst
    · -- all pieces are on disk, but the loop goes on only while one is missing
      have hsaved := hs.saved
      have hstored := hb.stored
      simp only [Saved, Stored, hst] at hsaved hstored
      obtain ⟨V, hV, hp⟩ := hsaved
      have hall := hp.toWritten.eq_range_iff.mpr (hstored.eq_range_iff.mp hW)
      exact absurd (hV.mp hall) Nat.zero_ne_one
    · cases hsnd : s.sender with
      | sendingRequest => simp [hsnd, SenderState.outstanding] at hsender
      | sendingResend => simp [hsnd, SenderState.outstanding] at hsender
      | _ => simp [hsnd, SenderState.readLocked] at hlocked
    · simp [hst, ReassembleState.outstanding, ReassembleState.held] at hreassembler
    · exact hst
  refine ⟨?_, hst, hs.sender_ended hstuck.send hsender hst, fun c hc =>
    hs.conn_closed hc (hstuck.take c) (hpending c hc) hst⟩
  have hsaved := hs.saved
  simp only [Saved, hst] at hsaved
  exact hsaved

/-- A file of at most 4 GiB that is not empty is downloaded from connections that stay open and
answer every request, with the piece of the file or with full-length garbage. The download takes at
most five steps for each piece, one for each connection, eight for each garbage and six more. Where
it stops, the file is there and all tasks have ended, unless there are more than 302 pieces and more
garbage than the resend channel holds. -/
theorem serving_completes (cfg : Config) (content : Bytes)
    (hd : Describes cfg.env cfg.infoHash content) (hne : content ≠ [])
    (hmax : content.length ≤ 2 ^ 32) (hk : 0 < cfg.numConnections) (σ : Store)
    (hσ : Fresh σ cfg.infoHash.name) {tr : List (Pipeline × Action)} {s : Pipeline}
    (hrun : Transition.Run (Pipeline.step cfg) (init cfg σ) tr s)
    (hserves : ∀ p ∈ tr, Serves cfg content p.1 p.2) :
    tr.length ≤ 5 * cfg.infoHash.pieces.length + cfg.numConnections + 6
        + 8 * tr.countP (handsGarbage cfg) ∧
      (cfg.infoHash.pieces.length ≤ 302 ∨ tr.countP (handsGarbage cfg) ≤ resendCapacity →
        (∀ a, Serves cfg content s a → s.step cfg a = none) → Completed cfg content s) := by
  have hn := hd.pieces_pos hne
  constructor
  · have hlen := length_run_le cfg σ hrun
    rw [sum_brought hserves] at hlen
    omega
  · intro hfew hstuck
    exact (served_run hd hmax hk hn hσ hrun hserves).completed (stuck_of_serves hstuck)
      (not_deadlocked_of_serves hd hmax hk hn hσ hrun hserves hfew)

/-! ### A file of two pieces -/

lemma corrupted_iff {env : Env} {h : InfoHash} {index : UInt32} {piece : Bytes} :
    Corrupted env h index piece ↔ piece.length = h.pieceLength.toNat ∧
      (expectedHash h index).toOption.any (fun digest => hashPieceData env piece ≠ digest) := by
  simp only [Corrupted, ← expectedHash_eq_ok]
  cases expectedHash h index with
  | error fault => simp [Except.toOption]
  | ok digest => simp [Except.toOption]

instance (env : Env) (h : InfoHash) (index : UInt32) (piece : Bytes) :
    Decidable (Corrupted env h index piece) :=
  decidable_of_iff' _ corrupted_iff

instance (cfg : Config) (content : Bytes) (index : UInt32) (piece : Bytes) :
    Decidable (Payload cfg content index piece) :=
  inferInstanceAs (Decidable (_ = _ ∨ Corrupted _ _ _ _))

/-- Whether a step serves the download. -/
def serves (cfg : Config) (content : Bytes) (s : Pipeline) : Action → Bool
  | .connection c (.answer (.piece index piece)) =>
    (s.conns c).hand.map (·.msg.index) = some index ∧ Payload cfg content index piece
  | .connection _ .take => true
  | .connection _ _     => false
  | _                   => true

lemma serves_of_serves {p : Pipeline × Action} (h : serves cfg content p.1 p.2 = true) :
    Serves cfg content p.1 p.2 := by
  obtain ⟨s, a⟩ := p
  cases a with
  | send => trivial
  | reassemble => trivial
  | connection c act =>
    cases act with
    | take => trivial
    | answer msg =>
      cases msg with
      | piece index piece =>
        obtain ⟨hhand, hpayload⟩ := of_decide_eq_true h
        obtain ⟨sent, hh, rfl⟩ := Option.map_eq_some_iff.mp hhand
        exact ⟨sent, piece, hh, rfl, hpayload⟩
      | _ => cases h
    | _ => cases h

/-- The file `abcd`, from one connection. -/
def abcdConfig : Config := ⟨abcdEnv, abcdHash, Digest.zero, 1⟩

lemma describes_abcd : Describes abcdEnv abcdHash [97, 98, 99, 100] where
  wellFormed := ⟨by decide, by decide⟩
  fileLength := rfl
  accepted index hindex := by
    have hcases : index = 0 ∨ index = 1 := by
      simp only [← UInt32.toNat_inj]
      exact Nat.le_one_iff_eq_zero_or_eq_one.mp (Nat.le_of_lt_succ hindex)
    rcases hcases with rfl | rfl
    · decide
    · exact fun hfull => absurd hfull (by decide)

/-- The first piece is garbage, and is asked for again. -/
def garbledActions : List Action :=
  [.send, .send, .send, .connection 0 .take, .connection 0 (.answer (.piece 0 [1, 2, 3])),
    .reassemble, .reassemble, .send, .send, .send, .send, .send, .send, .send,
    .connection 0 .take, .connection 0 (.answer (.piece 1 [100])), .reassemble,
    .connection 0 .take, .connection 0 (.answer (.piece 0 [97, 98, 99])), .reassemble,
    .reassemble, .reassemble, .send, .connection 0 .take]

theorem serving_completes_garbled :
    ∃ tr s, Transition.Run (step abcdConfig) (init abcdConfig ∅) tr s ∧
      (∀ p ∈ tr, Serves abcdConfig [97, 98, 99, 100] p.1 p.2) ∧
      tr.length ≤ 17 + 8 * tr.countP (handsGarbage abcdConfig) ∧
      Completed abcdConfig [97, 98, 99, 100] s := by
  obtain ⟨s, hwalk, hsend, hre, hstopped⟩ : ∃ s,
      Transition.walk (step abcdConfig) (serves abcdConfig [97, 98, 99, 100])
        (init abcdConfig ∅) garbledActions = some s ∧
      s.step abcdConfig .send = none ∧ s.step abcdConfig .reassemble = none ∧
      (s.conns 0).running = false := ⟨_, rfl, rfl, rfl, rfl⟩
  obtain ⟨tr, hrun, hserves⟩ := Transition.run_of_walk hwalk
  have hserves' := fun p hp => serves_of_serves (hserves p hp)
  have h := serving_completes abcdConfig _ describes_abcd (by decide) (by decide) (by decide) ∅ rfl
    hrun hserves'
  refine ⟨tr, s, hrun, hserves', h.1, h.2 (.inl (by decide)) fun a _ => ?_⟩
  cases a with
  | send => exact hsend
  | reassemble => exact hre
  | connection c act =>
    refine if_neg fun ⟨hc, hrun⟩ => ?_
    obtain rfl : c = 0 := Nat.lt_one_iff.mp hc
    exact Bool.noConfusion (hrun.symm.trans hstopped)

end Pipeline

end BearTorrent
