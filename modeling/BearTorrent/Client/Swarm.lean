import BearTorrent.Client.PeerRequests
import BearTorrent.Client.Pipeline.Serving

/-!
# A swarm of seeders

The download pipeline of a leecher, with a QUIC connection to a seeder behind each of its tasks.
`recv_data` opens a stream for the request that it has taken, `send_data` of the seeder reads the
request and writes a reply, and `recv_data` reads the reply and passes it on. When every seeder
shares the file, the swarm transfers it.
-/

namespace BearTorrent

open Function Patch

/-- The leecher, the disks of the seeders, and what has become of the stream for the request that a
connection is working on. A connection that is not connected has been closed by `send_data`. -/
structure Swarm where
  leecher : Pipeline
  disks : ConnId → Store
  streams : ConnId → Option Exchange
  connected : ConnId → Bool

namespace Swarm

/-- Who takes the next step. -/
inductive Action where
  | send
  | reassemble
  | take (c : ConnId)
  /-- `send_data` handles the stream of connection `c` -/
  | serve (c : ConnId)
  /-- `recv_data` has read the stream of connection `c` -/
  | receive (c : ConnId)
  /-- `recv_data` cannot open a stream -/
  | refuse (c : ConnId)

/-- The connections are made. -/
def init (cfg : Config) (σ : Store) (disks : ConnId → Store) : Swarm where
  leecher := .init cfg σ
  disks
  streams := fun _ => none
  connected := fun _ => true

variable (cfg : Config) (fileMaps : ConnId → FileMap)

/-- The leecher takes a step. -/
def lead (s : Swarm) (a : Pipeline.Action) : Option Swarm :=
  (s.leecher.step cfg a).map fun leecher => { s with leecher }

/-- The request is written to the stream, and `send_data` replies. -/
def exchange (env : Env) (fileMap : FileMap) (request : Message) : FileM Bytes := do
  let stream ← MonadExcept.ofExcept (request.encode env)
  sendData env fileMap stream

/-- The seeder handles the stream. A fault ends `send_data`, which breaks the stream off and closes
the connection. -/
def serve (s : Swarm) (c : ConnId) : Option Swarm :=
  match (s.leecher.conns c).hand, s.streams c with
  | some sent, none =>
    if s.connected c then
      match runOn (exchange cfg.env (fileMaps c) sent.msg) (s.disks c) with
      | (.ok reply, disk) =>
        some { s with
          disks := update s.disks c disk
          streams := update s.streams c (some ⟨true, some reply⟩) }
      | (.error _, disk)  =>
        some { s with
          disks := update s.disks c disk
          streams := update s.streams c (some ⟨true, none⟩)
          connected := update s.connected c false }
    else none
  | _, _ => none

/-- What `recv_data` does after it has handled the request. -/
def handled : List Message × Except Fault Unit → Pipeline.ConnectionAction
  | (msg :: _, .ok ()) => .answer msg
  | ([], .ok ())       => .lose
  | (_, .error _)      => .drop

/-- The reply is read, and the stream is done with. -/
def receive (s : Swarm) (c : ConnId) : Option Swarm :=
  match (s.leecher.conns c).hand, s.streams c with
  | some sent, some x =>
    ({ s with streams := update s.streams c none } : Swarm).lead cfg
      (.connection c (handled (handleRequest cfg.env (some x) sent.msg)))
  | _, _ => none

/-- One step of the swarm. -/
def step (s : Swarm) : Action → Option Swarm
  | .send       => s.lead cfg .send
  | .reassemble => s.lead cfg .reassemble
  | .take c     => s.lead cfg (.connection c .take)
  | .serve c    => if c < cfg.numConnections then s.serve cfg fileMaps c else none
  | .receive c  => s.receive cfg c
  | .refuse c   =>
    if s.connected c = false ∧ s.streams c = none then s.lead cfg (.connection c .refuse) else none

end Swarm

/-! ### What is asked for -/

namespace Pipeline

/-- The message is a piece. -/
def IsPieceMessage (msg : Message) : Prop := ∃ index piece, msg = .piece index piece

/-- The message asks for a whole piece of the download. -/
def Asks (cfg : Config) (msg : Message) : Prop :=
  ∃ seeder index begin,
    msg = .request seeder index begin cfg.infoHash.pieceLength cfg.hash

/-- Only whole pieces are asked for, also again. -/
structure Asking (cfg : Config) (s : Pipeline) : Prop where
  held : ∀ msg, s.reassembler.held = some msg → IsPieceMessage msg
  resends : ∀ msg ∈ s.resends.queue, IsPieceMessage msg
  counting : ∀ i msg, s.sender = .counting i msg → IsPieceMessage msg
  resending : ∀ m i msg, s.sender = .resending m i msg → Asks cfg msg
  target : ∀ p, s.sender.target = some p → Asks cfg p.2.msg
  pending : ∀ c, ∀ sent ∈ (s.conns c).pending, Asks cfg sent.msg

variable {cfg : Config} {content : Bytes} {s t : Pipeline} {a : Action}

lemma asking_init (cfg : Config) (σ : Store) : Asking cfg (init cfg σ) where
  held _ h := by cases h
  resends _ h := by cases h
  counting _ _ h := by cases h
  resending _ _ _ h := by cases h
  target _ h := by cases h
  pending c sent h := by cases h

lemma asks_initialRequest {m i : ℕ} {request : Message}
    (h : initialRequest cfg.env cfg.infoHash cfg.hash m i = .ok request) : Asks cfg request := by
  obtain ⟨-, begin, -, rfl⟩ := initialRequest_eq_ok h
  exact ⟨_, _, _, rfl⟩

lemma asks_resendRequest {seeder : UInt32} {msg request : Message} (hmsg : IsPieceMessage msg)
    (h : resendRequest cfg.env cfg.infoHash cfg.hash seeder msg = .ok (some request)) :
    Asks cfg request := by
  obtain ⟨index, piece, rfl⟩ := hmsg
  obtain ⟨begin, -, h⟩ := except_bind_eq_ok.mp h
  exact ⟨_, _, _, (Option.some.inj (Except.ok.inj h)).symm⟩

/-- A request arrives in the channel of a connection. -/
lemma Asking.push (hs : Asking cfg s) {c : ConnId} {sent : Sent}
    {requests : Channel Sent requestCapacity} (hsent : Asks cfg sent.msg)
    (hq : requests.queue = (s.conns c).requests.queue ++ [sent]) (c' : ConnId) :
    ∀ sent' ∈ (update s.conns c ⟨requests, (s.conns c).hand, (s.conns c).running⟩ c').pending,
      Asks cfg sent'.msg := by
  intro sent' h
  by_cases hcc : c' = c
  · subst hcc
    simp only [update_self, Connection.pending, hq, ← List.append_assoc, List.mem_append,
      List.mem_singleton] at h
    rcases h with h | rfl
    · exact hs.pending c' sent' (List.mem_append.mpr h)
    · exact hsent
  · rw [update_of_ne hcc] at h
    exact hs.pending c' sent' h

lemma Asking.stepSender (hs : Asking cfg s) (h : SenderStep cfg s t) : Asking cfg t := by
  cases h with
  | look hst hi hreq hc =>
    refine ⟨hs.held, hs.resends, by simp, by simp, fun p hp => ?_, hs.pending⟩
    obtain rfl := Option.some.inj hp
    exact asks_initialRequest hreq
  | @send m i c sent requests hst hrun hq =>
    refine ⟨hs.held, hs.resends, by simp, by simp, fun p hp => (by cases hp), ?_⟩
    exact hs.push (hs.target (c, sent) (by rw [hst]; rfl)) hq
  | @recv i msg resends hst hq =>
    refine ⟨hs.held, fun m hm => hs.resends m (hq ▸ List.mem_cons_of_mem _ hm), fun j m h => ?_,
      by simp, fun p hp => (by cases hp), hs.pending⟩
    cases h
    exact hs.resends msg (hq ▸ List.mem_cons_self)
  | count hst hm hreq =>
    refine ⟨hs.held, hs.resends, by simp, fun m i msg h => ?_, fun p hp => (by cases hp),
      hs.pending⟩
    cases h
    exact asks_resendRequest (hs.counting _ _ hst) hreq
  | lookAgain hst hc =>
    refine ⟨hs.held, hs.resends, by simp, by simp, fun p hp => ?_, hs.pending⟩
    obtain rfl := Option.some.inj hp
    exact hs.resending _ _ _ hst
  | @sendAgain i c sent requests hst hrun hq =>
    refine ⟨hs.held, hs.resends, by simp, by simp, fun p hp => (by cases hp), ?_⟩
    exact hs.push (hs.target (c, sent) (by rw [hst]; rfl)) hq
  | _ => exact ⟨hs.held, hs.resends, by simp, by simp, fun p hp => (by cases hp), hs.pending⟩

lemma Asking.loopStep (hs : Asking cfg s) (h : LoopStep cfg content s t) : Asking cfg t := by
  cases h with
  | @piece _ reply index piece result _ hst hq hmsg =>
    refine ⟨fun msg h => ?_, hs.resends, hs.counting, hs.resending, hs.target, hs.pending⟩
    cases result with
    | corrupted =>
      obtain rfl := Option.some.inj h
      exact ⟨index, piece, hmsg⟩
    | written => cases h
    | complete => cases h
  | @resend msg _ hst hq =>
    refine ⟨fun _ h => (by cases h), fun m hm => ?_, hs.counting, hs.resending, hs.target,
      hs.pending⟩
    rcases List.mem_append.mp (hq ▸ hm) with hm | hm
    · exact hs.resends m hm
    · exact List.mem_singleton.mp hm ▸ hs.held msg (by rw [hst]; rfl)
  | complete =>
    exact ⟨fun _ h => (by cases h), hs.resends, hs.counting, hs.resending, hs.target, hs.pending⟩
  | build =>
    exact ⟨fun _ h => (by cases h), hs.resends, hs.counting, hs.resending, hs.target, hs.pending⟩

/-- Nothing new is pending. -/
lemma Asking.setConn (hs : Asking cfg s) {c : ConnId} {conn : Connection}
    (hconn : ∀ sent ∈ conn.pending, sent ∈ (s.conns c).pending) : Asking cfg (s.setConn c conn) :=
  ⟨hs.held, hs.resends, hs.counting, hs.resending, hs.target, fun c' sent h =>
    hs.pending c' sent (pending_setConn hconn c' sent h)⟩

lemma Asking.stepConnection (hs : Asking cfg s) {c : ConnId} {act : ConnectionAction}
    (ha : Serves cfg content s (.connection c act)) (h : ConnectionStep s c act t) :
    Asking cfg t := by
  cases h with
  | take hh hq =>
    refine hs.setConn fun sent h => ?_
    simpa [Connection.pending, hh, hq] using h
  | close => exact hs.setConn (by simp)
  | answer hh hd =>
    have hclear : Asking cfg (s.clearHand c) := hs.setConn fun _ => Connection.mem_pending_clear
    cases hd with
    | dropped => exact hclear
    | queued =>
      exact ⟨hclear.held, hclear.resends, hclear.counting, hclear.resending, hclear.target,
        hclear.pending⟩
  | _ => exact ha.elim

end Pipeline

namespace Swarm

open Pipeline

/-! ### One stream -/

/-- The seeder's file map has the file under the hash, and the file is on its disk. -/
def Shares (cfg : Config) (content : Bytes) (fileMap : FileMap) (disk : Store) : Prop :=
  fileMap.lookup cfg.hash = some cfg.infoHash ∧
    disk.lookup (filePath cfg.infoHash.name) = some content

variable {cfg : Config} {content : Bytes} {fileMaps : ConnId → FileMap} {s t : Swarm} {c : ConnId}

/-- A seeder that shares the file replies with the piece, its disk stays as it is, and the reply is
passed on as it was sent. -/
lemma runOn_exchange {name : String} {sizes : ℕ → ℕ}
    (hh : cfg.infoHash = InfoHash.compute cfg.env name content sizes)
    (hmax : content.length ≤ 2 ^ 32) {fileMap : FileMap} {disk : Store}
    (hshares : Shares cfg content fileMap disk) {msg : Message} (hasks : Asks cfg msg)
    (hindex : msg.pieceIndex < cfg.infoHash.pieces.length) :
    ∃ buf, runOn (exchange cfg.env fileMap msg) disk = (.ok buf, disk) ∧
      handleRequest cfg.env (some ⟨true, some buf⟩) msg
        = ([.piece msg.index (chunk cfg.infoHash.pieceLength.toNat content msg.pieceIndex)],
          .ok ()) := by
  obtain ⟨seeder, index, begin, rfl⟩ := hasks
  replace hindex : index.toNat < cfg.infoHash.pieces.length := hindex
  obtain ⟨hmap, hdisk⟩ := hshares
  have hname : cfg.infoHash.name = name := by rw [hh]; rfl
  obtain ⟨reply, disk', hanswer, havailable, -⟩ := answer_spec (σ := disk) hh hmax hindex seeder
    begin (.inl hmap) (.inr ⟨content.length, by rw [List.take_length, ← hname, hdisk]⟩)
  obtain rfl : disk' = disk := by
    rw [runOn_answer_shared cfg.env fileMap disk seeder index begin _ hmap,
      touch_of_lookup hdisk] at hanswer
    exact (congrArg Prod.snd hanswer).symm
  have hreply := havailable ⟨hmap, content, hdisk, by
    have hlt := mul_pieceLength_lt hh hindex
    rw [length_chunk]
    omega⟩
  obtain ⟨stream, hstream, -⟩ :=
    Message.encode_request cfg.env seeder index begin cfg.infoHash.pieceLength cfg.hash
  obtain ⟨buf, hbuf, -, hrecv⟩ := reply_arrives hh (.inl hreply)
  refine ⟨buf, ?_, ?_⟩
  · rw [exchange, hstream, runOn_bind_ok (runOn_ofExcept _ _)]
    exact runOn_sendData hstream hanswer hbuf
  · simp only [handleRequest, readReply, hrecv]
    rw [hreply]
    rfl

/-! ### The invariant -/

/-- The connections answer with the pieces of the file only. -/
def ServesPieces (cfg : Config) (content : Bytes) (p : Pipeline) (a : Pipeline.Action) : Prop :=
  Serves cfg content p a ∧ handsGarbage cfg (p, a) = false

/-- How a swarm stands whose seeders share the file. A stream that has been served holds the piece
that the connection is working on. -/
structure Sharing (cfg : Config) (content : Bytes) (fileMaps : ConnId → FileMap)
    (disks : ConnId → Store) (s : Swarm) : Prop where
  served : Served cfg content s.leecher
  asking : Asking cfg s.leecher
  connected : ∀ c, s.connected c = true
  disks : s.disks = disks
  streams : ∀ c x, s.streams c = some x → ∃ sent, (s.leecher.conns c).hand = some sent ∧
    handleRequest cfg.env (some x) sent.msg
      = ([.piece sent.msg.index (chunk cfg.infoHash.pieceLength.toNat content sent.msg.pieceIndex)],
        .ok ())

lemma sharing_init {σ : Store} (hσ : Fresh σ cfg.infoHash.name)
    (hn : 0 < cfg.infoHash.pieces.length) (disks : ConnId → Store) :
    Sharing cfg content fileMaps disks (init cfg σ disks) where
  served := served_init hσ hn
  asking := asking_init cfg σ
  connected _ := rfl
  disks := rfl
  streams c x h := by cases h

variable (cfg content) in
/-- The steps of such a swarm: a step of the leecher that needs no answer, a reply, and its
delivery. -/
inductive SharingStep (s : Swarm) : Swarm → Prop
  | lead {a : Pipeline.Action} {leecher : Pipeline}
    (hserves : ServesPieces cfg content s.leecher a)
    (hanswer : ∀ c msg, a ≠ .connection c (.answer msg))
    (hstep : s.leecher.step cfg a = some leecher) : SharingStep s { s with leecher }
  | serve {c : ConnId} {x : Exchange} {sent : Sent} (hc : c < cfg.numConnections)
    (hnone : s.streams c = none) (hh : (s.leecher.conns c).hand = some sent)
    (hx : handleRequest cfg.env (some x) sent.msg = ([.piece sent.msg.index
      (chunk cfg.infoHash.pieceLength.toNat content sent.msg.pieceIndex)], .ok ())) :
    SharingStep s { s with streams := update s.streams c (some x) }
  | receive {c : ConnId} {x : Exchange} {msg : Message} {leecher : Pipeline}
    (hsome : s.streams c = some x)
    (hserves : ServesPieces cfg content s.leecher (.connection c (.answer msg)))
    (hstep : s.leecher.step cfg (.connection c (.answer msg)) = some leecher) :
    SharingStep s { s with leecher, streams := update s.streams c none }

lemma lead_eq_some {a : Pipeline.Action} (h : s.lead cfg a = some t) :
    ∃ leecher, s.leecher.step cfg a = some leecher ∧ t = { s with leecher } := by
  obtain ⟨leecher, hstep, rfl⟩ := Option.map_eq_some_iff.mp h
  exact ⟨leecher, hstep, rfl⟩

/-- What a connection is working on has a number. -/
lemma hand_pieceIndex_lt {p : Pipeline} (hs : Served cfg content p) (hc : c < cfg.numConnections)
    {sent : Sent} (hh : (p.conns c).hand = some sent) :
    sent.msg.pieceIndex < cfg.infoHash.pieces.length := by
  obtain ⟨W, hb⟩ := hs.balanced
  exact hb.lt_of_mem (mem_outstanding_hand hc hh)

section Step

variable {name : String} {sizes : ℕ → ℕ} {disks : ConnId → Store}
  (hh : cfg.infoHash = InfoHash.compute cfg.env name content sizes)
  (hmax : content.length ≤ 2 ^ 32)
  (hshares : ∀ c < cfg.numConnections, Shares cfg content (fileMaps c) (disks c))

include hh hmax hshares

lemma Sharing.step_cases (hs : Sharing cfg content fileMaps disks s) {a : Action}
    (h : s.step cfg fileMaps a = some t) : SharingStep cfg content s t := by
  cases a with
  | send =>
    obtain ⟨leecher, hstep, rfl⟩ := lead_eq_some h
    exact .lead (a := .send) ⟨trivial, rfl⟩ (by simp) hstep
  | reassemble =>
    obtain ⟨leecher, hstep, rfl⟩ := lead_eq_some h
    exact .lead (a := .reassemble) ⟨trivial, rfl⟩ (by simp) hstep
  | take c =>
    obtain ⟨leecher, hstep, rfl⟩ := lead_eq_some h
    exact .lead (a := .connection c .take) ⟨trivial, rfl⟩ (by simp) hstep
  | serve c =>
    simp only [step, Option.ite_none_right_eq_some, serve] at h
    obtain ⟨hc, h⟩ := h
    cases hhand : (s.leecher.conns c).hand with
    | none => simp [hhand] at h
    | some sent =>
      cases hnone : s.streams c with
      | some x => simp [hhand, hnone] at h
      | none =>
        have hasks := hs.asking.pending c sent (Connection.hand_mem_pending hhand)
        obtain ⟨buf, hrun, hx⟩ := runOn_exchange hh hmax (hs.disks ▸ hshares c hc) hasks
          (hand_pieceIndex_lt hs.served hc hhand)
        simp only [hhand, hnone, hs.connected c, if_true, hrun, update_eq_self,
          Option.some.injEq] at h
        exact h ▸ .serve hc hnone hhand hx
  | receive c =>
    simp only [step, receive] at h
    cases hsome : s.streams c with
    | none => cases hhand : (s.leecher.conns c).hand <;> simp [hhand, hsome] at h
    | some x =>
      obtain ⟨sent, hhand, hx⟩ := hs.streams c x hsome
      simp only [hhand, hsome, hx, handled] at h
      obtain ⟨leecher, hstep, rfl⟩ := lead_eq_some h
      have hd : Describes cfg.env cfg.infoHash content :=
        hh ▸ compute_describes name sizes (hmax.trans_lt (by decide))
      have hindex := hand_pieceIndex_lt hs.served (conn_lt_of_step hstep c _ rfl) hhand
      refine .receive hsome ⟨⟨sent, _, hhand, rfl, .inl rfl⟩, ?_⟩ hstep
      simp [handsGarbage, isGarbage, hd.accepted _ hindex]
  | refuse c => simp [step, hs.connected c] at h

end Step

/-- A connection keeps its request until it hands the answer in. -/
lemma hand_kept {p q : Pipeline} {a : Pipeline.Action} (hserves : Serves cfg content p a)
    (hanswer : ∀ msg, a ≠ .connection c (.answer msg)) (h : p.step cfg a = some q) {sent : Sent}
    (hh : (p.conns c).hand = some sent) : (q.conns c).hand = some sent := by
  have hupdate : ∀ {c' : ConnId} {conn : Connection}, (c' = c → conn.hand = some sent) →
      (update p.conns c' conn c).hand = some sent := by
    intro c' conn hconn
    by_cases hcc : c' = c
    · subst hcc
      rw [update_self]
      exact hconn rfl
    · rwa [update_of_ne (Ne.symm hcc)]
  cases steps_of_eq_some h with
  | send h =>
    cases h with
    | send hst hrun hq => exact hupdate fun hcc => by rw [← hh, ← hcc]
    | sendAgain hst hrun hq => exact hupdate fun hcc => by rw [← hh, ← hcc]
    | _ => exact hh
  | reassemble h => cases h <;> exact hh
  | connection hc hrun h =>
    cases h with
    | take hnone => exact hupdate fun hcc => by simp [← hcc, hnone] at hh
    | close hnone => exact hupdate fun hcc => by simp [← hcc, hnone] at hh
    | answer _ hd =>
      have hne : ∀ conn, (update p.conns _ conn c).hand = some sent := fun conn =>
        hupdate fun hcc => absurd rfl (hcc ▸ hanswer _)
      cases hd <;> exact hne _
    | _ => exact hserves.elim

section Sharing

variable {disks : ConnId → Store} (hd : Describes cfg.env cfg.infoHash content)
  (hmax : content.length ≤ 2 ^ 32) (hk : 0 < cfg.numConnections)
  (hn : 0 < cfg.infoHash.pieces.length)

include hd hmax hk hn

/-- The leecher's part of the step. -/
lemma Sharing.leecher_step (hs : Sharing cfg content fileMaps disks s) {a : Pipeline.Action}
    {leecher : Pipeline} (hserves : Serves cfg content s.leecher a)
    (h : s.leecher.step cfg a = some leecher) :
    Served cfg content leecher ∧ Asking cfg leecher := by
  have hserved := hs.served.step hd hmax hk hn hserves h
  refine ⟨hserved, ?_⟩
  cases steps_of_eq_some h with
  | send h => exact hs.asking.stepSender h
  | reassemble h => exact hs.asking.loopStep (hs.served.steady.loopStep hserved.unbroken h)
  | connection _ _ h => exact hs.asking.stepConnection hserves h

lemma SharingStep.sharing (hs : Sharing cfg content fileMaps disks s)
    (h : SharingStep cfg content s t) : Sharing cfg content fileMaps disks t := by
  cases h with
  | lead hserves hanswer hstep =>
    obtain ⟨hserved, hasking⟩ := hs.leecher_step hd hmax hk hn hserves.1 hstep
    refine ⟨hserved, hasking, hs.connected, hs.disks, fun c x hx => ?_⟩
    obtain ⟨sent, hhand, hreply⟩ := hs.streams c x hx
    exact ⟨sent, hand_kept hserves.1 (hanswer c) hstep hhand, hreply⟩
  | @serve c x sent hc hnone hhand hx =>
    refine ⟨hs.served, hs.asking, hs.connected, hs.disks, fun c' x' hx' => ?_⟩
    by_cases hcc : c' = c
    · subst hcc
      obtain rfl : x = x' := by simpa using hx'
      exact ⟨sent, hhand, hx⟩
    · simp only [update_of_ne hcc] at hx'
      exact hs.streams c' x' hx'
  | @receive c x msg leecher hsome hserves hstep =>
    obtain ⟨hserved, hasking⟩ := hs.leecher_step hd hmax hk hn hserves.1 hstep
    refine ⟨hserved, hasking, hs.connected, hs.disks, fun c' x' hx' => ?_⟩
    by_cases hcc : c' = c
    · subst hcc
      simp at hx'
    · simp only [update_of_ne hcc] at hx'
      obtain ⟨sent', hhand', hreply⟩ := hs.streams c' x' hx'
      refine ⟨sent', hand_kept hserves.1 (fun msg' h => ?_) hstep hhand', hreply⟩
      cases h
      exact hcc rfl

end Sharing

/-- The leecher's part of the step is one of a download that is served without garbage. -/
lemma SharingStep.simulates (h : SharingStep cfg content s t) :
    t.leecher = s.leecher ∨
      ∃ a, ServesPieces cfg content s.leecher a ∧ s.leecher.step cfg a = some t.leecher := by
  cases h with
  | lead hserves hanswer hstep => exact .inr ⟨_, hserves, hstep⟩
  | serve => exact .inl rfl
  | receive hsome hserves hstep => exact .inr ⟨_, hserves, hstep⟩

/-! ### How long it takes -/

/-- The streams that have not been served, and twice the work of the leecher. -/
def measure (cfg : Config) (s : Swarm) : ℕ :=
  2 * work cfg s.leecher + ∑ c ∈ Finset.range cfg.numConnections, (s.streams c).isNone.toNat

lemma sum_streams_update (hc : c < cfg.numConnections) (streams : ConnId → Option Exchange)
    (x : Option Exchange) :
    ∑ c' ∈ Finset.range cfg.numConnections, (update streams c x c').isNone.toNat
        + (streams c).isNone.toNat
      = ∑ c' ∈ Finset.range cfg.numConnections, (streams c').isNone.toNat + x.isNone.toNat :=
  Finset.sum_update_add (Finset.mem_range.mpr hc) (fun x => x.isNone.toNat) streams x

/-- A step of the leecher without garbage. -/
lemma work_lt_of_serves {p q : Pipeline} {a : Pipeline.Action}
    (hserves : ServesPieces cfg content p a) (h : p.step cfg a = some q) :
    1 + work cfg q ≤ work cfg p := by
  have hbrought := brought_eq hserves.1
  rw [hserves.2] at hbrought
  cases steps_of_eq_some h with
  | send h => exact h.work_lt
  | reassemble h => exact h.work_lt
  | connection hc hrun h =>
    have hlt := h.work_lt hc hrun
    rw [hbrought] at hlt
    simpa using hlt

lemma SharingStep.measure_lt (h : SharingStep cfg content s t) :
    measure cfg t < measure cfg s := by
  cases h with
  | lead hserves hanswer hstep =>
    have hlt := work_lt_of_serves hserves hstep
    simp only [measure]
    omega
  | @serve c x sent hc hnone hh hx =>
    have hsum := sum_streams_update hc s.streams (some x)
    rw [hnone] at hsum
    simp only [measure, Option.isNone_none, Option.isNone_some, Bool.toNat_true,
      Bool.toNat_false] at hsum ⊢
    omega
  | @receive c x msg leecher hsome hserves hstep =>
    have hlt := work_lt_of_serves hserves hstep
    have hsum := sum_streams_update (conn_lt_of_step hstep c _ rfl) s.streams none
    rw [hsome] at hsum
    simp only [measure, Option.isNone_none, Option.isNone_some, Bool.toNat_true,
      Bool.toNat_false] at hsum ⊢
    omega

lemma measure_init (cfg : Config) (σ : Store) (disks : ConnId → Store) :
    measure cfg (init cfg σ disks)
      = 10 * cfg.infoHash.pieces.length + 3 * cfg.numConnections + 12 := by
  have hwork := work_init cfg σ
  have hsum : ∑ c ∈ Finset.range cfg.numConnections,
      ((init cfg σ disks).streams c).isNone.toNat = cfg.numConnections := by
    simp [init]
  rw [measure, hsum, show (init cfg σ disks).leecher = Pipeline.init cfg σ from rfl, hwork]
  omega

/-! ### When nothing can go on any more -/

lemma lead_eq_none {a : Pipeline.Action} (h : s.lead cfg a = none) :
    s.leecher.step cfg a = none :=
  Option.map_eq_none_iff.mp h

/-- A request that has been taken is served as long as the connection is there. -/
lemma serve_ne_none {sent : Sent} (hh : (s.leecher.conns c).hand = some sent)
    (hnone : s.streams c = none) (hconnected : s.connected c = true) :
    s.serve cfg fileMaps c ≠ none := by
  simp only [serve, hh, hnone, hconnected, if_true]
  split <;> simp

/-- When the swarm stops, so has the leecher. -/
lemma Sharing.stuck {disks : ConnId → Store} (hs : Sharing cfg content fileMaps disks s)
    (hstuck : ∀ a, s.step cfg fileMaps a = none) : Stuck cfg s.leecher where
  send := lead_eq_none (hstuck .send)
  reassemble := lead_eq_none (hstuck .reassemble)
  take c := lead_eq_none (hstuck (.take c))
  answer c msg := by
    by_cases hc : c < cfg.numConnections
    · cases hhand : (s.leecher.conns c).hand with
      | none => simp [Pipeline.step, stepConnection, Pipeline.answer, hhand]
      | some sent =>
        cases hstream : s.streams c with
        | none =>
          have hserve := hstuck (.serve c)
          simp only [step, if_pos hc] at hserve
          exact absurd hserve (serve_ne_none hhand hstream (hs.connected c))
        | some x =>
          have hreceive := hstuck (.receive c)
          obtain ⟨sent', hhand', hx⟩ := hs.streams c x hstream
          simp only [step, receive, hhand', hstream, hx, handled] at hreceive
          have hanswer := lead_eq_none hreceive
          exact step_answer_eq_none msg hanswer
    · simp [Pipeline.step, hc]

/-- Where the swarm stops, the leecher has the file. -/
lemma completed_of_stuck {σ : Store} (hd : Describes cfg.env cfg.infoHash content)
    (hmax : content.length ≤ 2 ^ 32) (hk : 0 < cfg.numConnections)
    (hn : 0 < cfg.infoHash.pieces.length) (hσ : Fresh σ cfg.infoHash.name) {disks : ConnId → Store}
    (hstep : ∀ s a t, Sharing cfg content fileMaps disks s → s.step cfg fileMaps a = some t →
      SharingStep cfg content s t) {tr : List (Swarm × Action)}
    (hrun : Transition.Run (step cfg fileMaps) (init cfg σ disks) tr s)
    (hstuck : ∀ a, s.step cfg fileMaps a = none) :
    Completed cfg content s.leecher ∧ s.disks = disks := by
  obtain ⟨hs, tr', hrun', hserves⟩ := hrun.simulate (f := Swarm.leecher) (fun s a t hs h =>
    ⟨(hstep s a t hs h).sharing hd hmax hk hn hs, (hstep s a t hs h).simulates⟩)
    (sharing_init hσ hn disks)
  have hgarbage : tr'.countP (handsGarbage cfg) = 0 :=
    List.countP_eq_zero.mpr fun p hp => by simpa using (hserves p hp).2
  have hfree := not_deadlocked_of_serves hd hmax hk hn hσ hrun' (fun p hp => (hserves p hp).1)
    (.inr (hgarbage.le.trans (Nat.zero_le _)))
  exact ⟨hs.served.completed (hs.stuck hstuck) hfree, hs.disks⟩

/-- A swarm transfers the file. The seeders share it, each with the file on its disk and in its file
map. Whatever the order in which the leecher's tasks and the seeders take their steps, there are at
most ten for each piece, three for each connection and twelve more; where the swarm stops, the
leecher has the file, all its tasks have ended, and the seeders' disks are as before. -/
theorem swarm_completes (cfg : Config) (content : Bytes) (name : String) (sizes : ℕ → ℕ)
    (hh : cfg.infoHash = InfoHash.compute cfg.env name content sizes) (hne : content ≠ [])
    (hmax : content.length ≤ 2 ^ 32) (hk : 0 < cfg.numConnections) (σ : Store)
    (hσ : Fresh σ name) (fileMaps : ConnId → FileMap) (disks : ConnId → Store)
    (hshares : ∀ c < cfg.numConnections, Shares cfg content (fileMaps c) (disks c))
    {tr : List (Swarm × Action)} {s : Swarm}
    (hrun : Transition.Run (step cfg fileMaps) (init cfg σ disks) tr s) :
    tr.length ≤ 10 * cfg.infoHash.pieces.length + 3 * cfg.numConnections + 12 ∧
      ((∀ a, s.step cfg fileMaps a = none) →
        Completed cfg content s.leecher ∧ s.disks = disks) := by
  have hd : Describes cfg.env cfg.infoHash content :=
    hh ▸ compute_describes name sizes (hmax.trans_lt (by decide))
  have hn : 0 < cfg.infoHash.pieces.length := hd.pieces_pos hne
  have hσ' : Fresh σ cfg.infoHash.name := by rwa [hh]
  have hinit : Sharing cfg content fileMaps disks (init cfg σ disks) := sharing_init hσ' hn disks
  have hstep : ∀ s a t, Sharing cfg content fileMaps disks s → s.step cfg fileMaps a = some t →
      SharingStep cfg content s t := fun s a t hs h => hs.step_cases hh hmax hshares h
  constructor
  · rw [← measure_init cfg σ disks]
    refine Nat.le_of_add_right_le (hrun.length_le_of_lt (fun s a t hs h => ?_) hinit)
    exact ⟨(hstep s a t hs h).sharing hd hmax hk hn hs, (hstep s a t hs h).measure_lt⟩
  · exact completed_of_stuck hd hmax hk hn hσ' hstep hrun

/-! ### Two seeders of one letter -/

/-- The file with the letter `a`, from two connections. -/
def letterConfig : Config where
  env := letterEnv
  infoHash := ⟨"a", 1, 65536, [⟨paddedDigest.val⟩]⟩
  hash := letterDigest
  numConnections := 2

lemma letterConfig_infoHash : letterConfig.infoHash = letterHash := by
  have hindex : (0 : UInt32).toNat < letterHash.pieces.length := by
    rw [letterHash_pieces]
    decide
  have hrecorded : letterHash.pieces[0]? = some ⟨paddedDigest.val⟩ := by
    rw [← sha1_padded, ← hashedBuffer_letter 65535]
    exact recorded_hash (h := letterHash) rfl hindex
  obtain ⟨piece, hpiece⟩ := List.length_eq_one_iff.mp letterHash_pieces
  rw [hpiece] at hrecorded
  obtain rfl := Option.some.inj hrecorded
  have heta : letterHash = ⟨"a", 1, 65536, letterHash.pieces⟩ := rfl
  rw [heta, hpiece]
  rfl

/-- The first seeder is asked for the piece. -/
def letterActions : List Action :=
  [.send, .send, .send, .take 0, .serve 0, .receive 0, .reassemble, .send, .reassemble,
    .reassemble, .send, .take 0, .take 1]

/-- The seeders share the letter only. -/
def letterMaps : ConnId → FileMap := fun _ => AList.insert letterDigest letterConfig.infoHash ∅

/-- A swarm whose connections have ended stops when the two loops do. -/
lemma step_eq_none (hsend : s.leecher.step cfg .send = none)
    (hre : s.leecher.step cfg .reassemble = none)
    (hconns : ∀ c < cfg.numConnections,
      (s.leecher.conns c).running = false ∧ (s.leecher.conns c).hand = none) (a : Action) :
    s.step cfg fileMaps a = none := by
  have hstopped : ∀ c act, s.leecher.step cfg (.connection c act) = none := by
    intro c act
    refine if_neg fun ⟨hc, hrunning⟩ => ?_
    exact Bool.noConfusion (hrunning.symm.trans (hconns c hc).1)
  have hlead : ∀ a, s.leecher.step cfg a = none → s.lead cfg a = none :=
    fun a ha => Option.map_eq_none_iff.mpr ha
  cases a with
  | send => exact hlead _ hsend
  | reassemble => exact hlead _ hre
  | take c => exact hlead _ (hstopped c _)
  | serve c =>
    refine ite_eq_right_iff.mpr fun hc => ?_
    simp [serve, (hconns c hc).2]
  | receive c =>
    simp only [step, receive]
    split
    · exact Option.map_eq_none_iff.mpr (hstopped c _)
    · rfl
  | refuse c => exact ite_eq_right_iff.mpr fun _ => hlead _ (hstopped c _)

theorem swarm_completes_letter :
    ∃ tr s, Transition.Run (step letterConfig letterMaps)
        (init letterConfig ∅ fun _ => letterStore) tr s ∧ tr.length ≤ 28 ∧
      Completed letterConfig [97] s.leecher := by
  obtain ⟨s, hexec, hsend, hre, h₀, h₁, hc₀, hc₁⟩ : ∃ s,
      Transition.exec (step letterConfig letterMaps)
        (init letterConfig ∅ fun _ => letterStore) letterActions = some s ∧
      s.leecher.step letterConfig .send = none ∧ s.leecher.step letterConfig .reassemble = none ∧
      (s.leecher.conns 0).running = false ∧ (s.leecher.conns 1).running = false ∧
      (s.leecher.conns 0).hand = none ∧ (s.leecher.conns 1).hand = none :=
    ⟨_, rfl, rfl, rfl, rfl, rfl, rfl, rfl⟩
  obtain ⟨tr, hrun, -⟩ := Transition.run_of_exec hexec
  have h := swarm_completes letterConfig [97] "a" (fun _ => 65536) letterConfig_infoHash (by decide)
    (by decide) (by decide) ∅ rfl letterMaps (fun _ => letterStore)
    (fun c _ => ⟨AList.lookup_insert _, letterStore_file⟩) hrun
  have hconns : ∀ c < letterConfig.numConnections,
      (s.leecher.conns c).running = false ∧ (s.leecher.conns c).hand = none := by
    intro c hc
    rcases Nat.le_one_iff_eq_zero_or_eq_one.mp (Nat.le_of_lt_succ hc) with rfl | rfl
    · exact ⟨h₀, hc₀⟩
    · exact ⟨h₁, hc₁⟩
  exact ⟨tr, s, hrun, h.1, (h.2 (step_eq_none hsend hre hconns)).1⟩

end Swarm

end BearTorrent
