import BearTorrent.Client.Pipeline.Basic
import BearTorrent.Client.TurnFallback

/-!
# Leeching over TURN

The loop of `start_leeching`, which selects between the packets of the session and the requests of
the download, and the calls around it: what arrives, the other connections that send replies, and
the receivers of what the loop sends. In a round the loop takes one packet or one request and may
then wait for room in a channel.
-/

namespace BearTorrent

open Transition

/-- The capacity of the channel of outbound packets. -/
abbrev outboundCapacity : ℕ := 128

/-- Where `start_leeching` is. -/
inductive LeecherAt where
  | registering
  | selecting
  | sendingPiece (msg : Message)
  | sendingRequest (pkt : TurnPacket)
  | returned (result : Except String Unit)
  deriving DecidableEq

/-- The registration has succeeded. -/
def LeecherAt.isRegistered : LeecherAt → Bool
  | .registering | .returned _ => false
  | _                          => true

/-- The state of `start_leeching`. A closed channel is one whose other end is dropped. -/
structure LeecherLoop where
  sessionId : String
  place : LeecherAt
  inbound : List (Except String TurnPacket)
  inboundEnded : Bool
  requests : Channel Message requestCapacity
  requestsClosed : Bool
  replies : Channel Message replyCapacity
  repliesClosed : Bool
  outbound : Channel TurnPacket outboundCapacity
  outboundClosed : Bool

namespace LeecherLoop

def init (sessionId : String) : LeecherLoop :=
  ⟨sessionId, .registering, [], false, .empty, false, .empty, false, .empty, false⟩

inductive Action where
  /-- the call of `register` returns -/
  | register (result : Except String Unit)
  | packetArrives (item : Except String TurnPacket)
  | inboundEnds
  | requestQueued (msg : Message)
  | requestsClose
  /-- `select!` takes the branch of the packets -/
  | selectInbound
  /-- `select!` takes the branch of the requests -/
  | selectRequest
  /-- the awaited `send` returns -/
  | send
  /-- another connection sends a reply -/
  | replySent (msg : Message)
  | replyTaken
  | repliesClose
  | outboundTaken
  | outboundClose

/-- `inbound.next()`, once it is ready. -/
def next (s : LeecherLoop) : Option (Option (Except String TurnPacket) × LeecherLoop) :=
  match s.inbound with
  | item :: inbound => some (some item, { s with inbound })
  | []              => if s.inboundEnded then some (none, s) else none

/-- `rx.recv()`, once it is ready. -/
def recv (s : LeecherLoop) : Option (Option Message × LeecherLoop) :=
  match s.requests.recv? with
  | some (msg, requests) => some (some msg, { s with requests })
  | none                 => if s.requestsClosed then some (none, s) else none

/-- What the loop does with a packet. -/
def onPacket (s : LeecherLoop) : Option (Except String TurnPacket) → LeecherLoop
  | some (.ok pkt) =>
    match pieceMessage pkt with
    | some msg => { s with place := .sendingPiece msg }
    | none     => s
  -- An error and the end of the stream are skipped.
  | _              => s

/-- What the loop does with a request. -/
def onRequest (s : LeecherLoop) : Option Message → LeecherLoop
  | some msg =>
    match requestPacket s.sessionId msg with
    | some pkt => { s with place := .sendingRequest pkt }
    | none     => s
  | none     => s

/-- The awaited `send` returns; its error is printed only. -/
def send (s : LeecherLoop) : Option LeecherLoop :=
  match s.place with
  | .sendingPiece msg   =>
    if s.repliesClosed then some { s with place := .selecting }
    else (s.replies.send? msg).map fun replies => { s with replies, place := .selecting }
  | .sendingRequest pkt =>
    if s.outboundClosed then some { s with place := .selecting }
    else (s.outbound.send? pkt).map fun outbound => { s with outbound, place := .selecting }
  | _                   => none

def step (s : LeecherLoop) : Action → Option LeecherLoop
  | .register result    =>
    match s.place with
    | .registering =>
      match result with
      | .ok ()   => some { s with place := .selecting }
      | .error e => some { s with place := .returned (.error e) }
    | _            => none
  | .packetArrives item =>
    if s.inboundEnded then none else some { s with inbound := s.inbound ++ [item] }
  | .inboundEnds        => some { s with inboundEnded := true }
  | .requestQueued msg  =>
    if s.requestsClosed then none
    else (s.requests.send? msg).map fun requests => { s with requests }
  | .requestsClose      => some { s with requestsClosed := true }
  | .selectInbound      =>
    if s.place = .selecting then s.next.map fun (item, s) => s.onPacket item else none
  | .selectRequest      =>
    if s.place = .selecting then s.recv.map fun (msg, s) => s.onRequest msg else none
  | .send               => s.send
  | .replySent msg      =>
    if s.repliesClosed then none
    else (s.replies.send? msg).map fun replies => { s with replies }
  | .replyTaken         => s.replies.recv?.map fun (_, replies) => { s with replies }
  | .repliesClose       => some { s with repliesClosed := true }
  | .outboundTaken      => s.outbound.recv?.map fun (_, outbound) => { s with outbound }
  | .outboundClose      => some { s with outboundClosed := true }

/-- `start_leeching` is past its registration, and has not returned. -/
def InLoop (s : LeecherLoop) : Prop := s.place ≠ .registering ∧ ∀ r, s.place ≠ .returned r

/-- The stream has ended and the channel of the requests is closed. -/
def BothEnded (s : LeecherLoop) : Prop := s.inboundEnded = true ∧ s.requestsClosed = true

/-- A round of the loop begins in the step. -/
def isRound (p : LeecherLoop × Action) : Bool :=
  match p.2 with
  | .selectInbound | .selectRequest => true
  | _                               => false

/-- The rounds of a run. -/
def rounds (tr : List (LeecherLoop × Action)) : ℕ := tr.countP isRound

/-- Whatever happens, the loop exits within a certain number of rounds. -/
def Exits (s : LeecherLoop) : Prop :=
  ∃ n, ∀ tr t, Run step s tr t → n ≤ rounds tr → ∃ r, t.place = .returned r

/-! ### What a step can do -/

/-- The effects of the steps, with their guards. -/
inductive Effect (s : LeecherLoop) : Action → LeecherLoop → Prop
  | registered (hplace : s.place = .registering) :
      Effect s (.register (.ok ())) { s with place := .selecting }
  | refused {e : String} (hplace : s.place = .registering) :
      Effect s (.register (.error e)) { s with place := .returned (.error e) }
  | arrive {item : Except String TurnPacket} (hopen : s.inboundEnded = false) :
      Effect s (.packetArrives item) { s with inbound := s.inbound ++ [item] }
  | endInbound : Effect s .inboundEnds { s with inboundEnded := true }
  | queue {msg : Message} {requests : Channel Message requestCapacity}
      (hopen : s.requestsClosed = false) (hsend : requests.queue = s.requests.queue ++ [msg]) :
      Effect s (.requestQueued msg) { s with requests }
  | closeRequests : Effect s .requestsClose { s with requestsClosed := true }
  | packet {item : Except String TurnPacket} {inbound : List (Except String TurnPacket)}
      (hplace : s.place = .selecting) (hitem : s.inbound = item :: inbound) :
      Effect s .selectInbound ({ s with inbound }.onPacket (some item))
  | noPacket (hplace : s.place = .selecting) : Effect s .selectInbound s
  | request {msg : Message} {requests : Channel Message requestCapacity}
      (hplace : s.place = .selecting) (hmsg : s.requests.queue = msg :: requests.queue) :
      Effect s .selectRequest ({ s with requests }.onRequest (some msg))
  | noRequest (hplace : s.place = .selecting) : Effect s .selectRequest s
  | sentPiece {msg : Message} {replies : Channel Message replyCapacity}
      (hplace : s.place = .sendingPiece msg) :
      Effect s .send { s with replies, place := .selecting }
  | sentRequest {pkt : TurnPacket} {outbound : Channel TurnPacket outboundCapacity}
      (hplace : s.place = .sendingRequest pkt) :
      Effect s .send { s with outbound, place := .selecting }
  | replySent {msg : Message} {replies : Channel Message replyCapacity} :
      Effect s (.replySent msg) { s with replies }
  | replyTaken {replies : Channel Message replyCapacity} : Effect s .replyTaken { s with replies }
  | closeReplies : Effect s .repliesClose { s with repliesClosed := true }
  | outboundTaken {outbound : Channel TurnPacket outboundCapacity} :
      Effect s .outboundTaken { s with outbound }
  | closeOutbound : Effect s .outboundClose { s with outboundClosed := true }

variable {s t : LeecherLoop} {a : Action} {sessionId : String}
  {tr : List (LeecherLoop × Action)}

lemma effect_of_step (h : s.step a = some t) : Effect s a t := by
  cases a with
  | register r =>
    simp only [step] at h
    split at h
    · split at h <;> cases h
      · exact .registered ‹_›
      · exact .refused ‹_›
    · cases h
  | packetArrives item =>
    simp only [step] at h
    split_ifs at h with hended
    cases h
    exact .arrive (Bool.eq_false_iff.mpr hended)
  | inboundEnds =>
    cases h
    exact .endInbound
  | requestQueued msg =>
    simp only [step] at h
    split_ifs at h with hclosed
    obtain ⟨requests, hsend, rfl⟩ := Option.map_eq_some_iff.mp h
    exact .queue (Bool.eq_false_iff.mpr hclosed) (Channel.send?_eq_some.mp hsend).2
  | requestsClose =>
    cases h
    exact .closeRequests
  | selectInbound =>
    simp only [step] at h
    split_ifs at h with hplace
    obtain ⟨⟨item, u⟩, hnext, rfl⟩ := Option.map_eq_some_iff.mp h
    simp only [next] at hnext
    split at hnext
    · cases hnext
      exact .packet hplace ‹_›
    · split_ifs at hnext
      cases hnext
      exact .noPacket hplace
  | selectRequest =>
    simp only [step] at h
    split_ifs at h with hplace
    obtain ⟨⟨msg, u⟩, hrecv, rfl⟩ := Option.map_eq_some_iff.mp h
    simp only [recv] at hrecv
    split at hrecv
    · cases hrecv
      exact .request hplace (Channel.recv?_eq_some.mp ‹_›)
    · split_ifs at hrecv
      cases hrecv
      exact .noRequest hplace
  | send =>
    simp only [step, send] at h
    split at h
    · split_ifs at h
      · cases h
        exact .sentPiece ‹_›
      · obtain ⟨replies, -, rfl⟩ := Option.map_eq_some_iff.mp h
        exact .sentPiece ‹_›
    · split_ifs at h
      · cases h
        exact .sentRequest ‹_›
      · obtain ⟨outbound, -, rfl⟩ := Option.map_eq_some_iff.mp h
        exact .sentRequest ‹_›
    · cases h
  | replySent msg =>
    simp only [step] at h
    split_ifs at h
    obtain ⟨replies, -, rfl⟩ := Option.map_eq_some_iff.mp h
    exact .replySent
  | replyTaken =>
    obtain ⟨⟨_, replies⟩, -, rfl⟩ := Option.map_eq_some_iff.mp h
    exact .replyTaken
  | repliesClose =>
    cases h
    exact .closeReplies
  | outboundTaken =>
    obtain ⟨⟨_, outbound⟩, -, rfl⟩ := Option.map_eq_some_iff.mp h
    exact .outboundTaken
  | outboundClose =>
    cases h
    exact .closeOutbound

/-! ### What the loop passes on -/

/-- The message for `reassemble_loop` in what the stream yields. -/
def pieceOf : Except String TurnPacket → Option Message
  | .ok pkt  => pieceMessage pkt
  | .error _ => none

/-- The piece that the loop has taken, and not sent yet. -/
def pieceInHand (s : LeecherLoop) : List Message :=
  match s.place with
  | .sendingPiece msg => [msg]
  | _                 => []

/-- The request that the loop has taken, and not sent yet. -/
def requestInHand (s : LeecherLoop) : List TurnPacket :=
  match s.place with
  | .sendingRequest pkt => [pkt]
  | _                   => []

/-- The pieces that arrive in a step. -/
def arrivedPieces (p : LeecherLoop × Action) : List Message :=
  match p.2 with
  | .packetArrives item => (pieceOf item).toList
  | _                   => []

/-- The pieces that are sent in a step, to a receiver that may have gone. -/
def sentPieces (p : LeecherLoop × Action) : List Message :=
  match p.2 with
  | .send => p.1.pieceInHand
  | _     => []

/-- The requests that are queued in a step, as they are to be sent. -/
def queuedRequests (p : LeecherLoop × Action) : List TurnPacket :=
  match p.2 with
  | .requestQueued msg => (requestPacket p.1.sessionId msg).toList
  | _                  => []

/-- The requests that are sent in a step, to a receiver that may have gone. -/
def sentRequests (p : LeecherLoop × Action) : List TurnPacket :=
  match p.2 with
  | .send => p.1.requestInHand
  | _     => []

def pendingPieces (s : LeecherLoop) : List Message :=
  s.pieceInHand ++ s.inbound.filterMap pieceOf

def pendingRequests (s : LeecherLoop) : List TurnPacket :=
  s.requestInHand ++ s.requests.queue.filterMap (requestPacket s.sessionId)

lemma pieces_step (h : Effect s a t) :
    s.pendingPieces ++ arrivedPieces (s, a) = sentPieces (s, a) ++ t.pendingPieces := by
  cases h with
  | registered hplace | refused hplace =>
    simp [pendingPieces, pieceInHand, arrivedPieces, sentPieces, hplace]
  | @arrive item =>
    cases hpiece : pieceOf item <;>
      simp [pendingPieces, pieceInHand, arrivedPieces, sentPieces, hpiece]
  | @packet item inbound hplace hitem =>
    cases item with
    | error e =>
      simp [pendingPieces, pieceInHand, arrivedPieces, sentPieces, onPacket, pieceOf, hplace,
        hitem, List.filterMap_cons]
    | ok pkt =>
      cases hpiece : pieceMessage pkt <;>
        simp [pendingPieces, pieceInHand, arrivedPieces, sentPieces, onPacket, pieceOf, hplace,
          hitem, hpiece]
  | @request msg requests hplace =>
    cases hpkt : requestPacket s.sessionId msg <;>
      simp [pendingPieces, pieceInHand, arrivedPieces, sentPieces, onRequest, hplace, hpkt]
  | sentPiece hplace | sentRequest hplace =>
    simp [pendingPieces, pieceInHand, arrivedPieces, sentPieces, hplace]
  | _ => simp [pendingPieces, pieceInHand, arrivedPieces, sentPieces]

lemma requests_step (h : Effect s a t) :
    s.pendingRequests ++ queuedRequests (s, a) = sentRequests (s, a) ++ t.pendingRequests := by
  cases h with
  | registered hplace | refused hplace =>
    simp [pendingRequests, requestInHand, queuedRequests, sentRequests, hplace]
  | @queue msg requests _ hsend =>
    cases hpkt : requestPacket s.sessionId msg <;>
      simp [pendingRequests, requestInHand, queuedRequests, sentRequests, hsend, hpkt]
  | @packet item inbound hplace =>
    cases item with
    | error e =>
      simp [pendingRequests, requestInHand, queuedRequests, sentRequests, onPacket, hplace]
    | ok pkt =>
      cases hpiece : pieceMessage pkt <;>
        simp [pendingRequests, requestInHand, queuedRequests, sentRequests, onPacket, hplace,
          hpiece]
  | @request msg requests hplace hmsg =>
    cases hpkt : requestPacket s.sessionId msg <;>
      simp [pendingRequests, requestInHand, queuedRequests, sentRequests, onRequest, hplace, hmsg,
        hpkt]
  | sentPiece hplace | sentRequest hplace =>
    simp [pendingRequests, requestInHand, queuedRequests, sentRequests, hplace]
  | _ => simp [pendingRequests, requestInHand, queuedRequests, sentRequests]

/-- In any order of rounds, the pieces that arrive and the requests that are queued are sent on,
each once and in order. -/
theorem passes_on (h : Run step (init sessionId) tr s) :
    tr.flatMap arrivedPieces = tr.flatMap sentPieces ++ s.pendingPieces ∧
      tr.flatMap queuedRequests = tr.flatMap sentRequests ++ s.pendingRequests :=
  ⟨h.flow fun _ _ _ ha => pieces_step (effect_of_step ha),
    h.flow fun _ _ _ ha => requests_step (effect_of_step ha)⟩

/-! ### The loop goes on -/

lemma onPacket_eq (s : LeecherLoop) (item : Option (Except String TurnPacket)) :
    s.onPacket item = s ∨ ∃ msg, s.onPacket item = { s with place := .sendingPiece msg } := by
  unfold onPacket
  split
  · split
    · exact .inr ⟨_, rfl⟩
    · exact .inl rfl
  · exact .inl rfl

lemma onRequest_eq (s : LeecherLoop) (msg : Option Message) :
    s.onRequest msg = s ∨ ∃ pkt, s.onRequest msg = { s with place := .sendingRequest pkt } := by
  unfold onRequest
  split
  · split
    · exact .inr ⟨_, rfl⟩
    · exact .inl rfl
  · exact .inl rfl

namespace InLoop

lemma onPacket (hs : s.InLoop) (item : Option (Except String TurnPacket)) :
    (s.onPacket item).InLoop := by
  obtain heq | ⟨msg, heq⟩ := onPacket_eq s item
  · rw [heq]
    exact hs
  · rw [heq]
    exact ⟨by simp, by simp⟩

lemma onRequest (hs : s.InLoop) (msg : Option Message) : (s.onRequest msg).InLoop := by
  obtain heq | ⟨pkt, heq⟩ := onRequest_eq s msg
  · rw [heq]
    exact hs
  · rw [heq]
    exact ⟨by simp, by simp⟩

/-- No branch leaves the loop. -/
lemma step (hs : s.InLoop) (h : Effect s a t) : t.InLoop := by
  cases h with
  | registered hplace | refused hplace => exact absurd hplace hs.1
  | @packet item inbound =>
    have htaken : InLoop { s with inbound } := hs
    exact htaken.onPacket (some item)
  | @request msg requests =>
    have htaken : InLoop { s with requests } := hs
    exact htaken.onRequest (some msg)
  | sentPiece | sentRequest => exact ⟨by simp, by simp⟩
  | _ => exact hs

lemma run (hs : s.InLoop) (h : Run LeecherLoop.step s tr t) : t.InLoop :=
  h.preserve (fun _ _ _ hs ha => hs.step (effect_of_step ha)) hs

end InLoop

namespace BothEnded

lemma onPacket (hs : s.BothEnded) (item : Option (Except String TurnPacket)) :
    (s.onPacket item).BothEnded := by
  obtain heq | ⟨msg, heq⟩ := onPacket_eq s item
  · rw [heq]
    exact hs
  · rw [heq]
    exact hs

lemma onRequest (hs : s.BothEnded) (msg : Option Message) : (s.onRequest msg).BothEnded := by
  obtain heq | ⟨pkt, heq⟩ := onRequest_eq s msg
  · rw [heq]
    exact hs
  · rw [heq]
    exact hs

lemma step (hs : s.BothEnded) (h : Effect s a t) : t.BothEnded := by
  cases h with
  | @packet item inbound =>
    have htaken : BothEnded { s with inbound } := hs
    exact htaken.onPacket (some item)
  | @request msg requests =>
    have htaken : BothEnded { s with requests } := hs
    exact htaken.onRequest (some msg)
  | endInbound => exact ⟨rfl, hs.2⟩
  | closeRequests => exact ⟨hs.1, rfl⟩
  | _ => exact hs

lemma run (hs : s.BothEnded) (h : Run LeecherLoop.step s tr t) : t.BothEnded :=
  h.preserve (fun _ _ _ hs ha => hs.step (effect_of_step ha)) hs

end BothEnded

/-- Once the stream has ended, a round can begin in every state where the loop selects. -/
lemma exists_round (hplace : s.place = .selecting) (hended : s.inboundEnded = true) :
    ∃ t, s.step .selectInbound = some t := by
  cases hinbound : s.inbound with
  | nil => exact ⟨s.onPacket none, by simp [step, next, hplace, hended, hinbound]⟩
  | cons item inbound =>
    exact ⟨{ s with inbound }.onPacket (some item), by simp [step, next, hplace, hinbound]⟩

/-- A `send` returns when the receiver has gone. -/
lemma exists_selecting (hs : s.InLoop) : ∃ tr t, Run step s tr t ∧ t.place = .selecting := by
  cases hplace : s.place with
  | registering => exact absurd hplace hs.1
  | selecting => exact ⟨[], s, .nil s, hplace⟩
  | sendingPiece msg =>
    have hexec : exec step s [.repliesClose, .send] =
        some { s with repliesClosed := true, place := .selecting } := by
      simp [exec, step, send, hplace]
    obtain ⟨tr, hrun, -⟩ := run_of_exec hexec
    exact ⟨tr, _, hrun, rfl⟩
  | sendingRequest pkt =>
    have hexec : exec step s [.outboundClose, .send] =
        some { s with outboundClosed := true, place := .selecting } := by
      simp [exec, step, send, hplace]
    obtain ⟨tr, hrun, -⟩ := run_of_exec hexec
    exact ⟨tr, _, hrun, rfl⟩
  | returned r => exact absurd hplace (hs.2 r)

/-- From every state in the loop another round can be reached. -/
lemma progress (hs : s.InLoop ∧ s.BothEnded) :
    ∃ tr t, Run step s tr t ∧ 0 < tr.countP isRound ∧ t.InLoop ∧ t.BothEnded := by
  obtain ⟨tr, t, hrun, hplace⟩ := exists_selecting hs.1
  have ht : t.BothEnded := hs.2.run hrun
  obtain ⟨u, hu⟩ := exists_round hplace ht.1
  have heffect := effect_of_step hu
  refine ⟨_, u, hrun.snoc hu, ?_, (hs.1.run hrun).step heffect, ht.step heffect⟩
  rw [List.countP_append]
  exact Nat.add_pos_right _ Nat.one_pos

/-- When its two sources have ended, the rounds of the loop go on for ever. -/
lemma not_exits (hloop : s.InLoop) (hended : s.BothEnded) : ¬ s.Exits := by
  rintro ⟨n, h⟩
  obtain ⟨tr, t, hrun, hle, ht⟩ := Run.exists_count (fun _ => progress) n ⟨hloop, hended⟩
  obtain ⟨r, hr⟩ := h tr t hrun hle
  exact ht.1.2 r hr

/-! ### The outbound channel -/

/-- The request that leaves the outbound channel in a step. -/
def leavingRequests (p : LeecherLoop × Action) : List TurnPacket :=
  match p.2 with
  | .outboundTaken => p.1.outbound.queue.head?.toList
  | _              => []

/-- Packets are not taken out of a channel whose receiver is dropped. -/
def TakesFromOpen (s : LeecherLoop) : Action → Prop
  | .outboundTaken => s.outboundClosed = false
  | _              => True

lemma onPacket_outbound (s : LeecherLoop) (item : Option (Except String TurnPacket)) :
    (s.onPacket item).outbound = s.outbound ∧
      (s.onPacket item).outboundClosed = s.outboundClosed := by
  obtain heq | ⟨msg, heq⟩ := onPacket_eq s item
  · rw [heq]
    exact ⟨rfl, rfl⟩
  · rw [heq]
    exact ⟨rfl, rfl⟩

lemma onRequest_outbound (s : LeecherLoop) (msg : Option Message) :
    (s.onRequest msg).outbound = s.outbound ∧
      (s.onRequest msg).outboundClosed = s.outboundClosed := by
  obtain heq | ⟨pkt, heq⟩ := onRequest_eq s msg
  · rw [heq]
    exact ⟨rfl, rfl⟩
  · rw [heq]
    exact ⟨rfl, rfl⟩

lemma outbound_step (h : s.step a = some t) (hopen : s.outboundClosed = false) :
    s.outbound.queue ++ sentRequests (s, a) = leavingRequests (s, a) ++ t.outbound.queue := by
  have hrest : sentRequests (s, a) = [] → leavingRequests (s, a) = [] →
      t.outbound = s.outbound →
      s.outbound.queue ++ sentRequests (s, a) = leavingRequests (s, a) ++ t.outbound.queue := by
    intro hsent hleaving houtbound
    rw [hsent, hleaving, houtbound, List.append_nil, List.nil_append]
  cases a with
  | send =>
    simp only [step, send] at h
    split at h
    · rename_i msg hplace
      have hsent : sentRequests (s, .send) = [] := by
        simp [sentRequests, requestInHand, hplace]
      split_ifs at h
      · cases h
        exact hrest hsent rfl rfl
      · obtain ⟨replies, -, rfl⟩ := Option.map_eq_some_iff.mp h
        exact hrest hsent rfl rfl
    · rename_i pkt hplace
      rw [if_neg (Bool.eq_false_iff.mp hopen)] at h
      obtain ⟨outbound, hsend, rfl⟩ := Option.map_eq_some_iff.mp h
      simp [sentRequests, leavingRequests, requestInHand, hplace,
        (Channel.send?_eq_some.mp hsend).2]
    · cases h
  | outboundTaken =>
    obtain ⟨⟨pkt, outbound⟩, hrecv, rfl⟩ := Option.map_eq_some_iff.mp h
    simp [sentRequests, leavingRequests, Channel.recv?_eq_some.mp hrecv]
  | selectInbound =>
    cases effect_of_step h with
    | packet => exact hrest rfl rfl (onPacket_outbound _ _).1
    | noPacket => exact hrest rfl rfl rfl
  | selectRequest =>
    cases effect_of_step h with
    | request => exact hrest rfl rfl (onRequest_outbound _ _).1
    | noRequest => exact hrest rfl rfl rfl
  | _ => cases effect_of_step h <;> exact hrest rfl rfl rfl

lemma outboundClosed_step (h : Effect s a t) (hclosed : s.outboundClosed = true) :
    t.outboundClosed = true := by
  cases h with
  | packet => exact (onPacket_outbound _ _).2.trans hclosed
  | request => exact (onRequest_outbound _ _).2.trans hclosed
  | closeOutbound => rfl
  | _ => exact hclosed

lemma sessionId_step (h : Effect s a t) : t.sessionId = s.sessionId := by
  cases h with
  | @packet item inbound =>
    obtain heq | ⟨msg, heq⟩ := onPacket_eq { s with inbound } (some item)
    · rw [heq]
    · rw [heq]
  | @request msg requests =>
    obtain heq | ⟨pkt, heq⟩ := onRequest_eq { s with requests } (some msg)
    · rw [heq]
    · rw [heq]
  | _ => rfl

lemma sessionId_run (hrun : Run step (init sessionId) tr s) : s.sessionId = sessionId :=
  hrun.preserve (I := fun s => s.sessionId = sessionId)
    (fun _ _ _ hs h => (sessionId_step (effect_of_step h)).trans hs) rfl

/-- What is queued is for the seeder. -/
lemma receiver_of_queued {p : LeecherLoop × Action} {pkt : TurnPacket}
    (h : pkt ∈ queuedRequests p) : pkt.receiver = some .seeder := by
  unfold queuedRequests at h
  split at h
  · rename_i msg hmsg
    rw [Option.mem_toList] at h
    unfold requestPacket at h
    split at h <;> cases h
    rfl
  · cases h

/-- The requests leave the outbound channel in the order in which they are queued. -/
lemma requests_in_order (hrun : Run step (init sessionId) tr s)
    (hopen : ∀ p ∈ tr, TakesFromOpen p.1 p.2) :
    ∃ rest, tr.flatMap queuedRequests = tr.flatMap leavingRequests ++ rest ∧
      (s.outboundClosed = false → rest = s.outbound.queue ++ s.pendingRequests) := by
  have hgoes : ∀ s a t, True → TakesFromOpen s a → ¬ s.outboundClosed = true →
      step s a = some t → (s.outbound.queue ++ s.pendingRequests) ++ queuedRequests (s, a) =
        leavingRequests (s, a) ++ (t.outbound.queue ++ t.pendingRequests) := by
    intro s a t _ _ hopen h
    rw [List.append_assoc, requests_step (effect_of_step h), ← List.append_assoc,
      outbound_step h (Bool.eq_false_iff.mpr hopen), List.append_assoc]
  have hstops : ∀ s a t, True → TakesFromOpen s a → s.outboundClosed = true →
      step s a = some t → t.outboundClosed = true ∧ leavingRequests (s, a) = [] := by
    intro s a t _ hP hclosed h
    refine ⟨outboundClosed_step (effect_of_step h) hclosed, ?_⟩
    cases a with
    | outboundTaken => exact Bool.noConfusion (hclosed.symm.trans hP)
    | _ => rfl
  obtain ⟨rest, heq, hrest⟩ := hrun.flow_until (P := TakesFromOpen) (I := fun _ => True)
    (fun _ _ _ _ _ _ => trivial) hgoes hstops hopen trivial
  exact ⟨rest, heq, fun hopen => hrest (Bool.eq_false_iff.mp hopen)⟩

/-! ### At rest -/

lemma isRegistered_run (hrun : Run step s tr t) (ht : t.place.isRegistered = true) :
    s.place.isRegistered = true ∨ ∃ q ∈ tr, q.2 = .register (.ok ()) := by
  induction hrun with
  | nil => exact .inl ht
  | @snoc t u tr a hrun ha ih =>
    have hlast : t.place.isRegistered = true ∨ a = .register (.ok ()) := by
      cases effect_of_step ha with
      | registered => exact .inr rfl
      | refused => cases ht
      | packet hplace | request hplace | sentPiece hplace | sentRequest hplace =>
        exact .inl (by rw [hplace]; rfl)
      | _ => exact .inl ht
    obtain ht | rfl := hlast
    · obtain hs | ⟨q, hq, hreg⟩ := ih ht
      · exact .inl hs
      · exact .inr ⟨q, List.mem_append_left _ hq, hreg⟩
    · exact .inr ⟨_, List.mem_append_right _ (List.mem_singleton_self _), rfl⟩

/-- A loop that can take no step, and has sent its requests, has handed on what came in. -/
lemma done (hplace : s.place.isRegistered = true) (houtbound : s.outbound.queue = [])
    (hinbound : s.step .selectInbound = none) (hrequest : s.step .selectRequest = none)
    (hsend : s.step .send = none) (htaken : s.step .replyTaken = none) :
    s.pendingRequests = [] ∧ s.pendingPieces = [] := by
  cases hp : s.place with
  | registering | returned =>
    rw [hp] at hplace
    cases hplace
  | selecting =>
    simp only [step, if_pos hp, Option.map_eq_none_iff] at hinbound hrequest
    have hnil : s.inbound = [] := by
      cases hi : s.inbound with
      | nil => rfl
      | cons item inbound => simp [next, hi] at hinbound
    have hnone : s.requests.recv? = none := by
      cases hr : s.requests.recv? with
      | none => rfl
      | some x => simp [recv, hr] at hrequest
    have hrequests := Channel.recv?_eq_none.mp hnone
    exact ⟨by rw [pendingRequests, requestInHand, hp, hrequests]; rfl,
      by rw [pendingPieces, pieceInHand, hp, hnil]; rfl⟩
  | sendingPiece msg =>
    simp only [step, send, hp] at hsend
    split_ifs at hsend
    have hfull := Channel.send?_eq_none.mp (Option.map_eq_none_iff.mp hsend)
    rw [Channel.Full, Channel.recv?_eq_none.mp (Option.map_eq_none_iff.mp htaken)] at hfull
    cases hfull
  | sendingRequest pkt =>
    simp only [step, send, hp] at hsend
    split_ifs at hsend
    have hfull := Channel.send?_eq_none.mp (Option.map_eq_none_iff.mp hsend)
    rw [Channel.Full, houtbound] at hfull
    cases hfull

end LeecherLoop

/-! ### Waiting for the connections -/

/-- The task of a connection. It is `connecting` until it has a transport or fails, and then it
finishes or falls back on TURN. -/
inductive ConnectionTask where
  | connecting
  | leeching (l : LeecherLoop)
  | finished

/-- The tasks that `file_request` has spawned, and the number of handles it has awaited. -/
structure FileRequestJoin where
  tasks : List ConnectionTask
  awaited : ℕ

namespace FileRequestJoin

inductive Action where
  | finish (k : ℕ)
  | fallBack (k : ℕ) (sessionId : String)
  | leech (k : ℕ) (a : LeecherLoop.Action)
  | join

def start (numConnections : ℕ) : FileRequestJoin := ⟨List.replicate numConnections .connecting, 0⟩

/-- The handle of a task that leeches is ready when `start_leeching` has returned. -/
def taskOf (l : LeecherLoop) : ConnectionTask :=
  match l.place with
  | .returned _ => .finished
  | _           => .leeching l

def setTask (s : FileRequestJoin) (k : ℕ) (task : ConnectionTask) : FileRequestJoin :=
  { s with tasks := s.tasks.set k task }

def step (s : FileRequestJoin) : Action → Option FileRequestJoin
  | .finish k             =>
    match s.tasks[k]? with
    | some .connecting => some (s.setTask k .finished)
    | _                => none
  | .fallBack k sessionId =>
    match s.tasks[k]? with
    | some .connecting => some (s.setTask k (.leeching (.init sessionId)))
    | _                => none
  | .leech k a            =>
    match s.tasks[k]? with
    | some (.leeching l) => (l.step a).map fun l => s.setTask k (taskOf l)
    | _                  => none
  | .join                 =>
    match s.tasks[s.awaited]? with
    | some .finished => some { s with awaited := s.awaited + 1 }
    | _              => none

/-- All handles are awaited: `file_request` returns. -/
def Returned (s : FileRequestJoin) : Prop := s.awaited = s.tasks.length

variable {s t : FileRequestJoin} {a : Action} {k n : ℕ} {tr : List (FileRequestJoin × Action)}

lemma taskOf_of_inLoop {l : LeecherLoop} (hl : l.InLoop) : taskOf l = .leeching l := by
  unfold taskOf
  split
  · exact absurd ‹_› (hl.2 _)
  · rfl

/-- A step moves a task that connects, moves one that leeches, or awaits a finished one. -/
lemma step_cases (h : s.step a = some t) :
    (∃ j task, s.tasks[j]? = some .connecting ∧ t = s.setTask j task) ∨
    (∃ j l b l', s.tasks[j]? = some (.leeching l) ∧ l.step b = some l' ∧
      t = s.setTask j (taskOf l')) ∨
    (s.tasks[s.awaited]? = some .finished ∧ t = { s with awaited := s.awaited + 1 }) := by
  cases a with
  | finish j | fallBack j sessionId =>
    simp only [step] at h
    split at h <;> cases h
    exact .inl ⟨j, _, ‹_›, rfl⟩
  | leech j b =>
    simp only [step] at h
    split at h
    · obtain ⟨l', hl', rfl⟩ := Option.map_eq_some_iff.mp h
      exact .inr (.inl ⟨j, _, b, l', ‹_›, hl', rfl⟩)
    · cases h
  | join =>
    simp only [step] at h
    split at h <;> cases h
    exact .inr (.inr ⟨‹_›, rfl⟩)

/-- The handles that have been awaited are those of finished tasks. -/
def Joined (s : FileRequestJoin) : Prop := ∀ j < s.awaited, s.tasks[j]? = some .finished

lemma Joined.setTask (hs : s.Joined) {x task : ConnectionTask} (hx : s.tasks[k]? = some x)
    (hfinished : x ≠ .finished) : (s.setTask k task).Joined := by
  intro j hj
  have hne : k ≠ j := by
    rintro rfl
    exact hfinished (Option.some.inj (hx.symm.trans (hs k hj)))
  exact (List.getElem?_set_ne hne).trans (hs j hj)

lemma Joined.step (hs : s.Joined) (h : FileRequestJoin.step s a = some t) : t.Joined := by
  obtain ⟨j, task, hj, rfl⟩ | ⟨j, l, b, l', hj, -, rfl⟩ | ⟨hfinished, rfl⟩ := step_cases h
  · exact hs.setTask hj (by simp)
  · exact hs.setTask hj (by simp)
  · intro j hj
    rcases Nat.lt_succ_iff_lt_or_eq.mp hj with hj | rfl
    · exact hs j hj
    · exact hfinished

lemma joined_run (h : Run step (start n) tr s) : s.Joined :=
  h.preserve (fun _ _ _ hs ha => hs.step ha) fun _ hj => absurd hj (Nat.not_lt_zero _)

/-- The task is in the loop of `start_leeching`. -/
def Leeches (k : ℕ) (s : FileRequestJoin) : Prop :=
  ∃ l, s.tasks[k]? = some (.leeching l) ∧ l.InLoop

lemma Leeches.step (hs : s.Leeches k) (h : FileRequestJoin.step s a = some t) : t.Leeches k := by
  obtain ⟨l, hl, hloop⟩ := hs
  obtain ⟨j, task, hj, rfl⟩ | ⟨j, m, b, m', hj, hm', rfl⟩ | ⟨-, rfl⟩ := step_cases h
  · have hne : j ≠ k := by
      rintro rfl
      simp [hl] at hj
    exact ⟨l, (List.getElem?_set_ne hne).trans hl, hloop⟩
  · by_cases hjk : j = k
    · subst hjk
      obtain rfl : l = m := by simpa [hl] using hj
      have hloop' : m'.InLoop := hloop.step (LeecherLoop.effect_of_step hm')
      refine ⟨m', ?_, hloop'⟩
      rw [taskOf_of_inLoop hloop']
      exact List.getElem?_set_self (List.getElem?_eq_some_iff.mp hl).1
    · exact ⟨l, (List.getElem?_set_ne hjk).trans hl, hloop⟩
  · exact ⟨l, hl, hloop⟩

/-- Once a connection leeches over TURN, `file_request` does not return. -/
theorem file_request_waits {tr' : List (FileRequestJoin × Action)} (h : Run step (start n) tr s)
    (hk : s.Leeches k) (h' : Run step s tr' t) : ¬ t.Returned := by
  intro hreturned
  have hjoined := joined_run (h.append h')
  obtain ⟨l, hl, -⟩ : t.Leeches k := h'.preserve (fun _ _ _ hs ha => hs.step ha) hk
  have hlt := (List.getElem?_eq_some_iff.mp hl).1
  have hfinished := hjoined k (hreturned ▸ hlt)
  rw [hl] at hfinished
  cases hfinished

end FileRequestJoin

namespace LeecherLoop

variable {s : LeecherLoop}

/-- Once it is in its loop, `start_leeching` does not return, it takes no number of rounds after the
end of its two sources for the loop to exit, and a `file_request` that awaits it does not return. -/
theorem leecher_loop_never_exits (hloop : s.InLoop) (hended : s.BothEnded) :
    (∀ tr t, Run step s tr t → ∀ r, t.place ≠ .returned r) ∧ ¬ s.Exits ∧
      ∀ n (k : ℕ) tr f, Run FileRequestJoin.step (.start n) tr f →
        f.tasks[k]? = some (.leeching s) →
          ∀ tr' f', Run FileRequestJoin.step f tr' f' → ¬ f'.Returned := by
  refine ⟨fun _ _ hrun => (hloop.run hrun).2, not_exits hloop hended, ?_⟩
  intro n k tr f hrun hk tr' f' hrun'
  exact FileRequestJoin.file_request_waits hrun ⟨s, hk, hloop⟩ hrun'

/-- A request for a piece of the first connection. -/
def askFor (index : UInt32) : Message := .request 0 index 0 65536 .zero

/-- A packet with a piece of the letter `a`. -/
def letterPacket (index : UInt32) : TurnPacket := ⟨"s", some (.piece [97] index)⟩

/-- Two requests are sent, an error, a packet without a piece and a piece come in, and the sources
end with another piece and another request not taken yet. -/
def busyActions : List Action :=
  [.register (.ok ()), .requestQueued (askFor 0), .requestQueued (askFor 1), .selectRequest, .send,
    .outboundTaken, .packetArrives (.error "lost"), .packetArrives (.ok ⟨"s", none⟩),
    .packetArrives (.ok (letterPacket 0)), .selectInbound, .selectRequest, .send, .selectInbound,
    .selectInbound, .send, .replyTaken, .requestQueued (askFor 2),
    .packetArrives (.ok (letterPacket 1)), .requestsClose, .inboundEnds]

/-- The loop when both sources have ended. -/
def busy : LeecherLoop :=
  ⟨"s", .selecting, [.ok (letterPacket 1)], true, ⟨[askFor 2], by decide⟩, true, .empty, false,
    ⟨[⟨"s", some (.request Digest.zero.val 1)⟩], by decide⟩, false⟩

lemma run_busy : Run step (init "s") (trace step (init "s") busyActions) busy :=
  (run_trace (by rfl)).1

lemma inLoop_busy : busy.InLoop := ⟨LeecherAt.noConfusion, fun _ => LeecherAt.noConfusion⟩

lemma bothEnded_busy : busy.BothEnded := ⟨rfl, rfl⟩

/-- The second of two connections falls back on TURN, and the first one is done and awaited. -/
def joinActions : List FileRequestJoin.Action :=
  [.fallBack 1 "s", .finish 0, .join] ++ busyActions.map (.leech 1)

theorem leecher_loop_never_exits_busy :
    let tr := trace step (init "s") busyActions
    let tr' := trace FileRequestJoin.step (.start 2) joinActions
    tr.flatMap sentRequests = [0, 1].map (fun i => ⟨"s", some (.request Digest.zero.val i)⟩) ∧
      tr.flatMap sentPieces = [.piece 0 [97]] ∧ Run step (init "s") tr busy ∧ ¬ busy.Exits ∧
      Run FileRequestJoin.step (.start 2) tr' ⟨[.finished, .leeching busy], 1⟩ ∧
      ∀ tr'' f, Run FileRequestJoin.step ⟨[.finished, .leeching busy], 1⟩ tr'' f →
        ¬ f.Returned := by
  have hjoin : Run FileRequestJoin.step (.start 2)
      (trace FileRequestJoin.step (.start 2) joinActions) ⟨[.finished, .leeching busy], 1⟩ :=
    (run_trace (by rfl)).1
  obtain ⟨-, hexits, hwaits⟩ := leecher_loop_never_exits inLoop_busy bothEnded_busy
  exact ⟨rfl, rfl, run_busy, hexits, hjoin, hwaits 2 1 _ _ hjoin rfl⟩

theorem leecher_loop_spins : ¬ ∀ sessionId tr s, Run step (init sessionId) tr s → s.InLoop →
    s.BothEnded → s.Exits := by
  intro h
  exact not_exits inLoop_busy bothEnded_busy (h _ _ _ run_busy inLoop_busy bothEnded_busy)

end LeecherLoop

end BearTorrent
