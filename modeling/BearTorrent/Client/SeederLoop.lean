import BearTorrent.Client.LeecherLoop

/-!
# The seeding loop and its session

The task that `start_seeding` leaves behind when it has registered: it answers the packets that
come in over the session one by one, and waits for room in the outbound channel with each reply.
What is shared, and the disk, may change between two of its rounds.
-/

namespace BearTorrent

open Transition

/-- Where the seeding loop is. -/
inductive SeedingAt where
  | registering
  | receiving
  | sending (reply : TurnPacket)
  /-- the loop is left, by a panic or by a request that cannot be served, or the stream is closed -/
  | ended
  /-- `register` has failed, there is no loop -/
  | failed (error : String)
  deriving DecidableEq

/-- The registration has succeeded. -/
def SeedingAt.isRegistered : SeedingAt → Bool
  | .registering | .failed _ => false
  | _                        => true

/-- The state of the seeding loop, and what is shared. -/
structure SeederLoop where
  sessionId : String
  place : SeedingAt
  inbound : List (Except String TurnPacket)
  inboundEnded : Bool
  outbound : Channel TurnPacket outboundCapacity
  outboundClosed : Bool
  fileMap : FileMap
  store : Store

namespace SeederLoop

def init (sessionId : String) (fileMap : FileMap) (σ : Store) : SeederLoop :=
  ⟨sessionId, .registering, [], false, .empty, false, fileMap, σ⟩

inductive Action where
  /-- the call of `register` returns -/
  | register (result : Except String Unit)
  | packetArrives (item : Except String TurnPacket)
  | inboundEnds
  /-- `inbound.next()` yields, and the packet is dealt with -/
  | round
  /-- the awaited `send` of the reply returns -/
  | send
  | outboundTaken
  | outboundClose
  /-- the client shares other files, or other tasks write to the disk -/
  | folderChanges (fileMap : FileMap) (σ : Store)

/-- A round that takes a packet. -/
def onPacket (env : Env) (s : SeederLoop) (pkt : TurnPacket) : SeederLoop :=
  match runOn (seedRound env s.fileMap s.sessionId pkt) s.store with
  | (.ok (.sent reply), store) => { s with store, place := .sending reply }
  | (.ok .skipped, store)      => { s with store }
  | (_, store)                 => { s with store, place := .ended }

/-- A round of the loop, once the stream yields. -/
def round (env : Env) (s : SeederLoop) : Option SeederLoop :=
  match s.place with
  | .receiving =>
    match s.inbound with
    | .ok pkt :: inbound  => some ({ s with inbound }.onPacket env pkt)
    | .error _ :: inbound => some { s with inbound }
    | []                  => if s.inboundEnded then some { s with place := .ended } else none
  | _ => none

/-- The awaited `send` returns; its error is printed only. -/
def send (s : SeederLoop) : Option SeederLoop :=
  match s.place with
  | .sending reply =>
    if s.outboundClosed then some { s with place := .receiving }
    else (s.outbound.send? reply).map fun outbound => { s with outbound, place := .receiving }
  | _              => none

def step (env : Env) (s : SeederLoop) : Action → Option SeederLoop
  | .register result       =>
    match s.place, result with
    | .registering, .ok ()   => some { s with place := .receiving }
    | .registering, .error e => some { s with place := .failed e }
    | _, _                   => none
  | .packetArrives item    =>
    if s.inboundEnded then none else some { s with inbound := s.inbound ++ [item] }
  | .inboundEnds           => some { s with inboundEnded := true }
  | .round                 => s.round env
  | .send                  => s.send
  | .outboundTaken         => s.outbound.recv?.map fun (_, outbound) => { s with outbound }
  | .outboundClose         => some { s with outboundClosed := true }
  | .folderChanges fileMap store => some { s with fileMap, store }

/-! ### What a step can do -/

/-- The effects of the steps, with their guards. -/
inductive Effect (env : Env) (s : SeederLoop) : Action → SeederLoop → Prop
  | registered (hplace : s.place = .registering) :
      Effect env s (.register (.ok ())) { s with place := .receiving }
  | refused {e : String} (hplace : s.place = .registering) :
      Effect env s (.register (.error e)) { s with place := .failed e }
  | arrive {item : Except String TurnPacket} (hopen : s.inboundEnded = false) :
      Effect env s (.packetArrives item) { s with inbound := s.inbound ++ [item] }
  | endInbound : Effect env s .inboundEnds { s with inboundEnded := true }
  | reply {pkt reply : TurnPacket} {inbound : List (Except String TurnPacket)} {store : Store}
      (hplace : s.place = .receiving) (hitem : s.inbound = .ok pkt :: inbound)
      (hround : runOn (seedRound env s.fileMap s.sessionId pkt) s.store
        = (.ok (.sent reply), store)) :
      Effect env s .round { s with inbound, store, place := .sending reply }
  | skip {pkt : TurnPacket} {inbound : List (Except String TurnPacket)} {store : Store}
      (hplace : s.place = .receiving) (hitem : s.inbound = .ok pkt :: inbound)
      (hround : runOn (seedRound env s.fileMap s.sessionId pkt) s.store = (.ok .skipped, store)) :
      Effect env s .round { s with inbound, store }
  | leave {pkt : TurnPacket} {inbound : List (Except String TurnPacket)} {store : Store}
      {result : Except Fault SeedRound} (hplace : s.place = .receiving)
      (hitem : s.inbound = .ok pkt :: inbound)
      (hround : runOn (seedRound env s.fileMap s.sessionId pkt) s.store = (result, store))
      (hresult : result = .ok .ended ∨ ∃ fault, result = .error fault) :
      Effect env s .round { s with inbound, store, place := .ended }
  | error {e : String} {inbound : List (Except String TurnPacket)}
      (hplace : s.place = .receiving) (hitem : s.inbound = .error e :: inbound) :
      Effect env s .round { s with inbound }
  | closed (hplace : s.place = .receiving) (hitem : s.inbound = [])
      (hended : s.inboundEnded = true) : Effect env s .round { s with place := .ended }
  | sent {reply : TurnPacket} {outbound : Channel TurnPacket outboundCapacity}
      (hplace : s.place = .sending reply) (hopen : s.outboundClosed = false)
      (hsend : outbound.queue = s.outbound.queue ++ [reply]) :
      Effect env s .send { s with outbound, place := .receiving }
  | unsent {reply : TurnPacket} (hplace : s.place = .sending reply)
      (hclosed : s.outboundClosed = true) : Effect env s .send { s with place := .receiving }
  | outboundTaken {reply : TurnPacket} {outbound : Channel TurnPacket outboundCapacity}
      (hreply : s.outbound.queue = reply :: outbound.queue) :
      Effect env s .outboundTaken { s with outbound }
  | closeOutbound : Effect env s .outboundClose { s with outboundClosed := true }
  | folderChanges {fileMap : FileMap} {store : Store} :
      Effect env s (.folderChanges fileMap store) { s with fileMap, store }

variable {env : Env} {s t : SeederLoop} {a : Action} {sessionId : String}
  {tr : List (SeederLoop × Action)}

lemma effect_of_round (h : s.round env = some t) : Effect env s .round t := by
  unfold round at h
  split at h
  · rename_i hplace
    split at h
    · rename_i pkt inbound hitem
      obtain rfl := Option.some.inj h
      unfold onPacket
      dsimp only
      split
      · exact .reply hplace hitem ‹_›
      · exact .skip hplace hitem ‹_›
      · rename_i result store hsent hskipped hround
        refine .leave hplace hitem hround ?_
        rcases result with fault | ⟨reply | _ | _⟩
        · exact .inr ⟨fault, rfl⟩
        · exact absurd rfl (hsent reply)
        · exact absurd rfl hskipped
        · exact .inl rfl
    · cases h
      exact .error hplace ‹_›
    · split_ifs at h with hended
      cases h
      exact .closed hplace ‹_› hended
  · cases h

lemma effect_of_step (h : s.step env a = some t) : Effect env s a t := by
  cases a with
  | register result =>
    simp only [step] at h
    split at h
    · cases h
      exact .registered ‹_›
    · cases h
      exact .refused ‹_›
    · cases h
  | packetArrives item =>
    simp only [step] at h
    split_ifs at h with hended
    cases h
    exact .arrive (Bool.eq_false_iff.mpr hended)
  | inboundEnds =>
    cases h
    exact .endInbound
  | round => exact effect_of_round h
  | send =>
    simp only [step, send] at h
    split at h
    · split_ifs at h with hclosed
      · cases h
        exact .unsent ‹_› hclosed
      · obtain ⟨outbound, hsend, rfl⟩ := Option.map_eq_some_iff.mp h
        exact .sent ‹_› (Bool.eq_false_iff.mpr hclosed) (Channel.send?_eq_some.mp hsend).2
    · cases h
  | outboundTaken =>
    obtain ⟨⟨reply, outbound⟩, hrecv, rfl⟩ := Option.map_eq_some_iff.mp h
    exact .outboundTaken (Channel.recv?_eq_some.mp hrecv)
  | outboundClose =>
    cases h
    exact .closeOutbound
  | folderChanges fileMap store =>
    cases h
    exact .folderChanges

/-! ### What the loop takes and what it sends -/

/-- The packet that comes in with a step. -/
def arrivedPackets (p : SeederLoop × Action) : List TurnPacket :=
  match p.2 with
  | .packetArrives (.ok pkt) => [pkt]
  | _                        => []

/-- The packet that a round takes. -/
def takenPackets (p : SeederLoop × Action) : List TurnPacket :=
  match p.2, p.1.place, p.1.inbound with
  | .round, .receiving, .ok pkt :: _ => [pkt]
  | _, _, _                          => []

/-- The reply that comes out of a round, if there is one. -/
def replyOf : Except Fault SeedRound → Option TurnPacket
  | .ok (.sent reply) => some reply
  | _                 => none

/-- The reply to a packet. -/
def replyTo (env : Env) (s : SeederLoop) (pkt : TurnPacket) : Option TurnPacket :=
  replyOf (runOn (seedRound env s.fileMap s.sessionId pkt) s.store).1

/-- The reply that a round makes. -/
def madeReplies (env : Env) (p : SeederLoop × Action) : List TurnPacket :=
  (takenPackets p).filterMap (replyTo env p.1)

/-- The reply that leaves the outbound channel in a step. -/
def leavingReplies (p : SeederLoop × Action) : List TurnPacket :=
  match p.2 with
  | .outboundTaken => p.1.outbound.queue.head?.toList
  | _              => []

/-- The reply that waits for room in the outbound channel. -/
def replyInHand (s : SeederLoop) : List TurnPacket :=
  match s.place with
  | .sending reply => [reply]
  | _              => []

def pendingPackets (s : SeederLoop) : List TurnPacket := s.inbound.filterMap Except.toOption

def pendingReplies (s : SeederLoop) : List TurnPacket := s.outbound.queue ++ s.replyInHand

/-- Packets are not taken out of a channel whose receiver is dropped. -/
def TakesFromOpen (s : SeederLoop) : Action → Prop
  | .outboundTaken => s.outboundClosed = false
  | _              => True

/-- Nothing but packets of the service changes what is shared. -/
def KeepsFolder : Action → Prop
  | .folderChanges _ _ => False
  | _                  => True

lemma takenPackets_round {pkt : TurnPacket} {inbound : List (Except String TurnPacket)}
    (hplace : s.place = .receiving) (hitem : s.inbound = .ok pkt :: inbound) :
    takenPackets (s, .round) = [pkt] := by
  simp [takenPackets, hplace, hitem]

lemma packets_step (h : Effect env s a t) :
    s.pendingPackets ++ arrivedPackets (s, a) = takenPackets (s, a) ++ t.pendingPackets := by
  cases h with
  | @arrive item =>
    cases item <;> simp [pendingPackets, arrivedPackets, takenPackets, Except.toOption]
  | reply hplace hitem | skip hplace hitem | leave hplace hitem =>
    simp [pendingPackets, arrivedPackets, takenPackets_round hplace hitem, hitem, Except.toOption]
  | error hplace hitem =>
    simp [pendingPackets, arrivedPackets, takenPackets, hplace, hitem, Except.toOption,
      List.filterMap_cons]
  | closed hplace hitem =>
    simp [pendingPackets, arrivedPackets, takenPackets, hplace, hitem]
  | _ => simp [pendingPackets, arrivedPackets, takenPackets]

/-- The reply that a round makes is the one in hand after it. -/
lemma madeReplies_round {pkt : TurnPacket} {inbound : List (Except String TurnPacket)}
    {result : Except Fault SeedRound} {store : Store} (hplace : s.place = .receiving)
    (hitem : s.inbound = .ok pkt :: inbound)
    (hround : runOn (seedRound env s.fileMap s.sessionId pkt) s.store = (result, store)) :
    madeReplies env (s, .round) = (replyOf result).toList := by
  have hreply : replyTo env s pkt = replyOf result := by rw [replyTo, hround]
  rw [madeReplies, takenPackets_round hplace hitem, List.filterMap_cons, List.filterMap_nil,
    hreply]
  cases replyOf result <;> rfl

/-- A reply is a piece. -/
lemma receiver_of_sent {fileMap : FileMap} {σ σ' : Store} {pkt reply : TurnPacket}
    (h : runOn (seedRound env fileMap sessionId pkt) σ = (.ok (.sent reply), σ')) :
    reply.receiver = some .leecher := by
  unfold seedRound at h
  split at h
  · split at h
    · cases h
    · split at h
      · cases h
      · rw [runOn_bind] at h
        split at h
        · split at h <;> cases h
          rfl
        · cases h
  · cases h

lemma receiver_of_made {p : SeederLoop × Action} {reply : TurnPacket}
    (h : reply ∈ madeReplies env p) : reply.receiver = some .leecher := by
  obtain ⟨pkt, -, hreply⟩ := List.mem_filterMap.mp h
  unfold replyTo replyOf at hreply
  split at hreply
  · rename_i reply' hround
    obtain rfl := Option.some.inj hreply
    exact receiver_of_sent (Prod.ext hround rfl)
  · cases hreply

lemma madeReplies_eq_nil (h : takenPackets (s, a) = []) : madeReplies env (s, a) = [] := by
  rw [madeReplies, h]
  rfl

lemma replies_step (h : Effect env s a t) (hopen : s.outboundClosed = false) :
    s.pendingReplies ++ madeReplies env (s, a) = leavingReplies (s, a) ++ t.pendingReplies := by
  cases h with
  | registered hplace | refused hplace =>
    simp [pendingReplies, madeReplies, takenPackets, leavingReplies, replyInHand, hplace]
  | reply hplace hitem hround =>
    rw [madeReplies_round hplace hitem hround]
    simp [pendingReplies, leavingReplies, replyInHand, replyOf, hplace]
  | skip hplace hitem hround =>
    rw [madeReplies_round hplace hitem hround]
    simp [pendingReplies, leavingReplies, replyInHand, replyOf, hplace]
  | leave hplace hitem hround hresult =>
    rw [madeReplies_round hplace hitem hround]
    obtain rfl | ⟨fault, rfl⟩ := hresult
    · simp [pendingReplies, leavingReplies, replyInHand, replyOf, hplace]
    · simp [pendingReplies, leavingReplies, replyInHand, replyOf, hplace]
  | error hplace hitem =>
    simp [pendingReplies, madeReplies, takenPackets, leavingReplies, replyInHand, hplace, hitem]
  | closed hplace hitem =>
    simp [pendingReplies, madeReplies, takenPackets, leavingReplies, replyInHand, hplace, hitem]
  | sent hplace _ hsend =>
    simp [pendingReplies, madeReplies, takenPackets, leavingReplies, replyInHand, hplace, hsend]
  | unsent hplace hclosed => exact absurd (hopen.symm.trans hclosed) Bool.false_ne_true
  | outboundTaken hreply =>
    simp [pendingReplies, madeReplies, takenPackets, leavingReplies, replyInHand, hreply]
  | _ => simp [pendingReplies, madeReplies, takenPackets, leavingReplies, replyInHand]

lemma outboundClosed_step (h : Effect env s a t) (hclosed : s.outboundClosed = true) :
    t.outboundClosed = true := by
  cases h <;> first | exact hclosed | rfl

/-- What comes in is taken in the order of its arrival. -/
lemma packets_in_order {tr : List (SeederLoop × Action)} (hrun : Run (step env) s tr t) :
    s.pendingPackets ++ tr.flatMap arrivedPackets = tr.flatMap takenPackets ++ t.pendingPackets :=
  hrun.flow fun _ _ _ h => packets_step (effect_of_step h)

/-- The replies leave the outbound channel in the order in which they are made. -/
lemma replies_in_order {tr : List (SeederLoop × Action)} (hrun : Run (step env) s tr t)
    (hopen : ∀ p ∈ tr, TakesFromOpen p.1 p.2) :
    ∃ rest, s.pendingReplies ++ tr.flatMap (madeReplies env) = tr.flatMap leavingReplies ++ rest ∧
      (t.outboundClosed = false → rest = t.pendingReplies) := by
  have hstops : ∀ s a t, True → TakesFromOpen s a → s.outboundClosed = true →
      step env s a = some t → t.outboundClosed = true ∧ leavingReplies (s, a) = [] := by
    intro s a t _ hP hclosed h
    refine ⟨outboundClosed_step (effect_of_step h) hclosed, ?_⟩
    cases a with
    | outboundTaken => exact Bool.noConfusion (hclosed.symm.trans hP)
    | _ => rfl
  obtain ⟨rest, heq, hrest⟩ := hrun.flow_until (P := TakesFromOpen) (I := fun _ => True)
    (fun _ _ _ _ _ _ => trivial)
    (fun _ _ _ _ _ hopen h => replies_step (effect_of_step h) (Bool.eq_false_iff.mpr hopen))
    hstops hopen trivial
  exact ⟨rest, heq, fun hopen => hrest (Bool.eq_false_iff.mp hopen)⟩

/-! ### The replies of a session -/

/-- The disk after the rounds of `startSeeding`, if its loop is not left. -/
def storeAfter (env : Env) (fileMap : FileMap) (sessionId : String) :
    Store → List TurnPacket → Option Store
  | σ, []          => some σ
  | σ, pkt :: pkts =>
    match runOn (seedRound env fileMap sessionId pkt) σ with
    | (.ok (.sent _), σ') => storeAfter env fileMap sessionId σ' pkts
    | (.ok .skipped, σ')  => storeAfter env fileMap sessionId σ' pkts
    | _                   => none

/-- The replies of `startSeeding` to packets that all come in. -/
def sessionReplies (env : Env) (fileMap : FileMap) (sessionId : String) (σ : Store)
    (pkts : List TurnPacket) : List TurnPacket :=
  (startSeeding env fileMap sessionId σ (pkts.map .ok)).filterMap id

section Session

variable {fileMap : FileMap} {σ : Store} {taken made : List TurnPacket}

lemma storeAfter_append (pkts pkts' : List TurnPacket) :
    storeAfter env fileMap sessionId σ (pkts ++ pkts') =
      (storeAfter env fileMap sessionId σ pkts).bind fun σ' =>
        storeAfter env fileMap sessionId σ' pkts' := by
  induction pkts generalizing σ with
  | nil => rfl
  | cons pkt pkts ih =>
    rw [List.cons_append, storeAfter, storeAfter]
    split
    · exact ih
    · exact ih
    · rfl

/-- The replies to one packet more. -/
lemma sessionReplies_concat (pkts : List TurnPacket) (pkt : TurnPacket) :
    sessionReplies env fileMap sessionId σ (pkts ++ [pkt]) =
      sessionReplies env fileMap sessionId σ pkts ++
        ((storeAfter env fileMap sessionId σ pkts).bind fun σ' =>
          replyOf (runOn (seedRound env fileMap sessionId pkt) σ').1).toList := by
  unfold sessionReplies
  induction pkts generalizing σ with
  | nil =>
    simp only [List.nil_append, List.map_cons, List.map_nil, startSeeding, storeAfter,
      Option.bind_some]
    rcases runOn (seedRound env fileMap sessionId pkt) σ with ⟨fault | ⟨reply | _ | _⟩, σ'⟩ <;> rfl
  | cons first pkts ih =>
    simp only [List.cons_append, List.map_cons, startSeeding, storeAfter]
    rcases runOn (seedRound env fileMap sessionId first) σ with ⟨fault | ⟨reply | _ | _⟩, σ'⟩
    · simp
    · simpa using ih
    · simpa using ih
    · simp

/-- The loop has taken these packets and made these replies, as `startSeeding` does. -/
structure Answering (env : Env) (fileMap : FileMap) (sessionId : String) (σ : Store)
    (taken made : List TurnPacket) (s : SeederLoop) : Prop where
  shared : s.fileMap = fileMap
  session : s.sessionId = sessionId
  replies : made = sessionReplies env fileMap sessionId σ taken
  disk : s.place ≠ .ended → storeAfter env fileMap sessionId σ taken = some s.store

/-- A round that takes a packet replies as `startSeeding` does. -/
lemma Answering.round (hs : Answering env fileMap sessionId σ taken made s) {pkt : TurnPacket}
    {inbound : List (Except String TurnPacket)} {result : Except Fault SeedRound} {store : Store}
    (hplace : s.place = .receiving) (hitem : s.inbound = .ok pkt :: inbound)
    (hround : runOn (seedRound env s.fileMap s.sessionId pkt) s.store = (result, store)) :
    made ++ madeReplies env (s, .round) =
        sessionReplies env fileMap sessionId σ (taken ++ takenPackets (s, .round)) ∧
      storeAfter env fileMap sessionId σ (taken ++ takenPackets (s, .round)) =
        match (result, store) with
        | (.ok (.sent _), σ') => some σ'
        | (.ok .skipped, σ')  => some σ'
        | _                   => none := by
  have hdisk := hs.disk (by rw [hplace]; exact SeedingAt.noConfusion)
  rw [hs.shared, hs.session] at hround
  constructor
  · rw [madeReplies_round hplace hitem (hs.shared ▸ hs.session ▸ hround),
      takenPackets_round hplace hitem, sessionReplies_concat, hdisk, Option.bind_some, hround,
      hs.replies]
  · rw [takenPackets_round hplace hitem, storeAfter_append, hdisk, Option.bind_some, storeAfter,
      hround]
    rcases result with fault | ⟨reply | _ | _⟩ <;> rfl

lemma Answering.step (hs : Answering env fileMap sessionId σ taken made s)
    (h : Effect env s a t) (hfolder : KeepsFolder a) :
    Answering env fileMap sessionId σ (taken ++ takenPackets (s, a))
      (made ++ madeReplies env (s, a)) t := by
  -- a step that takes no packet
  have hrest : takenPackets (s, a) = [] → t.fileMap = s.fileMap → t.sessionId = s.sessionId →
      (t.place ≠ .ended → s.place ≠ .ended ∧ t.store = s.store) →
      Answering env fileMap sessionId σ (taken ++ takenPackets (s, a))
        (made ++ madeReplies env (s, a)) t := by
    intro htaken hshared hsession hdisk
    rw [madeReplies_eq_nil htaken, htaken, List.append_nil, List.append_nil]
    refine ⟨hshared.trans hs.shared, hsession.trans hs.session, hs.replies, fun hplace => ?_⟩
    obtain ⟨hplace, hstore⟩ := hdisk hplace
    rw [hstore, hs.disk hplace]
  cases h with
  | registered hplace => exact hrest rfl rfl rfl fun _ => ⟨by rw [hplace]; simp, rfl⟩
  | refused hplace => exact hrest rfl rfl rfl fun _ => ⟨by rw [hplace]; simp, rfl⟩
  | reply hplace hitem hround =>
    obtain ⟨hreplies, hdisk⟩ := hs.round hplace hitem hround
    exact ⟨hs.shared, hs.session, hreplies, fun _ => hdisk⟩
  | skip hplace hitem hround =>
    obtain ⟨hreplies, hdisk⟩ := hs.round hplace hitem hround
    exact ⟨hs.shared, hs.session, hreplies, fun _ => hdisk⟩
  | leave hplace hitem hround =>
    obtain ⟨hreplies, -⟩ := hs.round hplace hitem hround
    exact ⟨hs.shared, hs.session, hreplies, fun h => absurd rfl h⟩
  | error hplace hitem =>
    exact hrest (by simp [takenPackets, hplace, hitem]) rfl rfl fun hne => ⟨hne, rfl⟩
  | closed hplace hitem =>
    exact hrest (by simp [takenPackets, hplace, hitem]) rfl rfl fun hne => absurd rfl hne
  | sent hplace => exact hrest rfl rfl rfl fun _ => ⟨by rw [hplace]; simp, rfl⟩
  | unsent hplace => exact hrest rfl rfl rfl fun _ => ⟨by rw [hplace]; simp, rfl⟩
  | folderChanges => exact hfolder.elim
  | _ => exact hrest rfl rfl rfl fun hne => ⟨hne, rfl⟩

/-- While nothing else changes what is shared, the loop makes the replies of `startSeeding` to the
packets that it takes, however its rounds are spread. -/
lemma answering_run {tr : List (SeederLoop × Action)}
    (hrun : Run (step env) (init sessionId fileMap σ) tr s)
    (hfolder : ∀ p ∈ tr, KeepsFolder p.2) :
    Answering env fileMap sessionId σ (tr.flatMap takenPackets) (tr.flatMap (madeReplies env))
      s := by
  generalize hinit : init sessionId fileMap σ = s₀ at hrun
  induction hrun with
  | nil =>
    subst hinit
    exact ⟨rfl, rfl, rfl, fun _ => rfl⟩
  | @snoc t u tr a hrun ha ih =>
    have ht := ih fun p hp => hfolder p (List.mem_append_left _ hp)
    rw [List.flatMap_append, List.flatMap_append, List.flatMap_singleton, List.flatMap_singleton]
    exact ht.step (effect_of_step ha) (hfolder (t, a) (by simp))

/-- While the loop is not left, each request is answered. -/
lemma exists_answers {requests : List PieceRequest}
    (h : (storeAfter env fileMap sessionId σ (requests.map (·.packet sessionId))).isSome = true) :
    ∃ pieces : List Message, turnAnswers env fileMap sessionId σ requests = pieces.map some := by
  induction requests generalizing σ with
  | nil => exact ⟨[], rfl⟩
  | cons r requests ih =>
    rw [List.map_cons, storeAfter] at h
    rw [turnAnswers, List.map_cons, startSeeding]
    rcases hround : runOn (seedRound env fileMap sessionId (r.packet sessionId)) σ with
      ⟨result, σ'⟩
    rw [hround] at h
    obtain ⟨piece, rfl⟩ | rfl | ⟨fault, rfl⟩ := round_of_packet hround
    · obtain ⟨pieces, hpieces⟩ := ih h
      exact ⟨.piece r.index piece :: pieces, congrArg (some _ :: ·) hpieces⟩
    · cases h
    · cases h

end Session

/-! ### At rest -/

lemma isRegistered_run (hrun : Run (step env) s tr t) (ht : t.place.isRegistered = true) :
    s.place.isRegistered = true ∨ ∃ q ∈ tr, q.2 = .register (.ok ()) := by
  induction hrun with
  | nil => exact .inl ht
  | @snoc t u tr a hrun ha ih =>
    have hlast : t.place.isRegistered = true ∨ a = .register (.ok ()) := by
      cases effect_of_step ha with
      | registered => exact .inr rfl
      | refused => cases ht
      | reply hplace | leave hplace | closed hplace | sent hplace | unsent hplace =>
        exact .inl (by rw [hplace]; rfl)
      | _ => exact .inl ht
    obtain ht | rfl := hlast
    · obtain hs | ⟨q, hq, hreg⟩ := ih ht
      · exact .inl hs
      · exact .inr ⟨q, List.mem_append_left _ hq, hreg⟩
    · exact .inr ⟨_, List.mem_append_right _ (List.mem_singleton_self _), rfl⟩

/-- A loop that can take no step, and has sent its replies, has taken what came in. -/
lemma done (hplace : s.place.isRegistered = true) (hserving : s.place ≠ .ended)
    (houtbound : s.outbound.queue = []) (hround : s.step env .round = none)
    (hsend : s.step env .send = none) : s.pendingPackets = [] ∧ s.pendingReplies = [] := by
  cases hp : s.place with
  | registering | failed =>
    rw [hp] at hplace
    cases hplace
  | ended => exact absurd hp hserving
  | sending reply =>
    simp only [step, send, hp] at hsend
    split_ifs at hsend
    have hfull := Channel.send?_eq_none.mp (Option.map_eq_none_iff.mp hsend)
    rw [Channel.Full, houtbound] at hfull
    cases hfull
  | receiving =>
    simp only [step, round, hp] at hround
    split at hround
    · cases hround
    · cases hround
    · rename_i hinbound
      exact ⟨by rw [pendingPackets, hinbound]; rfl,
        by rw [pendingReplies, houtbound, replyInHand, hp]; rfl⟩

end SeederLoop

end BearTorrent
