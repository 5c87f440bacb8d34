import BearTorrent.Client.PieceReads
import BearTorrent.Client.Pipeline.Dispatch
import BearTorrent.Lib.RoundRobin
import BearTorrent.Server.Basic

/-!
# The initial requests

`file_request` opens a connection for every piece or for every peer, whichever is less, and the
first loop of `send_requests` deals the pieces to the connections in turn. `sendInitial` is the loop
when every channel takes what is sent. A run of the pipeline puts the same requests on the
connections, whatever the other tasks do meanwhile, as long as no connection is removed or ends.
-/

namespace BearTorrent

/-- The download of a file from the peers that share it. -/
def fileRequest (env : Env) (fileHash : InfoHash) (peerList : List PeerId) : Config where
  env
  infoHash := fileHash
  hash := fileHash.getHashedInfoHash env
  numConnections := min peerList.length fileHash.pieces.length

section Loop

variable (cfg : Config) (requestTxs : List ConnId) (numConnections : ℕ)

/-- The first loop of `send_requests` over the remaining pieces: the requests, each with the
connection it is put on, and how the loop ends. -/
def sendInitial : List ℕ → List (ConnId × Message) × Except Fault Unit
  | [] => ([], .ok ())
  | i :: indices =>
    match initialRequest cfg.env cfg.infoHash cfg.hash numConnections i with
    | .error fault => ([], .error fault)
    | .ok request  =>
      match requestTxs[i % numConnections]? with
      | none   => ([], .error connectionMissing)
      | some c =>
        let (puts, result) := sendInitial indices
        ((c, request) :: puts, result)

end Loop

/-- The first loop of `send_requests`, with all connections subscribed. -/
def initialRequests (cfg : Config) : List (ConnId × Message) × Except Fault Unit :=
  sendInitial cfg (List.range cfg.numConnections) cfg.numConnections
    (List.range cfg.infoHash.pieces.length)

/-- Each of `n` pieces is asked for once, by a request that names the position of its connection;
every connection is asked for a piece, and none for two pieces more than another. -/
structure SpreadEvenly (n : ℕ) (requestTxs : List ConnId) (puts : List (ConnId × Message)) :
    Prop where
  request : ∀ p ∈ puts, ∃ seeder index begin length hash,
    p.2 = .request seeder index begin length hash ∧ index.toNat < n ∧
      requestTxs[seeder.toNat]? = some p.1
  once : ∀ i < n, (puts.countP fun p => p.2.index.toNat = i) = 1
  used : ∀ c ∈ requestTxs, ∃ p ∈ puts, p.1 = c
  balanced : ∀ c ∈ requestTxs, ∀ c' ∈ requestTxs,
    (puts.countP fun p => p.1 = c) ≤ (puts.countP fun p => p.1 = c') + 1

/-- The indices of the pieces fit into 32 bits, and on a checked build so do their offsets in the
file. -/
def InitialRequestsFit (env : Env) (h : InfoHash) : Prop :=
  h.pieces.length ≤ 2 ^ 32 ∧
    (env.overflowChecks = true → h.pieceLength.toNat * (h.pieces.length - 1) < 2 ^ 32)

/-! ### The loop -/

section Loop

variable {cfg : Config} {requestTxs : List ConnId} {m : ℕ}

/-- A round that succeeds puts its request before those of the other rounds. -/
lemma sendInitial_cons {i : ℕ} {request : Message} {c : ConnId}
    (hreq : initialRequest cfg.env cfg.infoHash cfg.hash m i = .ok request)
    (hc : requestTxs[i % m]? = some c) (is : List ℕ) :
    sendInitial cfg requestTxs m (i :: is) =
      ((c, request) :: (sendInitial cfg requestTxs m is).1, (sendInitial cfg requestTxs m is).2) := by
  simp only [sendInitial, hreq, hc]

/-- A loop whose first part succeeds goes on with the second part. -/
lemma sendInitial_append {is : List ℕ} (hok : (sendInitial cfg requestTxs m is).2 = .ok ())
    (js : List ℕ) :
    sendInitial cfg requestTxs m (is ++ js) =
      ((sendInitial cfg requestTxs m is).1 ++ (sendInitial cfg requestTxs m js).1,
        (sendInitial cfg requestTxs m js).2) := by
  induction is with
  | nil => rfl
  | cons i is ih =>
    cases hreq : initialRequest cfg.env cfg.infoHash cfg.hash m i with
    | error fault => simp [sendInitial, hreq] at hok
    | ok request =>
      cases hc : requestTxs[i % m]? with
      | none   => simp [sendInitial, hreq, hc] at hok
      | some c =>
        rw [sendInitial_cons hreq hc] at hok ⊢
        rw [List.cons_append, sendInitial_cons hreq hc, ih hok]
        rfl

/-- What is put on a connection is the request for one of the pieces. -/
lemma mem_sendInitial {is : List ℕ} {p : ConnId × Message}
    (hp : p ∈ (sendInitial cfg requestTxs m is).1) :
    ∃ i ∈ is, initialRequest cfg.env cfg.infoHash cfg.hash m i = .ok p.2 := by
  induction is with
  | nil => cases hp
  | cons i is ih =>
    cases hreq : initialRequest cfg.env cfg.infoHash cfg.hash m i with
    | error fault => simp [sendInitial, hreq] at hp
    | ok request =>
      cases hc : requestTxs[i % m]? with
      | none   => simp [sendInitial, hreq, hc] at hp
      | some c =>
        rw [sendInitial_cons hreq hc] at hp
        rcases List.mem_cons.mp hp with rfl | hp
        · exact ⟨i, List.mem_cons_self, hreq⟩
        · obtain ⟨j, hj, hp⟩ := ih hp
          exact ⟨j, List.mem_cons_of_mem i hj, hp⟩

/-- When all requests can be made and all connections are there, the loop puts a request for each
piece. -/
lemma sendInitial_eq_map {is : List ℕ} {request : ℕ → Message} {conn : ℕ → ConnId}
    (hreq : ∀ i ∈ is, initialRequest cfg.env cfg.infoHash cfg.hash m i = .ok (request i))
    (hconn : ∀ i ∈ is, requestTxs[i % m]? = some (conn i)) :
    sendInitial cfg requestTxs m is = (is.map fun i => (conn i, request i), .ok ()) := by
  induction is with
  | nil => rfl
  | cons i is ih =>
    rw [sendInitial_cons (hreq i List.mem_cons_self) (hconn i List.mem_cons_self),
      ih (fun j hj => hreq j (List.mem_cons_of_mem i hj))
        (fun j hj => hconn j (List.mem_cons_of_mem i hj)), List.map_cons]

end Loop

/-! ### Even spreading -/

section Spreading

variable {cfg : Config} {m i : ℕ} {request : Message}

/-- The request for piece `i`. -/
def initialMessage (cfg : Config) (m i : ℕ) : Message :=
  .request (.ofNat (i % m)) (.ofNat i) (cfg.infoHash.pieceLength * .ofNat i)
    cfg.infoHash.pieceLength cfg.hash

/-- A request whose offset does not overflow can be made. -/
lemma initialRequest_of_lt (hm : m ≠ 0) (hi : i < 2 ^ 32)
    (hoffset : cfg.env.overflowChecks = true → cfg.infoHash.pieceLength.toNat * i < 2 ^ 32) :
    initialRequest cfg.env cfg.infoHash cfg.hash m i = .ok (initialMessage cfg m i) := by
  have hmul : mulU32 cfg.env cfg.infoHash.pieceLength (.ofNat i)
      = .ok (cfg.infoHash.pieceLength * .ofNat i) := by
    cases henv : cfg.env.overflowChecks with
    | false => exact mulU32_of_unchecked henv _ _
    | true =>
      apply mulU32_of_lt
      rw [UInt32.toNat_ofNat_of_lt' hi]
      exact hoffset henv
  rw [initialRequest, if_neg hm, hmul]
  rfl

/-- Every request can be made when the indices and the offsets fit. -/
lemma initialRequest_of_fit (hm : m ≠ 0) (hfit : InitialRequestsFit cfg.env cfg.infoHash)
    (hi : i < cfg.infoHash.pieces.length) :
    initialRequest cfg.env cfg.infoHash cfg.hash m i = .ok (initialMessage cfg m i) := by
  refine initialRequest_of_lt hm (hi.trans_le hfit.1) fun henv => ?_
  refine lt_of_le_of_lt ?_ (hfit.2 henv)
  exact Nat.mul_le_mul_left _ (Nat.le_sub_one_of_lt hi)

/-- A request that was made names its piece. -/
lemma index_of_initialRequest
    (h : initialRequest cfg.env cfg.infoHash cfg.hash m i = .ok request) :
    request.index = .ofNat i := by
  obtain ⟨-, begin, -, rfl⟩ := Pipeline.initialRequest_eq_ok h
  rfl

/-- On a checked build the offset of a request that was made fits into 32 bits. -/
lemma offset_lt_of_initialRequest (henv : cfg.env.overflowChecks = true) (hi : i < 2 ^ 32)
    (h : initialRequest cfg.env cfg.infoHash cfg.hash m i = .ok request) :
    cfg.infoHash.pieceLength.toNat * i < 2 ^ 32 := by
  obtain ⟨-, begin, hmul, -⟩ := Pipeline.initialRequest_eq_ok h
  by_contra hle
  rw [mulU32_overflow henv] at hmul
  · cases hmul
  · rw [UInt32.toNat_ofNat_of_lt' hi]
    exact Nat.not_lt.mp hle

/-- Dealt in turn, the requests are spread evenly. -/
lemma spreadEvenly_map (cfg : Config) {n k : ℕ} (hk : 0 < k) (hle : k ≤ n) (hn : n ≤ 2 ^ 32) :
    SpreadEvenly n (List.range k)
      ((List.range n).map fun i => (i % k, initialMessage cfg k i)) where
  request p hp := by
    obtain ⟨i, hi, rfl⟩ := List.mem_map.mp hp
    have hi : i < n := List.mem_range.mp hi
    have hmod : i % k < k := Nat.mod_lt i hk
    refine ⟨_, _, _, _, _, rfl, ?_, ?_⟩
    · rwa [UInt32.toNat_ofNat_of_lt' (hi.trans_le hn)]
    · rw [UInt32.toNat_ofNat_of_lt' (hmod.trans_le (hle.trans hn)), List.getElem?_range hmod]
  once i hi := by
    calc ((List.range n).map fun i => (i % k, initialMessage cfg k i)).countP
          (fun p => p.2.index.toNat = i)
      _ = (List.range n).countP (fun j => (UInt32.ofNat j).toNat = i) := List.countP_map
      _ = (List.range n).countP (· == i) := by
        refine List.countP_congr fun j hj => ?_
        rw [UInt32.toNat_ofNat_of_lt' ((List.mem_range.mp hj).trans_le hn)]
        simp
      _ = 1 := List.count_eq_one_of_mem List.nodup_range (List.mem_range.mpr hi)
  used c hc := by
    have hc : c < k := List.mem_range.mp hc
    refine ⟨_, List.mem_map_of_mem (List.mem_range.mpr (hc.trans_le hle)), ?_⟩
    exact Nat.mod_eq_of_lt hc
  balanced c hc c' hc' := by
    rw [List.countP_map, List.countP_map]
    exact RoundRobin.share_le_succ (List.mem_range.mp hc) (List.mem_range.mp hc')

/-- The loop spreads the requests evenly if and only if it gets through all pieces with their
indices and offsets. -/
lemma spreadEvenly_sendInitial_iff (hk : 0 < cfg.numConnections)
    (hle : cfg.numConnections ≤ cfg.infoHash.pieces.length)
    (hi : i ≤ cfg.infoHash.pieces.length) :
    SpreadEvenly cfg.infoHash.pieces.length (List.range cfg.numConnections)
        (sendInitial cfg (List.range cfg.numConnections) cfg.numConnections (List.range i)).1 ↔
      i = cfg.infoHash.pieces.length ∧ InitialRequestsFit cfg.env cfg.infoHash := by
  constructor
  · intro h
    have hasked : ∀ j < cfg.infoHash.pieces.length, ∃ request l, l < i ∧
        initialRequest cfg.env cfg.infoHash cfg.hash cfg.numConnections l = .ok request ∧
        (UInt32.ofNat l).toNat = j := fun j hj => by
      have hcount := h.once j hj
      obtain ⟨p, hp, hindex⟩ := List.countP_pos_iff.mp (hcount ▸ Nat.one_pos)
      obtain ⟨l, hl, hreq⟩ := mem_sendInitial hp
      rw [decide_eq_true_iff, index_of_initialRequest hreq] at hindex
      exact ⟨p.2, l, List.mem_range.mp hl, hreq, hindex⟩
    have hn : cfg.infoHash.pieces.length ≤ 2 ^ 32 := by
      by_contra hlt
      obtain ⟨request, l, -, -, hl⟩ := hasked (2 ^ 32) (Nat.not_le.mp hlt)
      exact absurd (UInt32.toNat_lt (.ofNat l)) (by omega)
    obtain ⟨request, l, hl, hreq, hlast⟩ :=
      hasked (cfg.infoHash.pieces.length - 1) (by omega)
    have hl32 : l < 2 ^ 32 := by omega
    rw [UInt32.toNat_ofNat_of_lt' hl32] at hlast
    refine ⟨by omega, hn, fun henv => ?_⟩
    rw [← hlast]
    exact offset_lt_of_initialRequest henv hl32 hreq
  · rintro ⟨rfl, hfit⟩
    rw [sendInitial_eq_map
      (fun j hj => initialRequest_of_fit hk.ne' hfit (List.mem_range.mp hj))
      (fun j _ => List.getElem?_range (Nat.mod_lt j hk))]
    exact spreadEvenly_map cfg hk hle hfit.1

end Spreading

/-! ### The runs -/

/-- `send_requests` has left its first loop. -/
def SenderState.initialOver : SenderState → Bool
  | .starting               => false
  | .requesting _ _         => false
  | .sendingRequest _ _ _ _ => false
  | _                       => true

namespace Pipeline

/-- What a step of the first loop puts on a connection. -/
def initialPut? (p : Pipeline × Action) : Option (ConnId × Message) :=
  match p.1.sender, p.2 with
  | .sendingRequest _ _ c sent, .send =>
    if (p.1.conns c).running then some (c, sent.msg) else none
  | _, _ => none

/-- What the first loop has put on the connections in a run. -/
def initialPuts (tr : List (Pipeline × Action)) : List (ConnId × Message) :=
  tr.filterMap initialPut?

/-- No request of the first loop is sent to a connection whose task has ended. -/
def NoneEnded (tr : List (Pipeline × Action)) : Prop :=
  ∀ p ∈ tr, p.2 = .send → ∀ m i c sent, p.1.sender = .sendingRequest m i c sent →
    (p.1.conns c).running = true

/-- All connections that were subscribed still are. -/
def NoneRemoved (cfg : Config) (s : Pipeline) : Prop :=
  s.assembler.requestTxs = List.range cfg.numConnections

/-- The first part of the first loop. -/
def sentUpTo (cfg : Config) (i : ℕ) : List (ConnId × Message) × Except Fault Unit :=
  sendInitial cfg (List.range cfg.numConnections) cfg.numConnections (List.range i)

/-- Where the first loop stands after a run, by the requests that it has put on the connections. -/
inductive Dealt (cfg : Config) (tr : List (Pipeline × Action)) : SenderState → Prop
  | starting (hputs : initialPuts tr = []) (halive : NoneEnded tr) : Dealt cfg tr .starting
  | requesting {i : ℕ} (hi : i ≤ cfg.infoHash.pieces.length)
    (hputs : sentUpTo cfg i = (initialPuts tr, .ok ())) (halive : NoneEnded tr) :
    Dealt cfg tr (.requesting cfg.numConnections i)
  | sending {i : ℕ} {c : ConnId} {sent : Sent} (hi : i < cfg.infoHash.pieces.length)
    (hputs : sentUpTo cfg i = (initialPuts tr, .ok ())) (halive : NoneEnded tr)
    (hreq : initialRequest cfg.env cfg.infoHash cfg.hash cfg.numConnections i = .ok sent.msg)
    (hc : (List.range cfg.numConnections)[i % cfg.numConnections]? = some c) :
    Dealt cfg tr (.sendingRequest cfg.numConnections i c sent)
  | finished {sender : SenderState} (hover : sender.initialOver = true)
    (hputs : initialPuts tr = (initialRequests cfg).1) (halive : NoneEnded tr) :
    Dealt cfg tr sender
  | cut {sender : SenderState} {i : ℕ} (hover : sender.initialOver = true)
    (hi : i < cfg.infoHash.pieces.length) (hputs : initialPuts tr = (sentUpTo cfg i).1)
    (hended : ¬ NoneEnded tr) : Dealt cfg tr sender

variable {cfg : Config} {s t : Pipeline} {tr : List (Pipeline × Action)}

/-! While no connection is removed, the list and the count say so. -/

lemma Registered.noneRemoved_of_steps (hs : Registered cfg s) (hk : 0 < cfg.numConnections)
    {a : Action} (h : Steps cfg s a t) (hnone : NoneRemoved cfg t) : NoneRemoved cfg s := by
  have hlen := h.length_requestTxs_le
  rw [hnone, List.length_range] at hlen
  rcases hs.txs with ⟨htxs, hsum⟩ | ⟨-, hnil⟩
  · have hremovals : s.removals = [] := List.eq_nil_of_length_eq_zero (by omega)
    rw [hremovals] at htxs
    exact htxs
  · rw [hnil, List.length_nil] at hlen
    omega

lemma Registered.numConnections_eq (hs : Registered cfg s) (hk : 0 < cfg.numConnections)
    (hnone : NoneRemoved cfg s) : s.assembler.numConnections = cfg.numConnections := by
  have hlen : s.assembler.requestTxs.length = cfg.numConnections := by
    rw [hnone, List.length_range]
  have hle := hs.count_le
  have hcount := hs.le_count
  rcases hs.txs with ⟨-, hsum⟩ | ⟨-, hnil⟩
  · omega
  · rw [hnil, List.length_nil] at hlen
    omega

/-! The first part of the loop grows by one round. -/

lemma sentUpTo_succ {i : ℕ} {puts : List (ConnId × Message)} {request : Message} {c : ConnId}
    (hputs : sentUpTo cfg i = (puts, .ok ()))
    (hreq : initialRequest cfg.env cfg.infoHash cfg.hash cfg.numConnections i = .ok request)
    (hc : (List.range cfg.numConnections)[i % cfg.numConnections]? = some c) :
    sentUpTo cfg (i + 1) = (puts ++ [(c, request)], .ok ()) := by
  unfold sentUpTo at hputs ⊢
  rw [List.range_succ, sendInitial_append (by rw [hputs]), sendInitial_cons hreq hc, hputs]
  rfl

/-- The loop ends with the first request that cannot be made. -/
lemma initialRequests_of_error {i : ℕ} {puts : List (ConnId × Message)} {fault : Fault}
    (hi : i < cfg.infoHash.pieces.length) (hputs : sentUpTo cfg i = (puts, .ok ()))
    (hreq : initialRequest cfg.env cfg.infoHash cfg.hash cfg.numConnections i = .error fault) :
    initialRequests cfg = (puts, .error fault) := by
  obtain ⟨rest, hrest⟩ : ∃ rest,
      List.range cfg.infoHash.pieces.length = List.range i ++ i :: rest := by
    obtain ⟨n, hn⟩ := Nat.exists_eq_add_of_lt hi
    refine ⟨(List.range n).map (i + 1 + ·), ?_⟩
    rw [hn, Nat.add_right_comm, List.range_add, List.range_succ, List.append_assoc]
    rfl
  unfold sentUpTo at hputs
  rw [initialRequests, hrest, sendInitial_append (by rw [hputs]), hputs]
  simp [sendInitial, hreq]

/-! What a step adds to the requests of a run. -/

lemma initialPuts_append (tr : List (Pipeline × Action)) (p : Pipeline × Action) :
    initialPuts (tr ++ [p]) = initialPuts tr ++ (initialPut? p).toList := by
  rw [initialPuts, List.filterMap_append]
  cases hp : initialPut? p with
  | none     => simp [initialPuts, hp]
  | some put => simp [initialPuts, hp]

lemma noneEnded_append {p : Pipeline × Action} :
    NoneEnded (tr ++ [p]) ↔ NoneEnded tr ∧ NoneEnded [p] := by
  simp only [NoneEnded, List.forall_mem_append]

/-- The step takes place outside the first loop. -/
def Elsewhere (p : Pipeline × Action) : Prop :=
  p.2 = .send → ∀ m i c sent, p.1.sender ≠ .sendingRequest m i c sent

lemma initialPut?_of_elsewhere {p : Pipeline × Action} (hp : Elsewhere p) :
    initialPut? p = none := by
  unfold initialPut?
  split
  · exact absurd ‹p.1.sender = _› (hp ‹p.2 = .send› _ _ _ _)
  · rfl

lemma noneEnded_of_elsewhere {p : Pipeline × Action} (hp : Elsewhere p) :
    NoneEnded (tr ++ [p]) ↔ NoneEnded tr := by
  refine noneEnded_append.trans (and_iff_left fun q hq ha m i c sent hs => ?_)
  obtain rfl := List.mem_singleton.mp hq
  exact absurd hs (hp ha m i c sent)

lemma Dealt.elsewhere {sender : SenderState} (hd : Dealt cfg tr sender) {p : Pipeline × Action}
    (hp : Elsewhere p) : Dealt cfg (tr ++ [p]) sender := by
  have hputs : initialPuts (tr ++ [p]) = initialPuts tr := by
    rw [initialPuts_append, initialPut?_of_elsewhere hp, Option.toList_none, List.append_nil]
  have halive : NoneEnded (tr ++ [p]) ↔ NoneEnded tr := noneEnded_of_elsewhere hp
  cases hd with
  | starting h ha           => exact .starting (hputs.trans h) (halive.mpr ha)
  | requesting hi h ha      => exact .requesting hi (hputs ▸ h) (halive.mpr ha)
  | sending hi h ha hreq hc => exact .sending hi (hputs ▸ h) (halive.mpr ha) hreq hc
  | finished hover h ha     => exact .finished hover (hputs.trans h) (halive.mpr ha)
  | cut hover hi h he       => exact .cut hover hi (hputs.trans h) (fun ha => he (halive.mp ha))

/-- After the loop it does not matter where `send_requests` is. -/
lemma Dealt.finished_of {sender sender' : SenderState} (hd : Dealt cfg tr sender)
    (hover : sender.initialOver = true) (hover' : sender'.initialOver = true) :
    Dealt cfg tr sender' := by
  cases hd with
  | starting        => cases hover
  | requesting      => cases hover
  | sending         => cases hover
  | finished _ h ha => exact .finished hover' h ha
  | cut _ hi h he   => exact .cut hover' hi h he

lemma Dealt.of_requesting {m i : ℕ} (hd : Dealt cfg tr (.requesting m i)) :
    m = cfg.numConnections ∧ i ≤ cfg.infoHash.pieces.length ∧
      sentUpTo cfg i = (initialPuts tr, .ok ()) ∧ NoneEnded tr := by
  cases hd with
  | requesting hi hputs halive => exact ⟨rfl, hi, hputs, halive⟩
  | finished hover             => cases hover
  | cut hover                  => cases hover

lemma Dealt.of_sending {m i : ℕ} {c : ConnId} {sent : Sent}
    (hd : Dealt cfg tr (.sendingRequest m i c sent)) :
    m = cfg.numConnections ∧ i < cfg.infoHash.pieces.length ∧
      sentUpTo cfg i = (initialPuts tr, .ok ()) ∧ NoneEnded tr ∧
      initialRequest cfg.env cfg.infoHash cfg.hash cfg.numConnections i = .ok sent.msg ∧
      (List.range cfg.numConnections)[i % cfg.numConnections]? = some c := by
  cases hd with
  | sending hi hputs halive hreq hc => exact ⟨rfl, hi, hputs, halive, hreq, hc⟩
  | finished hover                  => cases hover
  | cut hover                       => cases hover

/-! ### The steps -/

/-- The lookups of the first loop hit, while all connections are registered. -/
lemma NoneRemoved.not_lookupMisses {i : ℕ} (hnone : NoneRemoved cfg s)
    (hk : 0 < cfg.numConnections) (hst : s.sender = .requesting cfg.numConnections i) :
    ¬ s.LookupMisses cfg := by
  rintro ⟨m, position, hl, hlen⟩
  simp only [lookup?, hst] at hl
  split_ifs at hl
  cases hl
  rw [hnone, List.length_range] at hlen
  exact absurd (Nat.mod_lt i hk) (Nat.not_lt.mpr hlen)

/-- A failure ends the loop where a request cannot be made, or where the connection has ended. -/
lemma Dealt.fail (hd : Dealt cfg tr s.sender) (hk : 0 < cfg.numConnections)
    (hnone : NoneRemoved cfg s) (hf : s.SendFails cfg) {sender : SenderState}
    (hover : sender.initialOver = true) : Dealt cfg (tr ++ [(s, .send)]) sender := by
  cases hst : s.sender with
  | starting => simp [SendFails, LookupMisses, lookup?, hst] at hf
  | requesting m i =>
    rw [hst] at hd
    obtain ⟨rfl, -, hputs, halive⟩ := hd.of_requesting
    simp only [SendFails, hst] at hf
    obtain ⟨hi, fault, hreq⟩ := hf.resolve_left (hnone.not_lookupMisses hk hst)
    have hover' : Dealt cfg tr sender :=
      .finished hover (by rw [initialRequests_of_error hi hputs hreq]) halive
    exact hover'.elsewhere fun _ => by simp [hst]
  | sendingRequest m i c sent =>
    rw [hst] at hd
    obtain ⟨rfl, hi, hputs, -, -, -⟩ := hd.of_sending
    have hrun : (s.conns c).running = false := by
      simpa [SendFails, LookupMisses, lookup?, hst] using hf
    have hnoput : initialPut? (s, .send) = none := by simp [initialPut?, hst, hrun]
    refine .cut hover hi ?_ fun halive => ?_
    · rw [initialPuts_append, hnoput, hputs, Option.toList_none, List.append_nil]
    · have := halive (s, .send) (List.mem_append_right tr (List.mem_singleton_self _)) rfl
        cfg.numConnections i c sent hst
      rw [hrun] at this
      cases this
  | _ =>
    have hover' : Dealt cfg tr sender := hd.finished_of (by rw [hst]; rfl) hover
    exact hover'.elsewhere fun _ => by simp [hst]

lemma Dealt.stepSender (hs : Registered cfg s) (hd : Dealt cfg tr s.sender)
    (hk : 0 < cfg.numConnections) (hnone : NoneRemoved cfg s) (h : SenderStep cfg s t) :
    Dealt cfg (tr ++ [(s, .send)]) t.sender := by
  have hlater : s.sender.initialOver = true → t.sender.initialOver = true →
      Dealt cfg (tr ++ [(s, .send)]) t.sender := fun hover hover' =>
    (hd.finished_of hover hover').elsewhere fun _ m i c sent hst => by
      rw [hst] at hover
      cases hover
  cases h with
  | start hst =>
    rw [hst] at hd
    cases hd with
    | starting hputs halive =>
      have hfirst : Dealt cfg tr (.requesting cfg.numConnections 0) :=
        .requesting (Nat.zero_le _) (by rw [hputs]; rfl) halive
      rw [hs.numConnections_eq hk hnone]
      exact hfirst.elsewhere fun _ => by simp [hst]
    | finished hover => cases hover
    | cut hover      => cases hover
  | miss hmiss => exact hd.fail hk hnone (.inl hmiss) rfl
  | fail fault hne hf => exact hd.fail hk hnone hf rfl
  | @look m i request c hst hi hreq hc =>
    rw [hst] at hd
    obtain ⟨rfl, -, hputs, halive⟩ := hd.of_requesting
    rw [hnone] at hc
    exact (Dealt.sending hi hputs halive hreq hc).elsewhere fun _ => by simp [hst]
  | @send m i c sent requests hst hrun hq =>
    rw [hst] at hd
    obtain ⟨rfl, hi, hputs, halive, hreq, hc⟩ := hd.of_sending
    have hput : initialPut? (s, .send) = some (c, sent.msg) := by simp [initialPut?, hst, hrun]
    refine .requesting hi ?_ (noneEnded_append.mpr ⟨halive, fun p hp _ m i c' sent' hst' => ?_⟩)
    · rw [initialPuts_append, hput]
      exact sentUpTo_succ hputs hreq hc
    · obtain rfl := List.mem_singleton.mp hp
      rw [hst] at hst'
      cases hst'
      exact hrun
  | @listen m i hst hi =>
    rw [hst] at hd
    obtain ⟨rfl, hle, hputs, halive⟩ := hd.of_requesting
    obtain rfl : i = cfg.infoHash.pieces.length := le_antisymm hle hi
    have hover : Dealt cfg tr (.waiting 0) :=
      .finished rfl (congrArg Prod.fst hputs).symm halive
    exact hover.elsewhere fun _ => by simp [hst]
  | recv hst => exact hlater (by rw [hst]; rfl) rfl
  | finish hst => exact hlater (by rw [hst]; rfl) rfl
  | skip hst => exact hlater (by rw [hst]; rfl) rfl
  | count hst => exact hlater (by rw [hst]; rfl) rfl
  | lookAgain hst => exact hlater (by rw [hst]; rfl) rfl
  | sendAgain hst => exact hlater (by rw [hst]; rfl) rfl

/-- The other tasks leave `send_requests` where it is. -/
lemma Steps.sender_eq {a : Action} (h : Steps cfg s a t) (ha : a ≠ .send) :
    t.sender = s.sender := by
  cases h with
  | send => exact absurd rfl ha
  | reassemble h => cases h <;> rfl
  | connection _ _ h =>
    rw [h.frame]

lemma Dealt.step {a : Action} (hs : Registered cfg s) (hd : Dealt cfg tr s.sender)
    (hk : 0 < cfg.numConnections) (hnone : NoneRemoved cfg s) (h : Steps cfg s a t) :
    Dealt cfg (tr ++ [(s, a)]) t.sender := by
  by_cases ha : a = .send
  · subst ha
    cases h with
    | send h => exact hd.stepSender hs hk hnone h
  · rw [h.sender_eq ha]
    exact hd.elsewhere fun h => absurd h ha

/-- While no connection is removed, a run has put on the connections what the loop puts there. -/
lemma dealt_run {σ : Store} (hk : 0 < cfg.numConnections)
    (hrun : Transition.Run (Pipeline.step cfg) (init cfg σ) tr s) (hnone : NoneRemoved cfg s) :
    Dealt cfg tr s.sender := by
  induction hrun with
  | nil => exact .starting rfl fun p hp => by cases hp
  | @snoc t u tr a hrun ha ih =>
    have hs := registered_run hrun
    have hsteps := steps_of_eq_some ha
    have hnone' := hs.noneRemoved_of_steps hk hsteps hnone
    exact (ih hnone').step hs hk hnone' hsteps

/-- What a run has put on the connections when the loop is over is spread evenly if and only if
all requests could be made and no connection had ended. -/
lemma Dealt.spreadEvenly_iff {sender : SenderState} (hd : Dealt cfg tr sender)
    (hover : sender.initialOver = true) (hk : 0 < cfg.numConnections)
    (hle : cfg.numConnections ≤ cfg.infoHash.pieces.length) :
    SpreadEvenly cfg.infoHash.pieces.length (List.range cfg.numConnections) (initialPuts tr) ↔
      InitialRequestsFit cfg.env cfg.infoHash ∧ NoneEnded tr := by
  cases hd with
  | starting   => cases hover
  | requesting => cases hover
  | sending    => cases hover
  | finished _ hputs halive =>
    rw [hputs, initialRequests, spreadEvenly_sendInitial_iff hk hle le_rfl]
    simp [halive]
  | @cut i _ _ hi hputs hended =>
    rw [hputs, sentUpTo, spreadEvenly_sendInitial_iff hk hle hi.le]
    simp [hended, hi.ne]

/-- Only a connection's own task ends it. -/
lemma Steps.running_eq {a : Action} (h : Steps cfg s a t)
    (ha : ∀ c act, a ≠ .connection c act) (c : ConnId) :
    (t.conns c).running = (s.conns c).running := by
  have hupdate : ∀ (c' : ConnId) (requests : Channel Sent requestCapacity),
      (Function.update s.conns c' { s.conns c' with requests } c).running
        = (s.conns c).running := fun c' requests => by
    by_cases hc : c = c'
    · subst hc
      rw [Function.update_self]
    · rw [Function.update_of_ne hc]
  cases h with
  | send h =>
    cases h with
    | send      => exact hupdate _ _
    | sendAgain => exact hupdate _ _
    | _         => rfl
  | reassemble h => cases h <;> rfl
  | connection => exact absurd rfl (ha _ _)

/-- While the connections wait, none ends. -/
lemma noneEnded_of_waiting {σ : Store}
    (hrun : Transition.Run (Pipeline.step cfg) (init cfg σ) tr s)
    (hwait : ∀ p ∈ tr, ∀ c act, p.2 ≠ .connection c act) : NoneEnded tr := by
  intro p hp _ m i c sent _
  obtain ⟨tr₁, tr₂, rfl, h₁⟩ := hrun.of_mem hp
  exact h₁.invariant (P := fun _ a => ∀ c act, a ≠ .connection c act)
    (I := fun s => (s.conns c).running = true)
    (fun s a t hs ha h => ((steps_of_eq_some h).running_eq ha c).trans hs)
    (fun q hq => hwait q (List.mem_append_left _ hq)) rfl

/-! ### The download of a file -/

/-- The first loop asks for every piece once, evenly spread, if and only if the indices and, on a
checked build, the offsets fit into 32 bits. What a run has put on the connections when the loop is
over is spread evenly if and only if, moreover, no request was sent to a connection that had
ended. -/
theorem initial_requests_spread_iff (env : Env) (h : InfoHash) (peerList : List PeerId)
    (hpieces : h.pieces ≠ []) (hpeers : peerList ≠ []) :
    (SpreadEvenly h.pieces.length (List.range (fileRequest env h peerList).numConnections)
        (initialRequests (fileRequest env h peerList)).1 ↔ InitialRequestsFit env h) ∧
      ∀ (σ : Store) (tr : List (Pipeline × Action)) (s : Pipeline),
        Transition.Run (step (fileRequest env h peerList)) (init (fileRequest env h peerList) σ)
          tr s →
        NoneRemoved (fileRequest env h peerList) s → s.sender.initialOver = true →
        (SpreadEvenly h.pieces.length (List.range (fileRequest env h peerList).numConnections)
          (initialPuts tr) ↔ InitialRequestsFit env h ∧ NoneEnded tr) := by
  have hk : 0 < (fileRequest env h peerList).numConnections :=
    lt_min (List.length_pos_of_ne_nil hpeers) (List.length_pos_of_ne_nil hpieces)
  have hle : (fileRequest env h peerList).numConnections ≤ h.pieces.length := min_le_right _ _
  refine ⟨?_, fun σ tr s hrun hnone hover => ?_⟩
  · rw [initialRequests]
    exact (spreadEvenly_sendInitial_iff hk hle le_rfl).trans (and_iff_right rfl)
  · exact (dealt_run hk hrun hnone).spreadEvenly_iff hover hk hle

/-- The download of three pieces of one byte from two peers, in a debug build. -/
def pairRequest : Config :=
  fileRequest ⟨fun _ => Digest.zero, true⟩ (unitConfig 3 2).infoHash
    [⟨1, 1, 1, 1⟩, ⟨2, 2, 2, 2⟩]

theorem initial_requests_spread_pair :
    SpreadEvenly 3 (List.range 2) (initialRequests pairRequest).1 ∧
      ∃ tr s, Transition.Run (step pairRequest) (init pairRequest ∅) tr s ∧
        s.sender = .waiting 0 ∧ SpreadEvenly 3 (List.range 2) (initialPuts tr) := by
  have hfit : InitialRequestsFit pairRequest.env pairRequest.infoHash :=
    ⟨by decide, fun _ => by decide⟩
  obtain ⟨hloop, hruns⟩ := initial_requests_spread_iff pairRequest.env pairRequest.infoHash
    [⟨1, 1, 1, 1⟩, ⟨2, 2, 2, 2⟩] (by decide) (by decide)
  obtain ⟨s, hs, hsender, htxs⟩ : ∃ s, Transition.exec (step pairRequest) (init pairRequest ∅)
      [.send, .send, .send, .send, .send, .send, .send, .send] = some s ∧
        s.sender = .waiting 0 ∧ NoneRemoved pairRequest s := ⟨_, rfl, rfl, rfl⟩
  obtain ⟨tr, hrun, hactions⟩ := Transition.run_of_exec hs
  have hwait : ∀ p ∈ tr, ∀ c act, p.2 ≠ .connection c act :=
    Transition.forall_of_map (P := fun _ a => ∀ c act, a ≠ .connection c act) hactions (by simp)
  refine ⟨hloop.mpr hfit, tr, s, hrun, hsender, ?_⟩
  exact (hruns ∅ tr s hrun htxs (by rw [hsender]; rfl)).mpr ⟨hfit, noneEnded_of_waiting hrun hwait⟩

/-- Of the pieces of a file of 4 GiB and a byte, a checked build does not ask for the last one:
`send_requests` panics. -/
theorem last_piece_of_long_file_unrequested :
    let env : Env := ⟨fun _ => Digest.zero, true⟩
    let cfg := fileRequest env (longHash env) [⟨1, 1, 1, 1⟩]
    ¬ SpreadEvenly (longHash env).pieces.length (List.range cfg.numConnections)
        (initialRequests cfg).1 ∧
      (initialRequests cfg).2 = .error .panic := by
  intro env cfg
  have hcount : cfg.numConnections = 1 := by
    change min 1 (longHash env).pieces.length = 1
    rw [longHash_pieces]
    rfl
  have hoffset : ∀ i, cfg.infoHash.pieceLength.toNat * i = 1048576 * i := fun i => by
    change (longHash env).pieceLength.toNat * i = _
    rw [longHash_pieceLength]
    rfl
  have hk : 0 < cfg.numConnections := by
    rw [hcount]
    exact Nat.one_pos
  constructor
  · intro hspread
    have hfit := ((spreadEvenly_sendInitial_iff hk (Nat.min_le_right _ _) le_rfl).mp hspread).2
    have hlt := hfit.2 rfl
    rw [hoffset, show cfg.infoHash.pieces.length = 4097 from longHash_pieces env] at hlt
    exact absurd hlt (by decide)
  · have hputs : ∃ puts, sentUpTo cfg 4096 = (puts, .ok ()) := by
      refine ⟨_, sendInitial_eq_map (fun i hi => initialRequest_of_lt hk.ne' ?_ fun _ => ?_)
        (fun i _ => List.getElem?_range (Nat.mod_lt i hk))⟩
      · exact (List.mem_range.mp hi).trans (by decide)
      · rw [hoffset]
        have := List.mem_range.mp hi
        omega
    obtain ⟨puts, hputs⟩ := hputs
    have hlast : initialRequest cfg.env cfg.infoHash cfg.hash cfg.numConnections 4096
        = .error .panic := by
      rw [initialRequest, if_neg hk.ne', mulU32_overflow rfl]
      · rfl
      · exact (hoffset 4096).ge
    have hlt : 4096 < cfg.infoHash.pieces.length := by
      rw [show cfg.infoHash.pieces.length = 4097 from longHash_pieces env]
      decide
    rw [initialRequests_of_error hlt hputs hlast]

end Pipeline

end BearTorrent
