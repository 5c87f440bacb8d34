import BearTorrent.Client.PieceExchange
import BearTorrent.Turn.Basic

/-!
# Seeding over TURN

The loop of `start_seeding`, which answers the requests of one session, compared with `send_data`.
The loop ends at the first request that it cannot serve, and has no packet for a negative answer.
-/

namespace BearTorrent

open Patch FileSystem

/-- What a round of the seeding loop ends with. -/
inductive SeedRound where
  | sent (reply : TurnPacket)
  | skipped
  | ended

section Functions

variable {m : Type → Type} [Monad m] [MonadExcept Fault m] [FileSystem m]

/-- One round of the seeding loop. -/
def seedRound (env : Env) (fileMap : FileMap) (sessionId : String) (pkt : TurnPacket) :
    m SeedRound :=
  match pkt.body with
  | some (.request hash index) =>
    match Digest.ofBytes? hash with
    | none      => throw .panic
    | some hash =>
      match fileMap.lookup hash with
      | none          => pure .ended
      | some infoHash => do
        match ← attempt (readPieceFromFile env infoHash index) with
        | some piece => pure (.sent ⟨sessionId, some (.piece piece index)⟩)
        | none       => pure .ended
  | _ => pure .skipped

end Functions

/-- The seeding loop on what comes in over the session, until the stream is closed: what is sent in
each round. -/
def startSeeding (env : Env) (fileMap : FileMap) (sessionId : String) :
    Store → List (Except String TurnPacket) → List (Option TurnPacket)
  | _, []                     => []
  | σ, .error _ :: inbound    => none :: startSeeding env fileMap sessionId σ inbound
  | σ, .ok pkt :: inbound     =>
    match runOn (seedRound env fileMap sessionId pkt) σ with
    | (.ok (.sent reply), σ') => some reply :: startSeeding env fileMap sessionId σ' inbound
    | (.ok .skipped, σ')      => none :: startSeeding env fileMap sessionId σ' inbound
    | _                       => none :: inbound.map fun _ => none

/-- The packet that `start_leeching` makes of a request. -/
def requestPacket (sessionId : String) : Message → Option TurnPacket
  | .request _ index _ _ hash => some ⟨sessionId, some (.request hash.val index)⟩
  | _                         => none

/-- The message that `start_leeching` makes of a packet for the loop that reassembles the file. -/
def pieceMessage (pkt : TurnPacket) : Option Message :=
  match pkt.body with
  | some (.piece payload index) => some (.piece index payload)
  | _                           => none

/-! ### Sessions -/

/-- A request for a piece. -/
structure PieceRequest where
  seeder : UInt32
  index : UInt32
  begin : UInt32
  length : UInt32
  hash : Digest

/-- The request as it is sent over TURN. -/
def PieceRequest.packet (r : PieceRequest) (sessionId : String) : TurnPacket :=
  ⟨sessionId, some (.request r.hash.val r.index)⟩

/-- What `send_data` answers to the requests. -/
def quicAnswers (env : Env) (fileMap : FileMap) : Store → List PieceRequest →
    List (Except Fault Message)
  | _, []            => []
  | σ, r :: requests =>
    let (reply, σ') := runOn (answer env fileMap r.seeder r.index r.begin r.length r.hash) σ
    reply :: quicAnswers env fileMap σ' requests

/-- What reaches the leecher's loop for each request of a session. -/
def turnAnswers (env : Env) (fileMap : FileMap) (sessionId : String) (σ : Store)
    (requests : List PieceRequest) : List (Option Message) :=
  (startSeeding env fileMap sessionId σ (requests.map fun r => .ok (r.packet sessionId))).map
    (·.bind pieceMessage)

/-- Request for request, a piece is answered with the same piece, and everything else with a
negative answer for the same index. -/
def AnswersAlike (requests : List PieceRequest) (quic : List (Except Fault Message))
    (turn : List (Option Message)) : Prop :=
  ∀ (k : ℕ) (r : PieceRequest), requests[k]? = some r →
    (∀ piece, quic[k]? = some (.ok (Message.piece r.index piece)) →
      turn[k]? = some (some (Message.piece r.index piece))) ∧
    ((∀ piece, quic[k]? ≠ some (.ok (Message.piece r.index piece))) →
      ∃ seeder begin length, turn[k]? = some (some (Message.cancel seeder r.index begin length)))

/-- The file is shared, its lengths can be computed with, and its copy on disk holds the range of
the piece. A missing copy counts as an empty one. -/
def Servable (env : Env) (fileMap : FileMap) (σ : Store) (r : PieceRequest) : Prop :=
  ∃ h length offset, fileMap.lookup r.hash = some h ∧ readLength env h r.index = .ok length ∧
    length < 2 ^ 63 ∧ mulU32 env h.pieceLength r.index = .ok offset ∧
    (length = 0 ∨ offset.toNat + length ≤ ((σ.lookup (filePath h.name)).getD []).length)

/-! ### Answers -/

section Answers

variable {env : Env} {fileMap : FileMap} {sessionId : String} {σ : Store} {r : PieceRequest}
  {requests : List PieceRequest}

/-- When a piece can be read. -/
lemma readPiece_eq_ok {h : InfoHash} {index : UInt32} {content : Bytes} :
    (∃ piece, readPiece env h index content = .ok piece) ↔
      ∃ length offset, readLength env h index = .ok length ∧ length < 2 ^ 63 ∧
        mulU32 env h.pieceLength index = .ok offset ∧
        (length = 0 ∨ offset.toNat + length ≤ content.length) := by
  constructor
  · rintro ⟨piece, hpiece⟩
    obtain ⟨length, hlength, hpiece⟩ := except_bind_eq_ok.mp hpiece
    split_ifs at hpiece with hbig
    · cases hpiece
    · obtain ⟨offset, hoffset, hpiece⟩ := except_bind_eq_ok.mp hpiece
      split_ifs at hpiece with hin
      exact ⟨length, offset, hlength, Nat.not_le.mp hbig, hoffset, hin⟩
  · rintro ⟨length, offset, hlength, hbig, hoffset, hin⟩
    refine ⟨slice content offset.toNat length, ?_⟩
    rw [readPiece, hlength]
    simp only [bind, Except.bind]
    rw [if_neg (Nat.not_le.mpr hbig), hoffset]
    exact if_pos hin

lemma servable_iff : Servable env fileMap σ r ↔ ∃ h piece, fileMap.lookup r.hash = some h ∧
    readPiece env h r.index ((σ.lookup (filePath h.name)).getD []) = .ok piece := by
  constructor
  · rintro ⟨h, length, offset, hhash, hread⟩
    obtain ⟨piece, hpiece⟩ := readPiece_eq_ok.mpr ⟨length, offset, hread⟩
    exact ⟨h, piece, hhash, hpiece⟩
  · rintro ⟨h, piece, hhash, hpiece⟩
    obtain ⟨length, offset, hread⟩ := readPiece_eq_ok.mp ⟨piece, hpiece⟩
    exact ⟨h, length, offset, hhash, hread⟩

/-- Creating an empty file changes nothing for a reader that takes missing files for empty ones. -/
lemma getD_lookup_touch (σ : Store) (path path' : String) :
    ((touch σ path).lookup path').getD [] = (σ.lookup path').getD [] := by
  by_cases hpath : path' = path
  · subst hpath
    rw [lookup_touch_self, Option.getD_some]
  · rw [lookup_touch_ne σ hpath]

lemma servable_touch (path : String) :
    Servable env fileMap (touch σ path) r ↔ Servable env fileMap σ r := by
  simp only [Servable, getD_lookup_touch]

/-- A request that can be served is answered with the piece, on both ways. -/
lemma runOn_of_servable (hr : Servable env fileMap σ r) (sessionId : String) :
    ∃ piece path,
      runOn (answer env fileMap r.seeder r.index r.begin r.length r.hash) σ
        = (.ok (.piece r.index piece), touch σ path) ∧
      runOn (seedRound env fileMap sessionId (r.packet sessionId)) σ
        = (.ok (.sent ⟨sessionId, some (.piece piece r.index)⟩), touch σ path) := by
  obtain ⟨h, piece, hhash, hpiece⟩ := servable_iff.mp hr
  refine ⟨piece, filePath h.name, ?_, ?_⟩
  · rw [runOn_answer_shared env fileMap σ _ _ _ _ hhash, hpiece]
  · rw [seedRound, PieceRequest.packet]
    simp only [Digest.ofBytes?_val, hhash]
    rw [runOn_bind, runOn_attempt, runOn_readPieceFromFile_eq, hpiece]
    rfl

/-- A request is answered with a piece, or the loop is left. -/
lemma round_of_packet {result : Except Fault SeedRound} {σ' : Store}
    (h : runOn (seedRound env fileMap sessionId (r.packet sessionId)) σ = (result, σ')) :
    (∃ piece, result = .ok (.sent ⟨sessionId, some (.piece piece r.index)⟩)) ∨
      result = .ok .ended ∨ ∃ fault, result = .error fault := by
  rw [seedRound, PieceRequest.packet] at h
  simp only [Digest.ofBytes?_val] at h
  cases hhash : fileMap.lookup r.hash with
  | none =>
    rw [hhash] at h
    exact .inr (.inl (congrArg Prod.fst h).symm)
  | some infoHash =>
    simp only [hhash] at h
    rw [runOn_bind] at h
    split at h
    · rename_i read _ hread
      cases read with
      | some piece => exact .inl ⟨piece, (congrArg Prod.fst h).symm⟩
      | none => exact .inr (.inl (congrArg Prod.fst h).symm)
    · exact .inr (.inr ⟨_, (congrArg Prod.fst h).symm⟩)

/-- A request that cannot be served is not answered with a piece over QUIC. -/
lemma runOn_answer_of_not_servable (hr : ¬ Servable env fileMap σ r) (piece : Bytes) :
    (runOn (answer env fileMap r.seeder r.index r.begin r.length r.hash) σ).1
      ≠ .ok (.piece r.index piece) := by
  cases hhash : fileMap.lookup r.hash with
  | none =>
    rw [runOn_answer_unknown env fileMap σ _ _ _ _ hhash]
    simp
  | some h =>
    rw [runOn_answer_shared env fileMap σ _ _ _ _ hhash]
    cases hpiece : readPiece env h r.index ((σ.lookup (filePath h.name)).getD []) with
    | ok piece' => exact absurd (servable_iff.mpr ⟨h, piece', hhash, hpiece⟩) hr
    | error fault => cases fault <;> simp

/-- Answering a request at most creates an empty file. -/
lemma servable_after_answer {r' : PieceRequest} :
    Servable env fileMap
        (runOn (answer env fileMap r.seeder r.index r.begin r.length r.hash) σ).2 r'
      ↔ Servable env fileMap σ r' := by
  cases hhash : fileMap.lookup r.hash with
  | none => rw [runOn_answer_unknown env fileMap σ _ _ _ _ hhash]
  | some h =>
    rw [runOn_answer_shared env fileMap σ _ _ _ _ hhash]
    exact servable_touch _

/-- A request that cannot be served at the start of the session is not answered with a piece. -/
lemma quicAnswers_of_not_servable {k : ℕ} (hk : requests[k]? = some r)
    (hr : ¬ Servable env fileMap σ r) (piece : Bytes) :
    (quicAnswers env fileMap σ requests)[k]? ≠ some (.ok (.piece r.index piece)) := by
  induction requests generalizing σ k with
  | nil => cases hk
  | cons r' requests ih =>
    cases k with
    | zero =>
      obtain rfl := Option.some.inj hk
      intro h
      exact runOn_answer_of_not_servable hr piece (Option.some.inj h)
    | succ k => exact ih hk (mt servable_after_answer.mp hr)

/-- While every request can be served, the answers are the same. -/
lemma answers_of_servable (sessionId : String)
    (hall : ∀ r ∈ requests, Servable env fileMap σ r) {k : ℕ} (hk : requests[k]? = some r) :
    ∃ piece, (quicAnswers env fileMap σ requests)[k]? = some (.ok (.piece r.index piece)) ∧
      (turnAnswers env fileMap sessionId σ requests)[k]? = some (some (.piece r.index piece)) := by
  induction requests generalizing σ k with
  | nil => cases hk
  | cons r' requests ih =>
    obtain ⟨piece, path, hquic, hturn⟩ :=
      runOn_of_servable (hall r' (List.mem_cons_self ..)) sessionId
    have hrest : ∀ r ∈ requests, Servable env fileMap (touch σ path) r := fun r hr =>
      (servable_touch path).mpr (hall r (List.mem_cons_of_mem _ hr))
    rw [quicAnswers, turnAnswers, List.map_cons, startSeeding, hquic, hturn]
    cases k with
    | zero =>
      obtain rfl := Option.some.inj hk
      exact ⟨piece, rfl, rfl⟩
    | succ k => exact ih hrest hk

/-- No negative answer ever comes out of a session. -/
lemma turnAnswers_ne_cancel (seeder index begin length : UInt32) :
    some (.cancel seeder index begin length) ∉ turnAnswers env fileMap sessionId σ requests := by
  intro hmem
  obtain ⟨reply, -, hreply⟩ := List.mem_map.mp hmem
  obtain ⟨pkt, -, hpkt⟩ := Option.bind_eq_some_iff.mp hreply
  unfold pieceMessage at hpkt
  split at hpkt <;> cases hpkt

end Answers

/-- TURN seeding answers like QUIC seeding exactly when every request of the session can be
served. -/
theorem turn_answers_like_quic_iff (env : Env) (fileMap : FileMap) (sessionId : String) (σ : Store)
    (requests : List PieceRequest) :
    AnswersAlike requests (quicAnswers env fileMap σ requests)
        (turnAnswers env fileMap sessionId σ requests) ↔
      ∀ r ∈ requests, Servable env fileMap σ r := by
  constructor
  · intro halike r hr
    by_contra hnot
    obtain ⟨k, hk⟩ := List.mem_iff_getElem?.mp hr
    obtain ⟨seeder, begin, length, hturn⟩ :=
      (halike k r hk).2 (quicAnswers_of_not_servable hk hnot)
    exact turnAnswers_ne_cancel seeder r.index begin length (List.mem_of_getElem? hturn)
  · intro hall k r hk
    obtain ⟨piece, hquic, hturn⟩ := answers_of_servable sessionId hall hk
    refine ⟨fun piece' hpiece' => ?_, fun hnone => absurd hquic (hnone piece)⟩
    rw [hquic] at hpiece'
    cases hpiece'
    exact hturn

/-- A request for a file that the seeder does not share, and one for the file of one letter. -/
def letterRequests : List PieceRequest :=
  [⟨0, 0, 0, 65536, Digest.zero⟩, ⟨0, 0, 0, 65536, letterDigest⟩]

/-- Over TURN neither request is answered; `send_data` refuses the first and serves the second. -/
theorem turn_session_ends_early :
    ¬ AnswersAlike letterRequests (quicAnswers letterEnv letterMap letterStore letterRequests)
        (turnAnswers letterEnv letterMap "ab" letterStore letterRequests) := by
  intro halike
  obtain ⟨seeder, begin, length, hturn⟩ := (halike 0 _ rfl).2 (fun piece hpiece => by cases hpiece)
  cases hturn

end BearTorrent
