import BearTorrent.Client.Message
import BearTorrent.Client.ServedPieces

/-!
# The exchange of a piece

One stream of a QUIC connection: the leecher writes a `Request`, `send_data` reads it and answers
with the piece or with a `Cancel`, and `recv_data` reads the answer up to a limit that it derives
from the requested length.
-/

namespace BearTorrent

open Patch FileSystem

/-- The files that a seeder shares, by their hash. -/
abbrev FileMap := AList fun _ : Digest => InfoHash

section Functions

variable {m : Type → Type} [Monad m] [MonadExcept Fault m] [FileSystem m]

/-- Look at the result of a fallible call. A panic is not a result. -/
def attempt {α : Type} (x : m α) : m (Option α) :=
  tryCatch (some <$> x) fun
    | .err _ => pure none
    | .panic => throw .panic

/-- The message that answers a request: the piece, or a `Cancel` when it is not available. -/
def answer (env : Env) (fileMap : FileMap) (seeder index begin length : UInt32) (hash : Digest) :
    m Message :=
  match fileMap.lookup hash with
  | some infoHash => do
    match ← attempt (readPieceFromFile env infoHash index) with
    | some piece => pure (.piece index piece)
    | none       => pure (.cancel seeder index begin length)
  | none => pure (.cancel seeder index begin length)

/-- One stream of `send_data`: from the bytes that the leecher sends to the bytes of the reply. -/
def sendData (env : Env) (fileMap : FileMap) (stream : Bytes) : m Bytes := do
  if stream.length < 41 then throw (.err "stream finished early")
  let reqBuf := stream.take 41
  match ← MonadExcept.ofExcept (Message.decode reqBuf) with
  | some (.request seeder index begin length hash) => do
    let msg ← answer env fileMap seeder index begin length hash
    MonadExcept.ofExcept (msg.encode env)
  | _ => throw (.err "failed to decode request")

end Functions

/-- What `recv_data` makes of the bytes of the reply. The sum is computed for a log line. -/
def recvData (env : Env) (length : UInt32) (stream : Bytes) : Except Fault Message := do
  let _ ← addU32 env length 9
  if length.toNat + 9 < stream.length then throw (.err "stream too long")
  match ← Message.decode stream with
  | some msg => pure msg
  | none     => throw (.err "failed to decode message")

/-! ### Answers -/

section Answer

variable (env : Env) (fileMap : FileMap) (σ : Store) (seeder index begin length : UInt32)
  {hash : Digest} {h : InfoHash}

lemma runOn_attempt {α : Type} (x : FileM α) :
    runOn (attempt x) σ = match runOn x σ with
      | (.ok a, σ')           => (.ok (some a), σ')
      | (.error (.err _), σ') => (.ok none, σ')
      | (.error .panic, σ')   => (.error .panic, σ') := by
  rw [attempt, runOn_tryCatch, map_eq_pure_bind, runOn_bind]
  rcases runOn x σ with ⟨(_ | _) | a, σ'⟩ <;> rfl

/-- The answer when the file is not shared. -/
lemma runOn_answer_unknown (hhash : fileMap.lookup hash = none) :
    runOn (answer env fileMap seeder index begin length hash) σ
      = (.ok (.cancel seeder index begin length), σ) := by
  rw [answer, hhash]
  rfl

/-- The answer when the file is shared. -/
lemma runOn_answer_shared (hhash : fileMap.lookup hash = some h) :
    runOn (answer env fileMap seeder index begin length hash) σ
      = (match readPiece env h index ((σ.lookup (filePath h.name)).getD []) with
          | .ok piece       => .ok (.piece index piece)
          | .error (.err _) => .ok (.cancel seeder index begin length)
          | .error .panic   => .error .panic,
        touch σ (filePath h.name)) := by
  rw [answer, hhash]
  simp only
  rw [runOn_bind, runOn_attempt, runOn_readPieceFromFile_eq]
  rcases readPiece env h index ((σ.lookup (filePath h.name)).getD []) with (_ | _) | piece <;> rfl

end Answer

/-- A request is read and answered, and the answer is encoded. -/
lemma runOn_sendData {env : Env} {fileMap : FileMap} {σ σ' : Store}
    {seeder index begin length : UInt32} {hash : Digest} {stream buf : Bytes} {reply : Message}
    (hstream : (Message.request seeder index begin length hash).encode env = .ok stream)
    (hreply : runOn (answer env fileMap seeder index begin length hash) σ = (.ok reply, σ'))
    (hbuf : reply.encode env = .ok buf) :
    runOn (sendData env fileMap stream) σ = (.ok buf, σ') := by
  obtain ⟨buf', hbuf', hlen⟩ := Message.encode_request env seeder index begin length hash
  obtain rfl := Except.ok.inj (hstream.symm.trans hbuf')
  have htake : stream.take 41 = stream := List.take_of_length_le hlen.le
  rw [sendData, if_neg (by omega)]
  simp only [htake, Message.decode_encode hstream]
  rw [runOn_bind_ok (runOn_ofExcept σ _)]
  simp only
  rw [runOn_bind_ok hreply, runOn_ofExcept, hbuf]

/-- A reply within the limit is received as it was sent. -/
lemma recvData_encode {env : Env} {length : UInt32} {reply : Message} {buf : Bytes}
    (hlength : length.toNat + 9 < 2 ^ 32) (hbuf : reply.encode env = .ok buf)
    (hle : buf.length ≤ length.toNat + 9) : recvData env length buf = .ok reply := by
  rw [recvData, addU32_of_lt env hlength]
  simp only [bind, Except.bind]
  rw [if_neg (by omega), Message.decode_encode hbuf]
  rfl

/-! ### Faithfulness -/

/-- The seeder shares the file, and its copy reaches to the end of the piece. -/
def Available (fileMap : FileMap) (σ : Store) (hash : Digest) (h : InfoHash) (content : Bytes)
    (index : UInt32) : Prop :=
  fileMap.lookup hash = some h ∧ ∃ copy, σ.lookup (filePath h.name) = some copy ∧
    index.toNat * h.pieceLength.toNat
      + (chunk h.pieceLength.toNat content index.toNat).length ≤ copy.length

section Exchange

variable {env : Env} {name : String} {content : Bytes} {sizes : ℕ → ℕ} {h : InfoHash}
  {index : UInt32} {fileMap : FileMap} {σ : Store} {hash : Digest}

/-- The seeder answers with the piece when it is available, and with a `Cancel` otherwise. -/
lemma answer_spec (hh : h = InfoHash.compute env name content sizes)
    (hsize : content.length ≤ 2 ^ 32) (hindex : index.toNat < h.pieces.length)
    (seeder begin : UInt32)
    (hmap : fileMap.lookup hash = some h ∨ fileMap.lookup hash = none)
    (hσ : σ.lookup (filePath name) = none ∨
      ∃ k, σ.lookup (filePath name) = some (content.take k)) :
    ∃ reply σ', runOn (answer env fileMap seeder index begin h.pieceLength hash) σ
        = (.ok reply, σ') ∧
      (Available fileMap σ hash h content index →
        reply = .piece index (chunk h.pieceLength.toNat content index.toNat)) ∧
      (¬ Available fileMap σ hash h content index →
        reply = .cancel seeder index begin h.pieceLength) := by
  have hname : h.name = name := by rw [hh]; rfl
  have hlt := mul_pieceLength_lt hh hindex
  have hchunk := length_chunk h.pieceLength.toNat content index.toNat
  have hpos : 0 < h.pieceLength.toNat := by
    rw [hh]
    exact compute_pieceLength_pos ..
  rcases hmap with hmap | hmap
  · rw [runOn_answer_shared env fileMap σ seeder index begin h.pieceLength hmap,
      readPiece_compute hh hsize hindex]
    by_cases havailable : Available fileMap σ hash h content index
    · obtain ⟨-, copy, hcopy, hle⟩ := id havailable
      have htake : ∃ k, copy = content.take k := by
        rw [hname] at hcopy
        rcases hσ with hσ | ⟨k, hσ⟩
        · cases hσ.symm.trans hcopy
        · exact ⟨k, Option.some.inj (hcopy.symm.trans hσ)⟩
      obtain ⟨k, rfl⟩ := htake
      rw [hcopy, Option.getD_some, if_pos hle]
      refine ⟨_, _, rfl, fun _ => ?_, fun hna => absurd havailable hna⟩
      rw [slice_take content hle, hchunk, slice_min]
      rfl
    · rw [if_neg ?_]
      · exact ⟨_, _, rfl, fun ha => absurd ha havailable, fun _ => rfl⟩
      · intro hle
        cases hcopy : σ.lookup (filePath h.name) with
        | none =>
          rw [hcopy, Option.getD_none, List.length_nil] at hle
          omega
        | some copy =>
          rw [hcopy, Option.getD_some] at hle
          exact havailable ⟨hmap, copy, hcopy, hle⟩
  · rw [runOn_answer_unknown env fileMap σ seeder index begin h.pieceLength hmap]
    refine ⟨_, _, rfl, fun ha => ?_, fun _ => rfl⟩
    cases hmap.symm.trans ha.1

/-- No reply is longer than the limit of `recv_data`, so every reply arrives as it was sent. -/
lemma reply_arrives (hh : h = InfoHash.compute env name content sizes) {reply : Message}
    (hreply : reply = .piece index (chunk h.pieceLength.toNat content index.toNat) ∨
      ∃ seeder begin, reply = .cancel seeder index begin h.pieceLength) :
    ∃ buf, reply.encode env = .ok buf ∧ buf.length ≤ h.pieceLength.toNat + 9 ∧
      recvData env h.pieceLength buf = .ok reply := by
  obtain ⟨hlow, hhigh⟩ : 65536 ≤ h.pieceLength.toNat ∧ h.pieceLength.toNat ≤ 1048576 := by
    rw [hh]
    exact getPieceLength_bounds _
  have hchunk := length_chunk h.pieceLength.toNat content index.toNat
  have hlimit : h.pieceLength.toNat + 9 < 2 ^ 32 := by omega
  rcases hreply with rfl | ⟨seeder, begin, rfl⟩
  · have hfits : (chunk h.pieceLength.toNat content index.toNat).length + 5 < 2 ^ 32 := by omega
    obtain ⟨buf, hbuf, hlen⟩ := Message.encode_piece env index hfits
    exact ⟨buf, hbuf, by omega, recvData_encode hlimit hbuf (by omega)⟩
  · obtain ⟨buf, hbuf, hlen⟩ :=
      Message.encode_cancel env seeder index begin h.pieceLength
    exact ⟨buf, hbuf, by omega, recvData_encode hlimit hbuf (by omega)⟩

/-- The exchange of a piece is faithful: the request is read whole, the reply is the piece or a
`Cancel` with the fields of the request, and it is received as it was sent. -/
theorem piece_exchange_faithful (hh : h = InfoHash.compute env name content sizes)
    (hsize : content.length ≤ 2 ^ 32) (hindex : index.toNat < h.pieces.length)
    (seeder begin : UInt32) (hmap : fileMap.lookup hash = some h ∨ fileMap.lookup hash = none)
    (hσ : σ.lookup (filePath name) = none ∨
      ∃ k, σ.lookup (filePath name) = some (content.take k)) :
    ∃ stream reply buf σ',
      (Message.request seeder index begin h.pieceLength hash).encode env = .ok stream ∧
      stream.length = 41 ∧
      Message.decode (stream.take 41)
        = .ok (some (.request seeder index begin h.pieceLength hash)) ∧
      (Available fileMap σ hash h content index →
        reply = .piece index (chunk h.pieceLength.toNat content index.toNat)) ∧
      (¬ Available fileMap σ hash h content index →
        reply = .cancel seeder index begin h.pieceLength) ∧
      reply.encode env = .ok buf ∧
      runOn (sendData env fileMap stream) σ = (.ok buf, σ') ∧
      buf.length ≤ h.pieceLength.toNat + 9 ∧
      recvData env h.pieceLength buf = .ok reply := by
  obtain ⟨stream, hstream, hlen⟩ :=
    Message.encode_request env seeder index begin h.pieceLength hash
  obtain ⟨reply, σ', hrun, havailable, hunavailable⟩ :=
    answer_spec hh hsize hindex seeder begin hmap hσ
  have hreply : reply = .piece index (chunk h.pieceLength.toNat content index.toNat) ∨
      ∃ seeder begin, reply = .cancel seeder index begin h.pieceLength := by
    by_cases ha : Available fileMap σ hash h content index
    · exact .inl (havailable ha)
    · exact .inr ⟨seeder, begin, hunavailable ha⟩
  obtain ⟨buf, hbuf, hle, hrecv⟩ := reply_arrives hh hreply
  refine ⟨stream, reply, buf, σ', hstream, hlen, ?_, havailable, hunavailable, hbuf,
    runOn_sendData hstream hrun hbuf, hle, hrecv⟩
  rw [List.take_of_length_le hlen.le]
  exact Message.decode_encode hstream

end Exchange

/-- A seeder that shares the file of one letter. -/
def letterMap : FileMap := AList.insert letterDigest letterHash ∅

theorem piece_exchange_faithful_letter :
    ∃ stream buf σ', runOn (sendData letterEnv letterMap stream) letterStore = (.ok buf, σ') ∧
      recvData letterEnv letterHash.pieceLength buf = .ok (.piece 0 [97]) := by
  have hmap : letterMap.lookup letterDigest = some letterHash := AList.lookup_insert _
  have hindex : (0 : UInt32).toNat < letterHash.pieces.length := by
    rw [letterHash_pieces]
    decide
  obtain ⟨stream, reply, buf, σ', -, -, -, havailable, -, -, hsend, -, hrecv⟩ :=
    piece_exchange_faithful (h := letterHash) rfl (by decide) hindex 0 0 (.inl hmap)
      (.inr ⟨1, letterStore_file⟩)
  obtain rfl := havailable ⟨hmap, [97], letterStore_file, by decide⟩
  exact ⟨stream, buf, σ', hsend, hrecv⟩

end BearTorrent
