import BearTorrent.Client.Integrity

/-!
# An honest download

A file of at most 4 GiB is downloaded from peers that answer with its pieces or with full-length
garbage, in any order and with repetitions, and the process is restarted any number of times. The
download is finished by the delivery that completes the set of pieces, and the file is the
original.
-/

namespace BearTorrent

open Patch

variable (env : Env) (h : InfoHash)

/-- The info hash describes `content`: the lengths fit and each piece passes its own check. -/
structure Describes (content : Bytes) : Prop where
  wellFormed : h.WellFormed
  fileLength : content.length = h.fileLength.toNat
  accepted : ∀ index : UInt32, index.toNat < h.pieces.length →
    Accepted env h index (chunk h.pieceLength.toNat content index.toNat)

/-- The payload is what `read_piece_from_file` returns on the original, which is in `seeder`. -/
def Correct (seeder : Store) (index : UInt32) (piece : Bytes) : Prop :=
  index.toNat < h.pieces.length ∧
    (runOn (readPieceFromFile env h index) seeder).1 = .ok piece

/-- The pieces that are delivered, while `send_requests` serves the requests for corrupted ones,
and restarts. -/
def DownloadEvent.Honest (seeder : Store) : DownloadEvent → Prop
  | .deliver (.piece index piece) resendOpen =>
    Correct env h seeder index piece ∨ Corrupted env h index piece ∧ resendOpen = true
  | .deliver _ _ => False
  | .restart _   => True

/-- Piece `i` has been delivered correctly. -/
def HasPiece (seeder : Store) (events : List DownloadEvent) (i : ℕ) : Prop :=
  ∃ index piece resendOpen, .deliver (.piece index piece) resendOpen ∈ events ∧
    index.toNat = i ∧ Correct env h seeder index piece

/-- Every piece has been delivered correctly at least once. -/
def Covers (seeder : Store) (events : List DownloadEvent) : Prop :=
  ∀ i < h.pieces.length, HasPiece env h seeder events i

/-- Before every piece has been delivered, the loop runs and exactly the delivered pieces are
written, with the original's bytes. -/
def HonestInv (content : Bytes) (seeder : Store) (events : List DownloadEvent)
    (D : DownloadState) : Prop :=
  ∃ a W, D.loop = .running a ∧ a.fileHash = h ∧
    Progress h (fun i piece => piece = chunk h.pieceLength.toNat content i)
      (download D.store h.name) W ∧
    ∀ i, i ∈ W ↔ HasPiece env h seeder events i

variable {env h} {content : Bytes} {seeder : Store} {events : List DownloadEvent}

/-- What `InfoHash::new` computes describes the file. -/
lemma compute_describes (name : String) (sizes : ℕ → ℕ) (hlt : content.length < 2 ^ 64) :
    Describes env (InfoHash.compute env name content sizes) content where
  wellFormed := compute_wellFormed env name content sizes hlt
  fileLength := (compute_fileLength env name content sizes hlt).symm
  accepted index hindex hfull := by
    have hin := (compute_wellFormed env name content sizes hlt).mul_lt hindex
    rw [compute_fileLength env name content sizes hlt] at hin
    rw [length_chunk] at hfull
    have hle : (index.toNat + 1) * (InfoHash.compute env name content sizes).pieceLength.toNat
        ≤ content.length := by
      rw [Nat.succ_mul]; omega
    rw [compute_pieces_length] at hindex
    rw [expectedHash_eq_ok, compute_pieces, List.getElem?_map, List.getElem?_range hindex,
      ← hashedBuffer_of_full hle]
    rfl

/-- A file that is not empty has pieces. -/
lemma Describes.pieces_pos (hd : Describes env h content) (hne : content ≠ []) :
    0 < h.pieces.length := by
  rw [hd.wellFormed.pieces_length, lt_numPieces_iff hd.wellFormed.pieceLength_pos, Nat.zero_mul,
    ← hd.fileLength]
  exact List.length_pos_iff.mpr hne

/-- A file with the original's pieces is the original. -/
lemma Assembled.eq_content (hd : Describes env h content) {file : Bytes}
    (hfile : Assembled h (fun i piece => piece = chunk h.pieceLength.toNat content i) file) :
    file = content := by
  have hpos := hd.wellFormed.pieceLength_pos
  refine eq_of_chunk_eq hpos (hfile.length.trans hd.fileLength.symm) fun i hi => ?_
  refine hfile.good i ?_
  rwa [hd.wellFormed.pieces_length, lt_numPieces_iff hpos, ← hfile.length]

/-- A correct payload is a chunk of the original. -/
lemma Correct.eq_chunk (hd : Describes env h content) (hmax : content.length ≤ 2 ^ 32)
    (hseeder : (download seeder h.name).file = some content) {index : UInt32} {piece : Bytes}
    (hc : Correct env h seeder index piece) :
    piece = chunk h.pieceLength.toNat content index.toNat := by
  have hin := hd.wellFormed.mul_lt hc.1
  rw [← hd.fileLength] at hin
  have hread := runOn_readPieceFromFile env h seeder hd.wellFormed hseeder hd.fileLength hc.1
    (by omega)
  have hread' := hc.2
  rw [hread] at hread'
  exact (Except.ok.inj hread').symm

/-- A corrupted payload is not also correct. -/
lemma Corrupted.not_correct (hd : Describes env h content) (hmax : content.length ≤ 2 ^ 32)
    (hseeder : (download seeder h.name).file = some content) {index : UInt32} {piece : Bytes}
    (hcorrupted : Corrupted env h index piece) : ¬ Correct env h seeder index piece := by
  intro hc
  obtain ⟨digest, hdigest, hfull, hne⟩ := hcorrupted
  have hacc := hd.accepted index hc.1
  rw [← hc.eq_chunk hd hmax hseeder] at hacc
  have hexp := hacc hfull
  rw [expectedHash_eq_ok.mpr hdigest] at hexp
  exact hne (Except.ok.inj hexp).symm

/-! ### The pieces delivered so far -/

lemma hasPiece_append {e : DownloadEvent} {i : ℕ} :
    HasPiece env h seeder (events ++ [e]) i
      ↔ HasPiece env h seeder events i ∨ HasPiece env h seeder [e] i := by
  simp only [HasPiece, List.mem_append, or_and_right, exists_or]

lemma hasPiece_deliver {index : UInt32} {piece : Bytes} {resendOpen : Bool} {i : ℕ} :
    HasPiece env h seeder [.deliver (.piece index piece) resendOpen] i
      ↔ index.toNat = i ∧ Correct env h seeder index piece := by
  constructor
  · rintro ⟨index', piece', resendOpen', hmem, rfl, hc⟩
    simp only [List.mem_singleton, DownloadEvent.deliver.injEq, Message.piece.injEq] at hmem
    obtain ⟨⟨rfl, rfl⟩, -⟩ := hmem
    exact ⟨rfl, hc⟩
  · rintro ⟨rfl, hc⟩
    exact ⟨index, piece, resendOpen, by simp, rfl, hc⟩

/-- When exactly the delivered pieces are written, they cover the file when all are written. -/
lemma covers_iff {W : Finset ℕ} (hsub : ∀ i ∈ W, i < h.pieces.length)
    (hW : ∀ i, i ∈ W ↔ HasPiece env h seeder events i) :
    Covers env h seeder events ↔ W = Finset.range h.pieces.length := by
  simp only [Covers, ← hW]
  constructor
  · intro hall
    ext i
    rw [Finset.mem_range]
    exact ⟨hsub i, hall i⟩
  · rintro rfl i hi
    exact Finset.mem_range.mpr hi

/-! ### The run -/

/-- An event that delivers nothing new and leaves the files alone keeps the invariant. -/
lemma HonestInv.of_no_piece {D : DownloadState} (hD : HonestInv env h content seeder events D)
    (D' : DownloadState) (hstore : D'.store = D.store) {a : FileAssembler}
    (hloop : D'.loop = .running a)
    (ha : a.fileHash = h) {e : DownloadEvent} (he : ∀ i, ¬ HasPiece env h seeder [e] i) :
    HonestInv env h content seeder (events ++ [e]) D' := by
  obtain ⟨-, W, -, -, hp, hW⟩ := hD
  exact ⟨a, W, hloop, ha, hstore ▸ hp, fun i => by rw [hW, hasPiece_append, or_iff_left (he i)]⟩

/-- What the state is after an honest event: finished with the original when every piece has been
delivered, otherwise as the invariant says. -/
def HonestNext (env : Env) (h : InfoHash) (content : Bytes) (seeder : Store)
    (events : List DownloadEvent) (D : DownloadState) : Prop :=
  (Covers env h seeder events →
    D.loop = .finished ∧ (download D.store h.name).file = some content) ∧
  (¬ Covers env h seeder events → HonestInv env h content seeder events D)

/-- The delivery of a correct piece. -/
lemma HonestInv.deliver_correct (hd : Describes env h content) (hmax : content.length ≤ 2 ^ 32)
    (hseeder : (download seeder h.name).file = some content) {D : DownloadState}
    (hD : HonestInv env h content seeder events D) {index : UInt32} {piece : Bytes}
    (resendOpen : Bool) (hc : Correct env h seeder index piece) :
    HonestNext env h content seeder (events ++ [.deliver (.piece index piece) resendOpen])
      (D.step env h (.deliver (.piece index piece) resendOpen)) := by
  obtain ⟨a, W, hloop, ha, hp, hW⟩ := hD
  have hin := hd.wellFormed.mul_lt hc.1
  have hpiece := hc.eq_chunk hd hmax hseeder
  have hlen : piece.length = h.pieceLen index.toNat := by
    rw [hpiece, length_chunk, InfoHash.pieceLen, hd.fileLength]
  have hacc : Accepted env h index piece := hpiece ▸ hd.accepted index hc.1
  have hoff : index.toNat * h.pieceLength.toNat < 2 ^ 32 := by
    rw [← hd.fileLength] at hin; omega
  have hstep := step_deliver_piece env hd.wellFormed hloop ha hp hc.1 hoff hlen hacc hpiece
    resendOpen
  -- the pieces written afterwards are the pieces delivered by then
  have hW' : ∀ i, i ∈ insert index.toNat W
      ↔ HasPiece env h seeder (events ++ [.deliver (.piece index piece) resendOpen]) i := by
    intro i
    rw [Finset.mem_insert, hW, hasPiece_append, hasPiece_deliver, or_comm, eq_comm,
      and_iff_left hc]
  have hsub : ∀ i ∈ insert index.toNat W, i < h.pieces.length := by
    intro i hi
    rcases Finset.mem_insert.mp hi with rfl | hi
    · exact hc.1
    · exact hp.subset i hi
  rw [HonestNext, covers_iff hsub hW']
  constructor
  · intro hcov
    simp only [hcov, if_true] at hstep
    obtain ⟨hfin, file, hfiles, hfile⟩ := hstep
    refine ⟨hfin, ?_⟩
    rw [← hfile.eq_content hd]
    exact congrArg Download.file hfiles
  · intro hcov
    simp only [hcov, if_false] at hstep
    exact ⟨a, _, hstep.1, ha, hstep.2, hW'⟩

/-- The delivery of a corrupted piece leaves the files and the loop as they are. -/
lemma step_corrupted {D : DownloadState} {a : FileAssembler} (hloop : D.loop = .running a)
    (ha : a.fileHash = h) {index : UInt32} {piece : Bytes}
    (hcorrupted : Corrupted env h index piece) :
    D.step env h (.deliver (.piece index piece) true) = D := by
  obtain ⟨digest, hdigest, hfull, hne⟩ := hcorrupted
  have hrun := runOn_receivePiece_corrupted env (σ := D.store) hfull
    (expectedHash_eq_ok.mpr hdigest) hne
  obtain ⟨store, loop⟩ := D
  obtain rfl : loop = .running a := hloop
  simp only [DownloadState.step, reassembleMessage, ha]
  rw [runOn_bind_ok hrun]
  rfl

/-- The step lemma of the invariant. -/
lemma HonestInv.step (hd : Describes env h content) (hmax : content.length ≤ 2 ^ 32)
    (hseeder : (download seeder h.name).file = some content) {D : DownloadState}
    (hD : HonestInv env h content seeder events D) (hcov : ¬ Covers env h seeder events)
    {e : DownloadEvent} (he : e.Honest env h seeder) :
    HonestNext env h content seeder (events ++ [e]) (D.step env h e) := by
  -- an event without a new piece does not complete the file
  have hnone : (∀ i, ¬ HasPiece env h seeder [e] i) → ¬ Covers env h seeder (events ++ [e]) := by
    intro hno hcov'
    refine hcov fun i hi => ?_
    exact (hasPiece_append.mp (hcov' i hi)).resolve_right (hno i)
  cases e with
  | restart numConnections =>
    have hno : ∀ i, ¬ HasPiece env h seeder [.restart numConnections] i := by
      rintro i ⟨_, _, _, hmem, -⟩
      simp at hmem
    exact ⟨fun hcov' => absurd hcov' (hnone hno), fun _ =>
      hD.of_no_piece ⟨D.store, .running (.new h numConnections)⟩ rfl rfl rfl hno⟩
  | deliver msg resendOpen =>
    cases msg with
    | request seeder index begin length hash => exact he.elim
    | cancel seeder index begin length => exact he.elim
    | piece index piece =>
      rcases he with hc | ⟨hcorrupted, rfl⟩
      · exact hD.deliver_correct hd hmax hseeder resendOpen hc
      · have hno : ∀ i, ¬ HasPiece env h seeder [.deliver (.piece index piece) true] i := by
          intro i hi
          exact hcorrupted.not_correct hd hmax hseeder (hasPiece_deliver.mp hi).2
        obtain ⟨a, -, hloop, ha, -⟩ := id hD
        rw [step_corrupted hloop ha hcorrupted]
        exact ⟨fun hcov' => absurd hcov' (hnone hno), fun _ => hD.of_no_piece D rfl hloop ha hno⟩

/-- What has not been covered by a whole run was not covered earlier. -/
lemma Covers.append (hcov : Covers env h seeder events) (e : DownloadEvent) :
    Covers env h seeder (events ++ [e]) :=
  fun i hi => hasPiece_append.mpr (.inl (hcov i hi))

/-- The run lemma: until every piece has been delivered, the invariant holds. -/
lemma honestInv_run (hd : Describes env h content) (hmax : content.length ≤ 2 ^ 32)
    (hseeder : (download seeder h.name).file = some content) (numConnections : ℕ) {σ : Store}
    (hσ : Fresh σ h.name)
    (hev : ∀ e ∈ events, e.Honest env h seeder) (hcov : ¬ Covers env h seeder events) :
    HonestInv env h content seeder events (runDownload env h numConnections σ events) := by
  induction events using List.reverseRecOn with
  | nil =>
    refine ⟨.new h numConnections, ∅, rfl, rfl, ?_, fun i => ?_⟩
    · change Progress h _ (download σ h.name) ∅
      rw [hσ]
      exact progress_fresh h _
    · simp [HasPiece]
  | append_singleton events e ih =>
    have hcov' : ¬ Covers env h seeder events := fun hc => hcov (hc.append e)
    have hD := ih (fun e' he' => hev e' (List.mem_append_left _ he')) hcov'
    rw [runDownload, List.foldl_concat]
    exact (hD.step hd hmax hseeder hcov' (hev e (by simp))).2 hcov

/-- Two pieces of sevens, and one of a single eight. -/
def threePieces : Bytes := List.replicate 131072 7 ++ [8]

/-- A payload of the length of a piece. -/
def garbage : Bytes := List.replicate 65536 9

/-- A release build, with the SHA-1 of the pieces, the last one padded with sevens, and of the
garbage. -/
def threeEnv : Env where
  sha1 bytes :=
    if bytes = List.replicate 65536 7 then
      ⟨[164, 143, 96, 164, 197, 9, 154, 27, 0, 8, 91, 227, 180, 44, 159, 11, 187, 148, 209, 198],
        rfl⟩
    else if bytes = 8 :: List.replicate 65535 7 then
      ⟨[153, 11, 120, 71, 180, 170, 67, 220, 39, 74, 132, 18, 107, 34, 140, 32, 50, 1, 227, 227],
        rfl⟩
    else if bytes = garbage then
      ⟨[48, 60, 239, 20, 236, 67, 140, 120, 226, 255, 53, 227, 60, 52, 182, 138, 147, 213, 93, 91],
        rfl⟩
    else Digest.zero
  overflowChecks := false

/-- The info hash of the file. -/
def threeHash : InfoHash := InfoHash.compute threeEnv "b" threePieces fun _ => 8192

/-- The seeder's disk. -/
def threeSeeder : Store := AList.insert (filePath "b") threePieces ∅

lemma length_threePieces : threePieces.length = 131073 := by
  rw [threePieces, List.length_append, List.length_replicate]
  rfl

lemma threeHash_pieceLength : threeHash.pieceLength.toNat = 65536 := by
  rw [threeHash, compute_pieceLength, length_threePieces]
  rfl

lemma threeHash_pieces : threeHash.pieces.length = 3 := by
  have hlength := threeHash_pieceLength
  rw [threeHash] at hlength ⊢
  rw [compute_pieces_length, hlength, length_threePieces]
  rfl

lemma threeSeeder_file : (download threeSeeder threeHash.name).file = some threePieces := by
  have hfile : threeSeeder.lookup (filePath "b") = some threePieces := AList.lookup_insert _
  exact hfile

/-- The message with a piece of the file. -/
def pieceOfThree (index : UInt32) : Message := .piece index (chunk 65536 threePieces index.toNat)

lemma correct_three {index : UInt32} (hindex : index.toNat < 3) :
    Correct threeEnv threeHash threeSeeder index (chunk 65536 threePieces index.toNat) := by
  have hd : Describes threeEnv threeHash threePieces :=
    compute_describes "b" _ (by rw [length_threePieces]; decide)
  have hin : index.toNat < threeHash.pieces.length := by rwa [threeHash_pieces]
  refine ⟨hin, ?_⟩
  rw [runOn_readPieceFromFile threeEnv threeHash threeSeeder hd.wellFormed threeSeeder_file
    hd.fileLength hin (by rw [threeHash_pieceLength]; omega), threeHash_pieceLength]

/-- The garbage has another hash than the first piece. -/
lemma corrupted_garbage : Corrupted threeEnv threeHash 0 garbage := by
  have hbuffer : hashedBuffer 65536 threePieces 0 = List.replicate 65536 7 := by
    rw [hashedBuffer_of_full (by rw [length_threePieces]; decide), chunk, slice, threePieces,
      Nat.zero_mul, List.drop_zero, List.take_append_of_le_length (by
        rw [List.length_replicate]; decide), List.take_replicate]
    rfl
  have hpiece : threeHash.pieces[(0 : UInt32).toNat]?
      = some ⟨(threeEnv.sha1 (hashedBuffer 65536 threePieces 0)).val⟩ := by
    have hlength := threeHash_pieceLength
    rw [threeHash] at hlength ⊢
    rw [compute_pieces, hlength, length_threePieces, List.getElem?_map, List.getElem?_range
      (by decide)]
    rfl
  have hseven : garbage ≠ List.replicate 65536 7 := by
    rw [garbage, Ne, List.replicate_right_inj (by decide)]
    decide
  have height : garbage ≠ 8 :: List.replicate 65535 7 := by
    rw [garbage, List.replicate_succ]
    exact fun h => absurd (List.cons.inj h).1 (by decide)
  refine ⟨_, hpiece, ?_, ?_⟩
  · rw [garbage, List.length_replicate, threeHash_pieceLength]
  · rw [hbuffer, hashPieceData]
    simp only [threeEnv, hseven, height, if_false, if_true]
    decide

/-- The last piece comes first and once more later, the first one is garbage before it is
correct, and before the second one the process is restarted. -/
def threeEvents : List DownloadEvent :=
  [.deliver (pieceOfThree 2) true, .deliver (.piece 0 garbage) true,
    .deliver (pieceOfThree 0) true, .deliver (pieceOfThree 2) false, .restart 2]

end BearTorrent
