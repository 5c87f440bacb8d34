import BearTorrent.Client.Reassembly

/-!
# Integrity of a download

A downloaded file has to have the length and the piece hashes of its info hash. The loop compares
a payload with the recorded hash only when it has exactly `piece_length` bytes, so the file's
integrity rests on the payloads of every other length.
-/

namespace BearTorrent

open Patch

variable (env : Env) (h : InfoHash)

/-- The file has the length and the piece hashes that the info hash records. -/
def Integrity (file : Bytes) : Prop :=
  file.length = h.fileLength.toNat ∧
    ∀ sizes, ∀ i < h.pieces.length,
      (getPieceHashes env ⟨file, sizes, 0⟩ h.pieceLength.toNat)[i]? = h.pieces[i]?

/-- What a short piece `index` is hashed with: the payload that was accepted for the piece before
it, or zeros. -/
def PieceBefore (msgs : List Message) (index : ℕ) (before : Bytes) : Prop :=
  if index = 0 then before = List.replicate h.pieceLength.toNat 0
  else ∃ index', .piece index' before ∈ msgs ∧ index'.toNat + 1 = index ∧
    before.length = h.pieceLength.toNat ∧
    expectedHash h index' = .ok (hashPieceData env before)

/-- A message of `msgs` that does not misuse the length check. A payload of `piece_length` bytes
that passes is a whole piece of the file; a payload of another length for one of its pieces is the
short last piece, with the hash that `get_piece_hashes` computes for it. -/
def Message.Sound (msgs : List Message) : Message → Prop
  | .piece index payload =>
    if payload.length = h.pieceLength.toNat then
      expectedHash h index = .ok (hashPieceData env payload) →
        (index.toNat + 1) * h.pieceLength.toNat ≤ h.fileLength.toNat
    else index.toNat < h.pieces.length →
      index.toNat + 1 = h.pieces.length ∧ payload.length = h.pieceLen index.toNat ∧
        ∀ before, PieceBefore env h msgs index.toNat before →
          expectedHash h index = .ok (hashPieceData env (payload ++ before.drop payload.length))
  | .request _ _ _ _ _ => True
  | .cancel _ _ _ _    => True

/-- The payloads that were delivered for piece `i` and passed. -/
def Delivered (msgs : List Message) (i : ℕ) (piece : Bytes) : Prop :=
  ∃ index, index.toNat = i ∧ .piece index piece ∈ msgs ∧ Accepted env h index piece

/-- How the download stands while only sound messages have been received. -/
def IntegrityInv (msgs : List Message) (D : DownloadState) : Prop :=
  match D.loop with
  | .running a =>
    a.fileHash = h ∧ ∃ W, Progress h (Delivered env h msgs) (download D.store h.name) W
  | .finished =>
    ∃ file, (download D.store h.name).file = some file ∧
      Assembled h (Delivered env h msgs) file
  | .failed _ => True

variable {env h} {msgs : List Message}

/-- A loop that ends with a fault builds nothing. -/
lemma integrityInv_failed {D : DownloadState} {fault : Fault} (hloop : D.loop = .failed fault) :
    IntegrityInv env h msgs D := by
  simp [IntegrityInv, hloop]

/-- A piece that is not rejected is a whole piece of the file, or the short last one. -/
lemma Message.Sound.pieceLen {index : UInt32} {piece : Bytes}
    (hsound : (Message.piece index piece).Sound env h msgs) (hacc : Accepted env h index piece)
    (hindex : index.toNat < h.pieces.length) : piece.length = h.pieceLen index.toNat := by
  simp only [Message.Sound] at hsound
  split_ifs at hsound with hfull
  · have hin := hsound (hacc hfull)
    rw [Nat.succ_mul] at hin
    rw [hfull, InfoHash.pieceLen]
    omega
  · exact (hsound hindex).2.1

/-- A `Cancel` does not touch the files. -/
lemma cancelConnection_fileHash {a a' : FileAssembler} {seeder : UInt32} {resendOpen : Bool}
    (hrun : cancelConnection env resendOpen a seeder = .ok a') : a'.fileHash = a.fileHash := by
  obtain ⟨a₁, hremove, hrun⟩ := except_bind_eq_ok.mp hrun
  obtain ⟨a₂, hdecrement, hrun⟩ := except_bind_eq_ok.mp hrun
  have h₁ : a₁.fileHash = a.fileHash := by
    unfold FileAssembler.removeRequestTx at hremove
    split_ifs at hremove
    rw [← Except.ok.inj hremove]
  have h₂ : a₂.fileHash = a₁.fileHash := by
    obtain ⟨n, _, hn⟩ := except_bind_eq_ok.mp hdecrement
    rw [← Except.ok.inj hn]
  split_ifs at hrun
  · cases hrun
  · obtain ⟨_, _, hrun⟩ := except_bind_eq_ok.mp hrun
    rw [← Except.ok.inj hrun, h₂, h₁]

/-- A sound message keeps the invariant. -/
lemma IntegrityInv.step (hh : h.WellFormed)
    (hov : env.overflowChecks = true ∨ h.fileLength.toNat ≤ 2 ^ 32) {D : DownloadState}
    (hD : IntegrityInv env h msgs D) {msg : Message} (hmem : msg ∈ msgs)
    (hsound : msg.Sound env h msgs) (resendOpen : Bool) :
    IntegrityInv env h msgs (D.step env h (.deliver msg resendOpen)) := by
  cases hloop : D.loop with
  | finished => simpa only [DownloadState.step, hloop] using hD
  | failed fault => simpa only [DownloadState.step, hloop] using hD
  | running a =>
    simp only [IntegrityInv, hloop] at hD
    obtain ⟨rfl, W, hp⟩ := hD
    cases msg with
    | request seeder index begin length hash =>
      have hfail : (D.step env a.fileHash (.deliver (.request seeder index begin length hash)
          resendOpen)).loop = .failed wrongMessageType := by
        simp [DownloadState.step, hloop, reassembleMessage]
      exact integrityInv_failed hfail
    | cancel seeder index begin length =>
      simp only [DownloadState.step, hloop, reassembleMessage]
      rw [runOn_bind, runOn_ofExcept]
      cases hrun : cancelConnection env resendOpen a seeder with
      | error fault => exact integrityInv_failed rfl
      | ok a' => exact ⟨cancelConnection_fileHash hrun, W, hp⟩
    | piece index piece =>
      by_cases hacc : Accepted env a.fileHash index piece
      · by_cases hindex : a.fileHash.pieces.length ≤ index.toNat
        · have hfull : piece.length ≠ a.fileHash.pieceLength.toNat := fun hfull =>
            absurd (lt_of_expectedHash_eq_ok (hacc hfull)) (Nat.not_lt.mpr hindex)
          obtain ⟨fault, σ', hrun⟩ := runOn_receivePiece_outOfRange env hp hfull hindex
          simp only [DownloadState.step, hloop, reassembleMessage]
          rw [runOn_bind_error hrun]
          exact integrityInv_failed rfl
        rw [Nat.not_le] at hindex
        have hlen := hsound.pieceLen hacc hindex
        by_cases hoff : index.toNat * a.fileHash.pieceLength.toNat < 2 ^ 32
        · have hstep := step_deliver_piece env hh hloop rfl hp hindex hoff hlen hacc
            ⟨index, rfl, hmem, hacc⟩ resendOpen
          simp only at hstep
          split_ifs at hstep with hc
          · obtain ⟨hfin, file, hd, hfile⟩ := hstep
            simp only [IntegrityInv, hfin]
            exact ⟨file, by rw [hd], hfile⟩
          · obtain ⟨hrun, hp'⟩ := hstep
            simp only [IntegrityInv, hrun]
            exact ⟨trivial, _, hp'⟩
        · -- only a build with overflow checks gets here
          have hin := hh.mul_lt hindex
          have hchecks : env.overflowChecks = true := hov.resolve_right (by omega)
          have hmul := mulU32_overflow hchecks (Nat.not_lt.mp hoff)
          simp only [DownloadState.step, hloop, reassembleMessage]
          rw [runOn_bind_error (runOn_receivePiece_overflow env hacc hmul)]
          exact integrityInv_failed rfl
      · obtain ⟨hfull, hne⟩ := Classical.not_imp.mp hacc
        simp only [DownloadState.step, hloop, reassembleMessage]
        cases hexp : expectedHash a.fileHash index with
        | error fault =>
          rw [runOn_bind_error (runOn_receivePiece_error env hfull hexp)]
          exact integrityInv_failed rfl
        | ok digest =>
          have hne' : hashPieceData env piece ≠ digest := fun heq => hne (heq ▸ hexp)
          rw [runOn_bind_ok (runOn_receivePiece_corrupted env hfull hexp hne')]
          cases resendOpen with
          | false => exact integrityInv_failed rfl
          | true => exact ⟨rfl, W, hp⟩

/-- The pieces of an assembled file have the recorded hashes. -/
lemma Assembled.integrity (hh : h.WellFormed) {file : Bytes}
    (hfile : Assembled h (Delivered env h msgs) file) (hs : ∀ msg ∈ msgs, msg.Sound env h msgs) :
    Integrity env h file := by
  have hpos := hh.pieceLength_pos
  refine ⟨hfile.length, fun sizes i hi => ?_⟩
  rw [getPieceHashes_eq env hpos, List.getElem?_map, List.getElem?_range (by
    rwa [hfile.length, ← hh.pieces_length])]
  obtain ⟨index, rfl, hmem, hacc⟩ := hfile.good i hi
  refine (expectedHash_eq_ok.mp ?_).symm
  have hlen := length_chunk h.pieceLength.toNat file index.toNat
  have hin := hh.mul_lt hi
  rw [hfile.length] at hlen
  by_cases hfull : (index.toNat + 1) * h.pieceLength.toNat ≤ h.fileLength.toNat
  · rw [hashedBuffer_of_full (by rwa [hfile.length])]
    rw [Nat.succ_mul] at hfull
    exact hacc (by omega)
  · rw [Nat.succ_mul] at hfull
    have hsound := hs _ hmem
    simp only [Message.Sound] at hsound
    rw [if_neg (by omega)] at hsound
    refine (hsound hi).2.2 _ ?_
    rw [PieceBefore]
    split_ifs with h0
    · rfl
    · -- the piece before is full, so it was compared with its hash
      obtain ⟨index', hindex', hmem', hacc'⟩ := hfile.good (index.toNat - 1) (by omega)
      have hlen' : (chunk h.pieceLength.toNat file (index.toNat - 1)).length
          = h.pieceLength.toNat := by
        have hsucc : index.toNat * h.pieceLength.toNat
            = (index.toNat - 1) * h.pieceLength.toNat + h.pieceLength.toNat := by
          rw [← Nat.succ_mul]; congr 1; omega
        rw [length_chunk, hfile.length]
        omega
      exact ⟨index', hmem', by omega, hlen', hacc' hlen'⟩

/-- A build with overflow checks, or a file of at most 4 GiB: when every delivered message is
sound, a download that finishes has put a file with the recorded length and hashes into
`resources/files`. -/
theorem download_integrity (env : Env) (h : InfoHash) (hh : h.WellFormed)
    (hov : env.overflowChecks = true ∨ h.fileLength.toNat ≤ 2 ^ 32) (numConnections : ℕ)
    (σ : Store) (hσ : Fresh σ h.name) (msgs : List (Message × Bool))
    (hs : ∀ m ∈ msgs, m.1.Sound env h (msgs.map Prod.fst)) :
    let D := runDownload env h numConnections σ (msgs.map fun m => .deliver m.1 m.2)
    D.loop = .finished →
      ∃ file, (download D.store h.name).file = some file ∧ Integrity env h file := by
  intro D hfin
  have hinv : IntegrityInv env h (msgs.map Prod.fst) D := by
    refine List.foldlRecOn _ _ ⟨rfl, ∅, ?_⟩ fun D hD e he => ?_
    · rw [hσ]
      exact progress_fresh h _
    · obtain ⟨m, hm, rfl⟩ := List.mem_map.mp he
      exact hD.step hh hov (List.mem_map_of_mem hm) (hs m hm) m.2
  simp only [IntegrityInv, hfin] at hinv
  obtain ⟨file, hd, hfile⟩ := hinv
  refine ⟨file, hd, hfile.integrity hh fun msg hmsg => ?_⟩
  obtain ⟨m, hm, rfl⟩ := List.mem_map.mp hmsg
  exact hs m hm

/-! ### A file of four bytes -/

/-- A debug build, with the SHA-1 of `abc` and `dbc`. -/
def abcdEnv : Env where
  sha1 bytes :=
    if bytes = [97, 98, 99] then
      ⟨[169, 153, 62, 54, 71, 6, 129, 106, 186, 62, 37, 113, 120, 80, 194, 108, 156, 208, 216, 157],
        rfl⟩
    else if bytes = [100, 98, 99] then
      ⟨[2, 4, 55, 126, 145, 104, 198, 119, 163, 157, 186, 255, 184, 87, 55, 205, 75, 244, 35, 122],
        rfl⟩
    else Digest.zero
  overflowChecks := true

/-- The info hash of the file `abcd` with pieces of three bytes. -/
def abcdHash : InfoHash where
  name := "abcd"
  fileLength := 4
  pieceLength := 3
  pieces := [⟨(abcdEnv.sha1 [97, 98, 99]).val⟩, ⟨(abcdEnv.sha1 [100, 98, 99]).val⟩]

/-- The two pieces of the file, the last one first. -/
def abcdMessages : List (Message × Bool) :=
  [(.piece 1 [100], true), (.piece 0 [97, 98, 99], true)]

theorem download_integrity_abcd :
    ∃ file, (download (runDownload abcdEnv abcdHash 1 ∅
        (abcdMessages.map fun m => .deliver m.1 m.2)).store "abcd").file = some file ∧
      Integrity abcdEnv abcdHash file := by
  refine download_integrity abcdEnv abcdHash ⟨by decide, by decide⟩ (.inl rfl) 1 ∅ rfl abcdMessages
    ?_ (by decide)
  intro m hm
  simp only [abcdMessages, List.mem_cons, List.not_mem_nil, or_false] at hm
  rcases hm with rfl | rfl
  · simp only [Message.Sound]
    rw [if_neg (by decide)]
    refine fun _ => ⟨by decide, by decide, fun before hbefore => ?_⟩
    obtain ⟨index', hmem, hindex', -⟩ := hbefore
    simp only [abcdMessages, List.map_cons, List.map_nil, List.mem_cons, Message.piece.injEq,
      List.not_mem_nil, or_false] at hmem
    rcases hmem with ⟨rfl, rfl⟩ | ⟨rfl, rfl⟩
    · exact absurd hindex' (by decide)
    · decide
  · simp only [Message.Sound]
    rw [if_pos (by decide)]
    exact fun _ => by decide

/-- Two payloads that no hash is compared with finish the download of the file of four bytes: the
built file has five. -/
theorem unchecked_payloads_are_built :
    let D := runDownload abcdEnv abcdHash 1 ∅
      [.deliver (.piece 0 [120]) true, .deliver (.piece 1 [121, 122]) true]
    Fresh ∅ abcdHash.name ∧ D.loop = .finished ∧
      ¬ ∃ file, (download D.store "abcd").file = some file ∧ Integrity abcdEnv abcdHash file := by
  refine ⟨rfl, by decide, ?_⟩
  rintro ⟨file, hfile, hlen, -⟩
  have hbuilt : (download (runDownload abcdEnv abcdHash 1 ∅ [.deliver (.piece 0 [120]) true,
      .deliver (.piece 1 [121, 122]) true]).store "abcd").file = some [120, 0, 0, 121, 122] := by
    decide
  rw [hbuilt] at hfile
  rw [← Option.some.inj hfile] at hlen
  exact absurd hlen (by decide)

end BearTorrent
