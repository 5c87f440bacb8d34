import BearTorrent.Client.FileStore

/-!
# Served pieces

What `read_piece_from_file` returns for a file whose info hash was computed, and how it compares
with the hash that `InfoHash::new` records for the piece. The two cut the file alike, but a short
last piece is recorded with the rest of the buffer and served without it.
-/

namespace BearTorrent

open Patch FileSystem

/-! ### The pieces of a computed info hash -/

section Compute

variable {env : Env} {name : String} {content : Bytes} {sizes : ℕ → ℕ} {h : InfoHash}
  {index : UInt32}

/-- A piece begins in the file. -/
lemma mul_pieceLength_lt (hh : h = InfoHash.compute env name content sizes)
    (hindex : index.toNat < h.pieces.length) :
    index.toNat * h.pieceLength.toNat < content.length := by
  subst hh
  rwa [compute_pieces_length, lt_numPieces_iff (compute_pieceLength_pos ..)] at hindex

/-- A piece can be read from every copy of the file that reaches to its end. -/
lemma readPiece_compute (hh : h = InfoHash.compute env name content sizes)
    (hsize : content.length ≤ 2 ^ 32) (hindex : index.toNat < h.pieces.length) (copy : Bytes) :
    readPiece env h index copy =
      if index.toNat * h.pieceLength.toNat
          + (chunk h.pieceLength.toNat content index.toNat).length ≤ copy.length then
        .ok (slice copy (index.toNat * h.pieceLength.toNat)
          (chunk h.pieceLength.toNat content index.toNat).length)
      else .error (.err "failed to fill whole buffer") := by
  have hlt := mul_pieceLength_lt hh hindex
  have hfile : h.fileLength.toNat = content.length := by
    rw [hh, compute_fileLength env name content sizes (by omega)]
  have hwf : h.WellFormed := hh ▸ compute_wellFormed env name content sizes (by omega)
  rw [readPiece_eq env h hwf hindex (by omega), hfile, length_chunk]

/-- The piece of the unchanged file is read. -/
lemma readPiece_original (hh : h = InfoHash.compute env name content sizes)
    (hsize : content.length ≤ 2 ^ 32) (hindex : index.toNat < h.pieces.length) :
    readPiece env h index content = .ok (chunk h.pieceLength.toNat content index.toNat) := by
  have hlt := mul_pieceLength_lt hh hindex
  have hchunk := length_chunk h.pieceLength.toNat content index.toNat
  rw [readPiece_compute hh hsize hindex, if_pos (by omega), hchunk, slice_min]
  rfl

/-- The unchanged file is served piece by piece. -/
lemma runOn_readPieceFromFile_original (hh : h = InfoHash.compute env name content sizes)
    (hsize : content.length ≤ 2 ^ 32) {σ : Store} (hσ : σ.lookup (filePath name) = some content)
    (hindex : index.toNat < h.pieces.length) :
    runOn (readPieceFromFile env h index) σ
      = (.ok (chunk h.pieceLength.toNat content index.toNat), σ) := by
  have hname : h.name = name := by rw [hh]; rfl
  rw [runOn_readPieceFromFile_eq, hname, touch_of_lookup hσ, hσ, Option.getD_some,
    readPiece_original hh hsize hindex]

/-- The hash that is recorded for a piece. -/
lemma recorded_hash (hh : h = InfoHash.compute env name content sizes)
    (hindex : index.toNat < h.pieces.length) :
    h.pieces[index.toNat]?
      = some ⟨(env.sha1 (hashedBuffer h.pieceLength.toNat content index.toNat)).val⟩ := by
  have hpieces := compute_pieces env name content sizes
  have hcount := compute_pieces_length env name content sizes
  rw [← hh] at hpieces hcount
  rw [hpieces, List.getElem?_map, List.getElem?_range (by rw [← hcount]; exact hindex)]
  rfl

/-- The buffer that is hashed is always a whole one. -/
lemma length_hashedBuffer {p : ℕ} {i : ℕ} (hi : i * p ≤ content.length) :
    (hashedBuffer p content i).length = p := by
  have hbefore : (if i = 0 then List.replicate p 0 else chunk p content (i - 1)).length = p := by
    split_ifs with h0
    · simp
    · obtain ⟨k, rfl⟩ := Nat.exists_eq_succ_of_ne_zero h0
      rw [Nat.succ_mul] at hi
      rw [length_chunk, Nat.succ_sub_one]
      omega
  have hchunk := length_chunk p content i
  rw [hashedBuffer, List.length_append, List.length_drop, hbefore]
  omega

/-- Two byte strings that SHA-1 does not tell apart. -/
def Collide (env : Env) (a b : Bytes) : Prop := a ≠ b ∧ env.sha1 a = env.sha1 b

/-- A piece that is served has the advertised hash exactly when it is a full one, collisions of
SHA-1 apart. -/
theorem served_piece_matches_iff (hh : h = InfoHash.compute env name content sizes)
    (hsize : content.length ≤ 2 ^ 32) {σ : Store} (hσ : σ.lookup (filePath name) = some content)
    (hindex : index.toNat < h.pieces.length) :
    ∃ piece, runOn (readPieceFromFile env h index) σ = (.ok piece, σ) ∧
      (h.pieces[index.toNat]? = some ⟨(hashPieceData env piece).val⟩ ↔
        (index.toNat + 1) * h.pieceLength.toNat ≤ content.length ∨
          Collide env piece (hashedBuffer h.pieceLength.toNat content index.toNat)) := by
  have hlt := mul_pieceLength_lt hh hindex
  refine ⟨chunk h.pieceLength.toNat content index.toNat, ?_, ?_⟩
  · exact runOn_readPieceFromFile_original hh hsize hσ hindex
  · rw [recorded_hash hh hindex, Option.some.injEq, PieceHash.mk.injEq, Subtype.val_inj,
      hashPieceData, Collide]
    by_cases hfull : (index.toNat + 1) * h.pieceLength.toNat ≤ content.length
    · simp only [hashedBuffer_of_full hfull, hfull, true_or]
    · have hchunk := length_chunk h.pieceLength.toNat content index.toNat
      have hbuffer := length_hashedBuffer (p := h.pieceLength.toNat) hlt.le
      have hne : chunk h.pieceLength.toNat content index.toNat
          ≠ hashedBuffer h.pieceLength.toNat content index.toNat := by
        intro heq
        rw [Nat.succ_mul] at hfull
        have := congrArg List.length heq
        omega
      constructor
      · intro heq
        exact .inr ⟨hne, heq.symm⟩
      · rintro (h | ⟨-, heq⟩)
        · exact absurd h hfull
        · exact heq.symm

end Compute

/-- The letter `a` at the front of `n` zeros. -/
def padded (n : ℕ) : Bytes := 97 :: List.replicate n 0

lemma hashedBuffer_letter (n : ℕ) : hashedBuffer (n + 1) [97] 0 = padded n := by
  simp [hashedBuffer, chunk, slice, padded]

lemma padded_ne (n : ℕ) : padded (n + 1) ≠ [97] := by simp [padded, List.replicate_succ]

/-- SHA-1 of the letter `a`. -/
def letterDigest : Digest :=
  ⟨[134, 247, 228, 55, 250, 165, 167, 252, 225, 93, 29, 220, 185, 234, 234, 234, 55, 118, 103, 184],
    rfl⟩

/-- SHA-1 of the letter `a` and 65535 zeros. -/
def paddedDigest : Digest :=
  ⟨[232, 239, 143, 30, 151, 182, 21, 50, 64, 24, 228, 52, 194, 112, 183, 64, 127, 221, 117, 32],
    rfl⟩

/-- SHA-1 of the letter, alone and padded to a whole piece. -/
def letterEnv : Env where
  sha1 bytes :=
    if bytes = [97] then letterDigest
    else if bytes = padded 65535 then paddedDigest
    else Digest.zero
  overflowChecks := true

lemma sha1_letter : letterEnv.sha1 [97] = letterDigest := by simp only [letterEnv, if_true]

lemma sha1_padded : letterEnv.sha1 (padded 65535) = paddedDigest := by
  have hne : padded 65535 ≠ [97] := padded_ne 65534
  simp only [letterEnv, if_neg hne, if_true]

/-- The info hash of a file that holds the letter `a`. -/
def letterHash : InfoHash := InfoHash.compute letterEnv "a" [97] fun _ => 65536

/-- The disk with that file. -/
def letterStore : Store := AList.insert (filePath "a") [97] ∅

lemma letterStore_file : letterStore.lookup (filePath "a") = some [97] := AList.lookup_insert _

lemma letterHash_pieces : letterHash.pieces.length = 1 := by
  rw [letterHash, compute_pieces_length]
  rfl

theorem served_piece_matches_iff_letter :
    ∃ piece, runOn (readPieceFromFile letterEnv letterHash 0) letterStore
        = (.ok piece, letterStore) ∧
      (letterHash.pieces[0]? = some ⟨(hashPieceData letterEnv piece).val⟩ ↔
        (0 + 1) * 65536 ≤ 1 ∨ Collide letterEnv piece (hashedBuffer 65536 [97] 0)) :=
  served_piece_matches_iff (h := letterHash) rfl (by decide) letterStore_file
    (by rw [letterHash_pieces]; decide)

/-- The only piece of the file is advertised with the hash of the letter and 65535 zeros, and
served as the letter alone. -/
theorem short_piece_mismatch :
    0 < letterHash.pieces.length ∧
      ∃ piece, runOn (readPieceFromFile letterEnv letterHash 0) letterStore
          = (.ok piece, letterStore) ∧
        letterHash.pieces[0]? ≠ some ⟨(hashPieceData letterEnv piece).val⟩ := by
  have hindex : (0 : UInt32).toNat < letterHash.pieces.length := by
    rw [letterHash_pieces]
    decide
  refine ⟨hindex, chunk 65536 [97] 0,
    runOn_readPieceFromFile_original rfl (by decide) letterStore_file hindex, ?_⟩
  have hpiece : chunk 65536 ([97] : Bytes) 0 = [97] := rfl
  have hrecorded : letterHash.pieces[0]?
      = some ⟨(letterEnv.sha1 (hashedBuffer 65536 [97] 0)).val⟩ :=
    recorded_hash (h := letterHash) rfl hindex
  rw [hrecorded, hashedBuffer_letter 65535, hpiece, hashPieceData, sha1_letter, sha1_padded]
  decide

end BearTorrent
