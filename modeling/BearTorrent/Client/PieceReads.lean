import BearTorrent.Client.ServedPieces

/-!
# Reading a piece at any index

`read_piece_from_file` is called with an index that a peer has sent. It multiplies the index with
the length of a piece in 32 bits and takes the product for an offset, so a product that does not
fit panics, or leads to another place of the file.
-/

namespace BearTorrent

open Patch FileSystem

/-- Where a piece begins, as it is computed without overflow checks. -/
def wrappedOffset (h : InfoHash) (index : UInt32) : ℕ :=
  index.toNat * h.pieceLength.toNat % 2 ^ 32

/-- The number of bytes of a piece of a file of `length` bytes. -/
def pieceSize (h : InfoHash) (length : ℕ) (index : UInt32) : ℕ :=
  min ((index.toNat + 1) * h.pieceLength.toNat) length - index.toNat * h.pieceLength.toNat

lemma pieceSize_eq (h : InfoHash) (length : ℕ) (index : UInt32) :
    pieceSize h length index
      = min h.pieceLength.toNat (length - index.toNat * h.pieceLength.toNat) := by
  rw [pieceSize, Nat.succ_mul]
  omega

lemma wrappedOffset_le (h : InfoHash) (index : UInt32) :
    wrappedOffset h index ≤ index.toNat * h.pieceLength.toNat := Nat.mod_le _ _

lemma wrappedOffset_of_lt {h : InfoHash} {index : UInt32}
    (hoff : index.toNat * h.pieceLength.toNat < 2 ^ 32) :
    wrappedOffset h index = index.toNat * h.pieceLength.toNat := Nat.mod_eq_of_lt hoff

lemma toNat_pieceLength_mul (h : InfoHash) (index : UInt32) :
    (h.pieceLength * index).toNat = wrappedOffset h index := by
  rw [UInt32.toNat_mul, Nat.mul_comm]
  rfl

/-- What comes of reading a piece: its bytes, and nothing for an index that is out of range. -/
structure ReadsPiece (h : InfoHash) (content : Bytes) (index : UInt32)
    (result : Except Fault Bytes) : Prop where
  ok_iff : (∃ piece, result = .ok piece) ↔ index.toNat < h.pieces.length
  bytes : ∀ piece, result = .ok piece → piece =
    slice content (index.toNat * h.pieceLength.toNat) (pieceSize h content.length index)

/-- The offset fits in 32 bits, or it does no harm that it does not: the file holds the same bytes
at the offset that is left, or nothing is read for an index that is out of range. -/
structure ReadOffsetHarmless (env : Env) (h : InfoHash) (content : Bytes) (index : UInt32) :
    Prop where
  inside : index.toNat < h.pieces.length → 2 ^ 32 ≤ index.toNat * h.pieceLength.toNat →
    env.overflowChecks = false ∧
      slice content (wrappedOffset h index) (pieceSize h content.length index)
        = slice content (index.toNat * h.pieceLength.toNat) (pieceSize h content.length index)
  outside : h.pieces.length ≤ index.toNat → 2 ^ 32 ≤ index.toNat * h.pieceLength.toNat →
    env.overflowChecks = true ∨ content.length < wrappedOffset h index + h.pieceLength.toNat

section Read

variable (env : Env) {h : InfoHash} {index : UInt32} {length : ℕ}

/-- A product that is too large for 32 bits panics on a build that checks it. -/
lemma readPiece_overflow (henv : env.overflowChecks = true)
    (hoff : 2 ^ 32 ≤ index.toNat * h.pieceLength.toNat)
    (hlength : readLength env h index = .ok length) (hsmall : length < 2 ^ 63) (content : Bytes) :
    readPiece env h index content = .error .panic := by
  have hmul : mulU32 env h.pieceLength index = .error .panic :=
    mulU32_overflow henv (by rwa [Nat.mul_comm])
  rw [readPiece, hlength]
  simp only [bind, Except.bind]
  rw [if_neg (Nat.not_le.mpr hsmall), hmul]

/-- Otherwise the bytes at the wrapped offset are read. -/
lemma readPiece_wrapped
    (hoff : index.toNat * h.pieceLength.toNat < 2 ^ 32 ∨ env.overflowChecks = false)
    (hlength : readLength env h index = .ok length) (hpos : 0 < length) (hsmall : length < 2 ^ 63)
    (content : Bytes) :
    readPiece env h index content =
      if wrappedOffset h index + length ≤ content.length then
        .ok (slice content (wrappedOffset h index) length)
      else .error (.err "failed to fill whole buffer") := by
  have hmul : mulU32 env h.pieceLength index = .ok (h.pieceLength * index) := by
    rcases hoff with hoff | henv
    · exact mulU32_of_lt env (by rwa [Nat.mul_comm])
    · exact mulU32_of_unchecked henv _ _
  rw [readPiece, hlength]
  simp only [bind, Except.bind]
  rw [if_neg (Nat.not_le.mpr hsmall), hmul]
  simp only [pure, Except.pure, toNat_pieceLength_mul]
  congr 1
  exact propext (or_iff_right hpos.ne')

/-- For an index behind the last piece, the length of a full piece is read. -/
lemma readLength_of_le (hpieces : 0 < h.pieces.length) (hindex : h.pieces.length ≤ index.toNat) :
    readLength env h index = .ok h.pieceLength.toNat := by
  rw [readLength, subUsize_of_le env hpieces]
  simp only [bind, Except.bind]
  rw [if_neg (by omega)]
  rfl

end Read

section Compute

variable {env : Env} {name : String} {content : Bytes} {sizes : ℕ → ℕ} {h : InfoHash}
  {index : UInt32}

/-- A piece is read right exactly when its offset does no harm. -/
lemma readsPiece_iff_of_lt (hh : h = InfoHash.compute env name content sizes)
    (hsize : content.length < 2 ^ 64) (hindex : index.toNat < h.pieces.length) :
    ReadsPiece h content index (readPiece env h index content) ↔
      ReadOffsetHarmless env h content index := by
  have hwf : h.WellFormed := hh ▸ compute_wellFormed env name content sizes hsize
  have hlt := mul_pieceLength_lt hh hindex
  have hpl : h.pieceLength.toNat < 2 ^ 32 := h.pieceLength.toNat_lt
  have hpos := hwf.pieceLength_pos
  have hfile : h.fileLength.toNat = content.length := by
    rw [hh, compute_fileLength env name content sizes hsize]
  have hlength := readLength_eq env h hwf hindex
  rw [hfile, ← pieceSize_eq] at hlength
  have hpiece := pieceSize_eq h content.length index
  have hle := wrappedOffset_le h index
  rcases Nat.lt_or_ge (index.toNat * h.pieceLength.toNat) (2 ^ 32) with hoff | hoff
  · rw [readPiece_wrapped env (.inl hoff) hlength (by omega) (by omega), if_pos (by omega),
      wrappedOffset_of_lt hoff]
    constructor
    · intro _
      exact ⟨fun _ hover => by omega, fun hout => by omega⟩
    · intro _
      refine ⟨⟨fun _ => hindex, fun _ => ⟨_, rfl⟩⟩, ?_⟩
      rintro piece ⟨⟩
      rfl
  · cases hchecks : env.overflowChecks with
    | true =>
      rw [readPiece_overflow env hchecks hoff hlength (by omega)]
      constructor
      · intro hread
        obtain ⟨piece, hpiece⟩ := hread.ok_iff.mpr hindex
        cases hpiece
      · intro hharmless
        have hunchecked := (hharmless.inside hindex hoff).1
        rw [hchecks] at hunchecked
        cases hunchecked
    | false =>
      rw [readPiece_wrapped env (.inr hchecks) hlength (by omega) (by omega), if_pos (by omega)]
      constructor
      · intro hread
        exact ⟨fun _ _ => ⟨hchecks, hread.bytes _ rfl⟩, fun hout => by omega⟩
      · intro hharmless
        refine ⟨⟨fun _ => hindex, fun _ => ⟨_, rfl⟩⟩, ?_⟩
        rintro piece ⟨⟩
        exact (hharmless.inside hindex hoff).2

/-- For an index that is out of range nothing is read exactly when its offset does no harm. -/
lemma readsPiece_iff_of_le (hh : h = InfoHash.compute env name content sizes)
    (hpos : 0 < content.length) (hindex : h.pieces.length ≤ index.toNat) :
    ReadsPiece h content index (readPiece env h index content) ↔
      ReadOffsetHarmless env h content index := by
  have hpieceLength : 0 < h.pieceLength.toNat := hh ▸ compute_pieceLength_pos ..
  have hpl : h.pieceLength.toNat < 2 ^ 32 := h.pieceLength.toNat_lt
  have hcount : h.pieces.length = numPieces h.pieceLength.toNat content.length := by
    rw [hh, compute_pieces_length]
  have hpieces : 0 < h.pieces.length := by
    rw [hcount, lt_numPieces_iff hpieceLength]
    omega
  have hbehind : content.length ≤ index.toNat * h.pieceLength.toNat := by
    rw [hcount] at hindex
    by_contra hlt
    have := (lt_numPieces_iff hpieceLength content.length index.toNat).mpr (by omega)
    omega
  have hlength := readLength_of_le env hpieces hindex
  have hnot {result : Except Fault Bytes} :
      ReadsPiece h content index result ↔ ¬ ∃ piece, result = .ok piece := by
    constructor
    · intro hread hok
      have := hread.ok_iff.mp hok
      omega
    · intro hok
      exact ⟨⟨fun h => absurd h hok, fun hlt => by omega⟩, fun piece hp => absurd ⟨piece, hp⟩ hok⟩
  rw [hnot]
  rcases Nat.lt_or_ge (index.toNat * h.pieceLength.toNat) (2 ^ 32) with hoff | hoff
  · rw [readPiece_wrapped env (.inl hoff) hlength (by omega) (by omega), wrappedOffset_of_lt hoff,
      if_neg (by omega)]
    constructor
    · intro _
      exact ⟨fun hin => by omega, fun _ hover => by omega⟩
    · rintro _ ⟨piece, ⟨⟩⟩
  · cases hchecks : env.overflowChecks with
    | true =>
      rw [readPiece_overflow env hchecks hoff hlength (by omega)]
      constructor
      · intro _
        exact ⟨fun hin => by omega, fun _ _ => .inl hchecks⟩
      · rintro _ ⟨piece, ⟨⟩⟩
    | false =>
      rw [readPiece_wrapped env (.inr hchecks) hlength (by omega) (by omega)]
      split_ifs with hin
      · constructor
        · intro hok
          exact absurd ⟨_, rfl⟩ hok
        · intro hharmless
          rcases hharmless.outside hindex hoff with htrue | hlt
          · rw [hchecks] at htrue
            cases htrue
          · omega
      · constructor
        · intro _
          exact ⟨fun hin => by omega, fun _ _ => .inr (by omega)⟩
        · rintro _ ⟨piece, ⟨⟩⟩

/-- Whatever index a peer asks for, the unchanged file is read right exactly when the 32-bit offset
does no harm. -/
theorem readPieceFromFile_exact_iff (hh : h = InfoHash.compute env name content sizes)
    (hpos : 0 < content.length) (hsize : content.length < 2 ^ 64) {σ : Store}
    (hσ : σ.lookup (filePath name) = some content) (index : UInt32) :
    ReadsPiece h content index (runOn (readPieceFromFile env h index) σ).1 ↔
      ReadOffsetHarmless env h content index := by
  have hname : h.name = name := by rw [hh]; rfl
  rw [runOn_readPieceFromFile_eq, hname, hσ, Option.getD_some]
  rcases Nat.lt_or_ge index.toNat h.pieces.length with hindex | hindex
  · exact readsPiece_iff_of_lt hh hsize hindex
  · exact readsPiece_iff_of_le hh hpos hindex

end Compute

theorem readPieceFromFile_exact_iff_letter :
    ReadsPiece letterHash [97] 0 (runOn (readPieceFromFile letterEnv letterHash 0) letterStore).1 ↔
      ReadOffsetHarmless letterEnv letterHash [97] 0 :=
  readPieceFromFile_exact_iff (h := letterHash) rfl (by decide) (by decide) letterStore_file 0

/-! ### A file that is longer than 4 GiB -/

/-- A one and so many zeros. -/
def longContent (zeros : ℕ) : Bytes := 1 :: List.replicate zeros 0

lemma length_longContent (zeros : ℕ) : (longContent zeros).length = zeros + 1 := by
  rw [longContent, List.length_cons, List.length_replicate]

lemma slice_longContent_zero (zeros : ℕ) : slice (longContent zeros) 0 1 = [1] := rfl

lemma slice_longContent_last {zeros : ℕ} (h : 0 < zeros) :
    slice (longContent zeros) zeros 1 = [0] := by
  obtain ⟨n, rfl⟩ := Nat.exists_eq_add_of_lt h
  rw [Nat.zero_add, slice, longContent, List.drop_succ_cons, List.drop_replicate,
    Nat.add_sub_cancel_left]
  rfl

/-- The info hash of a file of 4 GiB and a byte. -/
def longHash (env : Env) : InfoHash := .compute env "long" (longContent (2 ^ 32)) fun _ => 65536

lemma longHash_pieceLength (env : Env) : (longHash env).pieceLength = 1048576 := by
  rw [longHash, compute_pieceLength, length_longContent]
  decide

lemma longHash_pieces (env : Env) : (longHash env).pieces.length = 4097 := by
  rw [longHash, compute_pieces_length, ← longHash, longHash_pieceLength, length_longContent]
  decide

/-! The last piece has one byte, and its offset is the first that does not fit into 32 bits. -/

lemma longHash_index (env : Env) : (4096 : UInt32).toNat < (longHash env).pieces.length := by
  rw [longHash_pieces]
  decide

lemma longHash_offset (env : Env) :
    (4096 : UInt32).toNat * (longHash env).pieceLength.toNat = 2 ^ 32 := by
  rw [longHash_pieceLength]
  decide

lemma longHash_pieceSize (env : Env) :
    pieceSize (longHash env) (longContent (2 ^ 32)).length 4096 = 1 := by
  rw [pieceSize_eq, longHash_offset, longHash_pieceLength, length_longContent]
  decide

/-- A folder with such a file. -/
def longStore : Store := AList.insert (filePath "long") (longContent (2 ^ 32)) ∅

/-- The last byte of the file cannot be read: on one build the product of index and length panics,
on the other it wraps to zero, and the first byte is read. -/
lemma not_readsPiece_long (env : Env) :
    ¬ ReadsPiece (longHash env) (longContent (2 ^ 32)) 4096
      (runOn (readPieceFromFile env (longHash env) 4096) longStore).1 := by
  intro hread
  have hindex := longHash_index env
  have hσ : longStore.lookup (filePath (longHash env).name) = some (longContent (2 ^ 32)) :=
    AList.lookup_insert _
  have hsize : (longContent (2 ^ 32)).length < 2 ^ 64 := by
    rw [length_longContent]
    decide
  rw [runOn_readPieceFromFile_eq, hσ, Option.getD_some] at hread
  have hharmless := (readsPiece_iff_of_lt (h := longHash env) rfl hsize hindex).mp hread
  have hproduct := longHash_offset env
  have hwrapped : wrappedOffset (longHash env) 4096 = 0 := by
    rw [wrappedOffset, hproduct]
    decide
  obtain ⟨-, hslice⟩ := hharmless.inside hindex hproduct.ge
  rw [longHash_pieceSize, hwrapped, hproduct, slice_longContent_zero,
    slice_longContent_last (by decide)] at hslice
  exact absurd hslice (by decide)

theorem last_piece_of_long_file_misread :
    let debug : Env := ⟨fun _ => Digest.zero, true⟩
    let release : Env := ⟨fun _ => Digest.zero, false⟩
    (4096 < (longHash debug).pieces.length ∧
      ¬ ReadsPiece (longHash debug) (longContent (2 ^ 32)) 4096
        (runOn (readPieceFromFile debug (longHash debug) 4096) longStore).1) ∧
    4096 < (longHash release).pieces.length ∧
      ¬ ReadsPiece (longHash release) (longContent (2 ^ 32)) 4096
        (runOn (readPieceFromFile release (longHash release) 4096) longStore).1 :=
  ⟨⟨longHash_index _, not_readsPiece_long _⟩, longHash_index _, not_readsPiece_long _⟩

end BearTorrent
