import BearTorrent.Client.Basic
import BearTorrent.Lib.BigEndian
import BearTorrent.Lib.Patch
import Mathlib.Algebra.Order.Floor.Div

/-!
# The info hash of a file

`InfoHash` is the client's `.torrent`: a file's name, its length, the length of its pieces and
their SHA-1 hashes. `getPieceHashes` reads the file through a buffer of one piece. The buffer is
not cleared between pieces and is hashed whole, so a short last piece is hashed together with the
bytes that the piece before it left behind, or with zeros when it is the only one.
-/

namespace BearTorrent

open Patch

structure PieceHash where
  hash : Bytes
  deriving DecidableEq, Repr

structure InfoHash where
  name : String
  fileLength : UInt64
  pieceLength : UInt32
  pieces : List PieceHash
  deriving DecidableEq, Repr

/-- The SHA-1 of the fields, by which the file is known to the server and to other clients. -/
def InfoHash.getHashedInfoHash (env : Env) (h : InfoHash) : Digest :=
  env.sha1 (BigEndian.toBytes 8 h.fileLength.toNat ++ BigEndian.toBytes 4 h.pieceLength.toNat ++
    h.name.toUTF8.data.toList ++ h.pieces.flatMap (·.hash))

/-- The SHA-1 of a piece. -/
def hashPieceData (env : Env) (buf : Bytes) : Digest := env.sha1 buf

/-- The length of the pieces of a file of `length` bytes. -/
def getPieceLength (length : UInt64) : UInt32 :=
  if length ≤ 67108864 then 65536
  else if length ≤ 536870912 then 262144
  else if length ≤ 1073741824 then 524288
  else 1048576

/-! ### Reading a file -/

/-- A reader over the rest of a file. The `n`-th call of `read` returns at most `sizes n` bytes,
but at least one while there is something left and room in the buffer. -/
structure Reader where
  rest : Bytes
  sizes : ℕ → ℕ
  calls : ℕ

/-- Read into a buffer that has room for `room` bytes. -/
def Reader.read (r : Reader) (room : ℕ) : Bytes × Reader :=
  let n := min room (max 1 (r.sizes r.calls))
  (r.rest.take n, { r with rest := r.rest.drop n, calls := r.calls + 1 })

/-- The inner loop of `get_piece_hashes`: read until the buffer is full or the file ends. Returns
the buffer and the number of bytes read into it. -/
def fillBuf (pieceLength : ℕ) (r : Reader) (buf : Bytes) (bytesRead : ℕ) :
    Bytes × ℕ × Reader :=
  if bytesRead < pieceLength then
    let (bytes, r') := r.read (pieceLength - bytesRead)
    if bytes.length = 0 then (buf, bytesRead, r')
    else
      let buf' := buf.take bytesRead ++ bytes ++ buf.drop (bytesRead + bytes.length)
      fillBuf pieceLength r' buf' (bytesRead + bytes.length)
  else (buf, bytesRead, r)
termination_by pieceLength - bytesRead

/-- A read takes the bytes off the front of the rest, none only at the end of the file. -/
lemma Reader.read_spec (r : Reader) (room : ℕ) (hroom : 0 < room) :
    (r.read room).1 ++ (r.read room).2.rest = r.rest ∧ (r.read room).1.length ≤ room ∧
      ((r.read room).1 = [] ↔ r.rest = []) := by
  simp only [Reader.read, List.take_append_drop, List.length_take, List.take_eq_nil_iff, true_and]
  refine ⟨by omega, ?_⟩
  constructor
  · rintro (h | h)
    · omega
    · exact h
  · exact Or.inr

/-- The loop fills the buffer from the front with what is left of the file; the rest of the buffer
stays as it was. -/
lemma fillBuf_eq (pieceLength : ℕ) (r : Reader) (buf : Bytes) (bytesRead : ℕ)
    (hle : bytesRead ≤ pieceLength) (hbuf : buf.length = pieceLength) :
    ∃ calls, fillBuf pieceLength r buf bytesRead =
      (buf.take bytesRead ++ r.rest.take (pieceLength - bytesRead) ++
          buf.drop (bytesRead + min (pieceLength - bytesRead) r.rest.length),
        bytesRead + min (pieceLength - bytesRead) r.rest.length,
        ⟨r.rest.drop (pieceLength - bytesRead), r.sizes, calls⟩) := by
  rw [fillBuf]
  by_cases hlt : bytesRead < pieceLength
  · obtain ⟨happ, hlen, hnil⟩ := r.read_spec (pieceLength - bytesRead) (by omega)
    simp only [hlt, if_true]
    by_cases hend : r.rest = []
    · refine ⟨r.calls + 1, ?_⟩
      simp [hend, Reader.read]
    · have hne : (r.read (pieceLength - bytesRead)).1 ≠ [] := fun h => hend (hnil.mp h)
      have hpos := List.length_pos_iff.mpr hne
      have hsizes : (r.read (pieceLength - bytesRead)).2.sizes = r.sizes := rfl
      generalize hbytes : (r.read (pieceLength - bytesRead)).1 = bytes at *
      generalize hr' : (r.read (pieceLength - bytesRead)).2 = r' at *
      obtain ⟨calls, ih⟩ := fillBuf_eq pieceLength r'
        (buf.take bytesRead ++ bytes ++ buf.drop (bytesRead + bytes.length))
        (bytesRead + bytes.length) (by omega)
        (by simp only [List.length_append, List.length_take, List.length_drop]; omega)
      refine ⟨calls, ?_⟩
      have htake : (buf.take bytesRead).length = bytesRead := by
        rw [List.length_take]; omega
      rw [if_neg (by omega), ih, ← happ, hsizes]
      simp only [Prod.mk.injEq, Reader.mk.injEq]
      refine ⟨?_, ?_, ?_, trivial, trivial⟩
      · have hfront : (buf.take bytesRead ++ bytes).length = bytesRead + bytes.length := by
          rw [List.length_append, htake]
        have hread : (bytes ++ r'.rest).take (pieceLength - bytesRead)
            = bytes ++ r'.rest.take (pieceLength - (bytesRead + bytes.length)) := by
          rw [List.take_append, List.take_of_length_le (by omega), Nat.sub_sub]
        have hcount : bytesRead + min (pieceLength - bytesRead) (bytes ++ r'.rest).length
            = bytesRead + bytes.length
              + min (pieceLength - (bytesRead + bytes.length)) r'.rest.length := by
          rw [List.length_append]; omega
        rw [List.take_left' hfront, hread, hcount, List.drop_append, hfront,
          List.drop_eq_nil_of_le (by omega)]
        simp only [Nat.add_sub_cancel_left, List.drop_drop, List.nil_append, List.append_assoc]
      · simp only [List.length_append]; omega
      · have hall : bytes.drop (pieceLength - bytesRead) = [] :=
          List.drop_eq_nil_of_le (by omega)
        rw [List.drop_append, hall, Nat.sub_sub, List.nil_append]
  · refine ⟨r.calls, ?_⟩
    obtain rfl : bytesRead = pieceLength := by omega
    simp [← hbuf]
termination_by pieceLength - bytesRead

/-- What leaves the reader is counted as read. -/
lemma fillBuf_conserves (pieceLength : ℕ) (r : Reader) (buf : Bytes) (bytesRead : ℕ) :
    (fillBuf pieceLength r buf bytesRead).2.2.rest.length
      + (fillBuf pieceLength r buf bytesRead).2.1 = r.rest.length + bytesRead := by
  fun_induction fillBuf pieceLength r buf bytesRead with
  | case1 r buf bytesRead hlt bytes r' hread hend =>
    have happ := (r.read_spec (pieceLength - bytesRead) (by omega)).1
    rw [hread, List.length_eq_zero_iff.mp hend, List.nil_append] at happ
    rw [happ]
  | case2 r buf bytesRead hlt bytes r' hread hend buf' ih =>
    have happ := (r.read_spec (pieceLength - bytesRead) (by omega)).1
    rw [hread] at happ
    rw [ih, ← happ, List.length_append, Nat.add_comm bytes.length, Nat.add_comm bytesRead,
      ← Nat.add_assoc]
  | case3 => rfl

/-- The outer loop of `get_piece_hashes`: fill the buffer and hash all of it, until nothing is
left to read. -/
def hashPieces (env : Env) (pieceLength : ℕ) (r : Reader) (buf : Bytes) (pieces : List Digest) :
    List Digest :=
  let filled := fillBuf pieceLength r buf 0
  if filled.2.1 = 0 then pieces
  else hashPieces env pieceLength filled.2.2 filled.1 (pieces ++ [hashPieceData env filled.1])
termination_by r.rest.length
decreasing_by
  rename_i hread
  have hread' : (fillBuf pieceLength r buf 0).2.1 ≠ 0 := hread
  have hconserves := fillBuf_conserves pieceLength r buf 0
  change (fillBuf pieceLength r buf 0).2.2.rest.length < r.rest.length
  omega

/-- The hashes of the pieces of the file that `r` reads. -/
def getPieceHashes (env : Env) (r : Reader) (pieceLength : ℕ) : List PieceHash :=
  (hashPieces env pieceLength r (List.replicate pieceLength 0) []).map fun piece => ⟨piece.val⟩

/-- The `InfoHash` that `InfoHash::new` computes for the file `name` with the given content, when
its reads return `sizes`. -/
def InfoHash.compute (env : Env) (name : String) (content : Bytes) (sizes : ℕ → ℕ) : InfoHash :=
  let fileLength := UInt64.ofNat content.length
  let pieceLength := getPieceLength fileLength
  { name
    fileLength
    pieceLength
    pieces := getPieceHashes env ⟨content, sizes, 0⟩ pieceLength.toNat }

/-! ### What is hashed -/

/-- The number of pieces of length `p` of a file of `length` bytes. -/
def numPieces (p length : ℕ) : ℕ := (length + p - 1) / p

/-- The buffer that is hashed for piece `i`: the piece, and behind a short last piece the end of
the piece before it, or zeros. -/
def hashedBuffer (p : ℕ) (content : Bytes) (i : ℕ) : Bytes :=
  let before := if i = 0 then List.replicate p 0 else chunk p content (i - 1)
  chunk p content i ++ before.drop (chunk p content i).length

/-- An info hash whose number of pieces fits its lengths. -/
structure InfoHash.WellFormed (h : InfoHash) : Prop where
  pieceLength_pos : 0 < h.pieceLength.toNat
  pieces_length : h.pieces.length = numPieces h.pieceLength.toNat h.fileLength.toNat

lemma lt_numPieces_iff {p : ℕ} (hp : 0 < p) (length i : ℕ) :
    i < numPieces p length ↔ i * p < length := by
  rw [numPieces, Nat.lt_iff_add_one_le, Nat.le_div_iff_mul_le hp, Nat.succ_mul]
  omega

/-- Every piece begins in the file. -/
lemma InfoHash.WellFormed.mul_lt {h : InfoHash} (hh : h.WellFormed) {i : ℕ}
    (hi : i < h.pieces.length) : i * h.pieceLength.toNat < h.fileLength.toNat := by
  rwa [← lt_numPieces_iff hh.pieceLength_pos, ← hh.pieces_length]

/-- A full piece is hashed alone. -/
lemma hashedBuffer_of_full {p : ℕ} {content : Bytes} {i : ℕ} (h : (i + 1) * p ≤ content.length) :
    hashedBuffer p content i = chunk p content i := by
  have hlen : (chunk p content i).length = p := by
    rw [length_chunk]; rw [Nat.succ_mul] at h; omega
  have hbefore : (if i = 0 then List.replicate p 0 else chunk p content (i - 1)).length ≤ p := by
    split_ifs
    · simp
    · rw [length_chunk]; exact Nat.min_le_left _ _
  simp [hashedBuffer, hlen, List.drop_eq_nil_of_le hbefore]

/-- The outer loop at piece `i`: the reader is at its start and the buffer holds the piece before
it. Induction on what is left of the file. -/
lemma hashPieces_eq (env : Env) {p : ℕ} (hp : 0 < p) (content : Bytes) (sizes : ℕ → ℕ)
    (i calls : ℕ) (hi : i * p ≤ content.length) :
    hashPieces env p ⟨content.drop (i * p), sizes, calls⟩
        (if i = 0 then List.replicate p 0 else chunk p content (i - 1))
        ((List.range i).map fun j => env.sha1 (hashedBuffer p content j))
      = (List.range (numPieces p content.length)).map fun j =>
          env.sha1 (hashedBuffer p content j) := by
  have hbefore : (if i = 0 then List.replicate p 0 else chunk p content (i - 1)).length = p := by
    split_ifs with h0
    · simp
    · obtain ⟨k, rfl⟩ := Nat.exists_eq_succ_of_ne_zero h0
      rw [Nat.succ_mul] at hi
      rw [length_chunk, Nat.succ_sub_one]
      omega
  obtain ⟨calls', hfill⟩ := fillBuf_eq p ⟨content.drop (i * p), sizes, calls⟩
    (if i = 0 then List.replicate p 0 else chunk p content (i - 1)) 0 (Nat.zero_le _) hbefore
  have hcount := lt_numPieces_iff hp content.length i
  rw [hashPieces, hfill]
  simp only [Nat.zero_add, Nat.sub_zero, List.take_zero, List.nil_append, List.length_drop,
    List.drop_drop]
  by_cases hend : content.length = i * p
  · have hn : numPieces p content.length = i := by
      rw [hend, numPieces, Nat.add_sub_assoc hp, Nat.mul_comm, Nat.mul_add_div hp,
        Nat.div_eq_of_lt (by omega), Nat.add_zero]
    simp [hn, ← hend]
  · have hbuf : (content.drop (i * p)).take p ++
          (if i = 0 then List.replicate p 0 else chunk p content (i - 1)).drop
            (min p (content.length - i * p)) = hashedBuffer p content i := by
      have hlen : (chunk p content i).length = min p (content.length - i * p) := length_chunk _ _ _
      rw [hashedBuffer, hlen]
      rfl
    rw [if_neg (by omega), hbuf]
    have hstep : (List.range i).map (fun j => env.sha1 (hashedBuffer p content j))
          ++ [hashPieceData env (hashedBuffer p content i)]
        = (List.range (i + 1)).map fun j => env.sha1 (hashedBuffer p content j) := by
      simp [List.range_succ, hashPieceData]
    rw [hstep, show i * p + p = (i + 1) * p from (Nat.succ_mul i p).symm]
    by_cases hfull : (i + 1) * p ≤ content.length
    · have hnext := hashPieces_eq env hp content sizes (i + 1) calls' hfull
      rw [if_neg (Nat.succ_ne_zero i), Nat.succ_sub_one] at hnext
      rw [hashedBuffer_of_full hfull]
      exact hnext
    · -- the last piece is short: the next fill reads nothing
      have hrest : content.drop ((i + 1) * p) = [] := List.drop_eq_nil_of_le (by omega)
      have hlen : (hashedBuffer p content i).length = p := by
        rw [← hbuf]
        simp only [List.length_append, List.length_take, List.length_drop, hbefore]
        omega
      obtain ⟨calls'', hfill'⟩ := fillBuf_eq p ⟨[], sizes, calls'⟩ (hashedBuffer p content i) 0
        (Nat.zero_le _) hlen
      have hn : numPieces p content.length = i + 1 := by
        have h₁ : ¬ i + 1 < numPieces p content.length := by
          rw [lt_numPieces_iff hp]; omega
        have h₂ : i < numPieces p content.length := hcount.mpr (by omega)
        omega
      rw [hrest, hashPieces, hfill', hn]
      simp
termination_by content.length - i * p
decreasing_by
  rw [Nat.succ_mul] at hfull ⊢
  omega

/-- The hashes do not depend on how the reads split the file. -/
theorem getPieceHashes_eq (env : Env) {p : ℕ} (hp : 0 < p) (content : Bytes) (sizes : ℕ → ℕ) :
    getPieceHashes env ⟨content, sizes, 0⟩ p
      = (List.range (numPieces p content.length)).map fun i =>
          ⟨(env.sha1 (hashedBuffer p content i)).val⟩ := by
  have h := hashPieces_eq env hp content sizes 0 0 (by simp)
  simp only [Nat.zero_mul, List.drop_zero, if_true, List.range_zero, List.map_nil] at h
  rw [getPieceHashes, h, List.map_map]
  rfl

/-- However the reads split the file, the loops end with one hash for each piece, and that of a full
piece is the SHA-1 of its bytes. -/
theorem getPieceHashes_any_reads (env : Env) {p : ℕ} (hp : 1 ≤ p) (content : Bytes)
    (sizes sizes' : ℕ → ℕ) :
    (getPieceHashes env ⟨content, sizes, 0⟩ p).length = content.length ⌈/⌉ p ∧
      getPieceHashes env ⟨content, sizes, 0⟩ p = getPieceHashes env ⟨content, sizes', 0⟩ p ∧
      ∀ i, (i + 1) * p ≤ content.length →
        (getPieceHashes env ⟨content, sizes, 0⟩ p)[i]?
          = some ⟨(hashPieceData env ((content.drop (i * p)).take p)).val⟩ := by
  rw [getPieceHashes_eq env hp content sizes, getPieceHashes_eq env hp content sizes']
  refine ⟨?_, rfl, fun i hi => ?_⟩
  · rw [List.length_map, List.length_range, numPieces, Nat.ceilDiv_eq_add_pred_div]
  · have hlt : i < numPieces p content.length := by
      rw [lt_numPieces_iff hp]
      rw [Nat.succ_mul] at hi
      omega
    rw [List.getElem?_map, List.getElem?_range hlt, Option.map_some, hashedBuffer_of_full hi]
    rfl

/-- A file of two pieces and a byte, read whole and byte by byte. -/
theorem getPieceHashes_any_reads_five :
    let env : Env := ⟨fun _ => Digest.zero, true⟩
    (getPieceHashes env ⟨[1, 2, 3, 4, 5], fun _ => 5, 0⟩ 2).length = [1, 2, 3, 4, 5].length ⌈/⌉ 2 ∧
      getPieceHashes env ⟨[1, 2, 3, 4, 5], fun _ => 5, 0⟩ 2
        = getPieceHashes env ⟨[1, 2, 3, 4, 5], fun _ => 1, 0⟩ 2 ∧
      ∀ i, (i + 1) * 2 ≤ [1, 2, 3, 4, 5].length →
        (getPieceHashes env ⟨[1, 2, 3, 4, 5], fun _ => 5, 0⟩ 2)[i]?
          = some ⟨(hashPieceData env (([1, 2, 3, 4, 5].drop (i * 2)).take 2)).val⟩ :=
  getPieceHashes_any_reads _ (by decide) _ _ _

/-! ### The computed info hash -/

lemma getPieceLength_pos (length : UInt64) : 0 < (getPieceLength length).toNat := by
  rw [getPieceLength]
  split_ifs <;> decide

/-- A piece has between 64 KiB and 1 MiB. -/
lemma getPieceLength_bounds (length : UInt64) :
    65536 ≤ (getPieceLength length).toNat ∧ (getPieceLength length).toNat ≤ 1048576 := by
  rw [getPieceLength]
  split_ifs <;> decide

section Compute

variable (env : Env) (name : String) (content : Bytes) (sizes : ℕ → ℕ)

lemma compute_pieceLength : (InfoHash.compute env name content sizes).pieceLength
    = getPieceLength (UInt64.ofNat content.length) := rfl

lemma compute_pieceLength_pos : 0 < (InfoHash.compute env name content sizes).pieceLength.toNat :=
  getPieceLength_pos _

lemma compute_fileLength (h : content.length < 2 ^ 64) :
    (InfoHash.compute env name content sizes).fileLength.toNat = content.length :=
  UInt64.toNat_ofNat_of_lt' h

lemma compute_pieces :
    (InfoHash.compute env name content sizes).pieces
      = (List.range (numPieces (InfoHash.compute env name content sizes).pieceLength.toNat
            content.length)).map fun i =>
          ⟨(env.sha1 (hashedBuffer (InfoHash.compute env name content sizes).pieceLength.toNat
            content i)).val⟩ :=
  getPieceHashes_eq env (getPieceLength_pos _) content sizes

lemma compute_pieces_length :
    (InfoHash.compute env name content sizes).pieces.length
      = numPieces (InfoHash.compute env name content sizes).pieceLength.toNat content.length := by
  rw [compute_pieces]
  simp

lemma compute_wellFormed (h : content.length < 2 ^ 64) :
    (InfoHash.compute env name content sizes).WellFormed where
  pieceLength_pos := compute_pieceLength_pos env name content sizes
  pieces_length := by rw [compute_pieces_length, compute_fileLength env name content sizes h]

end Compute

end BearTorrent
