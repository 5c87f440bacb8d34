import BearTorrent.Client.FileAssembler
import BearTorrent.Client.FileStore
import Mathlib.Data.Finset.Range

/-!
# Reassembling a file

The life of one download: `reassemble_loop` takes the messages that the connections deliver, and
the process may be restarted between two of them, which leaves only what is on disk.

`Progress` is the invariant of the files of a download that no accepted payload has broken:
exactly the pieces of a set `W` have been written, and the payload of each satisfies a predicate.
-/

namespace BearTorrent

open Patch

/-- What happens to a download: a message is delivered, while the channel to `send_requests` is
open or not, or the process is restarted and connects to some peers. -/
inductive DownloadEvent where
  | deliver (msg : Message) (resendOpen : Bool)
  | restart (numConnections : ℕ)

/-- A download: the files on disk and the loop. -/
structure DownloadState where
  store : Store
  loop : LoopState

/-- A loop that has ended receives nothing; a restart begins a new one. -/
def DownloadState.step (env : Env) (h : InfoHash) (d : DownloadState) :
    DownloadEvent → DownloadState
  | .deliver msg resendOpen =>
    match d.loop with
    | .running a =>
      match runOn (reassembleMessage env resendOpen a msg) d.store with
      | (.ok loop, store)     => ⟨store, loop⟩
      | (.error fault, store) => ⟨store, .failed fault⟩
    | .finished => d
    | .failed _ => d
  | .restart numConnections => ⟨d.store, .running (.new h numConnections)⟩

/-- A download that begins with `numConnections` connections and the files `σ`. -/
def runDownload (env : Env) (h : InfoHash) (numConnections : ℕ) (σ : Store)
    (events : List DownloadEvent) : DownloadState :=
  events.foldl (DownloadState.step env h) ⟨σ, .running (.new h numConnections)⟩

/-- Nothing is on disk under the name. -/
def Fresh (σ : Store) (name : String) : Prop := download σ name = ⟨none, none, none⟩

/-- The length of piece `i` of the file that an info hash describes. -/
def InfoHash.pieceLen (h : InfoHash) (i : ℕ) : ℕ :=
  min h.pieceLength.toNat (h.fileLength.toNat - i * h.pieceLength.toNat)

/-! ### The invariant of the files -/

/-- Exactly the pieces in `W` are marked as written, and the file is not built. -/
structure Written (h : InfoHash) (d : Download) (W : Finset ℕ) : Prop where
  file : d.file = none
  subset : ∀ i ∈ W, i < h.pieces.length
  status_length : (d.status h.pieces.length).length = h.pieces.length
  status : ∀ i < h.pieces.length,
    (d.status h.pieces.length)[i]? = some (if i ∈ W then 1 else 0)

/-- Exactly the pieces in `W` are written, each with a payload that `Good` allows. -/
structure Progress (h : InfoHash) (Good : ℕ → Bytes → Prop) (d : Download) (W : Finset ℕ) : Prop
    extends Written h d W where
  content_length : d.content.length ≤ h.fileLength.toNat
  chunk_length : ∀ i ∈ W, (chunk h.pieceLength.toNat d.content i).length = h.pieceLen i
  good : ∀ i ∈ W, Good i (chunk h.pieceLength.toNat d.content i)

variable {h : InfoHash} {Good : ℕ → Bytes → Prop} {d : Download} {W : Finset ℕ}

lemma written_fresh (h : InfoHash) : Written h ⟨none, none, none⟩ ∅ where
  file := rfl
  subset := by simp
  status_length := by simp [Download.status]
  status i hi := by simp [Download.status, hi]

lemma progress_fresh (h : InfoHash) (Good : ℕ → Bytes → Prop) :
    Progress h Good ⟨none, none, none⟩ ∅ where
  toWritten := written_fresh h
  content_length := by simp [Download.content]
  chunk_length := by simp
  good := by simp

/-- Reading the status does not change what is written. -/
lemma Written.initInfo {σ : Store} (hw : Written h (download σ h.name) W) :
    Written h (download (initInfo σ h) h.name) W := by
  rw [download_initInfo]
  exact ⟨hw.file, hw.subset, hw.status_length, hw.status⟩

lemma Progress.initInfo {σ : Store} (hp : Progress h Good (download σ h.name) W) :
    Progress h Good (download (initInfo σ h) h.name) W where
  toWritten := hp.toWritten.initInfo
  content_length := by
    rw [download_initInfo]
    exact hp.content_length
  chunk_length := by
    rw [download_initInfo]
    exact hp.chunk_length
  good := by
    rw [download_initInfo]
    exact hp.good

/-- Opening the partial file does not change what is written. -/
lemma Written.touch {σ : Store} (hw : Written h (download σ h.name) W) :
    Written h (download (touch σ (partPath h.name)) h.name) W := by
  rw [download_touch_part]
  exact ⟨hw.file, hw.subset, hw.status_length, hw.status⟩

/-- Every piece is written when every status byte says so. -/
lemma Written.eq_range_iff (hw : Written h d W) :
    W = Finset.range h.pieces.length ↔
      ∀ i < h.pieces.length, (d.status h.pieces.length)[i]? = some 1 := by
  constructor
  · rintro rfl i hi
    rw [hw.status i hi, if_pos (Finset.mem_range.mpr hi)]
  · intro hall
    ext i
    rw [Finset.mem_range]
    refine ⟨hw.subset i, fun hi => ?_⟩
    by_contra hW
    have hstatus := hall i hi
    rw [hw.status i hi, if_neg hW] at hstatus
    exact absurd (Option.some.inj hstatus) (by decide)

/-- The download is complete exactly when every piece is written. -/
lemma Written.hasAllPieces_iff (hw : Written h d W) :
    Status.hasAllPieces ⟨d.status h.pieces.length⟩ = true ↔ W = Finset.range h.pieces.length := by
  have hall : Status.hasAllPieces ⟨d.status h.pieces.length⟩ = true
      ↔ ∀ b ∈ d.status h.pieces.length, b = 1 := by
    rw [Status.hasAllPieces]
    split_ifs with hempty
    · have hnil : d.status h.pieces.length = [] := List.isEmpty_iff.mp hempty
      simp [hnil]
    · simp
  rw [hall, hw.eq_range_iff]
  constructor
  · intro hone i hi
    have hstatus := hw.status i hi
    rw [hstatus, hone _ (List.mem_of_getElem? hstatus)]
  · intro hone b hb
    obtain ⟨i, hi⟩ := List.getElem?_of_mem hb
    have hlt : i < h.pieces.length := by
      rw [← hw.status_length]
      exact (List.getElem?_eq_some_iff.mp hi).1
    rw [hone i hlt] at hi
    exact (Option.some.inj hi).symm

/-- Writing piece `i` marks it. -/
lemma Written.write (hw : Written h d W) {i : ℕ} (hi : i < h.pieces.length) (offset : ℕ)
    (piece : Bytes) : Written h (d.write h.pieces.length offset piece i) (insert i W) := by
  have hstatus : (d.write h.pieces.length offset piece i).status h.pieces.length
      = patch 0 (d.status h.pieces.length) i [1] := rfl
  refine ⟨hw.file, ?_, ?_, ?_⟩
  · intro j hj
    rcases Finset.mem_insert.mp hj with rfl | hj
    · exact hi
    · exact hw.subset j hj
  · rw [hstatus, length_patch _ _ _ (by simp), hw.status_length]
    exact Nat.max_eq_left (by rw [List.length_singleton]; omega)
  · intro j hj
    rw [hstatus]
    by_cases hji : j = i
    · subst hji
      rw [getElem?_patch_of_mem 0 _ le_rfl (by simp)]
      simp
    · rw [getElem?_patch_of_notMem 0 (by rw [hw.status_length]; exact hj)
        (by simp only [List.length_singleton]; omega), hw.status j hj]
      simp [hji]

/-- Chunk `i` of a file that is not longer than described is a slice of the piece's length. -/
lemma chunk_eq_slice (h : InfoHash) {content : Bytes} (hlen : content.length ≤ h.fileLength.toNat)
    (i : ℕ) :
    chunk h.pieceLength.toNat content i
      = slice content (i * h.pieceLength.toNat) (h.pieceLen i) := by
  rw [chunk, ← slice_min, ← slice_min _ _ (h.pieceLen i), InfoHash.pieceLen]
  congr 1
  omega

/-- Pieces do not overlap. -/
lemma pieceLen_disjoint (h : InfoHash) {i j : ℕ} (hij : i ≠ j) :
    i * h.pieceLength.toNat + h.pieceLen i ≤ j * h.pieceLength.toNat ∨
      j * h.pieceLength.toNat + h.pieceLen j ≤ i * h.pieceLength.toNat := by
  have hle : ∀ k, h.pieceLen k ≤ h.pieceLength.toNat := fun k => Nat.min_le_left _ _
  rcases Nat.lt_or_gt_of_ne hij with hlt | hlt
  · have := Nat.mul_le_mul_right h.pieceLength.toNat (Nat.succ_le_of_lt hlt)
    rw [Nat.succ_mul] at this
    have := hle i
    omega
  · have := Nat.mul_le_mul_right h.pieceLength.toNat (Nat.succ_le_of_lt hlt)
    rw [Nat.succ_mul] at this
    have := hle j
    omega

/-- Writing a good payload as piece `i` adds `i` to the pieces written. -/
lemma Progress.write (hh : h.WellFormed) (hp : Progress h Good d W) {i : ℕ} {piece : Bytes}
    (hi : i < h.pieces.length) (hlen : piece.length = h.pieceLen i) (hgood : Good i piece) :
    Progress h Good (d.write h.pieces.length (i * h.pieceLength.toNat) piece i) (insert i W) := by
  have hpos := hh.pieceLength_pos
  have hin := hh.mul_lt hi
  have hne : piece ≠ [] := by
    rintro rfl
    simp only [List.length_nil, InfoHash.pieceLen] at hlen
    omega
  have hlen' : i * h.pieceLength.toNat + piece.length ≤ h.fileLength.toNat := by
    rw [hlen, InfoHash.pieceLen]; omega
  have hcontent : (patch 0 d.content (i * h.pieceLength.toNat) piece).length
      ≤ h.fileLength.toNat := by
    rw [length_patch _ _ _ hne]
    exact Nat.max_le.mpr ⟨hp.content_length, hlen'⟩
  have hself : chunk h.pieceLength.toNat (patch 0 d.content (i * h.pieceLength.toNat) piece) i
      = piece := by
    rw [chunk_eq_slice h hcontent, ← hlen, slice_patch_self]
  -- a piece that was written before stays as it was
  have hother : ∀ j ∈ W, j ≠ i →
      chunk h.pieceLength.toNat (patch 0 d.content (i * h.pieceLength.toNat) piece) j
        = chunk h.pieceLength.toNat d.content j := by
    intro j hj hji
    have hjlen := hp.chunk_length j hj
    rw [length_chunk, InfoHash.pieceLen] at hjlen
    have hjin := hh.mul_lt (hp.subset j hj)
    rw [chunk_eq_slice h hcontent, chunk_eq_slice h hp.content_length]
    refine slice_patch_disjoint 0 ?_ ?_
    · rw [InfoHash.pieceLen]; omega
    · rw [hlen]
      exact pieceLen_disjoint h hji
  refine ⟨hp.toWritten.write hi _ piece, hcontent, ?_, ?_⟩
  · intro j hj
    by_cases hji : j = i
    · subst hji
      exact (congrArg List.length hself).trans hlen
    · have hjW := (Finset.mem_insert.mp hj).resolve_left hji
      exact (congrArg List.length (hother j hjW hji)).trans (hp.chunk_length j hjW)
  · intro j hj
    by_cases hji : j = i
    · subst hji
      exact hself.symm ▸ hgood
    · have hjW := (Finset.mem_insert.mp hj).resolve_left hji
      exact (hother j hjW hji).symm ▸ hp.good j hjW

/-! ### One message -/

section Receive

variable (env : Env) {σ : Store} {index : UInt32} {piece : Bytes}

/-- A payload passes unless it has exactly `piece_length` bytes and a wrong hash. -/
def Accepted (env : Env) (h : InfoHash) (index : UInt32) (piece : Bytes) : Prop :=
  piece.length = h.pieceLength.toNat → expectedHash h index = .ok (hashPieceData env piece)

/-- A payload of exactly `piece_length` bytes with another hash than the recorded one. -/
def Corrupted (env : Env) (h : InfoHash) (index : UInt32) (piece : Bytes) : Prop :=
  ∃ digest : Digest, h.pieces[index.toNat]? = some ⟨digest.val⟩ ∧
    piece.length = h.pieceLength.toNat ∧ hashPieceData env piece ≠ digest

lemma expectedHash_eq_ok {index : UInt32} {digest : Digest} :
    expectedHash h index = .ok digest ↔ h.pieces[index.toNat]? = some ⟨digest.val⟩ := by
  rw [expectedHash]
  cases hpiece : h.pieces[index.toNat]? with
  | none => simp
  | some pieceHash =>
    obtain ⟨hash⟩ := pieceHash
    simp only [Option.some.injEq, PieceHash.mk.injEq]
    rw [← Digest.ofBytes?_eq_some]
    cases Digest.ofBytes? hash <;> simp

lemma lt_of_expectedHash_eq_ok {index : UInt32} {digest : Digest}
    (hexp : expectedHash h index = .ok digest) : index.toNat < h.pieces.length :=
  (List.getElem?_eq_some_iff.mp (expectedHash_eq_ok.mp hexp)).1

/-- What follows the check of the hash. -/
lemma runOn_receivePiece_of_accepted (hacc : Accepted env h index piece) :
    runOn (receivePiece env h index piece) σ = runOn (do
      writePieceToPart env h piece index
      if ← isFileComplete h then return PieceResult.complete
      return PieceResult.written : FileM PieceResult) σ := by
  rw [receivePiece]
  by_cases hfull : piece.length = h.pieceLength.toNat
  · rw [if_pos hfull, hacc hfull, runOn_bind_ok (runOn_ofExcept _ _), if_neg (by simp)]
  · rw [if_neg hfull]

/-- An accepted piece is written, and the file is complete when every status byte is set then. -/
lemma runOn_receivePiece_accepted {offset : UInt32}
    (hindex : index.toNat < ((download σ h.name).status h.pieces.length).length)
    (hoff : mulU32 env index h.pieceLength = .ok offset) (hacc : Accepted env h index piece) :
    ∃ σ', runOn (receivePiece env h index piece) σ
        = (.ok (if Status.hasAllPieces ⟨(download σ' h.name).status h.pieces.length⟩ = true
            then .complete else .written), initInfo σ' h) ∧
      download σ' h.name
        = (download σ h.name).write h.pieces.length offset.toNat piece index.toNat := by
  obtain ⟨σ', hrun, hd⟩ := runOn_writePieceToPart env h σ piece hoff hindex
  refine ⟨σ', ?_, hd⟩
  rw [runOn_receivePiece_of_accepted env hacc, runOn_bind_ok hrun,
    runOn_bind_ok (runOn_isFileComplete h σ')]
  split_ifs
  · rfl
  · rfl

/-- The piece is written, and the file is complete when it was the last one missing. -/
lemma runOn_receivePiece_written (hw : Written h (download σ h.name) W)
    (hindex : index.toNat < h.pieces.length) {offset : UInt32}
    (hoff : mulU32 env index h.pieceLength = .ok offset) (hacc : Accepted env h index piece) :
    ∃ σ', runOn (receivePiece env h index piece) σ
        = (.ok (if insert index.toNat W = Finset.range h.pieces.length then .complete
            else .written), initInfo σ' h) ∧
      download σ' h.name
        = (download σ h.name).write h.pieces.length offset.toNat piece index.toNat := by
  obtain ⟨σ', hrun, hd⟩ :=
    runOn_receivePiece_accepted env (by rwa [hw.status_length]) hoff hacc
  have hw' : Written h (download σ' h.name) (insert index.toNat W) := by
    rw [hd]
    exact hw.write hindex _ piece
  refine ⟨σ', ?_, hd⟩
  simp only [hrun, hw'.hasAllPieces_iff]

/-- A good payload of the right length adds to the progress. -/
lemma runOn_receivePiece (hh : h.WellFormed) (hp : Progress h Good (download σ h.name) W)
    (hindex : index.toNat < h.pieces.length)
    (hoff : index.toNat * h.pieceLength.toNat < 2 ^ 32)
    (hlen : piece.length = h.pieceLen index.toNat) (hacc : Accepted env h index piece)
    (hgood : Good index.toNat piece) :
    ∃ σ', runOn (receivePiece env h index piece) σ
        = (.ok (if insert index.toNat W = Finset.range h.pieces.length then .complete
            else .written), σ') ∧
      Progress h Good (download σ' h.name) (insert index.toNat W) := by
  obtain ⟨σ', hrun, hd⟩ := runOn_receivePiece_written env hp.toWritten hindex
    (mulU32_of_lt env hoff) hacc
  refine ⟨_, hrun, Progress.initInfo ?_⟩
  rw [hd, toNat_mul_of_lt hoff]
  exact hp.write hh hindex hlen hgood

/-- An accepted payload whose offset overflows ends the loop. -/
lemma runOn_receivePiece_overflow {fault : Fault} (hacc : Accepted env h index piece)
    (hoff : mulU32 env index h.pieceLength = .error fault) :
    runOn (receivePiece env h index piece) σ = (.error fault, touch σ (partPath h.name)) := by
  rw [runOn_receivePiece_of_accepted env hacc,
    runOn_bind_error (runOn_writePieceToPart_overflow env h σ piece hoff)]

/-- An accepted payload for an index without a status byte ends the loop. -/
lemma runOn_receivePiece_panic {offset : UInt32} (hacc : Accepted env h index piece)
    (hoff : mulU32 env index h.pieceLength = .ok offset)
    (hindex : ((download σ h.name).status h.pieces.length).length ≤ index.toNat) :
    ∃ σ', runOn (receivePiece env h index piece) σ = (.error .panic, σ') := by
  obtain ⟨σ', hrun, -⟩ := runOn_writePieceToPart_panic env h σ piece hoff hindex
  exact ⟨σ', by rw [runOn_receivePiece_of_accepted env hacc, runOn_bind_error hrun]⟩

/-- A payload that is not compared with a hash ends the loop when there is no such piece. -/
lemma runOn_receivePiece_outOfRange (hp : Progress h Good (download σ h.name) W)
    (hfull : piece.length ≠ h.pieceLength.toNat) (hindex : h.pieces.length ≤ index.toNat) :
    ∃ fault σ', runOn (receivePiece env h index piece) σ = (.error fault, σ') := by
  have hacc : Accepted env h index piece := fun h' => absurd h' hfull
  cases hoff : mulU32 env index h.pieceLength with
  | error fault => exact ⟨fault, _, runOn_receivePiece_overflow env hacc hoff⟩
  | ok offset =>
    obtain ⟨σ', hrun⟩ := runOn_receivePiece_panic env hacc hoff (by rwa [hp.status_length])
    exact ⟨.panic, σ', hrun⟩

/-- A full-length payload with a wrong hash is not written. -/
lemma runOn_receivePiece_corrupted {digest : Digest} (hfull : piece.length = h.pieceLength.toNat)
    (hexp : expectedHash h index = .ok digest) (hne : hashPieceData env piece ≠ digest) :
    runOn (receivePiece env h index piece) σ = (.ok .corrupted, σ) := by
  rw [receivePiece, if_pos hfull, hexp, runOn_bind_ok (runOn_ofExcept _ _), if_pos hne]
  rfl

/-- A piece without a recorded hash ends the loop, when it has the full length. -/
lemma runOn_receivePiece_error {fault : Fault} (hfull : piece.length = h.pieceLength.toNat)
    (hexp : expectedHash h index = .error fault) :
    runOn (receivePiece env h index piece) σ = (.error fault, σ) := by
  rw [receivePiece, if_pos hfull, hexp, runOn_bind_error (runOn_ofExcept _ _)]

end Receive

/-! ### The finished file -/

/-- A file of the described length all of whose pieces satisfy `Good`. -/
structure Assembled (h : InfoHash) (Good : ℕ → Bytes → Prop) (file : Bytes) : Prop where
  length : file.length = h.fileLength.toNat
  good : ∀ i < h.pieces.length, Good i (chunk h.pieceLength.toNat file i)

/-- Once every piece is written, the pieces tile the file. -/
lemma Progress.assembled (hh : h.WellFormed)
    (hp : Progress h Good d (Finset.range h.pieces.length)) (hn : 0 < h.pieces.length) :
    Assembled h Good d.content where
  length := by
    have hlast := hp.chunk_length (h.pieces.length - 1) (by rw [Finset.mem_range]; omega)
    have hin := hh.mul_lt (i := h.pieces.length - 1) (by omega)
    have hout : ¬ h.pieces.length * h.pieceLength.toNat < h.fileLength.toNat := by
      rw [← lt_numPieces_iff hh.pieceLength_pos, ← hh.pieces_length]
      exact lt_irrefl _
    have hsucc : h.pieces.length * h.pieceLength.toNat
        = (h.pieces.length - 1) * h.pieceLength.toNat + h.pieceLength.toNat := by
      rw [← Nat.succ_mul]; congr 1; omega
    have hle := hp.content_length
    rw [length_chunk, InfoHash.pieceLen] at hlast
    omega
  good i hi := hp.good i (Finset.mem_range.mpr hi)

/-- The round of the loop that takes an accepted good payload of the right length. -/
theorem step_deliver_piece (env : Env) (hh : h.WellFormed) {D : DownloadState}
    {a : FileAssembler} (hloop : D.loop = .running a) (ha : a.fileHash = h)
    (hp : Progress h Good (download D.store h.name) W) {index : UInt32} {piece : Bytes}
    (hindex : index.toNat < h.pieces.length)
    (hoff : index.toNat * h.pieceLength.toNat < 2 ^ 32)
    (hlen : piece.length = h.pieceLen index.toNat) (hacc : Accepted env h index piece)
    (hgood : Good index.toNat piece) (resendOpen : Bool) :
    let D' := D.step env h (.deliver (.piece index piece) resendOpen)
    if insert index.toNat W = Finset.range h.pieces.length then
      D'.loop = .finished ∧ ∃ file, download D'.store h.name = ⟨none, none, some file⟩ ∧
        Assembled h Good file
    else D'.loop = .running a ∧
      Progress h Good (download D'.store h.name) (insert index.toNat W) := by
  obtain ⟨σ', hrun, hp'⟩ := runOn_receivePiece env hh hp hindex hoff hlen hacc hgood
  simp only [DownloadState.step, hloop, reassembleMessage, ha]
  rw [runOn_bind_ok hrun]
  split_ifs with hc
  · have hp'' := hc ▸ hp'
    obtain ⟨σ'', hbuild, hd⟩ := runOn_buildFile_ok h σ' (hp''.hasAllPieces_iff.mpr rfl) hp''.file
    simp only
    rw [runOn_bind_ok hbuild, runOn_pure]
    exact ⟨rfl, _, hd, hp''.assembled hh (by omega)⟩
  · simp only [runOn_pure]
    exact ⟨trivial, hp'⟩

end BearTorrent
