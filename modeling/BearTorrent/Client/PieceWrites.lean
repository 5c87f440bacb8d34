import BearTorrent.Client.PieceReads

/-!
# Writing a piece at any index

`write_piece_to_part` computes the offset in the `.part` file in 32 bits as well, so a piece beyond
4 GiB is not written, or is written over another one. It looks at the status only after it has
written the piece, and an index that the status does not have makes it panic.
-/

namespace BearTorrent

open Patch FileSystem

/-- The bytes of a piece have been written, and nothing but them. Before, the `.part` file held
`part` and the `.info` file `info`; the file has `length` bytes. -/
structure WritesPiece (h : InfoHash) (length : ℕ) (part info : Bytes) (index : UInt32)
    (piece : Bytes) (result : Except Fault Unit) (d : Download) : Prop where
  returned : result = .ok ()
  written : slice d.content (index.toNat * h.pieceLength.toNat) piece.length = piece
  /-- What belongs to another piece stays. -/
  kept : ∀ q < part.length, q < length → q / h.pieceLength.toNat ≠ index.toNat →
    d.content[q]? = part[q]?
  /-- What did not exist is a gap of zeros, or still does not exist. -/
  gap : ∀ q, part.length ≤ q → q / h.pieceLength.toNat ≠ index.toNat → d.content.getD q 0 = 0
  status : d.info = some (info.set index.toNat 1)

/-- The offset fits in 32 bits, or it does no harm that it does not: the `.part` file holds the
bytes of the piece already, at the offset that is meant and at the one that is left. -/
def WriteOffsetHarmless (env : Env) (h : InfoHash) (part : Bytes) (index : UInt32) (piece : Bytes) :
    Prop :=
  index.toNat * h.pieceLength.toNat < 2 ^ 32 ∨
    env.overflowChecks = false ∧
      slice part (index.toNat * h.pieceLength.toNat) piece.length = piece ∧
      slice part (wrappedOffset h index) piece.length = piece

/-- The files after a piece has been written. -/
def written (env : Env) (h : InfoHash) (σ : Store) (piece : Bytes) (index : UInt32) : Store :=
  (runOn (writePieceToPart env h piece index) σ).2

/-- The offset overflows, and the build checks it. -/
def OffsetPanics (env : Env) (h : InfoHash) (index : UInt32) : Prop :=
  env.overflowChecks = true ∧ 2 ^ 32 ≤ index.toNat * h.pieceLength.toNat

section Offset

variable {env : Env} {h : InfoHash} {index : UInt32}

lemma toNat_mul_pieceLength (h : InfoHash) (index : UInt32) :
    (index * h.pieceLength).toNat = wrappedOffset h index := UInt32.toNat_mul _ _

lemma mulU32_of_offsetPanics (hp : OffsetPanics env h index) :
    mulU32 env index h.pieceLength = .error .panic := mulU32_overflow hp.1 hp.2

lemma mulU32_of_not_offsetPanics (hp : ¬ OffsetPanics env h index) :
    mulU32 env index h.pieceLength = .ok (index * h.pieceLength) := if_neg hp

end Offset

/-! ### The files afterwards -/

section Files

variable (env : Env) {h : InfoHash} {σ : Store} {part info : Bytes} {index : UInt32}
  (hpart : (download σ h.name).part = some part) (hinfo : (download σ h.name).info = some info)
include hpart

/-- A write that panics in the computation of the offset changes nothing. -/
lemma runOn_write_of_offsetPanics (hp : OffsetPanics env h index) (piece : Bytes) :
    runOn (writePieceToPart env h piece index) σ = (.error .panic, σ) := by
  rw [runOn_writePieceToPart_overflow env h σ piece (mulU32_of_offsetPanics hp),
    touch_of_lookup hpart]

include hinfo

lemma runOn_write_of_lt (hp : ¬ OffsetPanics env h index) (hindex : index.toNat < info.length)
    (piece : Bytes) :
    ∃ σ', runOn (writePieceToPart env h piece index) σ = (.ok (), σ') ∧
      download σ' h.name = { download σ h.name with
        part := some (patch 0 part (wrappedOffset h index) piece)
        info := some (info.set index.toNat 1) } := by
  have hstatus : (download σ h.name).status h.pieces.length = info := by
    rw [Download.status, hinfo]; rfl
  have hcontent : (download σ h.name).content = part := by
    rw [Download.content, hpart]; rfl
  obtain ⟨σ', hrun, hd⟩ := runOn_writePieceToPart env h σ piece (mulU32_of_not_offsetPanics hp)
    (by rw [hstatus]; exact hindex)
  refine ⟨σ', hrun, ?_⟩
  rw [hd, Download.write, hstatus, hcontent, toNat_mul_pieceLength, patch_singleton 0 hindex]

lemma download_written (hp : ¬ OffsetPanics env h index) (hindex : index.toNat < info.length)
    (piece : Bytes) :
    download (written env h σ piece index) h.name = { download σ h.name with
      part := some (patch 0 part (wrappedOffset h index) piece)
      info := some (info.set index.toNat 1) } := by
  obtain ⟨σ', hrun, hd⟩ := runOn_write_of_lt env hpart hinfo hp hindex piece
  rw [written, hrun, hd]

lemma result_write (hp : ¬ OffsetPanics env h index) (hindex : index.toNat < info.length)
    (piece : Bytes) : (runOn (writePieceToPart env h piece index) σ).1 = .ok () := by
  obtain ⟨σ', hrun, -⟩ := runOn_write_of_lt env hpart hinfo hp hindex piece
  rw [hrun]

end Files

/-! ### One write -/

section Compute

variable {env : Env} {name : String} {content : Bytes} {sizes : ℕ → ℕ} {h : InfoHash} {σ : Store}
  {part info : Bytes} {index : UInt32} {piece : Bytes}

/-- The length of a piece divides 4 GiB. -/
lemma pieceLength_dvd (hh : h = InfoHash.compute env name content sizes) :
    h.pieceLength.toNat ∣ 2 ^ 32 := by
  rw [hh, compute_pieceLength, getPieceLength]
  split_ifs <;> decide

/-- The wrapped offset of a piece is the offset of a piece. -/
lemma pieceLength_dvd_wrappedOffset (hh : h = InfoHash.compute env name content sizes)
    (index : UInt32) : h.pieceLength.toNat ∣ wrappedOffset h index := by
  rw [wrappedOffset, Nat.dvd_mod_iff (pieceLength_dvd hh)]
  exact Nat.dvd_mul_left _ _

/-- A piece does not reach over the end of 4 GiB. -/
lemma wrappedOffset_add_le (hh : h = InfoHash.compute env name content sizes) (index : UInt32) :
    wrappedOffset h index + h.pieceLength.toNat ≤ 2 ^ 32 := by
  have hlt : wrappedOffset h index < 2 ^ 32 := Nat.mod_lt _ (by decide)
  exact Nat.le_of_lt_add_of_dvd (Nat.add_lt_add_right hlt _)
    (Nat.dvd_add (pieceLength_dvd_wrappedOffset hh index) (Nat.dvd_refl _)) (pieceLength_dvd hh)

/-- What is not in the block of a piece belongs to another one, and the other way round. -/
lemma notMem_of_div_ne (hpiece : piece.length ≤ h.pieceLength.toNat) {q : ℕ}
    (hq : q / h.pieceLength.toNat ≠ index.toNat) :
    q < index.toNat * h.pieceLength.toNat ∨
      index.toNat * h.pieceLength.toNat + piece.length ≤ q := by
  by_contra hin
  rw [not_or, Nat.not_lt, Nat.not_le] at hin
  refine hq (Nat.div_eq_of_lt_le hin.1 ?_)
  rw [Nat.succ_mul]
  omega

/-- A block that is written to the right place is written alone. -/
lemma writesPiece_of_offset (length : ℕ) (hpiece : piece.length ≤ h.pieceLength.toNat)
    {d : Download}
    (hpart : d.part = some (patch 0 part (index.toNat * h.pieceLength.toNat) piece))
    (hinfo : d.info = some (info.set index.toNat 1)) :
    WritesPiece h length part info index piece (.ok ()) d := by
  have hcontent : d.content = patch 0 part (index.toNat * h.pieceLength.toNat) piece := by
    rw [Download.content, hpart]
    rfl
  refine ⟨rfl, ?_, fun q hq _ hne => ?_, fun q hq hne => ?_, hinfo⟩
  · rw [hcontent, slice_patch_self]
  · rw [hcontent, getElem?_patch_of_notMem 0 hq (notMem_of_div_ne hpiece hne)]
  · have hout := notMem_of_div_ne hpiece hne
    rw [hcontent, getD_patch, if_neg (by omega), List.getD_eq_getElem?_getD,
      List.getElem?_eq_none hq]
    rfl

/-- A block that is written elsewhere has to be there already, in both places. -/
lemma writesPiece_wrapped_iff (hh : h = InfoHash.compute env name content sizes)
    (hindex : index.toNat < h.pieces.length) (hoff : 2 ^ 32 ≤ index.toNat * h.pieceLength.toNat)
    (hpiece : piece.length ≤ h.pieceLength.toNat) {d : Download}
    (hpart : d.part = some (patch 0 part (wrappedOffset h index) piece))
    (hinfo : d.info = some (info.set index.toNat 1)) :
    WritesPiece h content.length part info index piece (.ok ()) d ↔
      slice part (index.toNat * h.pieceLength.toNat) piece.length = piece ∧
        slice part (wrappedOffset h index) piece.length = piece := by
  have hpos : 0 < h.pieceLength.toNat := hh ▸ compute_pieceLength_pos ..
  have hlt := mul_pieceLength_lt hh hindex
  have hend := wrappedOffset_add_le hh index
  have hcontent : d.content = patch 0 part (wrappedOffset h index) piece := by
    rw [Download.content, hpart]
    rfl
  constructor
  · intro hw
    by_cases hnil : piece = []
    · rw [hnil]
      exact ⟨rfl, rfl⟩
    have hlong : index.toNat * h.pieceLength.toNat + piece.length ≤ part.length := by
      have hslice := congrArg List.length hw.written
      have hpatch := length_patch 0 part (wrappedOffset h index) hnil
      have hlength := List.length_pos_iff.mpr hnil
      rw [length_slice, hcontent, hpatch] at hslice
      omega
    refine ⟨?_, ?_⟩
    · have hwritten := hw.written
      rwa [hcontent, slice_patch_disjoint 0 hlong (by omega)] at hwritten
    · have hself := slice_patch_self 0 part (wrappedOffset h index) piece
      rw [← hcontent] at hself
      conv_rhs => rw [← hself]
      refine slice_congr fun j hj => ?_
      rw [hw.kept _ (by omega) (by omega)]
      exact (Nat.div_lt_of_lt_mul (by rw [Nat.mul_comm]; omega)).ne
  · rintro ⟨htrue, hwrapped⟩
    -- the write changes nothing
    have hsame : d.content = part :=
      hcontent.trans ((patch_eq_self_iff 0 _ _ _).mpr (.inr hwrapped))
    refine ⟨rfl, by rw [hsame, htrue], fun q _ _ _ => by rw [hsame], fun q hq _ => ?_, hinfo⟩
    rw [hsame, List.getD_eq_getElem?_getD, List.getElem?_eq_none hq]
    rfl

/-- A piece is written alone exactly when its offset does no harm. -/
lemma writesPiece_iff (hh : h = InfoHash.compute env name content sizes)
    (hpart : (download σ h.name).part = some part) (hinfo : (download σ h.name).info = some info)
    (hlen : info.length = h.pieces.length) (hindex : index.toNat < h.pieces.length)
    (hpiece : piece.length ≤ h.pieceLength.toNat) :
    WritesPiece h content.length part info index piece
        (runOn (writePieceToPart env h piece index) σ).1
        (download (written env h σ piece index) h.name) ↔
      WriteOffsetHarmless env h part index piece := by
  by_cases hp : OffsetPanics env h index
  · rw [runOn_write_of_offsetPanics env hpart hp]
    constructor
    · intro hw
      cases hw.returned
    · rintro (hoff | ⟨hchecks, -⟩)
      · exact absurd hp.2 (Nat.not_le.mpr hoff)
      · rw [hp.1] at hchecks
        cases hchecks
  · rw [← hlen] at hindex
    have hd := download_written env hpart hinfo hp hindex piece
    rw [result_write env hpart hinfo hp hindex, hd]
    rw [hlen] at hindex
    rcases Nat.lt_or_ge (index.toNat * h.pieceLength.toNat) (2 ^ 32) with hoff | hoff
    · refine ⟨fun _ => .inl hoff, fun _ => ?_⟩
      rw [wrappedOffset_of_lt hoff]
      exact writesPiece_of_offset _ hpiece rfl rfl
    · have hchecks : env.overflowChecks = false :=
        Bool.eq_false_iff.mpr fun htrue => hp ⟨htrue, hoff⟩
      rw [writesPiece_wrapped_iff hh hindex hoff hpiece rfl rfl]
      constructor
      · intro hthere
        exact .inr ⟨hchecks, hthere⟩
      · rintro (hlt | ⟨-, hthere⟩)
        · exact absurd hlt (Nat.not_lt.mpr hoff)
        · exact hthere

/-! ### Two writes -/

variable {index' : UInt32} {piece' : Bytes}

/-- Writes at different offsets do not meet. -/
lemma blocks_disjoint (hh : h = InfoHash.compute env name content sizes)
    (hpiece : piece.length ≤ h.pieceLength.toNat) (hpiece' : piece'.length ≤ h.pieceLength.toNat)
    (hne : wrappedOffset h index ≠ wrappedOffset h index') :
    wrappedOffset h index + piece.length ≤ wrappedOffset h index' ∨
      wrappedOffset h index' + piece'.length ≤ wrappedOffset h index := by
  have hstep {i j : UInt32} (hlt : wrappedOffset h i < wrappedOffset h j) :
      wrappedOffset h i + h.pieceLength.toNat ≤ wrappedOffset h j :=
    Nat.le_of_lt_add_of_dvd (Nat.add_lt_add_right hlt _)
      (Nat.dvd_add (pieceLength_dvd_wrappedOffset hh i) (Nat.dvd_refl _)) (pieceLength_dvd_wrappedOffset hh j)
  rcases Nat.lt_or_gt_of_ne hne with hlt | hlt
  · exact .inl ((Nat.add_le_add_left hpiece _).trans (hstep hlt))
  · exact .inr ((Nat.add_le_add_left hpiece' _).trans (hstep hlt))

/-- Writing two pieces in either order leaves the same files. -/
def WritesCommute (env : Env) (h : InfoHash) (σ : Store) (index : UInt32) (piece : Bytes)
    (index' : UInt32) (piece' : Bytes) : Prop :=
  download (written env h (written env h σ piece index) piece' index') h.name
    = download (written env h (written env h σ piece' index') piece index) h.name

/-- The files after a write that panics in the computation of the offset, and another one. -/
lemma writesCommute_of_offsetPanics (hpart : (download σ h.name).part = some part)
    (hinfo : (download σ h.name).info = some info) (hindex' : index'.toNat < info.length)
    (hp : OffsetPanics env h index) : WritesCommute env h σ index piece index' piece' := by
  have hstays {σ' : Store} {part' : Bytes} (hpart' : (download σ' h.name).part = some part') :
      written env h σ' piece index = σ' := by
    rw [written, runOn_write_of_offsetPanics env hpart' hp]
  rw [WritesCommute, hstays hpart]
  by_cases hp' : OffsetPanics env h index'
  · have hstays' : written env h σ piece' index' = σ := by
      rw [written, runOn_write_of_offsetPanics env hpart hp']
    rw [hstays', hstays hpart]
  · have hd := download_written env hpart hinfo hp' hindex' piece'
    rw [hstays (congrArg Download.part hd)]

/-- Two pieces are written in either order exactly when the offsets differ, as they are computed, or
one payload begins with the other. -/
lemma writesCommute_iff_of_not (hh : h = InfoHash.compute env name content sizes)
    (hpart : (download σ h.name).part = some part) (hinfo : (download σ h.name).info = some info)
    (hindex : index.toNat < info.length) (hindex' : index'.toNat < info.length)
    (hne : index ≠ index') (hpiece : piece.length ≤ h.pieceLength.toNat)
    (hpiece' : piece'.length ≤ h.pieceLength.toNat) (hp : ¬ OffsetPanics env h index)
    (hp' : ¬ OffsetPanics env h index') :
    WritesCommute env h σ index piece index' piece' ↔
      wrappedOffset h index ≠ wrappedOffset h index' ∨ piece <+: piece' ∨ piece' <+: piece := by
  have hd := download_written env hpart hinfo hp hindex piece
  have hd' := download_written env hpart hinfo hp' hindex' piece'
  have hboth := download_written env (congrArg Download.part hd) (congrArg Download.info hd) hp'
    (by rwa [List.length_set]) piece'
  have hboth' := download_written env (congrArg Download.part hd') (congrArg Download.info hd') hp
    (by rwa [List.length_set]) piece
  have hset : (info.set index.toNat 1).set index'.toNat 1
      = (info.set index'.toNat 1).set index.toNat 1 :=
    List.set_comm _ _ fun heq => hne (UInt32.toNat_inj.mp heq)
  rw [WritesCommute, hboth, hboth', hd, hd', hset]
  simp only [Download.mk.injEq, Option.some.injEq, and_true]
  constructor
  · intro heq
    by_cases hoff : wrappedOffset h index = wrappedOffset h index'
    · rw [hoff] at heq
      exact .inr ((patch_same_comm_iff 0 _ _ _ _).mp heq)
    · exact .inl hoff
  · rintro (hoff | hbegins)
    · exact patch_comm 0 part (blocks_disjoint hh hpiece hpiece' hoff)
    · by_cases hoff : wrappedOffset h index = wrappedOffset h index'
      · rw [hoff]
        exact (patch_same_comm_iff 0 _ _ _ _).mpr hbegins
      · exact patch_comm 0 part (blocks_disjoint hh hpiece hpiece' hoff)

lemma writesCommute_iff (hh : h = InfoHash.compute env name content sizes)
    (hpart : (download σ h.name).part = some part) (hinfo : (download σ h.name).info = some info)
    (hindex : index.toNat < info.length) (hindex' : index'.toNat < info.length)
    (hne : index ≠ index') (hpiece : piece.length ≤ h.pieceLength.toNat)
    (hpiece' : piece'.length ≤ h.pieceLength.toNat) :
    WritesCommute env h σ index piece index' piece' ↔
      env.overflowChecks = true ∨ wrappedOffset h index ≠ wrappedOffset h index' ∨
        piece <+: piece' ∨ piece' <+: piece := by
  by_cases hp : OffsetPanics env h index
  · exact ⟨fun _ => .inl hp.1, fun _ => writesCommute_of_offsetPanics hpart hinfo hindex' hp⟩
  by_cases hp' : OffsetPanics env h index'
  · exact ⟨fun _ => .inl hp'.1,
      fun _ => (writesCommute_of_offsetPanics hpart hinfo hindex hp').symm⟩
  rw [writesCommute_iff_of_not hh hpart hinfo hindex hindex' hne hpiece hpiece' hp hp']
  refine ⟨.inr, ?_⟩
  rintro (hchecks | hdiffer)
  · -- both offsets fit, and are those of different pieces
    have hpos : 0 < h.pieceLength.toNat := hh ▸ compute_pieceLength_pos ..
    have hfits {i : UInt32} (hi : ¬ OffsetPanics env h i) :
        wrappedOffset h i = i.toNat * h.pieceLength.toNat :=
      wrappedOffset_of_lt (Nat.not_le.mp fun hle => hi ⟨hchecks, hle⟩)
    rw [hfits hp, hfits hp']
    refine .inl fun heq => hne ?_
    exact UInt32.toNat_inj.mp (Nat.eq_of_mul_eq_mul_right hpos heq)
  · exact hdiffer

/-- A piece is written alone exactly when its 32-bit offset does no harm. It is written before or
after another piece with the same effect exactly when the build checks for overflow, the two offsets
differ as they are computed, or one payload begins with the other. -/
theorem writePieceToPart_only_iff (hh : h = InfoHash.compute env name content sizes)
    (hpart : (download σ h.name).part = some part) (hinfo : (download σ h.name).info = some info)
    (hlen : info.length = h.pieces.length) (hindex : index.toNat < h.pieces.length)
    (hpiece : piece.length = pieceSize h content.length index) :
    (WritesPiece h content.length part info index piece
        (runOn (writePieceToPart env h piece index) σ).1
        (download (written env h σ piece index) h.name) ↔
      WriteOffsetHarmless env h part index piece) ∧
    ∀ index' piece', index'.toNat < h.pieces.length → index' ≠ index →
      piece'.length = pieceSize h content.length index' →
      (WritesCommute env h σ index piece index' piece' ↔
        env.overflowChecks = true ∨ wrappedOffset h index ≠ wrappedOffset h index' ∨
          piece <+: piece' ∨ piece' <+: piece) := by
  have hsize (i : UInt32) : pieceSize h content.length i ≤ h.pieceLength.toNat := by
    rw [pieceSize_eq]
    exact Nat.min_le_left _ _
  refine ⟨writesPiece_iff hh hpart hinfo hlen hindex (hpiece ▸ hsize index), ?_⟩
  intro index' piece' hindex' hne hpiece'
  rw [← hlen] at hindex hindex'
  exact writesCommute_iff hh hpart hinfo hindex hindex' hne.symm (hpiece ▸ hsize index)
    (hpiece' ▸ hsize index')

end Compute

/-- A disk with nothing but a download that has begun. -/
def partialStore (name : String) (part info : Bytes) : Store :=
  AList.insert (partPath name) part (AList.insert (infoPath name) info ∅)

lemma partialStore_part (name : String) (part info : Bytes) :
    (download (partialStore name part info) name).part = some part := by
  rw [download, partialStore]
  exact AList.lookup_insert _

lemma partialStore_info (name : String) (part info : Bytes) :
    (download (partialStore name part info) name).info = some info := by
  rw [download, partialStore]
  exact (AList.lookup_insert_ne (partPath_ne_infoPath name).symm).trans (AList.lookup_insert _)

/-- The only piece of the file with the letter `a`. -/
theorem writePieceToPart_only_iff_letter :
    let σ := partialStore "a" [] [0]
    (WritesPiece letterHash 1 [] [0] 0 [97] (runOn (writePieceToPart letterEnv letterHash [97] 0) σ).1
        (download (written letterEnv letterHash σ [97] 0) "a") ↔
      WriteOffsetHarmless letterEnv letterHash [] 0 [97]) ∧
    ∀ index' piece', index'.toNat < letterHash.pieces.length → index' ≠ 0 →
      piece'.length = pieceSize letterHash 1 index' →
      (WritesCommute letterEnv letterHash σ 0 [97] index' piece' ↔
        letterEnv.overflowChecks = true ∨
          wrappedOffset letterHash 0 ≠ wrappedOffset letterHash index' ∨
          [97] <+: piece' ∨ piece' <+: [97]) := by
  exact writePieceToPart_only_iff (h := letterHash) rfl (partialStore_part "a" [] [0])
    (partialStore_info "a" [] [0]) letterHash_pieces.symm (by rw [letterHash_pieces]; decide) rfl

/-- No piece of the long file has been received, and its first byte is there. -/
def longInfo : Bytes := List.replicate 4097 0

lemma length_longInfo (env : Env) : longInfo.length = (longHash env).pieces.length := by
  rw [longHash_pieces]
  exact List.length_replicate

def longPartial : Store := partialStore "long" [1] longInfo

/-- The last byte of the file is not written where it belongs: on one build the write panics, on the
other it replaces the first byte. -/
lemma not_writesPiece_long (env : Env) :
    ¬ WritesPiece (longHash env) (longContent (2 ^ 32)).length [1] longInfo 4096 [0]
      (runOn (writePieceToPart env (longHash env) [0] 4096) longPartial).1
      (download (written env (longHash env) longPartial [0] 4096) "long") := by
  intro hw
  have hpart : (download longPartial (longHash env).name).part = some [1] :=
    partialStore_part "long" [1] longInfo
  have hinfo : (download longPartial (longHash env).name).info = some longInfo :=
    partialStore_info "long" [1] longInfo
  have hproduct := longHash_offset env
  have hle : [(0 : UInt8)].length ≤ (longHash env).pieceLength.toNat := by
    rw [longHash_pieceLength]
    decide
  rcases (writesPiece_iff (h := longHash env) rfl hpart hinfo (length_longInfo env)
      (longHash_index env) hle).mp hw with hoff | ⟨-, hslice, -⟩
  · rw [hproduct] at hoff
    exact absurd hoff (lt_irrefl _)
  · rw [hproduct] at hslice
    have hlength := congrArg List.length hslice
    rw [length_slice] at hlength
    exact absurd hlength (by decide)

theorem last_piece_of_long_file_miswritten :
    let debug : Env := ⟨fun _ => Digest.zero, true⟩
    let release : Env := ⟨fun _ => Digest.zero, false⟩
    ((longInfo.length = (longHash debug).pieces.length ∧ 4096 < (longHash debug).pieces.length ∧
        pieceSize (longHash debug) (longContent (2 ^ 32)).length 4096 = 1) ∧
      ¬ WritesPiece (longHash debug) (longContent (2 ^ 32)).length [1] longInfo 4096 [0]
        (runOn (writePieceToPart debug (longHash debug) [0] 4096) longPartial).1
        (download (written debug (longHash debug) longPartial [0] 4096) "long")) ∧
    (longInfo.length = (longHash release).pieces.length ∧
        4096 < (longHash release).pieces.length ∧
        pieceSize (longHash release) (longContent (2 ^ 32)).length 4096 = 1) ∧
      ¬ WritesPiece (longHash release) (longContent (2 ^ 32)).length [1] longInfo 4096 [0]
        (runOn (writePieceToPart release (longHash release) [0] 4096) longPartial).1
        (download (written release (longHash release) longPartial [0] 4096) "long") :=
  ⟨⟨⟨length_longInfo _, longHash_index _, longHash_pieceSize _⟩, not_writesPiece_long _⟩,
    ⟨length_longInfo _, longHash_index _, longHash_pieceSize _⟩, not_writesPiece_long _⟩

/-! ### Pieces that are refused -/

/-- A call has failed with an error, and the files are as they were. -/
structure LeavesIntact (d d' : Download) (result : Except Fault Unit) : Prop where
  error : ∃ message, result = .error (.err message)
  part : d'.part = d.part
  info : d'.info = d.info

/-- An index that is out of range panics. The status stays; the `.part` file stays only when it
exists and either the computation of the offset panics, or the payload is written over itself. -/
theorem refused_piece_panics (env : Env) {h : InfoHash} {σ : Store} {info : Bytes}
    (hinfo : (download σ h.name).info = some info) (hlen : info.length = h.pieces.length)
    {index : UInt32} (hindex : h.pieces.length ≤ index.toNat) (piece : Bytes) :
    let d := download σ h.name
    let d' := download (written env h σ piece index) h.name
    let result := (runOn (writePieceToPart env h piece index) σ).1
    ¬ LeavesIntact d d' result ∧ result = .error .panic ∧ d'.info = d.info ∧
      (d'.part = d.part ↔ ∃ part, d.part = some part ∧
        (OffsetPanics env h index ∨ piece = [] ∨
          slice part (wrappedOffset h index) piece.length = piece)) := by
  intro d d' result
  have hstatus : (download σ h.name).status h.pieces.length = info := by
    rw [Download.status, hinfo]; rfl
  have hintact (hpanic : result = .error .panic) : ¬ LeavesIntact d d' result := by
    rintro ⟨⟨message, herror⟩, -, -⟩
    rw [hpanic] at herror
    cases herror
  by_cases hp : OffsetPanics env h index
  · have hrun := runOn_writePieceToPart_overflow env h σ piece (mulU32_of_offsetPanics hp)
    have hd : d' = { d with part := some d.content } := by
      rw [← download_touch_part]
      exact congrArg (download · h.name) (congrArg Prod.snd hrun)
    have hpanic : result = .error .panic := congrArg Prod.fst hrun
    refine ⟨hintact hpanic, hpanic, by rw [hd], ?_⟩
    rw [hd]
    constructor
    · intro hpart
      exact ⟨d.content, hpart.symm, .inl hp⟩
    · rintro ⟨part, hpart, -⟩
      simp only [Download.content, hpart, Option.getD_some]
  · obtain ⟨σ', hrun, hσ'⟩ := runOn_writePieceToPart_panic env h σ piece
      (mulU32_of_not_offsetPanics hp) (by rw [hstatus, hlen]; exact hindex)
    have hd : d' = { d with
        part := some (patch 0 d.content (wrappedOffset h index) piece), info := some info } := by
      rw [← hstatus, ← toNat_mul_pieceLength, ← hσ']
      exact congrArg (download · h.name) (congrArg Prod.snd hrun)
    have hpanic : result = .error .panic := congrArg Prod.fst hrun
    refine ⟨hintact hpanic, hpanic, by rw [hd]; exact hinfo.symm, ?_⟩
    rw [hd]
    cases hpart : d.part with
    | none => simp
    | some part =>
      have hcontent : d.content = part := by rw [Download.content, hpart]; rfl
      simp only [hcontent, Option.some.injEq, patch_eq_self_iff, hp, false_or, exists_eq_left']

/-- A file of one piece of one byte. -/
def onePieceHash : InfoHash := ⟨"p", 1, 1, [⟨letterDigest.val⟩]⟩

def onePieceStore : Store := partialStore onePieceHash.name [97] [1]

/-- A second byte for such a file. -/
theorem refused_piece_panics_second :
    let d := download onePieceStore onePieceHash.name
    let d' := download (written letterEnv onePieceHash onePieceStore [5] 1) onePieceHash.name
    let result := (runOn (writePieceToPart letterEnv onePieceHash [5] 1) onePieceStore).1
    ¬ LeavesIntact d d' result ∧ result = .error .panic ∧ d'.info = d.info ∧
      (d'.part = d.part ↔ ∃ part, d.part = some part ∧
        (OffsetPanics letterEnv onePieceHash 1 ∨ [5] = ([] : Bytes) ∨
          slice part (wrappedOffset onePieceHash 1) [(5 : UInt8)].length = [5])) :=
  refused_piece_panics letterEnv (partialStore_info onePieceHash.name [97] [1]) rfl (by decide) [5]

/-- The second byte is written before the index is found to be out of range, and the call
panics. -/
theorem refused_piece_is_written :
    (runOn (writePieceToPart letterEnv onePieceHash [5] 1) onePieceStore).1 = .error .panic ∧
      (download onePieceStore onePieceHash.name).part = some [97] ∧
      (download (written letterEnv onePieceHash onePieceStore [5] 1) onePieceHash.name).part
        = some [97, 5] ∧
      ¬ LeavesIntact (download onePieceStore onePieceHash.name)
        (download (written letterEnv onePieceHash onePieceStore [5] 1) onePieceHash.name)
        (runOn (writePieceToPart letterEnv onePieceHash [5] 1) onePieceStore).1 := by
  have hpart : (download onePieceStore onePieceHash.name).part = some [97] :=
    partialStore_part _ _ _
  have hinfo : (download onePieceStore onePieceHash.name).info = some [1] :=
    partialStore_info _ _ _
  have hcontent : (download onePieceStore onePieceHash.name).content = [97] := by
    rw [Download.content, hpart]; rfl
  have hstatus : (download onePieceStore onePieceHash.name).status onePieceHash.pieces.length
      = [1] := by
    rw [Download.status, hinfo]; rfl
  have hoff : mulU32 letterEnv 1 onePieceHash.pieceLength = .ok 1 := by decide
  obtain ⟨σ', hrun, hd⟩ := runOn_writePieceToPart_panic letterEnv onePieceHash onePieceStore [5] hoff
    (by rw [hstatus]; decide)
  refine ⟨congrArg Prod.fst hrun, hpart, ?_, ?_⟩
  · rw [written, hrun, hd, hcontent]
    decide
  · rintro ⟨⟨message, herror⟩, -, -⟩
    rw [hrun] at herror
    cases herror

end BearTorrent
