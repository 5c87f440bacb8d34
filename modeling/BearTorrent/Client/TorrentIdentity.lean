import BearTorrent.Client.InfoHash
import BearTorrent.Lib.Blocks

/-!
# Which torrents share a file hash

The name and the hashes of the pieces are hashed one after the other, with nothing in between that
tells where the name ends. A name that goes on with the first hashes of another torrent stands for
the same bytes as that torrent.
-/

namespace BearTorrent

namespace InfoHash

variable {h h' : InfoHash}

/-- The bytes that `get_hashed_info_hash` feeds to SHA-1. -/
def hashInput (h : InfoHash) : Bytes :=
  BigEndian.toBytes 8 h.fileLength.toNat ++ BigEndian.toBytes 4 h.pieceLength.toNat ++
    h.name.toUTF8.data.toList ++ h.pieces.flatMap (·.hash)

lemma getHashedInfoHash_eq (env : Env) (h : InfoHash) :
    h.getHashedInfoHash env = env.sha1 h.hashInput := rfl

/-- All hashes of pieces have the length of a SHA-1. -/
def FullHashes (h : InfoHash) : Prop := ∀ piece ∈ h.pieces, piece.hash.length = 20

instance (h : InfoHash) : Decidable h.FullHashes :=
  inferInstanceAs (Decidable (∀ piece ∈ h.pieces, piece.hash.length = 20))

/-- The name of `h'` is that of `h` with the first hashes of `h` behind it, which are missing among
the hashes of `h'`. -/
def Absorbs (h' h : InfoHash) : Prop :=
  h'.fileLength = h.fileLength ∧ h'.pieceLength = h.pieceLength ∧
    ∃ k, 0 < k ∧ k ≤ h.pieces.length ∧
      h'.name.toUTF8.data.toList
        = h.name.toUTF8.data.toList ++ (h.pieces.take k).flatMap (·.hash) ∧
      h'.pieces = h.pieces.drop k

lemma Absorbs.ne (hab : h'.Absorbs h) : h ≠ h' := by
  obtain ⟨-, -, k, hk, hle, -, hpieces⟩ := hab
  rintro rfl
  have := congrArg List.length hpieces
  rw [List.length_drop] at this
  omega

lemma Absorbs.hashInput_eq (hab : h'.Absorbs h) : h.hashInput = h'.hashInput := by
  obtain ⟨hfile, hpiece, k, -, -, hname, hpieces⟩ := hab
  rw [hashInput, hashInput, hfile, hpiece, hname, hpieces]
  simp only [List.append_assoc]
  rw [← List.flatMap_append, List.take_append_drop]

/-! ### Where the name ends -/

lemma name_eq (hname : h.name.toUTF8.data.toList = h'.name.toUTF8.data.toList) :
    h.name = h'.name :=
  String.toByteArray_inj.mp (ByteArray.ext (Array.toList_inj.mp hname))

lemma FullHashes.ofWidth (hh : h.FullHashes) : Blocks.OfWidth 20 (h.pieces.map (·.hash)) := by
  intro b hb
  obtain ⟨piece, hpiece, rfl⟩ := List.mem_map.mp hb
  exact hh piece hpiece

lemma pieces_eq {pieces pieces' : List PieceHash}
    (hpieces : pieces.map (·.hash) = pieces'.map (·.hash)) : pieces = pieces' :=
  List.map_injective_iff.mpr (fun _ _ => congrArg PieceHash.mk) hpieces

/-- The two fields of fixed width come first. -/
lemma fields_of_hashInput_eq (heq : h.hashInput = h'.hashInput) :
    h.fileLength = h'.fileLength ∧ h.pieceLength = h'.pieceLength ∧
      h.name.toUTF8.data.toList ++ h.pieces.flatMap (·.hash)
        = h'.name.toUTF8.data.toList ++ h'.pieces.flatMap (·.hash) := by
  simp only [hashInput, List.append_assoc] at heq
  obtain ⟨hfile, heq⟩ := List.append_inj heq (by simp)
  obtain ⟨hpiece, heq⟩ := List.append_inj heq (by simp)
  refine ⟨UInt64.toNat_inj.mp ?_, UInt32.toNat_inj.mp ?_, heq⟩
  · exact BigEndian.toBytes_inj h.fileLength.toNat_lt h'.fileLength.toNat_lt hfile
  · exact BigEndian.toBytes_inj h.pieceLength.toNat_lt h'.pieceLength.toNat_lt hpiece

/-- With the shorter name first, the other one has taken in some of the hashes. -/
lemma eq_or_absorbs (hh : h.FullHashes) (hh' : h'.FullHashes) (heq : h.hashInput = h'.hashInput)
    (hle : h.name.toUTF8.data.toList.length ≤ h'.name.toUTF8.data.toList.length) :
    h = h' ∨ h'.Absorbs h := by
  obtain ⟨hfile, hpiece, htail⟩ := fields_of_hashInput_eq heq
  -- `x` is what the name of `h'` has more than that of `h`
  obtain ⟨x, hname, hx⟩ : ∃ x, h'.name.toUTF8.data.toList = h.name.toUTF8.data.toList ++ x ∧
      x ++ h'.pieces.flatMap (·.hash) = h.pieces.flatMap (·.hash) := by
    rcases List.append_eq_append_iff.mp htail with ⟨x, hname, hx⟩ | ⟨x, hname, hx⟩
    · exact ⟨x, hname, hx.symm⟩
    · have hnil : x = [] := by
        rw [hname, List.length_append] at hle
        exact List.length_eq_zero_iff.mp (by omega)
      subst hnil
      exact ⟨[], by rw [hname, List.append_nil, List.append_nil], hx⟩
  obtain ⟨k, hk, rfl, hpieces⟩ :=
    hh.ofWidth.append_flatten hh'.ofWidth (by decide) (by simpa [List.flatMap_def] using hx)
  rw [List.length_map] at hk
  rw [← List.map_drop] at hpieces
  rw [← List.map_take, ← List.flatMap_def] at hname
  rcases Nat.eq_zero_or_pos k with rfl | hpos
  · left
    have hname' : h.name = h'.name := name_eq (by simpa using hname.symm)
    have hpieces' : h'.pieces = h.pieces := pieces_eq hpieces
    cases h
    cases h'
    simp_all
  · exact .inr ⟨hfile.symm, hpiece.symm, k, hpos, hk, hname, pieces_eq hpieces⟩

lemma hashInput_eq_iff (hh : h.FullHashes) (hh' : h'.FullHashes) :
    h.hashInput = h'.hashInput ↔ h = h' ∨ h'.Absorbs h ∨ h.Absorbs h' := by
  constructor
  · intro heq
    rcases Nat.le_total h.name.toUTF8.data.toList.length h'.name.toUTF8.data.toList.length
      with hle | hle
    · exact (eq_or_absorbs hh hh' heq hle).imp_right .inl
    · rcases eq_or_absorbs hh' hh heq.symm hle with rfl | hab
      · exact .inl rfl
      · exact .inr (.inr hab)
  · rintro (rfl | hab | hab)
    · rfl
    · exact hab.hashInput_eq
    · exact hab.hashInput_eq.symm

/-- The hashed bytes tell two torrents apart if and only if none of them has the other's first
hashes in its name. Where SHA-1 does not collide on these bytes, so does the file hash. -/
theorem hashInput_identifies_iff (env : Env) (hh : h.FullHashes) (hh' : h'.FullHashes) :
    ((h.hashInput = h'.hashInput → h = h') ↔ ¬ h'.Absorbs h ∧ ¬ h.Absorbs h') ∧
      ((env.sha1 h.hashInput = env.sha1 h'.hashInput → h.hashInput = h'.hashInput) →
        ((h.getHashedInfoHash env = h'.getHashedInfoHash env → h = h') ↔
          ¬ h'.Absorbs h ∧ ¬ h.Absorbs h')) := by
  have hiff : (h.hashInput = h'.hashInput → h = h') ↔ ¬ h'.Absorbs h ∧ ¬ h.Absorbs h' := by
    rw [hashInput_eq_iff hh hh']
    constructor
    · intro himp
      exact ⟨fun hab => hab.ne (himp (.inr (.inl hab))),
        fun hab => hab.ne (himp (.inr (.inr hab))).symm⟩
    · rintro ⟨hab, hab'⟩ (heq | hab'' | hab'')
      · exact heq
      · exact absurd hab'' hab
      · exact absurd hab'' hab'
  refine ⟨hiff, fun hsha => ?_⟩
  rw [← hiff, getHashedInfoHash_eq, getHashedInfoHash_eq]
  exact ⟨fun himp heq => himp (congrArg env.sha1 heq), fun himp heq => himp (hsha heq)⟩

/-! ### Two torrents -/

/-- A torrent of one piece whose hash is readable as text. -/
def namedTorrent (name : String) : InfoHash := ⟨name, 1, 65536, [⟨List.replicate 20 98⟩]⟩

/-- The torrent that has the hash in its name. -/
def longTorrent : InfoHash := ⟨"abbbbbbbbbbbbbbbbbbbb", 1, 65536, []⟩

/-- SHA-1 of what is hashed for the torrents named `a` and `b`. -/
def namedEnv : Env where
  sha1 bytes :=
    if bytes = (namedTorrent "a").hashInput then
      ⟨[61, 216, 12, 41, 126, 178, 196, 52, 10, 77, 185, 123, 137, 215, 142, 134, 90, 139, 8, 73],
        rfl⟩
    else if bytes = (namedTorrent "b").hashInput then
      ⟨[200, 5, 236, 43, 25, 147, 103, 97, 54, 195, 180, 159, 107, 110, 77, 175, 71, 177, 82, 226],
        rfl⟩
    else Digest.zero
  overflowChecks := true

theorem hashInput_identifies_iff_named :
    ((namedTorrent "a").getHashedInfoHash namedEnv = (namedTorrent "b").getHashedInfoHash namedEnv →
      namedTorrent "a" = namedTorrent "b") ↔
        ¬ (namedTorrent "b").Absorbs (namedTorrent "a") ∧
          ¬ (namedTorrent "a").Absorbs (namedTorrent "b") :=
  (hashInput_identifies_iff namedEnv (by decide : (namedTorrent "a").FullHashes)
    (by decide : (namedTorrent "b").FullHashes)).2 (by decide +kernel)

/-- Two torrents with the same file hash, whatever SHA-1 is. -/
theorem name_absorbs_hash :
    (namedTorrent "a").FullHashes ∧ longTorrent.FullHashes ∧
      (namedTorrent "a").hashInput = longTorrent.hashInput ∧ namedTorrent "a" ≠ longTorrent ∧
        ∀ env, (namedTorrent "a").getHashedInfoHash env = longTorrent.getHashedInfoHash env := by
  have heq : (namedTorrent "a").hashInput = longTorrent.hashInput := by decide +kernel
  exact ⟨by decide, by decide, heq, by decide, fun env => congrArg env.sha1 heq⟩

end InfoHash

end BearTorrent
