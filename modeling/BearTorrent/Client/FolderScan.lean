import BearTorrent.Client.CacheLoading
import BearTorrent.Client.PieceExchange
import BearTorrent.Client.Reachability
import BearTorrent.Client.TorrentIdentity
import Mathlib.Data.Set.Function

/-!
# The scan of the folder

`get_info_hashes` makes the info hash of every file in `resources/files` and keys it by its file
hash. A computed info hash has as many pieces as its lengths say, so the file hashes of two files
can only be the same when SHA-1 collides.
-/

namespace BearTorrent

open FileSystem Effects

/-- An entry of `resources/files`, as `read_dir` lists it. -/
structure DirEntry where
  name : EntryName
  isFile : Bool

section Functions

variable {m : Type → Type} [Monad m] [MonadExcept Fault m] [FileSystem m] [FileReader m]

/-- One round of the loop of `get_info_hashes`. -/
def scanEntry (env : Env) (sizes : EntryName → ℕ → ℕ) (results : FileMap) (file : DirEntry) :
    m FileMap := do
  if file.isFile then
    let tempInfohash ← newInfoHash env file.name.val (sizes file.name)
    pure (results.insert (tempInfohash.getHashedInfoHash env) tempInfohash)
  else
    pure results

/-- `get_info_hashes` for the entries that `read_dir` lists, when the reads of a file return its
`sizes`. The two folders are taken to exist. -/
def getInfoHashes (env : Env) (sizes : EntryName → ℕ → ℕ) (dir : List DirEntry) : m FileMap :=
  dir.foldlM (scanEntry env sizes) ∅

end Functions

/-- The listing has every file of `resources/files` once. -/
structure Lists (dir : List DirEntry) (d : Disk) : Prop where
  nodup : (dir.map DirEntry.name).Nodup
  isFile : ∀ e ∈ dir, e.isFile = (d.slot e.name.val .file).isSome
  complete : ∀ x : EntryName, (d.slot x.val .file).isSome = true → ∃ e ∈ dir, e.name = x

/-- The info hash of a file's content, if there is the file. -/
def Disk.ownInfoHash (d : Disk) (env : Env) (sizes : EntryName → ℕ → ℕ) (x : EntryName) :
    Option InfoHash :=
  (d.slot x.val .file).map fun content => .compute env x.val content (sizes x)

/-- The entries of the map are the info hashes of the files under their file hashes, one for each
file. -/
structure MapsFiles (env : Env) (sizes : EntryName → ℕ → ℕ) (d : Disk) (results : FileMap) :
    Prop where
  lookup : ∀ digest h, results.lookup digest = some h ↔
    ∃ x, d.ownInfoHash env sizes x = some h ∧ h.getHashedInfoHash env = digest
  inj : ∀ {x y h h'}, d.ownInfoHash env sizes x = some h → d.ownInfoHash env sizes y = some h' →
    h.getHashedInfoHash env = h'.getHashedInfoHash env → x = y

/-! ### File hashes of computed info hashes -/

namespace InfoHash

variable {h h' : InfoHash}

/-- With the number of pieces fixed by the lengths, no name can take in hashes of pieces. -/
lemma WellFormed.not_absorbs (hh : h.WellFormed) (hh' : h'.WellFormed) : ¬ h'.Absorbs h := by
  rintro ⟨hfile, hpiece, k, hk, hle, -, hpieces⟩
  have hlength := congrArg List.length hpieces
  rw [List.length_drop, hh.pieces_length, hh'.pieces_length, hfile, hpiece] at hlength
  rw [hh.pieces_length] at hle
  omega

lemma fullHashes_compute (env : Env) (name : String) (content : Bytes) (sizes : ℕ → ℕ) :
    (compute env name content sizes).FullHashes := by
  intro piece hpiece
  rw [compute_pieces] at hpiece
  obtain ⟨i, -, rfl⟩ := List.mem_map.mp hpiece
  exact (env.sha1 _).property

/-- What is hashed for a file names the file. -/
lemma name_of_hashInput_eq (hfull : h.FullHashes) (hfull' : h'.FullHashes) (hh : h.WellFormed)
    (hh' : h'.WellFormed) (heq : h.hashInput = h'.hashInput) : h.name = h'.name := by
  rcases (hashInput_eq_iff hfull hfull').mp heq with rfl | hab | hab
  · rfl
  · exact absurd hab (hh.not_absorbs hh')
  · exact absurd hab (hh'.not_absorbs hh)

end InfoHash

section OwnInfoHash

variable {env : Env} {sizes : EntryName → ℕ → ℕ} {d d' : Disk} {x y : EntryName} {h h' : InfoHash}

/-- Files with different names are hashed differently. -/
lemma eq_of_hashInput_eq
    (hfits : ∀ (x : EntryName) content, d.slot x.val .file = some content → content.length < 2 ^ 64)
    (hx : d.ownInfoHash env sizes x = some h) (hy : d.ownInfoHash env sizes y = some h')
    (heq : h.hashInput = h'.hashInput) : x = y := by
  obtain ⟨content, hcontent, rfl⟩ := Option.map_eq_some_iff.mp hx
  obtain ⟨content', hcontent', rfl⟩ := Option.map_eq_some_iff.mp hy
  exact EntryName.ext (InfoHash.name_of_hashInput_eq
    (InfoHash.fullHashes_compute env x.val content (sizes x))
    (InfoHash.fullHashes_compute env y.val content' (sizes y))
    (compute_wellFormed env x.val content (sizes x) (hfits x content hcontent))
    (compute_wellFormed env y.val content' (sizes y) (hfits y content' hcontent')) heq)

/-! ### The loop -/

/-- A scan of one file changes no file in `resources/files`. -/
lemma ownInfoHash_after (x : EntryName) (sizes' : ℕ → ℕ) :
    (after (d.newInfoHash env x.val sizes').2 d).ownInfoHash env sizes =
      d.ownInfoHash env sizes := by
  funext y
  rw [Disk.ownInfoHash, Disk.ownInfoHash,
    slot_after_other (onSlots_newInfoHash env d x.val sizes') fun _ => by decide]

/-- Add info hashes to a map, under their file hashes. -/
def insertAll (env : Env) (results : FileMap) (infoHashes : List InfoHash) : FileMap :=
  infoHashes.foldl (fun results h => results.insert (h.getHashedInfoHash env) h) results

/-- `InfoHash::new` looks at the file and at its `.filecache` file only. -/
lemma newInfoHash_congr {name : String} (hcache : d'.slot name .cache = d.slot name .cache)
    (hfile : d'.slot name .file = d.slot name .file) (sizes' : ℕ → ℕ) :
    d'.newInfoHash env name sizes' = d.newInfoHash env name sizes' := by
  rw [Disk.newInfoHash, Disk.newInfoHash, hcache, hfile]

variable (env sizes) in
/-- The effects of a scan, when no file is listed twice. -/
def Disk.scanEffects (d : Disk) (dir : List DirEntry) : List Effect :=
  dir.flatMap fun e => if e.isFile then (d.newInfoHash env e.name.val (sizes e.name)).2 else []

/-- A scan of one file does not matter for the others. -/
lemma scanEffects_after {dir : List DirEntry} (hx : x ∉ dir.map DirEntry.name) (sizes' : ℕ → ℕ) :
    (after (d.newInfoHash env x.val sizes').2 d).scanEffects env sizes dir
      = d.scanEffects env sizes dir := by
  unfold Disk.scanEffects
  refine List.flatMap_congr fun e he => ?_
  have hslot (s : Slot) : (after (d.newInfoHash env x.val sizes').2 d).slot e.name.val s
      = d.slot e.name.val s := by
    refine slot_after_other (onSlots_newInfoHash env d x.val sizes') fun heq => ?_
    exact absurd (heq ▸ List.mem_map_of_mem he) hx
  rw [newInfoHash_congr (hslot .cache) (hslot .file)]

variable (env sizes) in
/-- A scan in which each call of `InfoHash::new` returns the file's own info hash. -/
lemma performs_scan_of (dir : List DirEntry) (results : FileMap)
    (hnodup : (dir.map DirEntry.name).Nodup)
    (hisFile : ∀ e ∈ dir, e.isFile = (d.slot e.name.val .file).isSome)
    (hnew : ∀ e ∈ dir, ∀ h, d.ownInfoHash env sizes e.name = some h →
      (d.newInfoHash env e.name.val (sizes e.name)).1 = .ok h) :
    Performs (dir.foldlM (scanEntry env sizes) results : DiskM FileMap) d
      (.ok (insertAll env results (dir.filterMap fun e => d.ownInfoHash env sizes e.name)))
      (d.scanEffects env sizes dir) := by
  induction dir generalizing d results with
  | nil => exact .pure _
  | cons e dir ih =>
    obtain ⟨hnotMem, hnodup⟩ := List.nodup_cons.mp hnodup
    obtain ⟨hfile, hfiles⟩ := List.forall_mem_cons.mp hisFile
    obtain ⟨hresult, hresults⟩ := List.forall_mem_cons.mp hnew
    rw [List.foldlM_cons]
    cases hown : d.ownInfoHash env sizes e.name with
    | none =>
      rw [Option.map_eq_none_iff.mp hown] at hfile
      have hround :
          Performs (scanEntry env sizes results e : DiskM FileMap) d (.ok results) [] := by
        rw [scanEntry, hfile]
        exact .pure _
      have hrest := ih results hnodup hfiles hresults
      simp only [List.filterMap_cons, hown]
      rw [Disk.scanEffects, List.flatMap_cons, hfile]
      exact hround.bind hrest
    | some h =>
      obtain ⟨content, hcontent, -⟩ := Option.map_eq_some_iff.mp hown
      rw [hcontent] at hfile
      have hperforms := performs_newInfoHash env d e.name.val (sizes e.name)
      rw [hresult h hown] at hperforms
      have hround : Performs (scanEntry env sizes results e : DiskM FileMap) d
          (.ok (results.insert (h.getHashedInfoHash env) h))
          (d.newInfoHash env e.name.val (sizes e.name)).2 := by
        rw [scanEntry, hfile]
        exact hperforms.bind_nil (.pure _)
      -- the other files are as they were, and so are their `.filecache` files
      have hslots : ∀ e' ∈ dir, ∀ s,
          (after (d.newInfoHash env e.name.val (sizes e.name)).2 d).slot e'.name.val s
            = d.slot e'.name.val s := by
        intro e' he' s
        refine slot_after_other (onSlots_newInfoHash env d _ _) fun heq => ?_
        exact absurd (heq ▸ List.mem_map_of_mem he') hnotMem
      have hrest := ih (d := after (d.newInfoHash env e.name.val (sizes e.name)).2 d)
        (results.insert (h.getHashedInfoHash env) h) hnodup
        (fun e' he' => by rw [hslots e' he', hfiles e' he'])
        (fun e' he' h' hown' => by
          rw [ownInfoHash_after] at hown'
          rw [newInfoHash_congr (hslots e' he' .cache) (hslots e' he' .file)]
          exact hresults e' he' h' hown')
      rw [ownInfoHash_after, scanEffects_after hnotMem] at hrest
      simp only [List.filterMap_cons, hown]
      rw [Disk.scanEffects, List.flatMap_cons, hfile]
      exact hround.bind hrest

variable (env sizes) in
lemma performs_scan (dir : List DirEntry) (results : FileMap)
    (hnodup : (dir.map DirEntry.name).Nodup)
    (hisFile : ∀ e ∈ dir, e.isFile = (d.slot e.name.val .file).isSome)
    (hcache : ∀ e ∈ dir, e.isFile = true → d.slot e.name.val .cache = none) :
    ∃ es, Performs (dir.foldlM (scanEntry env sizes) results : DiskM FileMap) d
      (.ok (insertAll env results (dir.filterMap fun e => d.ownInfoHash env sizes e.name))) es := by
  refine ⟨_, performs_scan_of env sizes dir results hnodup hisFile fun e he h hown => ?_⟩
  obtain ⟨content, hcontent, rfl⟩ := Option.map_eq_some_iff.mp hown
  have hfile : e.isFile = true := by rw [hisFile e he, hcontent]; rfl
  rw [Disk.newInfoHash, hcache e he hfile, hcontent]

/-- Where the file hashes tell the info hashes apart, each is found under its own. -/
lemma lookup_insertAll {infoHashes : List InfoHash} {digest : Digest}
    (hinj : ∀ h ∈ infoHashes, ∀ h' ∈ infoHashes,
      h.getHashedInfoHash env = h'.getHashedInfoHash env → h = h') :
    (insertAll env ∅ infoHashes).lookup digest = some h ↔
      h ∈ infoHashes ∧ h.getHashedInfoHash env = digest := by
  induction infoHashes using List.reverseRecOn with
  | nil => simp [insertAll]
  | append_singleton infoHashes last ih =>
    have hinsert : insertAll env ∅ (infoHashes ++ [last])
        = (insertAll env ∅ infoHashes).insert (last.getHashedInfoHash env) last :=
      List.foldl_append
    rw [hinsert]
    by_cases hdigest : digest = last.getHashedInfoHash env
    · subst hdigest
      rw [AList.lookup_insert, Option.some_inj]
      constructor
      · rintro rfl
        exact ⟨List.mem_append_right _ List.mem_cons_self, rfl⟩
      · rintro ⟨hmem, heq⟩
        exact (hinj h hmem last (by simp) heq).symm
    · rw [AList.lookup_insert_ne hdigest, ih fun h hh h' hh' =>
        hinj h (List.mem_append_left _ hh) h' (List.mem_append_left _ hh')]
      constructor
      · rintro ⟨hmem, heq⟩
        exact ⟨List.mem_append_left _ hmem, heq⟩
      · rintro ⟨hmem, rfl⟩
        rcases List.mem_append.mp hmem with hmem | hmem
        · exact ⟨hmem, rfl⟩
        · exact absurd (congrArg _ (List.mem_singleton.mp hmem)) hdigest

/-- The scan of a folder without `.filecache` files returns a map that covers the files, unless
SHA-1 collides on what is hashed for two of them. -/
theorem getInfoHashes_complete {dir : List DirEntry} (hlist : Lists dir d)
    (hcache : ∀ x : EntryName, (d.slot x.val .file).isSome = true → d.slot x.val .cache = none)
    (hfits : ∀ (x : EntryName) content, d.slot x.val .file = some content → content.length < 2 ^ 64)
    (hsha1 : Set.InjOn env.sha1
      {bytes | ∃ x h, d.ownInfoHash env sizes x = some h ∧ h.hashInput = bytes}) :
    ∃ results, (runFrom (getInfoHashes env sizes dir : DiskM FileMap) d).1 = .ok results ∧
      MapsFiles env sizes d results := by
  have hkeys : ∀ x y h h', d.ownInfoHash env sizes x = some h →
      d.ownInfoHash env sizes y = some h' →
        h.getHashedInfoHash env = h'.getHashedInfoHash env → x = y := by
    intro x y h h' hx hy heq
    exact eq_of_hashInput_eq hfits hx hy (hsha1 ⟨x, h, hx, rfl⟩ ⟨y, h', hy, rfl⟩ heq)
  obtain ⟨es, hes⟩ := performs_scan env sizes dir ∅ hlist.nodup hlist.isFile
    fun e he hfile => hcache e.name (hlist.isFile e he ▸ hfile)
  have hmem : ∀ h, h ∈ dir.filterMap (fun e => d.ownInfoHash env sizes e.name) ↔
      ∃ x, d.ownInfoHash env sizes x = some h := by
    intro h
    rw [List.mem_filterMap]
    constructor
    · rintro ⟨e, -, he⟩
      exact ⟨e.name, he⟩
    · rintro ⟨x, hx⟩
      obtain ⟨content, hcontent, -⟩ := Option.map_eq_some_iff.mp hx
      obtain ⟨e, he, rfl⟩ := hlist.complete x (by rw [hcontent]; rfl)
      exact ⟨e, he, hx⟩
  refine ⟨_, congrArg Prod.fst hes.runFrom_eq, fun digest h => ?_, hkeys _ _ _ _⟩
  rw [lookup_insertAll]
  · rw [hmem, exists_and_right]
  · intro h hh h' hh' heq
    obtain ⟨x, hx⟩ := (hmem h).mp hh
    obtain ⟨y, hy⟩ := (hmem h').mp hh'
    obtain rfl := hkeys x y h h' hx hy heq
    exact Option.some.inj (hx.symm.trans hy)

end OwnInfoHash

end BearTorrent
