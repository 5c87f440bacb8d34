import BearTorrent.Client.Rescan
import BearTorrent.Client.Swarm

/-!
# A file that spreads

A client that has downloaded a file shares it from its next start on: the scan finds the file and
makes of it the info hash that was asked for. So a file goes on from client to client, each of which
downloads it from some that have it.
-/

namespace BearTorrent

open FileSystem Effects Pipeline

namespace Swarm

variable {env : Env} {x : EntryName} {content : Bytes} {σ : Store} {fileMap : FileMap}

/-- A client starts: the finished files on the disk it scans are those of the store, and the scan
returns the file map. -/
structure Start (env : Env) (σ : Store) (fileMap : FileMap) where
  disk : Disk
  dir : List DirEntry
  sizes : EntryName → ℕ → ℕ
  current : CachesCurrent env disk
  lists : Lists dir disk
  file : ∀ x : EntryName, disk.slot x.val .file = σ.lookup (filePath x.val)
  isLine : ∀ x : EntryName, (disk.slot x.val .file).isSome = true → TextFormat.IsLine x.val.toList
  keys : ∀ x y h h', disk.ownInfoHash env sizes x = some h →
    disk.ownInfoHash env sizes y = some h' →
      h.getHashedInfoHash env = h'.getHashedInfoHash env → x = y
  scan : (runFrom (getInfoHashes env sizes dir : DiskM FileMap) disk).1 = .ok fileMap

/-- The download of a file, from `k` connections. -/
def request (env : Env) (x : EntryName) (content : Bytes) (k : ℕ) : Config :=
  let infoHash := InfoHash.compute env x.val content fun _ => 1
  ⟨env, infoHash, infoHash.getHashedInfoHash env, k⟩

/-- A client that has the file shares it once it has started. -/
lemma Start.shares (hs : Start env σ fileMap) (hfile : σ.lookup (filePath x.val) = some content)
    (k : ℕ) : Shares (request env x content k) content fileMap σ := by
  obtain ⟨results, hresults, hlookup⟩ :=
    performs_getInfoHashes hs.current hs.lists hs.isLine hs.keys
  have hscan := hs.scan
  rw [hresults.runFrom_eq] at hscan
  obtain rfl := Except.ok.inj hscan
  refine ⟨(hlookup _ _).mpr ⟨x, ?_, rfl⟩, hfile⟩
  rw [Disk.ownInfoHash, hs.file, hfile, Option.map_some]
  exact congrArg some (compute_sizes env x.val content (hs.sizes x) fun _ => 1)

/-- Clients that have the file: it was placed in their folder, or they have downloaded it from
clients that had it. -/
inductive Has (env : Env) (x : EntryName) (content : Bytes) : Store → Prop
  | placed {σ : Store} (hfile : σ.lookup (filePath x.val) = some content) : Has env x content σ
  | downloaded {k : ℕ} {σ : Store} {fileMaps : ConnId → FileMap} {disks : ConnId → Store}
    {tr : List (Swarm × Action)} {s : Swarm} (hk : 0 < k) (hσ : Fresh σ x.val)
    (hseeders : ∀ c < k, Has env x content (disks c))
    (hstart : ∀ c < k, Nonempty (Start env (disks c) (fileMaps c)))
    (hrun : Transition.Run (step (request env x content k) fileMaps)
      (init (request env x content k) σ disks) tr s)
    (hstuck : ∀ a, s.step (request env x content k) fileMaps a = none) :
    Has env x content s.leecher.store

/-- However often a file is downloaded from clients that have downloaded it, it stays the same, and
those that have it share it once they have started. -/
theorem file_spreads (env : Env) (x : EntryName) (content : Bytes) (hne : content ≠ [])
    (hmax : content.length ≤ 2 ^ 32) {σ : Store} (h : Has env x content σ) :
    σ.lookup (filePath x.val) = some content ∧
      ∀ fileMap, Nonempty (Start env σ fileMap) →
        ∀ k, Shares (request env x content k) content fileMap σ := by
  have hfile : σ.lookup (filePath x.val) = some content := by
    induction h with
    | placed hfile => exact hfile
    | @downloaded k σ fileMaps disks tr s hk hσ _ hstart hrun hstuck ih =>
      have hd : Describes env (request env x content k).infoHash content :=
        compute_describes x.val (fun _ => 1) (hmax.trans_lt (by decide))
      have hshares : ∀ c < k, Shares (request env x content k) content (fileMaps c) (disks c) := by
        intro c hc
        obtain ⟨hs⟩ := hstart c hc
        exact hs.shares (ih c hc) k
      have hcompleted := (completed_of_stuck hd hmax hk (hd.pieces_pos hne) hσ
        (fun s a t hs h => hs.step_cases rfl hmax hshares h) hrun hstuck).1
      exact congrArg Download.file hcompleted.file
  exact ⟨hfile, fun fileMap ⟨hs⟩ => hs.shares hfile⟩

/-! ### The second generation of one byte -/

section OneByte

open CacheHistory (scanEnv entryA)

/-- The info hash of the byte, where everything has the same hash. -/
def byteHash : InfoHash := ⟨"a", 1, 65536, [⟨Digest.zero.val⟩]⟩

lemma compute_byte : InfoHash.compute scanEnv "a" [1] (fun _ => 1) = byteHash := by
  have hpieces : (InfoHash.compute scanEnv "a" [1] fun _ => 1).pieces
      = List.replicate 1 ⟨Digest.zero.val⟩ := by
    refine List.eq_replicate_iff.mpr ⟨length_pieces_letter, fun piece hpiece => ?_⟩
    rw [compute_pieces] at hpiece
    obtain ⟨i, -, rfl⟩ := List.mem_map.mp hpiece
    rfl
  rw [InfoHash.mk.injEq]
  exact ⟨rfl, rfl, rfl, hpieces⟩

/-- The byte, from two connections. -/
def byteConfig : Config := ⟨scanEnv, byteHash, Digest.zero, 2⟩

lemma request_byte : request scanEnv entryA [1] 2 = byteConfig := by
  have hname : entryA.val = "a" := rfl
  rw [request, hname, compute_byte]
  rfl

def byteStore : Store := AList.insert (filePath "a") [1] ∅

def byteMap : FileMap := AList.insert Digest.zero byteHash ∅

lemma ownInfoHash_entryA :
    (oneByteDisk "a").ownInfoHash scanEnv (fun _ _ => 1) entryA = some byteHash := by
  rw [Disk.ownInfoHash, slot_entryA, Option.map_some]
  exact congrArg some compute_byte

lemma slot_cache_oneByteDisk (x : EntryName) : (oneByteDisk "a").slot x.val .cache = none := by
  rw [oneByteDisk, Disk.slot, Disk.content_set, if_neg]
  · rfl
  · intro heq
    have hslots := (EntryName.locate_inj [] (y := entryA) (s := .cache) (t := .file)).mp heq
    exact Slot.noConfusion hslots.2

lemma lookup_byteStore_self : byteStore.lookup (filePath entryA.val) = some [1] :=
  AList.lookup_insert _

lemma lookup_byteStore (hx : x ≠ entryA) : byteStore.lookup (filePath x.val) = none := by
  have hne : filePath x.val ≠ filePath "a" := fun heq =>
    hx ((EntryName.locate_inj [] (y := entryA) (s := .file) (t := .file)).mp
      (congrArg (LexicalPath.resolve []) heq)).1
  rw [byteStore, AList.lookup_insert_ne hne]
  rfl

/-- The first client scans its byte. -/
def byteStart : Start scanEnv byteStore byteMap where
  disk := oneByteDisk "a"
  dir := [⟨entryA, true⟩]
  sizes := fun _ _ => 1
  current x text htext := by
    rw [slot_cache_oneByteDisk] at htext
    cases htext
  lists := lists_entryA
  file x := by
    by_cases hx : x = entryA
    · subst hx
      rw [slot_entryA, lookup_byteStore_self]
    · rw [lookup_byteStore hx, ← Option.not_isSome_iff_eq_none]
      exact fun hfile => hx (eq_entryA hfile)
  isLine x hx := by
    rw [eq_entryA hx]
    exact ⟨by decide, by decide⟩
  keys x y h h' hx hy _ := by
    have hfile : ∀ {z h}, (oneByteDisk "a").ownInfoHash scanEnv (fun _ _ => 1) z = some h →
        z = entryA := fun hz => by
      obtain ⟨content, hcontent, -⟩ := Option.map_eq_some_iff.mp hz
      exact eq_entryA (Option.isSome_iff_exists.mpr ⟨content, hcontent⟩)
    rw [hfile hx, hfile hy]
  scan := by
    have hscan := performs_scan_of scanEnv (fun _ _ => 1) [⟨entryA, true⟩] ∅ lists_entryA.nodup
      lists_entryA.isFile fun e he h hown => by
        obtain rfl := List.mem_singleton.mp he
        obtain ⟨content, hcontent, rfl⟩ := Option.map_eq_some_iff.mp hown
        rw [Disk.newInfoHash, slot_cache_oneByteDisk, hcontent]
    rw [getInfoHashes, hscan.runFrom_eq]
    simp only [List.filterMap_cons, List.filterMap_nil, ownInfoHash_entryA]
    rfl

theorem file_spreads_byte : ∃ tr s,
    Transition.Run (step byteConfig fun _ => byteMap) (init byteConfig ∅ fun _ => byteStore) tr s ∧
      s.leecher.store.lookup (filePath "a") = some [1] := by
  obtain ⟨s, hexec, hsend, hre, h₀, h₁, hc₀, hc₁⟩ : ∃ s,
      Transition.exec (step byteConfig fun _ => byteMap)
        (init byteConfig ∅ fun _ => byteStore) letterActions = some s ∧
      s.leecher.step byteConfig .send = none ∧ s.leecher.step byteConfig .reassemble = none ∧
      (s.leecher.conns 0).running = false ∧ (s.leecher.conns 1).running = false ∧
      (s.leecher.conns 0).hand = none ∧ (s.leecher.conns 1).hand = none :=
    ⟨_, rfl, rfl, rfl, rfl, rfl, rfl, rfl⟩
  have hconns : ∀ c < byteConfig.numConnections,
      (s.leecher.conns c).running = false ∧ (s.leecher.conns c).hand = none := by
    intro c hc
    rcases Nat.le_one_iff_eq_zero_or_eq_one.mp (Nat.le_of_lt_succ hc) with rfl | rfl
    · exact ⟨h₀, hc₀⟩
    · exact ⟨h₁, hc₁⟩
  obtain ⟨tr, hrun, -⟩ := Transition.run_of_exec hexec
  have hstuck : ∀ a, s.step byteConfig (fun _ => byteMap) a = none := step_eq_none hsend hre hconns
  have hplaced : Has scanEnv entryA [1] byteStore := .placed lookup_byteStore_self
  have hhas : Has scanEnv entryA [1] s.leecher.store :=
    .downloaded (k := 2) (σ := ∅) (by decide) rfl (fun _ _ => hplaced) (fun _ _ => ⟨byteStart⟩)
      (request_byte ▸ hrun) (request_byte ▸ hstuck)
  exact ⟨tr, s, hrun, (file_spreads scanEnv entryA [1] (by decide) (by decide) hhas).1⟩

end OneByte

end Swarm

end BearTorrent
