import BearTorrent.Client.FolderEffects
import BearTorrent.Client.FolderScan

/-!
# The scan and the length of names

The `.filecache` file of a file has a longer name than the file. Where the file system does not
take it, `get_file_cache` panics, and with it the scan. A scan among folders returns a map that
covers the files exactly when the names of all `.filecache` files fit.
-/

namespace BearTorrent

open FileSystem Effects LexicalPath

/-- These are called for files only. -/
instance : FileReader FolderM where
  length path := onPlace path (FileReader.length path)
  contents path := onPlace path (FileReader.contents path)

/-- The names in `resources/files` are names of files, and nothing has the name of a `.filecache`
file of one of them. -/
structure Unscanned (t : FolderTree) (d : Disk) : Prop where
  resources : HasResources t d.cwd
  nul : ∀ x : EntryName, (d.slot x.val .file).isSome = true → '\x00' ∉ x.val.toList
  file : ∀ x : EntryName, (d.slot x.val .file).isSome = true →
    t.folders (locate d.cwd x.val .file) = false
  cache : ∀ x : EntryName, (d.slot x.val .file).isSome = true → d.slot x.val .cache = none
  cacheFolder : ∀ x : EntryName, (d.slot x.val .file).isSome = true →
    t.folders (locate d.cwd x.val .cache) = false

/-- The file system takes the name of the `.filecache` file. -/
def CacheFits (t : FolderTree) (x : EntryName) : Prop := byteLength x.val.toList + 10 ≤ t.nameMax

instance (t : FolderTree) (x : EntryName) : Decidable (CacheFits t x) :=
  inferInstanceAs (Decidable (_ ≤ _))

section Paths

variable {t : FolderTree} {cwd : Location} {x : EntryName} {s : Slot} {isFile : Location → Bool}

/-- The name of the folder of a file. -/
def Slot.folderName : Slot → List Char
  | .file => "files".toList
  | _     => "cache".toList

lemma components_path (x : EntryName) (s : Slot) : components (s.path x.val).toList
    = ["resources".toList, s.folderName, x.val.toList ++ s.extension] := by
  have hcache {extension : String} (h : '/' ∉ extension.toList) :
      components (tempFileName x.val extension "cache").toList
        = ["resources".toList, "cache".toList, x.val.toList ++ extension.toList] := by
    rw [components_cache x.val h, folders_of_notMem x.notMem, fileName_of_notMem x.notMem,
      List.nil_append]
  have hfile : components (filePath x.val).toList
      = ["resources".toList, "files".toList, x.val.toList ++ []] := by
    rw [components_files, components_of_notMem x.notMem, List.append_nil]
  cases s with
  | part  => exact hcache (by decide)
  | info  => exact hcache (by decide)
  | cache => exact hcache (by decide)
  | file  => exact hfile

/-- A path in the folders of the client is followed unless its last name is too long. -/
lemma reach_path (h : HasResources t cwd) (hnul : '\x00' ∉ x.val.toList) :
    t.reach isFile cwd (s.path x.val)
      = if t.nameMax < byteLength (x.val.toList ++ s.extension) then .error .nameTooLong
        else .ok () := by
  have hmem : '\x00' ∉ (s.path x.val).toList := fun h => hnul (nul_mem_path_iff.mp h)
  have hresources : t.folders (enter cwd "resources".toList) = true :=
    t.parent _ _ h.cache
  have hfolder : t.folders (enter (enter cwd "resources".toList) s.folderName) = true := by
    cases s with
    | file => exact h.files
    | _ => exact h.cache
  have hshort : ¬ t.nameMax < byteLength "resources".toList := Nat.not_lt.mpr h.names
  have hshort' : ¬ t.nameMax < byteLength s.folderName := by
    have hfive : byteLength s.folderName = 5 := by cases s <;> rfl
    have hnine := h.names
    omega
  rw [FolderTree.reach, if_neg hmem, components_path]
  simp only [FolderTree.follow, if_neg hshort, if_neg hshort', hresources, hfolder, if_true]

lemma free_path (h : HasResources t cwd) (hnul : '\x00' ∉ x.val.toList)
    (hfits : byteLength (x.val.toList ++ s.extension) ≤ t.nameMax)
    (hfolder : t.folders (locate cwd x.val s) = false) : t.Free cwd (s.path x.val) := by
  have hreach : t.reach (fun _ => false) cwd (s.path x.val) = .ok () := by
    rw [reach_path h hnul, if_neg (Nat.not_lt.mpr hfits)]
  exact FolderTree.free_of_reach hreach hfolder

end Paths

/-! ### Where the names fit -/

section Fits

variable {env : Env} {sizes : EntryName → ℕ → ℕ} {t : FolderTree} {d : Disk} {x : EntryName}
  {dir : List DirEntry}

namespace SameAs

variable {cwd : Location} {path : String}

lemma length (hfree : t.Free cwd path) :
    SameAs t cwd (fun _ => True) (FileReader.length path : FolderM _) (FileReader.length path) :=
  onPlace hfree (cwd_onFile fun _ _ _ => rfl)

lemma contents (hfree : t.Free cwd path) :
    SameAs t cwd (fun _ => True) (FileReader.contents path : FolderM _)
      (FileReader.contents path) :=
  onPlace hfree (cwd_onFile fun _ _ _ => rfl)

lemma writeLines (hfree : t.Free cwd path) (offset : ℕ) (ls : List (List Char)) :
    SameAs t cwd (fun _ => True) (writeLines path offset ls : FolderM Unit)
      (writeLines path offset ls) := by
  induction ls generalizing offset with
  | nil => exact pure trivial
  | cons line ls ih => exact (writeAllAt hfree offset _).bind fun _ _ => ih _

lemma newInfoHash (hcache : t.Free cwd (fileCachePath x.val)) (hfile : t.Free cwd (filePath x.val))
    (sizes : ℕ → ℕ) :
    SameAs t cwd (fun _ => True) (newInfoHash env x.val sizes : FolderM _)
      (newInfoHash env x.val sizes) := by
  refine (getTempFile hcache).unwrap.bind fun found hpath => ?_
  obtain ⟨path, isNew⟩ := found
  obtain rfl : path = fileCachePath x.val := hpath
  cases isNew with
  | true => exact (contents hcache).bind fun _ _ => ofExcept _
  | false =>
    exact (length hfile).bind fun _ _ => (contents hfile).bind fun _ _ =>
      (writeLines hcache _ _).bind fun _ _ => pure trivial

variable (env sizes dir) in
/-- A scan of files whose paths are free does the same as on a disk alone. -/
lemma scan (hfree : ∀ e ∈ dir, e.isFile = true →
      t.Free cwd (fileCachePath e.name.val) ∧ t.Free cwd (filePath e.name.val))
    (results : FileMap) :
    SameAs t cwd (fun _ => True) (dir.foldlM (scanEntry env sizes) results : FolderM FileMap)
      (dir.foldlM (scanEntry env sizes) results) := by
  induction dir generalizing results with
  | nil => exact pure trivial
  | cons e dir ih =>
    obtain ⟨he, hdir⟩ := List.forall_mem_cons.mp hfree
    refine SameAs.bind (Q := fun _ => True) ?_ fun results _ => ih hdir results
    rw [scanEntry, scanEntry]
    split_ifs with hisFile
    · exact (newInfoHash (he hisFile).1 (he hisFile).2 _).bind fun _ _ => pure trivial
    · exact pure trivial

end SameAs

lemma byteLength_cache (x : EntryName) :
    byteLength (x.val.toList ++ Slot.cache.extension) = byteLength x.val.toList + 10 :=
  byteLength_append _ _

/-- The paths of a file that the scan uses are free when the longer one fits. -/
lemma Unscanned.free (h : Unscanned t d) (hfile : (d.slot x.val .file).isSome = true)
    (hfits : CacheFits t x) :
    t.Free d.cwd (fileCachePath x.val) ∧ t.Free d.cwd (filePath x.val) := by
  have hcache : byteLength (x.val.toList ++ Slot.cache.extension) ≤ t.nameMax := by
    rw [byteLength_cache]
    exact hfits
  have hname : byteLength (x.val.toList ++ Slot.file.extension) ≤ t.nameMax := by
    rw [byteLength_append] at hcache ⊢
    exact (Nat.add_le_add_left (Nat.zero_le _) _).trans hcache
  exact ⟨free_path (s := .cache) h.resources (h.nul x hfile) hcache (h.cacheFolder x hfile),
    free_path (s := .file) h.resources (h.nul x hfile) hname (h.file x hfile)⟩

/-! ### Where a name is too long -/

lemma performs_getFileCache_long (h : Unscanned t d) (hfile : (d.slot x.val .file).isSome = true)
    (hlong : ¬ CacheFits t x) {d' : Disk} (hcwd : d'.cwd = d.cwd) :
    Performs ((getFileCache x.val : FolderM _) t) d' (.error .panic) [] := by
  have hreach : d'.reach t (fileCachePath x.val) = .error .nameTooLong := by
    refine (reach_path (s := .cache) (hcwd ▸ h.resources) (h.nul x hfile)).trans ?_
    rw [byteLength_cache, if_pos (Nat.lt_of_not_le hlong)]
  have hexists : Performs ((pathExists (fileCachePath x.val) : FolderM Bool) t) d'
      (.error (followFault .nameTooLong)) [] := by
    refine Performs.getState.bind ?_
    rw [after_nil, hreach]
    exact .throw _
  exact hexists.bind_error.tryCatch_error (.throw Fault.panic)

variable (env sizes) in
/-- The scan gets to the first file whose `.filecache` file has too long a name, and panics. -/
lemma performs_scan_long (hlist : Lists dir d) (h : Unscanned t d) {e : DirEntry} (he : e ∈ dir)
    (hisFile : e.isFile = true) (hlong : ¬ CacheFits t e.name) :
    ∃ es, Performs ((getInfoHashes env sizes dir : FolderM FileMap) t) d (.error .panic) es := by
  have hfind : (dir.find? fun e => e.isFile && !decide (CacheFits t e.name)).isSome = true :=
    List.find?_isSome.mpr ⟨e, he, by simp [hisFile, hlong]⟩
  obtain ⟨e, hfind⟩ := Option.isSome_iff_exists.mp hfind
  obtain ⟨hbad, front, back, rfl, hfront⟩ := List.find?_eq_some_iff_append.mp hfind
  simp only [Bool.and_eq_true, Bool.not_eq_true', decide_eq_false_iff_not] at hbad
  have hfile (e : DirEntry) (he : e ∈ front) (hisFile : e.isFile = true) :
      (d.slot e.name.val .file).isSome = true := by
    rw [← hlist.isFile e (List.mem_append_left _ he), hisFile]
  -- the entries before it are scanned as on a disk alone
  have hnodup : (front.map DirEntry.name).Nodup :=
    (List.nodup_append.mp (List.map_append ▸ hlist.nodup)).1
  obtain ⟨es, hes⟩ := performs_scan env sizes front ∅ hnodup
    (fun e he => hlist.isFile e (List.mem_append_left _ he))
    fun e he hisFile => h.cache e.name (hfile e he hisFile)
  have hsame := SameAs.scan env sizes front
    (fun e he hisFile => h.free (hfile e he hisFile) (by simpa [hisFile] using hfront e he)) ∅
  have hrest (results : FileMap) : Performs
      (((e :: back).foldlM (scanEntry env sizes) results : FolderM FileMap) t) (after es d)
      (.error .panic) [] := by
    have hcache := performs_getFileCache_long h
      ((hlist.isFile e (by simp)).symm.trans hbad.1) hbad.2 (cwd_after es d)
    have hround : Performs ((scanEntry env sizes results e : FolderM FileMap) t) (after es d)
        (.error .panic) [] := by
      rw [scanEntry, if_pos hbad.1]
      exact hcache.bind_error.bind_error
    exact hround.bind_error
  refine ⟨es, ?_⟩
  rw [getInfoHashes, List.foldlM_append]
  exact (hsame.performs rfl hes).bind_nil (hrest _)

/-- The scan of a folder without `.filecache` files returns a map that covers the files exactly
when the file system takes the names of their `.filecache` files, unless SHA-1 collides on what is
hashed for two of them. -/
theorem getInfoHashes_complete_iff (hlist : Lists dir d) (h : Unscanned t d)
    (hfits : ∀ (x : EntryName) content, d.slot x.val .file = some content → content.length < 2 ^ 64)
    (hsha1 : Set.InjOn env.sha1
      {bytes | ∃ x h, d.ownInfoHash env sizes x = some h ∧ h.hashInput = bytes}) :
    (∃ results,
      (runFrom ((getInfoHashes env sizes dir : FolderM FileMap) t) d).1 = .ok results ∧
        MapsFiles env sizes d results) ↔
      ∀ x : EntryName, (d.slot x.val .file).isSome = true →
        byteLength x.val.toList + 10 ≤ t.nameMax := by
  constructor
  · rintro ⟨results, hrun, -⟩ x hx
    by_contra hlong
    obtain ⟨e, he, rfl⟩ := hlist.complete x hx
    obtain ⟨es, hes⟩ := performs_scan_long env sizes hlist h he
      ((hlist.isFile e he).trans hx) hlong
    rw [hes.runFrom_eq] at hrun
    cases hrun
  · intro hshort
    obtain ⟨results, hrun, hmaps⟩ := getInfoHashes_complete hlist h.cache hfits hsha1
    have hfree : ∀ e ∈ dir, e.isFile = true →
        t.Free d.cwd (fileCachePath e.name.val) ∧ t.Free d.cwd (filePath e.name.val) := by
      intro e he hisFile
      have hfile := (hlist.isFile e he).symm.trans hisFile
      exact h.free hfile (hshort e.name hfile)
    have hsame := SameAs.scan env sizes dir hfree ∅
    refine ⟨results, ?_, hmaps⟩
    rw [← hrun]
    exact congrArg Prod.fst (hsame d [] rfl).1

end Fits

/-! ### A folder with two empty files -/

def entryB : EntryName := ⟨"b", ⟨by decide, by decide, by decide⟩, by decide⟩

/-- Two empty files and no cache. -/
def twoFiles : Disk where
  cwd := []
  files loc :=
    if loc = locate [] CacheHistory.entryA.val .file ∨ loc = locate [] entryB.val .file then some []
    else none

lemma slot_twoFiles (x : EntryName) (s : Slot) : twoFiles.slot x.val s =
    if (x = CacheHistory.entryA ∨ x = entryB) ∧ s = .file then some [] else none := by
  change (if locate [] x.val s = _ ∨ locate [] x.val s = _ then _ else _) = _
  simp only [EntryName.locate_inj, ← or_and_right]

/-- SHA-1 of what is hashed for the two files. -/
def twoFilesEnv : Env where
  sha1 bytes :=
    if bytes = [0, 0, 0, 0, 0, 0, 0, 0, 0, 1, 0, 0, 97] then Seeding.emptyDigest
    else if bytes = [0, 0, 0, 0, 0, 0, 0, 0, 0, 1, 0, 0, 98] then
      ⟨[189, 247, 106, 221, 207, 63, 237, 4, 23, 243, 23, 180, 27, 90, 255, 153, 143, 230, 87, 250],
        rfl⟩
    else Digest.zero
  overflowChecks := true

/-- An empty file has no pieces. -/
lemma compute_empty (env : Env) (name : String) (sizes : ℕ → ℕ) :
    InfoHash.compute env name [] sizes = ⟨name, 0, 65536, []⟩ := by
  have hpieces := compute_pieces_length env name [] sizes
  rw [compute_pieceLength] at hpieces
  have hnone : (InfoHash.compute env name [] sizes).pieces = [] :=
    List.length_eq_zero_iff.mp (hpieces.trans (by decide))
  rw [InfoHash.mk.injEq]
  exact ⟨rfl, rfl, rfl, hnone⟩

lemma ownInfoHash_twoFiles {sizes : EntryName → ℕ → ℕ} {x : EntryName} {h : InfoHash}
    (hx : twoFiles.ownInfoHash twoFilesEnv sizes x = some h) :
    h = ⟨"a", 0, 65536, []⟩ ∨ h = ⟨"b", 0, 65536, []⟩ := by
  obtain ⟨content, hcontent, rfl⟩ := Option.map_eq_some_iff.mp hx
  rw [slot_twoFiles] at hcontent
  split_ifs at hcontent with hname
  obtain rfl := Option.some.inj hcontent
  rw [compute_empty]
  rcases hname.1 with rfl | rfl
  · exact .inl rfl
  · exact .inr rfl

/-- The two files, in some order. -/
def twoEntries : List DirEntry := [⟨entryB, true⟩, ⟨CacheHistory.entryA, true⟩]

lemma lists_twoEntries : Lists twoEntries twoFiles where
  nodup := by decide
  isFile e he := by
    rw [slot_twoFiles]
    rcases List.mem_pair.mp he with rfl | rfl <;> rfl
  complete x hx := by
    rw [slot_twoFiles] at hx
    split_ifs at hx with hname
    · rcases hname.1 with rfl | rfl
      · exact ⟨⟨CacheHistory.entryA, true⟩, by simp [twoEntries], rfl⟩
      · exact ⟨⟨entryB, true⟩, by simp [twoEntries], rfl⟩
    · cases hx

/-- The two folders of a client in the root, and names of at most 255 bytes. -/
def rootTree : FolderTree := .around [cacheFolder [], filesFolder []] 255

lemma hasResources_rootTree : HasResources rootTree [] := ⟨by decide, by decide, by decide⟩

/-- Neither a file nor a `.filecache` file is at the place of a folder. -/
lemma folders_rootTree (x : EntryName) (s : Slot) :
    rootTree.folders (locate [] x.val s) = false := by
  rw [Bool.eq_false_iff, rootTree, ne_eq, FolderTree.folders_around]
  rintro ⟨folder, hfolder, hsuffix⟩
  have hlength : folder.length = 2 := by
    rcases List.mem_pair.mp hfolder with rfl | rfl <;> rfl
  have hle := hsuffix.length_le
  rw [EntryName.locate_eq, List.length_cons, Slot.length_folder, hlength] at hle
  exact absurd hle (by decide)

lemma unscanned_twoFiles : Unscanned rootTree twoFiles := by
  have hname {x : EntryName} (hx : (twoFiles.slot x.val .file).isSome = true) :
      x = CacheHistory.entryA ∨ x = entryB := by
    rw [slot_twoFiles] at hx
    split_ifs at hx with h
    · exact h.1
    · cases hx
  refine ⟨hasResources_rootTree, fun x hx => ?_, fun x _ => folders_rootTree x .file, fun x _ => ?_,
    fun x _ => folders_rootTree x .cache⟩
  · rcases hname hx with rfl | rfl <;> decide
  · rw [slot_twoFiles, if_neg fun h => absurd h.2 (by decide)]

theorem getInfoHashes_complete_iff_two :
    ∃ results, (runFrom ((getInfoHashes twoFilesEnv (fun _ _ => 1) twoEntries :
        FolderM FileMap) rootTree) twoFiles).1 = .ok results ∧
      ∃ digest, results.lookup digest = some ⟨"a", 0, 65536, []⟩ := by
  obtain ⟨results, hrun, hmaps⟩ :=
    (@getInfoHashes_complete_iff twoFilesEnv (fun _ _ => 1) rootTree twoFiles twoEntries
      lists_twoEntries unscanned_twoFiles
      (by
        intro x content hcontent
        rw [slot_twoFiles] at hcontent
        split_ifs at hcontent
        obtain rfl := Option.some.inj hcontent
        decide)
      (by
        rintro bytes ⟨x, h, hx, rfl⟩ bytes' ⟨y, h', hy, rfl⟩ heq
        rcases ownInfoHash_twoFiles hx with rfl | rfl <;>
          rcases ownInfoHash_twoFiles hy with rfl | rfl <;>
          first | rfl | exact absurd heq (by decide +kernel))).mpr (by
        intro x hx
        rw [slot_twoFiles] at hx
        split_ifs at hx with hname
        · rcases hname.1 with rfl | rfl <;> decide
        · cases hx)
  refine ⟨results, hrun, _, (hmaps.lookup _ _).mpr ⟨CacheHistory.entryA, ?_, rfl⟩⟩
  rw [Disk.ownInfoHash, slot_twoFiles, if_pos ⟨.inl rfl, rfl⟩, Option.map_some, compute_empty]
  rfl

/-! ### A folder with a name of 246 letters -/

lemma byteLength_replicate (n : ℕ) : byteLength (List.replicate n 'a') = n := by
  induction n with
  | zero => rfl
  | succ n ih =>
    rw [List.replicate_succ, byteLength, ih]
    exact Nat.add_comm 1 n

/-- A name of 246 letters. -/
def longEntry : EntryName where
  val := String.ofList (List.replicate 246 'a')
  plain := by
    rw [String.toList_ofList]
    exact plain_of_length (by rw [List.length_replicate]; decide)
  notMem := by
    rw [String.toList_ofList]
    exact fun h => absurd (List.eq_of_mem_replicate h) (by decide)

lemma toList_longEntry : longEntry.val.toList = List.replicate 246 'a' := String.toList_ofList

/-- One empty file with that name. -/
def longFile : Disk where
  cwd := []
  files loc := if loc = locate [] longEntry.val .file then some [] else none

lemma slot_longFile (x : EntryName) (s : Slot) :
    longFile.slot x.val s = if x = longEntry ∧ s = .file then some [] else none := by
  change (if locate [] x.val s = _ then _ else _) = _
  simp only [EntryName.locate_inj]

lemma longEntry_of_isSome {x : EntryName} (hx : (longFile.slot x.val .file).isSome = true) :
    x = longEntry := by
  rw [slot_longFile] at hx
  split_ifs at hx with h
  · exact h.1
  · cases hx

lemma lists_longFile : Lists [⟨longEntry, true⟩] longFile where
  nodup := List.nodup_singleton _
  isFile e he := by
    obtain rfl := List.mem_singleton.mp he
    rw [slot_longFile, if_pos ⟨rfl, rfl⟩]
    rfl
  complete x hx := ⟨_, List.mem_cons_self, (longEntry_of_isSome hx).symm⟩

lemma unscanned_longFile : Unscanned rootTree longFile := by
  refine ⟨hasResources_rootTree, fun x hx hnul => ?_, fun x _ => folders_rootTree x .file,
    fun x _ => ?_, fun x _ => folders_rootTree x .cache⟩
  · obtain rfl := longEntry_of_isSome hx
    rw [toList_longEntry] at hnul
    exact absurd (List.eq_of_mem_replicate hnul) (by decide)
  · rw [slot_longFile, if_neg fun h => absurd h.2 (by decide)]

/-- A file name of 246 bytes, which the file system takes, stops the scan. -/
theorem long_name_stops_scan :
    Lists [⟨longEntry, true⟩] longFile ∧ Unscanned rootTree longFile ∧
      byteLength longEntry.val.toList ≤ rootTree.nameMax ∧
      ∀ env sizes, (runFrom ((getInfoHashes env sizes [⟨longEntry, true⟩] :
        FolderM FileMap) rootTree) longFile).1 = .error .panic := by
  have hlength : byteLength longEntry.val.toList = 246 := by
    rw [toList_longEntry, byteLength_replicate]
  refine ⟨lists_longFile, unscanned_longFile, ?_, fun env sizes => ?_⟩
  · rw [hlength]
    decide
  · have hlong : ¬ CacheFits rootTree longEntry := by
      rw [CacheFits, hlength]
      decide
    obtain ⟨es, hes⟩ := performs_scan_long env sizes lists_longFile unscanned_longFile
      List.mem_cons_self rfl hlong
    rw [hes.runFrom_eq]

end BearTorrent
