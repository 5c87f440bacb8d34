import BearTorrent.Client.FolderEffects

/-!
# Where the file handler works

The name of an info hash comes from another client and becomes part of every path. A call stays in
`resources/cache` and `resources/files`, among whatever folders, exactly when the folders of the
name lead there, unless no file can be at any of the paths.
-/

namespace BearTorrent

open Effects LexicalPath

/-- A file or folder in `resources/cache` or `resources/files`. -/
def InResources (cwd loc : Location) : Prop :=
  Within (cacheFolder cwd) loc ∨ Within (filesFolder cwd) loc

instance (cwd loc : Location) : Decidable (InResources cwd loc) :=
  inferInstanceAs (Decidable (_ ∨ _))

/-- Every path that a call for `h` creates, opens for writing, renames or removes leads into the
resource folders, whatever folders and files there are. -/
def Confined (env : Env) (cwd : Location) (h : InfoHash) : Prop :=
  ∀ t : FolderTree, HasResources t cwd → ∀ (files : Location → Option Bytes) (c : FileCall),
    ∀ e ∈ (runFrom ((c.call env h : FolderM CallResult) t) ⟨cwd, files⟩).2.2, ∀ p ∈ e.paths,
      InResources cwd (resolve cwd p)

/-- The folders of a name, followed from `resources/cache`, lead into the resource folders. -/
def StaysInside (cwd : Location) (name : String) : Prop :=
  InResources cwd (walk (cacheFolder cwd) (folders name.toList))

instance (cwd : Location) (name : String) : Decidable (StaysInside cwd name) :=
  inferInstanceAs (Decidable (InResources _ _))

/-- A file can be at the path, next to the two folders and those that the path goes through. -/
def CanBeAt (cwd : Location) (path : String) : Prop :=
  Creatable [cacheFolder cwd, filesFolder cwd] cwd path

instance (cwd : Location) (path : String) : Decidable (CanBeAt cwd path) :=
  inferInstanceAs (Decidable (Creatable _ _ _))

/-- A name with no component `..` but its last stays inside. -/
theorem staysInside_of_notMem (cwd : Location) {name : String}
    (h : ['.', '.'] ∉ folders name.toList) : StaysInside cwd name :=
  .inl (within_walk (List.suffix_refl _) h)

/-! ### Names and the folders around them -/

/-- A file of the cache is in the resource folders exactly when the folder around it is. -/
lemma inResources_cache_iff (cwd : Location) (name : String) {s : Slot} (hs : s ≠ .file) :
    InResources cwd (locate cwd name s) ↔ StaysInside cwd name := by
  -- a name with an extension is not that of one of the two folders
  have hdot : '.' ∈ fileName name.toList ++ s.extension := by
    apply List.mem_append_right
    cases s <;> first | decide | exact absurd rfl hs
  have hne {folder : List Char} (h : '.' ∉ folder) :
      folder ≠ fileName name.toList ++ s.extension := by
    intro heq
    rw [heq] at h
    exact h hdot
  rw [locate_cache cwd name hs]
  constructor
  · rintro (h | h)
    · rcases List.suffix_cons_iff.mp h with heq | h
      · exact absurd (List.cons.inj heq).1 (hne (by decide))
      · exact .inl h
    · rcases List.suffix_cons_iff.mp h with heq | h
      · exact absurd (List.cons.inj heq).1 (hne (by decide))
      · exact .inr h
  · rintro (h | h)
    · exact .inl (h.trans (List.suffix_cons _ _))
    · exact .inr (h.trans (List.suffix_cons _ _))

/-- Followed from one of the two folders, components lead into them if they do from the other. -/
lemma inResources_walk_iff (cwd : Location) (cs : List (List Char)) :
    InResources cwd (walk (filesFolder cwd) cs) ↔ InResources cwd (walk (cacheFolder cwd) cs) := by
  rcases walk_siblings "cache".toList "files".toList ("resources".toList :: cwd) cs [] with
    heq | ⟨dir, hcache, hfiles⟩
  · have hwalk : walk (cacheFolder cwd) cs = walk (filesFolder cwd) cs := heq
    rw [hwalk]
  · exact iff_of_true (.inr ⟨dir, hfiles.symm⟩) (.inl ⟨dir, hcache.symm⟩)

/-- One more component that leads neither to the two folders nor to one around them. -/
lemma inResources_enter_iff {cwd loc : Location} {c : List Char}
    (h : ∀ folder ∈ [cacheFolder cwd, filesFolder cwd], ¬ enter loc c <:+ folder) :
    InResources cwd (enter loc c) ↔ InResources cwd loc := by
  have hwithin {folder : Location} (hfolder : folder ∈ [cacheFolder cwd, filesFolder cwd]) :
      Within folder (enter loc c) ↔ Within folder loc :=
    within_enter_iff (h folder hfolder)
  exact or_congr (hwithin List.mem_cons_self) (hwithin (by simp))

/-- The finished file is in the resource folders exactly when the folder around it is. -/
lemma inResources_file_iff {cwd : Location} {name : String}
    (h : CanBeAt cwd (Slot.file.path name)) :
    InResources cwd (locate cwd name .file) ↔ StaysInside cwd name := by
  have hloc : locate cwd name .file
      = enter (walk (filesFolder cwd) (folders name.toList)) (fileName name.toList) := by
    have hfile : locate cwd name .file = walk (filesFolder cwd) (components name.toList) :=
      resolve_files cwd name
    rw [hfile, components_eq, walk_append_singleton]
  have hapart : ∀ folder ∈ [cacheFolder cwd, filesFolder cwd],
      ¬ locate cwd name .file <:+ folder :=
    fun folder hfolder => h.apart folder (List.mem_append_left _ hfolder)
  rw [hloc] at hapart ⊢
  rw [inResources_enter_iff hapart]
  exact inResources_walk_iff cwd _

/-- A file of a name, where it can be, is in the resource folders exactly when the name stays
inside. -/
lemma inResources_locate_iff {cwd : Location} {name : String} {s : Slot}
    (h : CanBeAt cwd (s.path name)) :
    InResources cwd (locate cwd name s) ↔ StaysInside cwd name := by
  by_cases hs : s = .file
  · subst hs
    exact inResources_file_iff h
  · exact inResources_cache_iff cwd name hs

/-! ### Every call stays inside -/

section Inside

variable {env : Env} {cwd : Location} {h : InfoHash} {t : FolderTree} {e : Effect} {name p : String}

/-- A path of the client that is free. -/
lemma canBeAt_of_free (ht : HasResources t cwd) (hfree : t.Free cwd p) : CanBeAt cwd p := by
  refine hfree.creatable fun loc hloc => ?_
  rcases List.mem_pair.mp hloc with rfl | rfl
  · exact ht.cache
  · exact ht.files

/-- There is an effect only where some file of the name can be, and it is on files of the name. -/
lemma Touches.exists_slot (ht : HasResources t cwd) (he : Touches t cwd name e) (hp : p ∈ e.paths) :
    (∃ s : Slot, CanBeAt cwd (s.path name)) ∧
      ∃ s : Slot, p = s.path name ∧ (s = .file → CanBeAt cwd (s.path name)) := by
  have hone {q : String} (hq : ∃ s : Slot, q = s.path name ∧ t.Free cwd q) (hp : p ∈ [q]) :
      (∃ s : Slot, CanBeAt cwd (s.path name)) ∧
        ∃ s : Slot, p = s.path name ∧ (s = .file → CanBeAt cwd (s.path name)) := by
    obtain ⟨s, rfl, hfree⟩ := hq
    obtain rfl := List.mem_singleton.mp hp
    have hcan := canBeAt_of_free ht hfree
    exact ⟨⟨s, hcan⟩, s, rfl, fun _ => hcan⟩
  cases e with
  | created q     => exact hone he hp
  | opened q      => exact hone he hp
  | written q _ _ => exact hone he hp
  | removed q     => exact hone he hp
  | renamed q q' =>
    obtain ⟨rfl, rfl, hfree⟩ := he
    have hcan : CanBeAt cwd (Slot.file.path name) := canBeAt_of_free ht hfree
    refine ⟨⟨.file, hcan⟩, ?_⟩
    rcases List.mem_pair.mp hp with rfl | rfl
    · exact ⟨.part, rfl, fun h => (by cases h)⟩
    · exact ⟨.file, rfl, fun _ => hcan⟩

lemma confined_of_staysInside (hname : StaysInside cwd h.name) : Confined env cwd h := by
  intro t ht files c e he p hp
  have htouch : Touches t cwd h.name e := (staysOn_fileCall env c).of_runFrom rfl e he
  obtain ⟨-, s, rfl, hcan⟩ := htouch.exists_slot ht hp
  change InResources cwd (locate cwd h.name s)
  by_cases hs : s = .file
  · exact (inResources_locate_iff (hcan hs)).mpr hname
  · exact (inResources_cache_iff cwd h.name hs).mpr hname

/-- Where no file of the name can be, nothing happens. -/
lemma confined_of_not_canBeAt (hname : ∀ s : Slot, ¬ CanBeAt cwd (s.path h.name)) :
    Confined env cwd h := by
  intro t ht files c e he p hp
  have htouch : Touches t cwd h.name e := (staysOn_fileCall env c).of_runFrom rfl e he
  obtain ⟨⟨s, hcan⟩, -⟩ := htouch.exists_slot ht hp
  exact absurd hcan (hname s)

end Inside

/-! ### Calls that create the files -/

section Created

variable {cwd : Location} {h : InfoHash} {name : String} {s : Slot}

/-- Folders among which a file can be at the path, and the other files of the cache be looked
for. -/
structure RoomFor (t : FolderTree) (cwd : Location) (name : String) (s : Slot) : Prop where
  resources : HasResources t cwd
  free : t.Free cwd (s.path name)
  cache : s ≠ .file → ∀ s' : Slot, s' ≠ .file → ∀ isFile,
    t.reach isFile cwd (s'.path name) = .ok ()

/-- The paths of the cache go through the same folders. -/
lemma visited_cache {s' : Slot} (hs : s ≠ .file) (hs' : s' ≠ .file) :
    visited cwd (components (s.path name).toList)
      = visited cwd (components (s'.path name).toList) := by
  have hpath {s : Slot} (hs : s ≠ .file) : components (s.path name).toList
      = ("resources".toList :: "cache".toList :: folders name.toList) ++
          [fileName name.toList ++ s.extension] := by
    cases s with
    | file  => exact absurd rfl hs
    | part  => exact components_cache name (by decide)
    | info  => exact components_cache name (by decide)
    | cache => exact components_cache name (by decide)
  rw [hpath hs, hpath hs']
  exact visited_append_singleton cwd _ _ _

/-- A file system for a path at which a file can be. -/
lemma exists_roomFor (h : CanBeAt cwd (s.path name)) : ∃ t : FolderTree, RoomFor t cwd name s := by
  obtain ⟨n, hn, hnames⟩ := exists_nameMax 9
    ([Slot.part, .info, .cache, .file].map fun s => s.path name)
  have hlong (s' : Slot) : ∀ c ∈ components (s'.path name).toList, byteLength c ≤ n :=
    hnames _ (List.mem_map_of_mem (by cases s' <;> simp))
  have hfolder {loc : Location} (hloc : loc ∈ [cacheFolder cwd, filesFolder cwd]) :
      (FolderTree.around ([cacheFolder cwd, filesFolder cwd] ++
        visited cwd (components (s.path name).toList)) n).folders loc = true :=
    FolderTree.folders_around.mpr ⟨loc, List.mem_append_left _ hloc, List.suffix_refl _⟩
  refine ⟨_, ⟨hfolder List.mem_cons_self, hfolder (by simp), hn⟩, h.free (hlong s), ?_⟩
  intro hs s' hs' isFile
  have hnul : '\x00' ∉ (s'.path name).toList := fun hmem =>
    h.nul (nul_mem_path_iff.mpr (nul_mem_path_iff.mp hmem))
  refine FolderTree.reach_eq_ok_iff.mpr ⟨hnul, hlong s', ?_⟩
  rw [visited_cache hs' hs]
  exact (h.free (hlong s)).visited

variable {t : FolderTree} {d : Disk}

/-- A look-up creates a file that is not there. -/
lemma created_mem_touchAmong (hfree : t.Free d.cwd (s.path name)) (hslot : d.slot name s = none) :
    .created (s.path name) ∈ d.touchAmong t name s := by
  have hfolder : t.folders (locate d.cwd name s) = false := hfree.last
  rw [Disk.touchAmong, hfolder]
  simp [hslot]

lemma slot_touchAmong {s' : Slot} (hne : s' ≠ s) :
    (after (d.touchAmong t name s) d).slot name s' = d.slot name s' := by
  rw [Disk.touchAmong]
  split_ifs
  · rfl
  · rw [slot_touch, if_neg hne]

/-- A look-up of a file whose path can be followed. -/
lemma performs_unwrap_getTempFile (d : Disk) {fileName : String} (extension src : String)
    (hpath : tempFileName fileName extension src = s.path name)
    (hreach : d.reach t (s.path name) = .ok ()) :
    ∃ found, Performs ((unwrap (getTempFile fileName extension src) : FolderM _) t) d
      (.ok found) (d.touchAmong t name s) := by
  obtain ⟨found, hfound⟩ := performs_getTempFile_among hpath hreach
  exact ⟨found, performs_unwrap hfound⟩

/-- Looking up the files of the cache creates the last of them when it is not there. -/
lemma created_mem_lookUps (ht : RoomFor t cwd name .cache) :
    .created (fileCachePath name)
      ∈ (runFrom (lookUps name t) (⟨cwd, fun _ => none⟩ : Disk)).2.2 := by
  generalize hd : (⟨cwd, fun _ => none⟩ : Disk) = d
  have hcwd : d.cwd = cwd := by rw [← hd]
  have hslot : d.slot name .cache = none := by
    rw [← hd]
    rfl
  have hreach (d' : Disk) (hd' : d'.cwd = cwd) {s : Slot} (hs : s ≠ .file) :
      d'.reach t (s.path name) = .ok () := by
    rw [Disk.reach, hd']
    exact ht.cache (by decide) s hs _
  obtain ⟨info, hinfo⟩ := performs_unwrap_getTempFile d (s := .info) ".info" "cache" rfl
    (hreach d hcwd (by decide))
  generalize hd₁ : after (d.touchAmong t name .info) d = d₁
  have hcwd₁ : d₁.cwd = cwd := by rw [← hd₁, cwd_after, hcwd]
  obtain ⟨part, hpart⟩ := performs_unwrap_getTempFile d₁ (s := .part) ".part" "cache" rfl
    (hreach d₁ hcwd₁ (by decide))
  generalize hd₂ : after (d₁.touchAmong t name .part) d₁ = d₂
  have hcwd₂ : d₂.cwd = cwd := by rw [← hd₂, cwd_after, hcwd₁]
  have hslot₂ : d₂.slot name .cache = none := by
    rw [← hd₂, slot_touchAmong (by decide), ← hd₁, slot_touchAmong (by decide), hslot]
  obtain ⟨cache, hcache⟩ := performs_unwrap_getTempFile d₂ (s := .cache) ".filecache" "cache" rfl
    (hreach d₂ hcwd₂ (by decide))
  have hfree : t.Free d₂.cwd (Slot.cache.path name) := by
    rw [hcwd₂]
    exact ht.free
  have hcreated := created_mem_touchAmong hfree hslot₂
  subst hd₁ hd₂
  have hget : Performs ((getPartFile name : FolderM _) t) (after (d.touchAmong t name .info) d)
      (.ok part.1) ((after (d.touchAmong t name .info) d).touchAmong t name .part) :=
    hpart.bind_nil (.pure _)
  have hlookUps : Performs (lookUps name t) d (.ok (info.1, part.1, cache.1)) _ :=
    hinfo.bind (hget.bind (hcache.bind_nil (.pure _)))
  rw [hlookUps.runFrom_eq]
  exact List.mem_append_right _ (List.mem_append_right _ hcreated)

/-- Looking at the status creates the `.info` file when it is not there. -/
lemma created_mem_isComplete (env : Env) (hfree : t.Free cwd (Slot.info.path h.name)) :
    .created (Slot.info.path h.name) ∈ (runFrom (((FileCall.download .isComplete).call env h :
      FolderM CallResult) t) ⟨cwd, fun _ => none⟩).2.2 := by
  obtain ⟨found, hinfo⟩ := performs_unwrap_getTempFile ⟨cwd, fun _ => none⟩ (s := .info)
    ".info" "cache" rfl hfree.reach_eq_ok
  have hget : Performs ((getInfoFile h.name : FolderM _) t) ⟨cwd, fun _ => none⟩ (.ok found)
      (Disk.touchAmong ⟨cwd, fun _ => none⟩ t h.name .info) := hinfo
  refine (begins_isFileComplete.bind fun _ => StaysOn.pure trivial).mem_effects
    StaysOn.getInfoFile rfl ?_
  rw [hget.runFrom_eq]
  exact created_mem_touchAmong hfree rfl

/-- Some call creates a file where one can be. -/
lemma exists_created (env : Env) (ht : RoomFor t cwd h.name s) : ∃ c : FileCall,
    .created (s.path h.name)
      ∈ (runFrom ((c.call env h : FolderM CallResult) t) ⟨cwd, fun _ => none⟩).2.2 := by
  have hcreated := created_mem_touchAmong (d := ⟨cwd, fun _ => none⟩) ht.free rfl
  have hfound (extension src : String)
      (hpath : tempFileName h.name extension src = s.path h.name) :
      ∃ found, Performs ((unwrap (getTempFile h.name extension src) : FolderM _) t)
        ⟨cwd, fun _ => none⟩ (.ok found) (Disk.touchAmong ⟨cwd, fun _ => none⟩ t h.name s) :=
    performs_unwrap_getTempFile _ extension src hpath ht.free.reach_eq_ok
  cases s with
  | part =>
    obtain ⟨found, hpart⟩ := hfound ".part" "cache" rfl
    refine ⟨.download (.writePiece [] 0), ?_⟩
    refine ((begins_writePieceToPart env [] 0).bind fun _ => StaysOn.pure trivial).mem_effects
      StaysOn.getPartFile rfl ?_
    have hget : Performs ((getPartFile h.name : FolderM _) t) ⟨cwd, fun _ => none⟩ (.ok found.1)
        (Disk.touchAmong ⟨cwd, fun _ => none⟩ t h.name .part) := hpart.bind_nil (.pure _)
    rw [hget.runFrom_eq]
    exact hcreated
  | info => exact ⟨.download .isComplete, created_mem_isComplete env ht.free⟩
  | cache =>
    refine ⟨.delete, ?_⟩
    exact (begins_deleteFile.bind fun _ => StaysOn.pure trivial).mem_effects staysOn_lookUps rfl
      (created_mem_lookUps ht)
  | file =>
    obtain ⟨found, hfile⟩ := hfound "" "files" (tempFileName_files h.name)
    refine ⟨.readPiece 0, ?_⟩
    refine ((begins_readPieceFromFile env 0).bind fun _ => StaysOn.pure trivial).mem_effects
      StaysOn.getFile rfl ?_
    have hget : Performs ((getFile h.name : FolderM _) t) ⟨cwd, fun _ => none⟩ (.ok found.1)
        (Disk.touchAmong ⟨cwd, fun _ => none⟩ t h.name .file) := hfile.bind_nil (.pure _)
    rw [hget.runFrom_eq]
    exact hcreated

end Created

/-- The file handler stays in the resource folders exactly when the folders of the name do, or no
file of the name can be anywhere. -/
theorem confined_iff_staysInside (env : Env) (cwd : Location) (h : InfoHash) :
    Confined env cwd h ↔
      StaysInside cwd h.name ∨ ∀ s : Slot, ¬ CanBeAt cwd (s.path h.name) := by
  constructor
  · intro hconfined
    by_contra hnot
    rw [not_or, not_forall] at hnot
    obtain ⟨hstays, s, hs⟩ := hnot
    have hcan := not_not.mp hs
    obtain ⟨t, ht⟩ := exists_roomFor hcan
    obtain ⟨c, hc⟩ := exists_created env ht
    have hinside : InResources cwd (locate cwd h.name s) :=
      hconfined t ht.resources _ c _ hc _ List.mem_cons_self
    exact hstays ((inResources_locate_iff hcan).mp hinside)
  · rintro (hstays | hnone)
    · exact confined_of_staysInside hstays
    · exact confined_of_not_canBeAt hnone

/-! ### A name that leads outside -/

def strayEnv : Env := ⟨fun _ => Digest.zero, true⟩

/-- An info hash whose name leads out of the resource folders. -/
def strayHash : InfoHash := ⟨"../../x", 1, 65536, [⟨Digest.zero.val⟩]⟩

/-- Where the client runs. -/
def strayHome : Location := ["client".toList]

/-- The two folders of the client, and those around them. -/
def strayTree : FolderTree := .around [cacheFolder strayHome, filesFolder strayHome] 255

/-- A look at the status of a download creates a file next to the `resources` folder. -/
theorem stray_name_escapes :
    ¬ Confined strayEnv strayHome strayHash ∧
      .created "resources/cache/../../x.info" ∈
        (runFrom (((FileCall.download .isComplete).call strayEnv strayHash :
          FolderM CallResult) strayTree) ⟨strayHome, fun _ => none⟩).2.2 ∧
      resolve strayHome "resources/cache/../../x.info" = "x.info".toList :: strayHome := by
  have hfree : strayTree.Free strayHome (Slot.info.path strayHash.name) :=
    ⟨by decide, by decide, by decide, by decide⟩
  have hcreated := created_mem_isComplete (h := strayHash) strayEnv hfree
  refine ⟨fun hconfined => ?_, hcreated, by decide⟩
  have hresources : HasResources strayTree strayHome := ⟨by decide, by decide, by decide⟩
  exact absurd (hconfined strayTree hresources _ _ _ hcreated _ List.mem_cons_self) (by decide)

end BearTorrent
