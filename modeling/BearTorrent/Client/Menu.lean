import BearTorrent.Client.Deletion
import BearTorrent.Client.Rescan
import BearTorrent.Client.Seeding

/-!
# Choosing a file to delete

The command `d` numbers the files that a scan of the folder finds, reads the number of one of them,
and deletes it from the server's lists and from the folder. The files come in the order in which
the scan's map is iterated, and the numbers are `u16`.
-/

namespace BearTorrent

open FileSystem Effects TextFormat Transition

/-! ### The options -/

/-- `a + b` on `u16`. -/
def addU16 (env : Env) (a b : UInt16) : Except Fault UInt16 :=
  if env.overflowChecks ∧ 2 ^ 16 ≤ a.toNat + b.toNat then .error .panic else .ok (a + b)

/-- The files under their numbers. -/
abbrev FileSelection := AList fun _ : UInt16 => InfoHash

/-- One round of the loop that lists the options: the files so far, and the next number. -/
def listOption (env : Env) (options : FileSelection × UInt16) (file : InfoHash) :
    Except Fault (FileSelection × UInt16) := do
  let i ← addU16 env options.2 1
  return (options.1.insert options.2 file, i)

/-- The loop that lists the options. -/
def listOptions (env : Env) (files : List InfoHash) : Except Fault (FileSelection × UInt16) :=
  files.foldlM (listOption env) (∅, 0)

/-- The file whose number is on the line. -/
def selectFile (env : Env) (files : List InfoHash) (input : String) : Except Fault InfoHash := do
  let (fileSelection, _) ← listOptions env files
  let command ← orPanic (parseUnsigned 16 (trim input.toList))
  orPanic (fileSelection.lookup (UInt16.ofNat command))

section Options

variable {env : Env} {files : List InfoHash} {file : InfoHash}

/-- The number goes to the last of the files that are counted by it. -/
def Numbered (files : List InfoHash) (k : ℕ) (file : InfoHash) : Prop :=
  ∃ j, j % 2 ^ 16 = k ∧ files[j]? = some file ∧ files.length ≤ j + 2 ^ 16

lemma addU16_of_lt {a b : UInt16} (h : env.overflowChecks = true → a.toNat + b.toNat < 2 ^ 16) :
    addU16 env a b = .ok (a + b) :=
  if_neg fun h' => absurd (h h'.1) (Nat.not_lt.mpr h'.2)

lemma listOptions_append (last : InfoHash) :
    listOptions env (files ++ [last])
      = listOptions env files >>= fun options => listOption env options last := by
  simp only [listOptions, List.foldlM_append, List.foldlM_cons, List.foldlM_nil, bind_pure]

/-- One more file takes its number from the file that had it. -/
lemma numbered_append {last : InfoHash} {k : ℕ} :
    Numbered (files ++ [last]) k file ↔
      if k = files.length % 2 ^ 16 then file = last else Numbered files k file := by
  unfold Numbered
  rw [List.length_append, List.length_singleton]
  constructor
  · rintro ⟨j, rfl, hj, hlast⟩
    rcases Nat.lt_trichotomy j files.length with hlt | rfl | hgt
    · rw [List.getElem?_append_left hlt] at hj
      rw [if_neg (by omega)]
      exact ⟨j, rfl, hj, by omega⟩
    · rw [List.getElem?_concat_length, Option.some_inj] at hj
      rw [if_pos rfl, hj]
    · rw [List.getElem?_eq_none (by simp; omega)] at hj
      cases hj
  · split_ifs with hk
    · rintro rfl
      exact ⟨files.length, hk.symm, List.getElem?_concat_length, by omega⟩
    · rintro ⟨j, rfl, hj, hlast⟩
      have hlt := (List.getElem?_eq_some_iff.mp hj).1
      refine ⟨j, rfl, (List.getElem?_append_left hlt).trans hj, ?_⟩
      -- the number of `j` is not that of the next file, so `j` is not `2 ^ 16` before it
      omega

/-- The options of as many files as the build can number. -/
lemma listOptions_eq_ok (h : env.overflowChecks = true → files.length < 2 ^ 16) :
    ∃ fileSelection, listOptions env files = .ok (fileSelection, UInt16.ofNat files.length) ∧
      ∀ k file, fileSelection.lookup k = some file ↔ Numbered files k.toNat file := by
  induction files using List.reverseRecOn with
  | nil =>
    refine ⟨∅, rfl, fun k file => ?_⟩
    simp [Numbered]
  | append_singleton files last ih =>
    rw [List.length_append, List.length_singleton] at h
    obtain ⟨fileSelection, hoptions, hlookup⟩ := ih fun henv => by have := h henv; omega
    have hnumber : (UInt16.ofNat files.length).toNat = files.length % 2 ^ 16 :=
      UInt16.toNat_ofNat'
    have hadd : addU16 env (UInt16.ofNat files.length) 1
        = .ok (UInt16.ofNat (files.length + 1)) := by
      rw [UInt16.ofNat_add]
      refine addU16_of_lt fun henv => ?_
      rw [hnumber, Nat.mod_eq_of_lt (by have := h henv; omega)]
      exact h henv
    refine ⟨fileSelection.insert (UInt16.ofNat files.length) last, ?_, fun k file => ?_⟩
    · rw [listOptions_append, hoptions, List.length_append, List.length_singleton]
      change listOption env _ last = _
      rw [listOption, hadd]
      rfl
    · rw [numbered_append, ← hnumber]
      by_cases hk : k = UInt16.ofNat files.length
      · rw [hk, AList.lookup_insert, if_pos rfl, Option.some_inj, eq_comm]
      · rw [AList.lookup_insert_ne hk, if_neg fun heq => hk (UInt16.toNat.inj heq), hlookup]

/-- With overflow checks, the loop panics after as many files as there are numbers. -/
lemma listOptions_eq_panic (henv : env.overflowChecks = true) (h : 2 ^ 16 ≤ files.length) :
    listOptions env files = .error .panic := by
  induction files using List.reverseRecOn with
  | nil => cases h
  | append_singleton files last ih =>
    rw [List.length_append, List.length_singleton] at h
    rw [listOptions_append]
    by_cases hlength : 2 ^ 16 ≤ files.length
    · rw [ih hlength]
      rfl
    · obtain ⟨fileSelection, hoptions, -⟩ :=
        listOptions_eq_ok fun _ : env.overflowChecks = true => Nat.not_le.mp hlength
      have hfull : files.length = 2 ^ 16 - 1 := by omega
      rw [hoptions, hfull]
      change listOption env _ last = _
      have hadd : addU16 env (UInt16.ofNat (2 ^ 16 - 1)) 1 = .error .panic :=
        if_pos ⟨henv, by decide⟩
      rw [listOption, hadd]
      rfl

/-- A line selects a file if and only if the build can number the files and the line has the
number of that file. -/
theorem selectFile_eq_ok_iff {input : String} :
    selectFile env files input = .ok file ↔
      (env.overflowChecks = true → files.length < 2 ^ 16) ∧
        ∃ k, parseUnsigned 16 (trim input.toList) = some k ∧ Numbered files k file := by
  have hcommand : ∀ k, parseUnsigned 16 (trim input.toList) = some k →
      (UInt16.ofNat k).toNat = k := fun k hk =>
    UInt16.toNat_ofNat'.trans (Nat.mod_eq_of_lt (lt_of_parseUnsigned hk))
  constructor
  · intro h
    have hnumbers : env.overflowChecks = true → files.length < 2 ^ 16 := by
      intro henv
      by_contra hlength
      rw [selectFile, listOptions_eq_panic henv (Nat.not_lt.mp hlength)] at h
      cases h
    obtain ⟨fileSelection, hoptions, hlookup⟩ := listOptions_eq_ok hnumbers
    rw [selectFile, hoptions] at h
    obtain ⟨options, hok, h⟩ := except_bind_eq_ok.mp h
    obtain rfl := Except.ok.inj hok
    obtain ⟨k, hk, h⟩ := except_bind_eq_ok.mp h
    refine ⟨hnumbers, k, orPanic_eq_ok.mp hk, ?_⟩
    rw [← hcommand k (orPanic_eq_ok.mp hk)]
    exact (hlookup _ _).mp (orPanic_eq_ok.mp h)
  · rintro ⟨hnumbers, k, hk, hfile⟩
    obtain ⟨fileSelection, hoptions, hlookup⟩ := listOptions_eq_ok hnumbers
    rw [selectFile, hoptions]
    change (orPanic (parseUnsigned 16 (trim input.toList)) >>= _) = _
    rw [hk]
    refine orPanic_eq_ok.mpr ((hlookup _ _).mpr ?_)
    rwa [hcommand k hk]

end Options

/-! ### The command -/

section Command

variable {m : Type → Type} [Monad m] [MonadExcept Fault m] [FileSystem m] [FileReader m]

/-- The file that the line selects among those of a scan, which are listed in this order. -/
def fileToDelete (env : Env) (sizes : EntryName → ℕ → ℕ) (dir : List DirEntry)
    (order : FileMap → List (Σ _ : Digest, InfoHash)) (input : String) : m InfoHash := do
  let files ← getInfoHashes env sizes dir
  MonadExcept.ofExcept (selectFile env ((order files).map (·.2)) input)

end Command

/-- What a command leaves: the file it has deleted, unless it ends `main`, the maps of the server,
and the disk. -/
structure DeleteOutcome where
  deleted : Option InfoHash
  service : ConnectionService
  disk : Disk

/-- The client's `delete_file`. The server goes first; the file is deleted if it answers `Ok`. -/
def TorrentClient.callDeleteFile (env : Env) (client : TorrentClient) (file : InfoHash)
    (service : ConnectionService) (d : Disk) : DeleteOutcome :=
  match service.run ((fun _ => ServerReply.empty) <$>
      ConnectionService.deleteFile ⟨some client.uid, some (file.fileHash env)⟩) with
  | (.error _, service) => ⟨none, service, d⟩
  | (.ok _, service)    =>
    match runFrom (BearTorrent.deleteFile file.name : DiskM Unit) d with
    | (.error _, d, _) => ⟨none, service, d⟩
    | (.ok _, d, _)    => ⟨some file, service, d⟩

/-- The command `d`. -/
def deleteCommand (env : Env) (client : TorrentClient) (sizes : EntryName → ℕ → ℕ)
    (dir : List DirEntry) (order : FileMap → List (Σ _ : Digest, InfoHash)) (input : String)
    (service : ConnectionService) (d : Disk) : DeleteOutcome :=
  match runFrom (fileToDelete env sizes dir order input : DiskM InfoHash) d with
  | (.error _, d, _) => ⟨none, service, d⟩
  | (.ok file, d, _) => client.callDeleteFile env file service d

/-- The file `x` with info hash `h` is deleted: nothing of it is left, the client is off the
server's list for it, the other files and lists are as they were, and a scan finds the other files
and changes nothing. -/
structure FileDeleted (env : Env) (client : TorrentClient) (sizes : EntryName → ℕ → ℕ)
    (service : ConnectionService) (d : Disk) (x : EntryName) (h : InfoHash) (s : DeleteOutcome) :
    Prop where
  own : d.ownInfoHash env sizes x = some h
  deleted : s.deleted = some h
  gone : ∀ t, s.disk.slot x.val t = none
  files : ∀ y : EntryName, y ≠ x → s.disk.slot y.val .file = d.slot y.val .file
  seeders : ∀ k c, c ∈ s.service.seeders k ↔
    c ∈ service.seeders k ∧ ¬ (k = h.fileHash env ∧ c = client.uid)
  rescan : ∀ dir sizes', Lists dir s.disk → ∃ results,
    runFrom (getInfoHashes env sizes' dir : DiskM FileMap) s.disk = (.ok results, s.disk, []) ∧
      ∀ digest g, results.lookup digest = some g ↔
        ∃ y, y ≠ x ∧ d.ownInfoHash env sizes y = some g ∧ g.getHashedInfoHash env = digest

/-- The command deletes a file of the folder, or leaves the files and the server as they are. -/
structure DeletesAtMostOne (env : Env) (client : TorrentClient) (sizes : EntryName → ℕ → ℕ)
    (service : ConnectionService) (d : Disk) (s : DeleteOutcome) : Prop where
  some : ∀ h, s.deleted = some h → ∃ x, FileDeleted env client sizes service d x h s
  none : s.deleted = none →
    s.service = service ∧ ∀ x : EntryName, s.disk.slot x.val .file = d.slot x.val .file

section FileDeleted

variable {env : Env} {client : TorrentClient} {sizes : EntryName → ℕ → ℕ} {d d' : Disk}
  {service : ConnectionService} {x : EntryName} {h : InfoHash} {dir : List DirEntry}
  {order : FileMap → List (Σ _ : Digest, InfoHash)}

/-- The server always answers `Ok`, and so does the file handler. -/
lemma callDeleteFile_eq :
    client.callDeleteFile env h service d
      = ⟨some h, service.withdraw (h.fileHash env) client.uid, d.deleted h.name⟩ := by
  rw [TorrentClient.callDeleteFile, ConnectionService.run_deleteFile, deleted_eq]
  simp only [(performs_deleteFile d h.name).runFrom_eq]

/-- The files that are listed are those of the folder. -/
lemma mem_order {results : FileMap} (horder : (order results).Perm results.entries)
    (hlookup : ∀ digest h, results.lookup digest = some h ↔
      ∃ x, d.ownInfoHash env sizes x = some h ∧ h.getHashedInfoHash env = digest) :
    h ∈ (order results).map (·.2) ↔ ∃ x, d.ownInfoHash env sizes x = some h := by
  rw [List.mem_map]
  constructor
  · rintro ⟨⟨digest, h⟩, hmem, rfl⟩
    obtain ⟨x, hx, -⟩ := (hlookup digest h).mp
      (AList.mem_lookup_iff.mpr (horder.mem_iff.mp hmem))
    exact ⟨x, hx⟩
  · rintro ⟨x, hx⟩
    have hentry := AList.mem_lookup_iff.mp ((hlookup _ h).mpr ⟨x, hx, rfl⟩)
    exact ⟨_, horder.mem_iff.mpr hentry, rfl⟩

/-- No more files are listed than there are. -/
lemma length_order_le {results : FileMap} (horder : (order results).Perm results.entries)
    (hlist : Lists dir d)
    (hlookup : ∀ digest h, results.lookup digest = some h ↔
      ∃ x, d.ownInfoHash env sizes x = some h ∧ h.getHashedInfoHash env = digest) :
    (order results).length ≤ dir.countP DirEntry.isFile := by
  have hsubset : results.keys ⊆ (dir.filterMap fun e => d.ownInfoHash env sizes e.name).map
      (·.getHashedInfoHash env) := by
    intro digest hdigest
    obtain ⟨h, hh⟩ := Option.isSome_iff_exists.mp (AList.lookup_isSome.mpr hdigest)
    obtain ⟨x, hx, rfl⟩ := (hlookup digest h).mp hh
    obtain ⟨content, hcontent, -⟩ := Option.map_eq_some_iff.mp hx
    obtain ⟨e, he, rfl⟩ := hlist.complete x (by rw [hcontent]; rfl)
    exact List.mem_map_of_mem (List.mem_filterMap.mpr ⟨e, he, hx⟩)
  calc (order results).length
      = results.keys.length := horder.length_eq.trans (List.length_map _).symm
    _ ≤ ((dir.filterMap fun e => d.ownInfoHash env sizes e.name).map
          (·.getHashedInfoHash env)).length :=
        (List.subperm_of_subset results.keys_nodup hsubset).length_le
    _ = dir.countP DirEntry.isFile := by
        rw [List.length_map, List.length_filterMap_eq_countP]
        refine List.countP_congr fun e he => ?_
        rw [hlist.isFile e he, Disk.ownInfoHash, Option.isSome_map]

variable (env sizes) in
/-- The info hashes of the files that a cleanly deleted one leaves. -/
lemma ownInfoHash_deleted (hclean : DeletedCleanly d' x)
    (hfile : ∀ y : EntryName, d'.slot y.val .file = d.slot y.val .file)
    (sizes' : EntryName → ℕ → ℕ) (y : EntryName) :
    (d'.deleted x.val).ownInfoHash env sizes' y
      = if y = x then none else d.ownInfoHash env sizes y := by
  rw [Disk.ownInfoHash]
  split_ifs with hyx
  · rw [hyx, hclean.gone, Option.map_none]
  · rw [hclean.others y hyx]
    exact congrFun (ownInfoHash_congr env sizes hfile sizes') y

variable (client service) in
/-- After a scan, a file is deleted, and the `.filecache` files of the others stay current. -/
lemma fileDeleted_callDeleteFile (hs : Scanned env dir d d') (hlist : Lists dir d)
    (hname : ∀ y : EntryName, (d.slot y.val .file).isSome = true → IsLine y.val.toList)
    (hkeys : ∀ x y h h', d.ownInfoHash env sizes x = some h → d.ownInfoHash env sizes y = some h' →
      h.getHashedInfoHash env = h'.getHashedInfoHash env → x = y)
    (hx : d.ownInfoHash env sizes x = some h) :
    FileDeleted env client sizes service d x h (client.callDeleteFile env h service d') := by
  obtain ⟨content, hcontent, hcompute⟩ := Option.map_eq_some_iff.mp hx
  have hhname : h.name = x.val := by rw [← hcompute]; rfl
  have hthere : (d'.slot x.val .file).isSome = true := by rw [hs.file, hcontent]; rfl
  have hclean := (deletedCleanly_iff d' x).mpr hthere
  have hcurrent : CachesCurrent env (d'.deleted x.val) := by
    have hcall := hs.current.call hhname (c := .delete) fun _ => hthere
    rwa [Disk.effects, hhname, ← deleted_eq] at hcall
  -- the files that are left, and what they were
  have hleft (y : EntryName) (hy : ((d'.deleted x.val).slot y.val .file).isSome = true) :
      y ≠ x ∧ (d'.slot y.val .file).isSome = true := by
    have hyx : y ≠ x := by
      rintro rfl
      rw [hclean.gone] at hy
      cases hy
    exact ⟨hyx, hclean.others y hyx .file ▸ hy⟩
  rw [callDeleteFile_eq, hhname]
  refine ⟨hx, rfl, hclean.gone, fun y hy => (hclean.others y hy .file).trans (hs.file y),
    fun k c => ?_, fun dir' sizes' hlist' => ?_⟩
  · change c ∈ (service.withdraw _ _).seeders k ↔ _
    rw [ConnectionService.seeders_withdraw]
    split_ifs with hk
    · simp [hk]
    · simp [hk]
  · change Lists dir' (d'.deleted x.val) at hlist'
    have hown := ownInfoHash_deleted env sizes hclean hs.file sizes'
    have hother {y : EntryName} {g : InfoHash}
        (hy : (d'.deleted x.val).ownInfoHash env sizes' y = some g) :
        y ≠ x ∧ d.ownInfoHash env sizes y = some g := by
      rw [hown] at hy
      exact Option.ite_none_left_eq_some.mp hy
    obtain ⟨results, hresults, hlookup⟩ := performs_getInfoHashes hcurrent hlist'
      (fun y hy => hname y (by rw [← hs.file]; exact (hleft y hy).2))
      fun y z g g' hy hz heq => hkeys y z g g' (hother hy).2 (hother hz).2 heq
    have hcached (y : EntryName) (hy : ((d'.deleted x.val).slot y.val .file).isSome = true) :
        ((d'.deleted x.val).slot y.val .cache).isSome = true := by
      obtain ⟨hyx, hy⟩ := hleft y hy
      rw [hclean.others y hyx]
      exact hs.cached_of_file hlist hy
    rw [scanEffects_eq_nil hlist' hcached] at hresults
    refine ⟨results, hresults.runFrom_eq, fun digest g => ?_⟩
    rw [hlookup]
    refine exists_congr fun y => ?_
    rw [hown, Option.ite_none_left_eq_some, and_assoc]

/-- The command `d` after an orderly history, whatever the order of the scan's map. It deletes the
file that its line selects, unless SHA-1 collides; every file can be selected as long as there are
fewer files than numbers. When it deletes none, the files and the server's lists stay. -/
theorem deleteCommand_deletes {s₀ s : CacheHistory}
    {tr : List (CacheHistory × CacheHistory.Action)} (hs₀ : s₀.Fresh)
    (hrun : Run (CacheHistory.step env) s₀ tr s)
    (horderly : ∀ p ∈ tr, CacheHistory.Orderly p.1 p.2) (hlist : Lists dir s.disk)
    (horder : ∀ results, (order results).Perm results.entries)
    (hname : ∀ x : EntryName, (s.disk.slot x.val .file).isSome = true → IsLine x.val.toList)
    (hfits : ∀ (x : EntryName) content, s.disk.slot x.val .file = some content →
      content.length < 2 ^ 64)
    (hsha1 : Set.InjOn env.sha1
      {bytes | ∃ x h, s.disk.ownInfoHash env sizes x = some h ∧ h.hashInput = bytes}) :
    (∀ input, DeletesAtMostOne env client sizes service s.disk
      (deleteCommand env client sizes dir order input service s.disk)) ∧
    (dir.countP DirEntry.isFile < 2 ^ 16 → ∀ x h, s.disk.ownInfoHash env sizes x = some h →
      ∃ k, ∀ pre post, (∀ c ∈ pre, isWhiteSpace c = true) →
        (∀ c ∈ post, isWhiteSpace c = true) →
          FileDeleted env client sizes service s.disk x h (deleteCommand env client sizes dir order
            (String.ofList (pre ++ decimal k ++ post)) service s.disk)) := by
  have hd := CacheHistory.cachesCurrent_run hs₀ hrun horderly
  have hkeys : ∀ x y h h', s.disk.ownInfoHash env sizes x = some h →
      s.disk.ownInfoHash env sizes y = some h' →
        h.getHashedInfoHash env = h'.getHashedInfoHash env → x = y := by
    intro x y h h' hx hy heq
    exact eq_of_hashInput_eq hfits hx hy (hsha1 ⟨x, h, hx, rfl⟩ ⟨y, h', hy, rfl⟩ heq)
  obtain ⟨results, hresults, hlookup⟩ := performs_getInfoHashes hd hlist hname hkeys
  have hs := scanned_after sizes hd hlist.nodup hlist.isFile
  have hcommand (input : String) : deleteCommand env client sizes dir order input service s.disk
      = match selectFile env ((order results).map (·.2)) input with
        | .error _ => ⟨none, service, after (s.disk.scanEffects env sizes dir) s.disk⟩
        | .ok h    => client.callDeleteFile env h service
            (after (s.disk.scanEffects env sizes dir) s.disk) := by
    have hfile : Performs (fileToDelete env sizes dir order input : DiskM InfoHash) s.disk
        (selectFile env ((order results).map (·.2)) input) (s.disk.scanEffects env sizes dir) :=
      hresults.bind_nil (.ofExcept _)
    rw [deleteCommand, hfile.runFrom_eq]
    cases selectFile env ((order results).map (·.2)) input <;> rfl
  constructor
  · intro input
    rw [hcommand]
    cases hselect : selectFile env ((order results).map (·.2)) input with
    | error e => exact ⟨fun h hdeleted => (by cases hdeleted), fun _ => ⟨rfl, hs.file⟩⟩
    | ok h =>
      obtain ⟨-, k, -, j, -, hj, -⟩ := selectFile_eq_ok_iff.mp hselect
      obtain ⟨x, hx⟩ := (mem_order (horder results) hlookup).mp (List.mem_of_getElem? hj)
      have hfileDeleted := fileDeleted_callDeleteFile client service hs hlist hname hkeys hx
      refine ⟨fun h' hdeleted => ⟨x, ?_⟩, fun hnone => ?_⟩
      · obtain rfl := Option.some.inj (hfileDeleted.deleted.symm.trans hdeleted)
        exact hfileDeleted
      · rw [hfileDeleted.deleted] at hnone
        cases hnone
  · intro hfew x h hx
    obtain ⟨k, hk⟩ := List.mem_iff_getElem?.mp ((mem_order (horder results) hlookup).mpr ⟨x, hx⟩)
    have hlength := (length_order_le (horder results) hlist hlookup).trans_lt hfew
    have hklt := (List.getElem?_eq_some_iff.mp hk).1
    rw [List.length_map] at hklt
    refine ⟨k, fun pre post hpre hpost => ?_⟩
    have hselect : selectFile env ((order results).map (·.2))
        (String.ofList (pre ++ decimal k ++ post)) = .ok h := by
      refine selectFile_eq_ok_iff.mpr ⟨fun _ => ?_, k, ?_, k, ?_, hk, ?_⟩
      · rwa [List.length_map]
      · rw [String.toList_ofList]
        exact parseUnsigned_trim (hklt.trans hlength) hpre hpost
      · exact Nat.mod_eq_of_lt (hklt.trans hlength)
      · rw [List.length_map]
        exact hlength.le.trans (Nat.le_add_left _ _)
    rw [hcommand, hselect]
    exact fileDeleted_callDeleteFile client service hs hlist hname hkeys hx

end FileDeleted

section OneFile

open CacheHistory (scanEnv entryA emptyFolder)

/-- The only file has the number zero. -/
theorem deleteCommand_deletes_letter : ∃ h k, FileDeleted scanEnv ⟨⟨"client"⟩, ∅⟩ (fun _ _ => 1)
    .default (oneByteDisk "a") entryA h (deleteCommand scanEnv ⟨⟨"client"⟩, ∅⟩ (fun _ _ => 1)
      [⟨entryA, true⟩] AList.entries (String.ofList ([] ++ decimal k ++ ['\n'])) .default
        (oneByteDisk "a")) := by
  obtain ⟨-, hselect⟩ := @deleteCommand_deletes scanEnv ⟨⟨"client"⟩, ∅⟩ (fun _ _ => 1) .default
    [⟨entryA, true⟩] AList.entries emptyFolder _ _ CacheHistory.fresh_emptyFolder run_entryA
    orderly_entryA lists_entryA (fun _ => .refl _) (fun _ => isLine_entryA)
    (fun _ _ => length_entryA) (injOn_entryA _)
  obtain ⟨k, hk⟩ := hselect (by decide) entryA _ (ownInfoHash_entryA _)
  exact ⟨_, k, hk [] ['\n'] (by simp) (List.forall_mem_singleton.mpr (by decide))⟩

end OneFile

end BearTorrent
