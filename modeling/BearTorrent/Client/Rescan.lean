import BearTorrent.Client.FolderScan

/-!
# Scanning a folder again

A client scans its folder each time it starts. As long as the files of `resources/files` are only
added, served and deleted through the client, the `.filecache` files of earlier scans are those of
the files, and a scan that loads them finds what a scan that reads the files would.
-/

namespace BearTorrent

open FileSystem Effects TextFormat Transition

variable {env : Env} {sizes : EntryName → ℕ → ℕ} {d d' : Disk} {x y : EntryName}

variable (env) in
/-- A `.filecache` file is that of a finished file. -/
def CachesCurrent (d : Disk) : Prop :=
  ∀ (x : EntryName) text, d.slot x.val .cache = some text →
    ∃ content sizes, d.slot x.val .file = some content ∧
      text = cacheText (.compute env x.val content sizes)

/-! ### What keeps the `.filecache` files current -/

namespace CachesCurrent

/-- Nothing but the files of one name has changed, for which it is shown. -/
lemma congr (hd : CachesCurrent env d) (x : EntryName)
    (hothers : ∀ y, y ≠ x → ∀ s, d'.slot y.val s = d.slot y.val s)
    (hx : ∀ text, d'.slot x.val .cache = some text →
      ∃ content sizes, d'.slot x.val .file = some content ∧
        text = cacheText (.compute env x.val content sizes)) : CachesCurrent env d' := by
  intro y text hy
  by_cases hyx : y = x
  · subst hyx
    exact hx text hy
  · rw [hothers y hyx] at hy ⊢
    exact hd y text hy

/-- The files of the name are what they were, apart from the download's. -/
lemma congr_same (hd : CachesCurrent env d) (x : EntryName)
    (hothers : ∀ y, y ≠ x → ∀ s, d'.slot y.val s = d.slot y.val s)
    (hcache : d'.slot x.val .cache = d.slot x.val .cache)
    (hfile : (d.slot x.val .file).isSome = true → d'.slot x.val .file = d.slot x.val .file) :
    CachesCurrent env d' := by
  refine hd.congr x hothers fun text htext => ?_
  obtain ⟨content, sizes, hcontent, heq⟩ := hd x text (hcache ▸ htext)
  exact ⟨content, sizes, (hfile (by rw [hcontent]; rfl)).trans hcontent, heq⟩

/-- A new file has no `.filecache` file. -/
lemma edit (hd : CachesCurrent env d) (hfile : d.slot x.val .file = none)
    (content : Option Bytes) : CachesCurrent env (d.set (filePath x.val) content) := by
  refine hd.congr_same x (fun y hyx s => ?_) ?_ fun h => ?_
  · rw [Disk.slot, Disk.content_set, if_neg]
    · rfl
    · exact fun heq => hyx ((EntryName.locate_inj d.cwd (s := s) (t := .file)).mp heq).1
  · exact CacheHistory.slot_cache_edit (s := ⟨d, fun _ => none⟩) (x.shared_file d.cwd) content x
  · rw [hfile] at h
    cases h

/-- A scan of a file leaves its `.filecache` file, or writes it. -/
lemma newInfoHash (hd : CachesCurrent env d) (hfile : (d.slot x.val .file).isSome = true)
    (sizes : ℕ → ℕ) : CachesCurrent env (after (d.newInfoHash env x.val sizes).2 d) := by
  have hother := onSlots_newInfoHash env d x.val sizes
  have hcache := slot_newInfoHash env d x.val sizes
  obtain ⟨content, hcontent⟩ := Option.isSome_iff_exists.mp hfile
  have hsame : (after (d.newInfoHash env x.val sizes).2 d).slot x.val .file = some content :=
    (slot_after_other hother fun _ => by decide).trans hcontent
  refine hd.congr x (fun y hyx s => slot_after_other hother fun h => absurd h hyx) fun text h => ?_
  rw [hcache, hcontent] at h
  cases hbefore : d.slot x.val .cache with
  | some contents =>
    rw [hbefore] at h
    obtain ⟨content', sizes', hcontent', htext⟩ := hd x text (hbefore.trans h)
    exact ⟨content', sizes', hsame.trans (hcontent.symm.trans hcontent'), htext⟩
  | none =>
    rw [hbefore] at h
    exact ⟨content, sizes, hsame, (Option.some.inj h).symm⟩

/-- A call of the file handler, a `delete_file` of a file that is there. -/
lemma call {h : InfoHash} (hd : CachesCurrent env d) (hname : h.name = x.val) {c : FileCall}
    (hdelete : c = .delete → (d.slot x.val .file).isSome = true) :
    CachesCurrent env (after (d.effects env h c) d) := by
  have hothers : ∀ y : EntryName, y ≠ x → ∀ s,
      (after (d.effects env h c) d).slot y.val s = d.slot y.val s := fun y hyx s =>
    slot_after_other (hname ▸ onSlots_effects c) fun heq => absurd heq hyx
  cases c with
  | download c =>
    refine hd.congr_same x hothers ?_ fun hfile => ?_
    · exact slot_after_other (hname ▸ onSlots_download c) fun _ => by decide
    · refine slot_after_other (hname ▸ onSlots_pending ?_) fun _ => by decide
      rintro rfl
      rw [← hname] at hfile
      rw [Disk.download, Disk.build]
      simp only [hfile, if_true]
      split_ifs <;> simp [Except.map]
  | readPiece index =>
    have htouch : OnSlots x.val [.file] (d.effects env h (.readPiece index)) := by
      rw [Disk.effects, hname]
      exact onSlots_touch (List.mem_singleton.mpr rfl)
    refine hd.congr_same x hothers ?_ fun hfile => ?_
    · exact slot_after_other htouch fun _ => by decide
    · rw [Disk.effects, Disk.touch, hname, if_pos hfile, after_nil]
  | delete =>
    refine hd.congr x hothers fun text htext => ?_
    rw [Disk.effects, hname, slot_delete_of_file d (hdelete rfl)] at htext
    cases htext

end CachesCurrent

namespace CacheHistory

/-- The step changes `resources/files` in order: another program only adds files, the calls are for
the name of a file, and only files that are there are deleted and scanned. -/
def Orderly (s : CacheHistory) : Action → Prop
  | .edit name _ => ∃ x : EntryName, x.val = name ∧ s.disk.slot name .file = none
  | .call h c    => (∃ x : EntryName, h.name = x.val) ∧
    (c = .delete → (s.disk.slot h.name .file).isSome = true)
  | .newInfoHash x _ => (s.disk.slot x.val .file).isSome = true

lemma cachesCurrent_step {s t : CacheHistory} {a : Action} (hs : CachesCurrent env s.disk)
    (ha : s.Orderly a) (h : step env s a = some t) : CachesCurrent env t.disk := by
  cases a with
  | edit name content =>
    obtain ⟨x, rfl, hfile⟩ := ha
    simp only [step] at h
    split_ifs at h
    obtain rfl := Option.some.inj h
    exact hs.edit hfile content
  | call info c =>
    obtain ⟨⟨x, hname⟩, hdelete⟩ := ha
    simp only [step] at h
    split_ifs at h
    obtain rfl := Option.some.inj h
    obtain ⟨r, hr⟩ := performs_fileCall env info s.disk c
    simp only [hr.runFrom_eq]
    exact hs.call hname fun hc => hname ▸ hdelete hc
  | newInfoHash x sizes =>
    obtain rfl := Option.some.inj h
    simp only [(performs_newInfoHash env s.disk x.val sizes).runFrom_eq]
    exact hs.newInfoHash ha sizes

/-- In an orderly history, all `.filecache` files are current. -/
lemma cachesCurrent_run {s₀ s : CacheHistory} {tr : List (CacheHistory × Action)}
    (hs₀ : s₀.Fresh) (h : Run (step env) s₀ tr s) (hok : ∀ p ∈ tr, Orderly p.1 p.2) :
    CachesCurrent env s.disk := by
  refine h.invariant (P := Orderly) (I := fun s => CachesCurrent env s.disk)
    (fun _ _ _ hs ha hstep => cachesCurrent_step hs ha hstep) hok fun x text htext => ?_
  rw [hs₀.cache x] at htext
  cases htext

end CacheHistory

/-! ### A scan with current `.filecache` files -/

/-- A current `.filecache` file of a name that fits on a line gives what the file gives. -/
lemma CachesCurrent.newInfoHash_eq (hd : CachesCurrent env d) (hname : IsLine x.val.toList)
    {h : InfoHash} (hx : d.ownInfoHash env sizes x = some h) :
    (d.newInfoHash env x.val (sizes x)).1 = .ok h := by
  obtain ⟨content, hcontent, rfl⟩ := Option.map_eq_some_iff.mp hx
  cases hcache : d.slot x.val .cache with
  | none => rw [Disk.newInfoHash, hcache, hcontent]
  | some text =>
    have hload : (d.newInfoHash env x.val (sizes x)).1 = loadFileCache text := by
      rw [Disk.newInfoHash, hcache]
    obtain ⟨content', sizes', hcontent', rfl⟩ := hd x text hcache
    obtain rfl := Option.some.inj (hcontent.symm.trans hcontent')
    have hsame : SameDigests env content content := ⟨rfl, rfl⟩
    exact hload.trans (CacheHistory.loadFileCache_eq_iff.mpr ⟨hsame, hname⟩)

/-- What a scan leaves: the files are what they were, and each of them has its `.filecache`
file. -/
structure Scanned (env : Env) (dir : List DirEntry) (d d' : Disk) : Prop where
  current : CachesCurrent env d'
  file : ∀ x : EntryName, d'.slot x.val .file = d.slot x.val .file
  kept : ∀ x : EntryName, (d.slot x.val .cache).isSome = true →
    (d'.slot x.val .cache).isSome = true
  cached : ∀ e ∈ dir, e.isFile = true → (d'.slot e.name.val .cache).isSome = true

variable (sizes) in
lemma scanned_after {dir : List DirEntry} (hd : CachesCurrent env d)
    (hnodup : (dir.map DirEntry.name).Nodup)
    (hisFile : ∀ e ∈ dir, e.isFile = (d.slot e.name.val .file).isSome) :
    Scanned env dir d (after (d.scanEffects env sizes dir) d) := by
  induction dir generalizing d with
  | nil => exact ⟨hd, fun _ => rfl, fun _ h => h, by simp⟩
  | cons e dir ih =>
    obtain ⟨hnotMem, hnodup⟩ := List.nodup_cons.mp hnodup
    obtain ⟨hfile, hfiles⟩ := List.forall_mem_cons.mp hisFile
    cases hisfile : e.isFile with
    | false =>
      have heffects : d.scanEffects env sizes (e :: dir) = d.scanEffects env sizes dir := by
        rw [Disk.scanEffects, List.flatMap_cons, hisfile]
        rfl
      have hrest := ih hd hnodup hfiles
      rw [heffects]
      refine ⟨hrest.current, hrest.file, hrest.kept, fun e' he' htrue => ?_⟩
      rcases List.mem_cons.mp he' with rfl | he'
      · rw [hisfile] at htrue
        cases htrue
      · exact hrest.cached e' he' htrue
    | true =>
      have heffects : d.scanEffects env sizes (e :: dir)
          = (d.newInfoHash env e.name.val (sizes e.name)).2 ++ d.scanEffects env sizes dir := by
        rw [Disk.scanEffects, List.flatMap_cons, hisfile]
        rfl
      rw [heffects, after_append, ← scanEffects_after hnotMem (sizes e.name)]
      have hother := onSlots_newInfoHash env d e.name.val (sizes e.name)
      have hfirst := hd.newInfoHash (hfile ▸ hisfile) (sizes e.name)
      have hsame (x : EntryName) :
          (after (d.newInfoHash env e.name.val (sizes e.name)).2 d).slot x.val .file
            = d.slot x.val .file := slot_after_other hother fun _ => by decide
      have hwritten : ((after (d.newInfoHash env e.name.val (sizes e.name)).2 d).slot
          e.name.val .cache).isSome = true := by
        rw [slot_newInfoHash]
        split <;> rfl
      have hkept (x : EntryName) (hx : (d.slot x.val .cache).isSome = true) :
          ((after (d.newInfoHash env e.name.val (sizes e.name)).2 d).slot
            x.val .cache).isSome = true := by
        by_cases hname : x = e.name
        · rw [hname]
          exact hwritten
        · rwa [slot_after_other hother fun h => absurd h hname]
      have hrest := ih hfirst hnodup fun e' he' => by rw [hsame, hfiles e' he']
      refine ⟨hrest.current, fun x => (hrest.file x).trans (hsame x),
        fun x hx => hrest.kept x (hkept x hx), fun e' he' htrue => ?_⟩
      rcases List.mem_cons.mp he' with rfl | he'
      · exact hrest.kept e'.name hwritten
      · exact hrest.cached e' he' htrue

/-- After a scan, every file has its `.filecache` file. -/
lemma Scanned.cached_of_file {dir : List DirEntry} (hs : Scanned env dir d d') (hlist : Lists dir d)
    (hfile : (d'.slot x.val .file).isSome = true) : (d'.slot x.val .cache).isSome = true := by
  rw [hs.file] at hfile
  obtain ⟨e, he, rfl⟩ := hlist.complete x hfile
  exact hs.cached e he (by rw [hlist.isFile e he, hfile])

/-- A scan of a folder in which every file has its `.filecache` file has no effects. -/
lemma scanEffects_eq_nil {dir : List DirEntry} (hlist : Lists dir d)
    (hcached : ∀ x : EntryName, (d.slot x.val .file).isSome = true →
      (d.slot x.val .cache).isSome = true) : d.scanEffects env sizes dir = [] := by
  rw [Disk.scanEffects, List.flatMap_eq_nil_iff]
  intro e he
  split_ifs with hisfile
  · obtain ⟨text, htext⟩ := Option.isSome_iff_exists.mp
      (hcached e.name (hlist.isFile e he ▸ hisfile))
    rw [Disk.newInfoHash, htext]
  · rfl

variable (env sizes) in
/-- The info hashes of the files do not depend on how they are read. -/
lemma ownInfoHash_congr (hfile : ∀ x : EntryName, d'.slot x.val .file = d.slot x.val .file)
    (sizes' : EntryName → ℕ → ℕ) : d'.ownInfoHash env sizes' = d.ownInfoHash env sizes := by
  funext x
  rw [Disk.ownInfoHash, Disk.ownInfoHash, hfile]
  exact congrArg (fun f => (d.slot x.val .file).map f)
    (funext fun content => compute_sizes env x.val content (sizes' x) (sizes x))

/-- A scan with current `.filecache` files maps the file hashes to the files' own info hashes. -/
lemma performs_getInfoHashes {dir : List DirEntry} (hd : CachesCurrent env d)
    (hlist : Lists dir d)
    (hname : ∀ x : EntryName, (d.slot x.val .file).isSome = true → IsLine x.val.toList)
    (hkeys : ∀ x y h h', d.ownInfoHash env sizes x = some h → d.ownInfoHash env sizes y = some h' →
      h.getHashedInfoHash env = h'.getHashedInfoHash env → x = y) :
    ∃ results, Performs (getInfoHashes env sizes dir : DiskM FileMap) d (.ok results)
        (d.scanEffects env sizes dir) ∧
      ∀ digest h, results.lookup digest = some h ↔
        ∃ x, d.ownInfoHash env sizes x = some h ∧ h.getHashedInfoHash env = digest := by
  have hmem (h : InfoHash) : h ∈ dir.filterMap (fun e => d.ownInfoHash env sizes e.name) ↔
      ∃ x, d.ownInfoHash env sizes x = some h := by
    rw [List.mem_filterMap]
    constructor
    · rintro ⟨e, -, he⟩
      exact ⟨e.name, he⟩
    · rintro ⟨x, hx⟩
      obtain ⟨content, hcontent, -⟩ := Option.map_eq_some_iff.mp hx
      obtain ⟨e, he, rfl⟩ := hlist.complete x (by rw [hcontent]; rfl)
      exact ⟨e, he, hx⟩
  refine ⟨_, performs_scan_of env sizes dir ∅ hlist.nodup hlist.isFile fun e he h hown => ?_,
    fun digest h => ?_⟩
  · obtain ⟨content, hcontent, -⟩ := Option.map_eq_some_iff.mp hown
    exact hd.newInfoHash_eq (hname e.name (by rw [hcontent]; rfl)) hown
  · rw [lookup_insertAll]
    · rw [hmem, exists_and_right]
    · intro h hh h' hh' heq
      obtain ⟨x, hx⟩ := (hmem h).mp hh
      obtain ⟨y, hy⟩ := (hmem h').mp hh'
      obtain rfl := hkeys x y h h' hx hy heq
      exact Option.some.inj (hx.symm.trans hy)

/-- In every orderly history, the client's scan returns the files' own info hashes under their file
hashes, unless SHA-1 collides. Scanning again, in whatever order the files are listed and however
they would be read, returns the same from the `.filecache` files, and changes nothing. -/
theorem rescan_same {s₀ s : CacheHistory} {tr : List (CacheHistory × CacheHistory.Action)}
    (hs₀ : s₀.Fresh) (hrun : Run (CacheHistory.step env) s₀ tr s)
    (horderly : ∀ p ∈ tr, CacheHistory.Orderly p.1 p.2) {dir : List DirEntry}
    (hlist : Lists dir s.disk)
    (hname : ∀ x : EntryName, (s.disk.slot x.val .file).isSome = true → IsLine x.val.toList)
    (hfits : ∀ (x : EntryName) content, s.disk.slot x.val .file = some content →
      content.length < 2 ^ 64)
    (hsha1 : Set.InjOn env.sha1
      {bytes | ∃ x h, s.disk.ownInfoHash env sizes x = some h ∧ h.hashInput = bytes}) :
    ∃ results d es,
      runFrom (getInfoHashes env sizes dir : DiskM FileMap) s.disk = (.ok results, d, es) ∧
        (∀ digest h, results.lookup digest = some h ↔
          ∃ x, s.disk.ownInfoHash env sizes x = some h ∧ h.getHashedInfoHash env = digest) ∧
        ∀ dir' sizes', Lists dir' d → ∃ results',
          runFrom (getInfoHashes env sizes' dir' : DiskM FileMap) d = (.ok results', d, []) ∧
            ∀ digest, results'.lookup digest = results.lookup digest := by
  have hd := CacheHistory.cachesCurrent_run hs₀ hrun horderly
  have hkeys : ∀ x y h h', s.disk.ownInfoHash env sizes x = some h →
      s.disk.ownInfoHash env sizes y = some h' →
        h.getHashedInfoHash env = h'.getHashedInfoHash env → x = y := by
    intro x y h h' hx hy heq
    exact eq_of_hashInput_eq hfits hx hy (hsha1 ⟨x, h, hx, rfl⟩ ⟨y, h', hy, rfl⟩ heq)
  obtain ⟨results, hresults, hlookup⟩ := performs_getInfoHashes hd hlist hname hkeys
  have hs := scanned_after sizes hd hlist.nodup hlist.isFile
  generalize hafter : after (s.disk.scanEffects env sizes dir) s.disk = d at hs
  refine ⟨results, d, _, hresults.runFrom_eq.trans (by rw [hafter]), hlookup, ?_⟩
  intro dir' sizes' hlist'
  have hown := ownInfoHash_congr env sizes hs.file sizes'
  rw [← hown] at hkeys
  obtain ⟨results', hresults', hlookup'⟩ := performs_getInfoHashes hs.current hlist'
    (fun x hx => hname x (by rw [← hs.file, hx])) hkeys
  rw [scanEffects_eq_nil hlist' fun x => hs.cached_of_file hlist] at hresults'
  refine ⟨results', hresults'.runFrom_eq, fun digest => Option.ext fun h => ?_⟩
  rw [hlookup', hlookup, hown]

section OneFile

open CacheHistory (scanEnv entryA emptyFolder Orderly)

lemma slot_entryA : (oneByteDisk "a").slot entryA.val .file = some [1] :=
  slot_oneByteDisk "a" .file

lemma eq_entryA (hx : ((oneByteDisk "a").slot x.val .file).isSome = true) : x = entryA := by
  by_contra hother
  rw [oneByteDisk, Disk.slot, Disk.content_set, if_neg] at hx
  · cases hx
  · exact fun heq => hother ((EntryName.locate_inj [] (y := entryA) (t := .file)).mp heq).1

lemma lists_entryA : Lists [⟨entryA, true⟩] (oneByteDisk "a") where
  nodup := by decide
  isFile e he := by
    obtain rfl := List.mem_singleton.mp he
    rw [slot_entryA]
    rfl
  complete x hx := ⟨_, List.mem_singleton.mpr rfl, (eq_entryA hx).symm⟩

lemma isLine_entryA (hx : ((oneByteDisk "a").slot x.val .file).isSome = true) :
    IsLine x.val.toList := by
  obtain rfl := eq_entryA hx
  exact ⟨by decide, by decide⟩

lemma length_entryA {content : Bytes} (hx : (oneByteDisk "a").slot x.val .file = some content) :
    content.length < 2 ^ 64 := by
  obtain rfl := eq_entryA (by rw [hx]; rfl)
  obtain rfl := Option.some.inj (slot_entryA.symm.trans hx)
  decide

lemma injOn_entryA (f : Bytes → Digest) : Set.InjOn f
    {bytes | ∃ x h, (oneByteDisk "a").ownInfoHash env sizes x = some h ∧ h.hashInput = bytes} := by
  rintro bytes ⟨x, h, hx, rfl⟩ bytes' ⟨y, h', hy, rfl⟩ -
  obtain ⟨content, hcontent, rfl⟩ := Option.map_eq_some_iff.mp hx
  obtain ⟨content', hcontent', rfl⟩ := Option.map_eq_some_iff.mp hy
  obtain rfl := eq_entryA (by rw [hcontent]; rfl)
  obtain rfl := eq_entryA (by rw [hcontent']; rfl)
  obtain rfl := Option.some.inj (hcontent.symm.trans hcontent')
  rfl

/-- The file is new. -/
lemma run_entryA : Run (CacheHistory.step env) emptyFolder
    [(emptyFolder, .edit "a" (some [1]))] ⟨oneByteDisk "a", fun _ => none⟩ := by
  refine .single ?_
  rw [CacheHistory.step]
  exact if_pos (entryA.shared_file [])

lemma orderly_entryA : ∀ p ∈ [(emptyFolder, CacheHistory.Action.edit "a" (some [1]))],
    Orderly p.1 p.2 := by
  intro p hp
  obtain rfl := List.mem_singleton.mp hp
  exact ⟨entryA, rfl, rfl⟩

variable (sizes) in
lemma ownInfoHash_entryA : (oneByteDisk "a").ownInfoHash env sizes entryA
    = some (.compute env entryA.val [1] (sizes entryA)) := by
  rw [Disk.ownInfoHash, slot_entryA, Option.map_some]

/-- A new file is scanned twice. -/
theorem rescan_same_letter : ∃ tr s, Run (CacheHistory.step scanEnv) emptyFolder tr s ∧
    ∃ results d es, runFrom (getInfoHashes scanEnv (fun _ _ => 1) [⟨entryA, true⟩] : DiskM FileMap)
        s.disk = (.ok results, d, es) ∧
      (∃ digest h, results.lookup digest = some h) ∧
      ∀ dir sizes, Lists dir d → ∃ results',
        runFrom (getInfoHashes scanEnv sizes dir : DiskM FileMap) d = (.ok results', d, []) ∧
          ∀ digest, results'.lookup digest = results.lookup digest := by
  obtain ⟨results, d, es, hscan, hlookup, hrescan⟩ :=
    @rescan_same scanEnv (fun _ _ => 1) emptyFolder _ _ CacheHistory.fresh_emptyFolder run_entryA
      orderly_entryA _ lists_entryA (fun _ => isLine_entryA) (fun _ _ => length_entryA)
      (injOn_entryA _)
  exact ⟨_, _, run_entryA, results, d, es, hscan,
    ⟨_, _, (hlookup _ _).mpr ⟨entryA, ownInfoHash_entryA _, rfl⟩⟩, hrescan⟩

end OneFile

end BearTorrent
