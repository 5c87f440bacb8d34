import BearTorrent.Client.FileCache
import BearTorrent.Client.SharedFolder
import BearTorrent.Lib.Transition

/-!
# Whether a cached info hash is current

The files in `resources/files` are changed by the client's own calls and by other programs. Only
`delete_file` takes a `.filecache` file away, and nothing compares it with the file it was made
from.
-/

namespace BearTorrent

open Function FileSystem Effects LexicalPath TextFormat Transition

/-- The name of an entry of a folder. -/
@[ext]
structure EntryName where
  val : String
  plain : Plain val.toList
  notMem : '/' ∉ val.toList
  deriving DecidableEq

/-- The disk, and for every name the content that the file had when `InfoHash::new` made the
`.filecache` file that is there. The latter is recorded for the proofs only. -/
structure CacheHistory where
  disk : Disk
  source : EntryName → Option Bytes

namespace CacheHistory

inductive Action where
  /-- Another program creates, overwrites or removes a file. -/
  | edit (name : String) (content : Option Bytes)
  | call (h : InfoHash) (c : FileCall)
  | newInfoHash (x : EntryName) (sizes : ℕ → ℕ)

/-- A step of the history. The files that are edited and the finished files of the calls are in
`resources/files`. -/
def step (env : Env) (s : CacheHistory) : Action → Option CacheHistory
  | .edit name content =>
    if Shared s.disk.cwd (locate s.disk.cwd name .file) then
      some { s with disk := s.disk.set (filePath name) content }
    else none
  | .call h c =>
    if Shared s.disk.cwd (locate s.disk.cwd h.name .file) then
      let disk := (runFrom (c.run env h) s.disk).2.1
      some ⟨disk, fun y =>
        if disk.slot y.val .cache = s.disk.slot y.val .cache then s.source y else none⟩
    else none
  | .newInfoHash x sizes =>
    let disk := (runFrom (BearTorrent.newInfoHash env x.val sizes : DiskM InfoHash) s.disk).2.1
    some ⟨disk, if (s.disk.slot x.val .cache).isSome then s.source
      else update s.source x (s.disk.slot x.val .file)⟩

/-- No file has been scanned. -/
structure Fresh (s : CacheHistory) : Prop where
  cache : ∀ x : EntryName, s.disk.slot x.val .cache = none
  source : ∀ x, s.source x = none

end CacheHistory

/-- The SHA-1 hashes of the pieces of a file. -/
def pieceDigests (env : Env) (content : Bytes) : List Digest :=
  let p := (getPieceLength (UInt64.ofNat content.length)).toNat
  (List.range (numPieces p content.length)).map fun i => env.sha1 (hashedBuffer p content i)

/-- Two contents of the same length whose pieces have the same hashes. -/
structure SameDigests (env : Env) (c c' : Bytes) : Prop where
  length : UInt64.ofNat c.length = UInt64.ofNat c'.length
  digests : pieceDigests env c = pieceDigests env c'

lemma compute_pieces_eq (env : Env) (name : String) (c : Bytes) (sizes : ℕ → ℕ) :
    (InfoHash.compute env name c sizes).pieces
      = (pieceDigests env c).map fun d => ⟨d.val⟩ := by
  rw [compute_pieces, pieceDigests, List.map_map]
  rfl

lemma compute_eq_iff {env : Env} {name : String} {c c' : Bytes} {sizes sizes' : ℕ → ℕ} :
    InfoHash.compute env name c sizes = .compute env name c' sizes' ↔ SameDigests env c c' := by
  have hinj : Injective fun d : Digest => PieceHash.mk d.val := by
    intro d d' h
    exact Subtype.ext (PieceHash.mk.inj h)
  constructor
  · intro h
    have hpieces := congrArg InfoHash.pieces h
    rw [compute_pieces_eq, compute_pieces_eq] at hpieces
    exact ⟨congrArg InfoHash.fileLength h, hinj.list_map hpieces⟩
  · rintro ⟨hlength, hdigests⟩
    have hpieces := congrArg (List.map fun d : Digest => PieceHash.mk d.val) hdigests
    rw [← compute_pieces_eq env name c sizes, ← compute_pieces_eq env name c' sizes'] at hpieces
    simp only [InfoHash.compute] at hpieces ⊢
    rw [hpieces, hlength]

namespace EntryName

variable (cwd : Location) (x y : EntryName)

lemma locate_cache : locate cwd x.val .cache
    = (x.val.toList ++ Slot.cache.extension) :: cacheFolder cwd :=
  locate_cache_of_notMem cwd x.notMem (by decide)

lemma not_shared_cache : ¬ Shared cwd (locate cwd x.val .cache) := by
  rintro ⟨hwithin, -⟩
  rw [locate_cache] at hwithin
  rcases List.suffix_cons_iff.mp hwithin with h | h
  · have hlength := congrArg List.length h
    simp [filesFolder, cacheFolder] at hlength
  · have hfolder := h.eq_of_length (by simp [filesFolder, cacheFolder])
    exact absurd (List.cons.inj hfolder).1 (by decide)

lemma shared_file : Shared cwd (locate cwd x.val .file) := by
  rw [locate_file_of_notMem cwd x.notMem, enter_of_plain x.plain]
  exact ⟨List.suffix_cons _ _, List.cons_ne_self _ _⟩

/-- The extensions in the folder of the cache end in different letters. -/
lemma cacheSlot_eq_of_append {s t : Slot} {l l' : List Char} (hs : s ≠ .file) (ht : t ≠ .file)
    (h : l ++ s.extension = l' ++ t.extension) : s = t := by
  have hlast : ∀ s t : Slot, s.extension.getLast? = t.extension.getLast? → s = t := by
    intro s t
    cases s <;> cases t <;> decide
  have hnil : ∀ u : Slot, u ≠ .file → u.extension ≠ [] := by
    intro u
    cases u <;> decide
  have heq := congrArg List.getLast? h
  rw [List.getLast?_append_of_ne_nil _ (hnil s hs),
    List.getLast?_append_of_ne_nil _ (hnil t ht)] at heq
  exact hlast s t heq

/-- The `.part` and `.info` files of a name are no `.filecache` files. -/
lemma locate_ne {name : String} {s : Slot} (hs : s = .part ∨ s = .info) :
    locate cwd x.val .cache ≠ locate cwd name s := by
  have hfile : s ≠ .file := by rcases hs with rfl | rfl <;> decide
  rw [locate_cache, BearTorrent.locate_cache cwd name hfile]
  intro heq
  obtain rfl := cacheSlot_eq_of_append (by decide) hfile (List.cons.inj heq).1
  rcases hs with hs | hs
  · cases hs
  · cases hs

/-- A `.filecache` file is no other file of a name whose finished file is shared. -/
lemma locate_ne_of_shared {name : String} (hshared : Shared cwd (locate cwd name .file)) {s : Slot}
    (hs : s ≠ .cache) : locate cwd x.val .cache ≠ locate cwd name s := by
  cases s with
  | part  => exact locate_ne cwd x (.inl rfl)
  | info  => exact locate_ne cwd x (.inr rfl)
  | cache => exact absurd rfl hs
  | file  =>
    intro heq
    rw [← heq] at hshared
    exact not_shared_cache cwd x hshared

/-- Each file of an entry is in its folder. -/
lemma locate_eq (s : Slot) :
    locate cwd x.val s = (x.val.toList ++ s.extension) :: s.folder cwd := by
  cases s with
  | part  => exact locate_cache_of_notMem cwd x.notMem (by decide)
  | info  => exact locate_cache_of_notMem cwd x.notMem (by decide)
  | cache => exact locate_cache_of_notMem cwd x.notMem (by decide)
  | file =>
    have hext : Slot.file.extension = [] := rfl
    rw [locate_file_of_notMem cwd x.notMem, enter_of_plain x.plain, hext, List.append_nil]
    rfl

/-- The extensions of the files in one folder are different. -/
lemma slot_eq_of_append {s t : Slot} {l l' : List Char} (hfolder : s.folder cwd = t.folder cwd)
    (h : l ++ s.extension = l' ++ t.extension) : s = t := by
  have hne : cacheFolder cwd ≠ filesFolder cwd := fun h => absurd (List.cons.inj h).1 (by decide)
  by_cases hs : s = .file
  · subst hs
    cases t with
    | file => rfl
    | _    => exact absurd hfolder.symm hne
  · by_cases ht : t = .file
    · subst ht
      cases s with
      | file => rfl
      | _    => exact absurd hfolder hne
    · exact cacheSlot_eq_of_append hs ht h

/-- Different files of entries are at different locations. -/
theorem locate_inj {x y : EntryName} {s t : Slot} :
    locate cwd x.val s = locate cwd y.val t ↔ x = y ∧ s = t := by
  constructor
  · intro heq
    rw [locate_eq, locate_eq, List.cons.injEq] at heq
    obtain rfl := slot_eq_of_append cwd heq.2 heq.1
    exact ⟨EntryName.ext (String.toList_inj.mp (List.append_cancel_right heq.1)), rfl⟩
  · rintro ⟨rfl, rfl⟩
    rfl

end EntryName

/-! ### What a step does to a `.filecache` file -/

section Step

variable {env : Env} {d : Disk} {x y : EntryName} {h : InfoHash}

lemma slot_cache_after {name : String} {slots : List Slot} {es : List Effect}
    (hes : OnSlots name slots es)
    (hslots : ∀ s ∈ slots, locate d.cwd y.val .cache ≠ locate d.cwd name s) :
    (after es d).slot y.val .cache = d.slot y.val .cache := by
  refine slot_after d y.val .cache fun e he p hp => ?_
  obtain ⟨s, hs, rfl⟩ := hes e he p hp
  exact hslots s hs

/-- Effects on some files of an entry leave all other files of entries as they are. -/
lemma slot_after_other {slots : List Slot} {es : List Effect} (hes : OnSlots x.val slots es)
    {s : Slot} (hother : y = x → s ∉ slots) : (after es d).slot y.val s = d.slot y.val s := by
  refine slot_after d y.val s fun e he p hp => ?_
  obtain ⟨t, ht, rfl⟩ := hes e he p hp
  intro heq
  obtain ⟨rfl, rfl⟩ := (EntryName.locate_inj d.cwd).mp heq
  exact hother rfl ht

/-- A call of the file handler leaves a `.filecache` file as it is, removes it, or leaves an empty
one. -/
lemma slot_cache_call (hshared : Shared d.cwd (locate d.cwd h.name .file)) (c : FileCall)
    (y : EntryName) :
    (after (d.effects env h c) d).slot y.val .cache = d.slot y.val .cache ∨
      (after (d.effects env h c) d).slot y.val .cache = none ∨
      (after (d.effects env h c) d).slot y.val .cache = some [] := by
  have hne {s : Slot} (hs : s ≠ .cache) := y.locate_ne_of_shared d.cwd hshared hs
  cases c with
  | download c =>
    refine .inl (slot_cache_after (onSlots_download c) fun s hs => hne ?_)
    rintro rfl
    simp at hs
  | readPiece index =>
    refine .inl (slot_cache_after (onSlots_touch (List.mem_singleton.mpr rfl)) fun s hs => hne ?_)
    rintro rfl
    simp at hs
  | delete =>
    by_cases hloc : locate d.cwd y.val .cache = locate d.cwd h.name .cache
    · have hslot (d' : Disk) (hcwd : d'.cwd = d.cwd) :
          d'.slot y.val .cache = d'.slot h.name .cache := by
        rw [← hcwd] at hloc
        exact congrArg d'.files hloc
      rw [hslot _ (cwd_after _ _), hslot d rfl, Disk.effects]
      cases hfile : d.slot h.name .file with
      | some content =>
        exact .inr (.inl (slot_delete_of_file d (Option.isSome_iff_exists.mpr ⟨_, hfile⟩) .cache))
      | none =>
        rw [slot_delete_of_none d hfile (t := .cache) (by decide)]
        cases d.slot h.name .cache with
        | none => exact .inr (.inr rfl)
        | some content => exact .inl rfl
    · refine .inl (slot_cache_after (onSlots_effects .delete) fun s hs => ?_)
      by_cases hs : s = .cache
      · exact hs ▸ hloc
      · exact hne hs

/-- `InfoHash::new` writes no other file than the `.filecache` file of its name. -/
lemma onSlots_newInfoHash (env : Env) (d : Disk) (name : String) (sizes : ℕ → ℕ) :
    OnSlots name [.cache] (d.newInfoHash env name sizes).2 := by
  have hlines (ls : List (List Char)) (offset : ℕ) :
      OnSlots name [.cache] (lineEffects (Slot.cache.path name) offset ls) := by
    induction ls generalizing offset with
    | nil => exact onSlots_nil
    | cons line ls ih =>
      rw [lineEffects, onSlots_cons]
      exact ⟨by simp [Effect.paths], ih _⟩
  rw [Disk.newInfoHash]
  split
  · exact onSlots_nil
  · simp [Effect.paths]
  · rw [onSlots_cons]
    exact ⟨by simp [Effect.paths], hlines _ _⟩

/-- The `.filecache` file after `InfoHash::new`. -/
lemma slot_newInfoHash (env : Env) (d : Disk) (name : String) (sizes : ℕ → ℕ) :
    (after (d.newInfoHash env name sizes).2 d).slot name .cache
      = match d.slot name .cache, d.slot name .file with
        | some contents, _   => some contents
        | none, none         => some []
        | none, some content => some (cacheText (.compute env name content sizes)) := by
  cases hcache : d.slot name .cache with
  | some contents =>
    simp only [Disk.newInfoHash, hcache]
    rw [after_nil, hcache]
  | none =>
    have hempty : (act (Effect.created (Slot.cache.path name)) d).slot name .cache = some [] := by
      simp
    cases hfile : d.slot name .file with
    | none =>
      simp only [Disk.newInfoHash, hcache, hfile]
      rw [after_cons, after_nil, hempty]
    | some content =>
      have hlines := slot_lineEffects hempty (cacheLines (.compute env name content sizes)) .cache
      rw [if_pos rfl, List.nil_append, List.length_nil] at hlines
      simp only [Disk.newInfoHash, hcache, hfile]
      rw [after_cons, hlines, cacheText]

end Step

/-! ### Histories -/

namespace CacheHistory

variable {env : Env} {s t : CacheHistory} {a : Action} {tr : List (CacheHistory × Action)}

/-- A `.filecache` file holds the info hash of the recorded content; where none is recorded, there
is no such file, or an empty one. -/
def TrackedAs (env : Env) (x : EntryName) (cache : Option Bytes) : Option Bytes → Prop
  | some content => ∃ sizes, cache = some (cacheText (.compute env x.val content sizes))
  | none         => cache = none ∨ cache = some []

/-- Every `.filecache` file is what the record says. -/
def Tracked (env : Env) (s : CacheHistory) : Prop :=
  ∀ x : EntryName, TrackedAs env x (s.disk.slot x.val .cache) (s.source x)

lemma Fresh.tracked (hs : s.Fresh) : s.Tracked env := by
  intro x
  rw [hs.source]
  exact .inl (hs.cache x)

/-- Another program edits no `.filecache` file. -/
lemma slot_cache_edit {name : String} (hshared : Shared s.disk.cwd (locate s.disk.cwd name .file))
    (content : Option Bytes) (y : EntryName) :
    (s.disk.set (filePath name) content).slot y.val .cache = s.disk.slot y.val .cache := by
  rw [Disk.slot, Disk.content_set, if_neg]
  · rfl
  · exact y.locate_ne_of_shared s.disk.cwd hshared (s := .file) (by decide)

/-- A scan of one file leaves the `.filecache` files of the others as they are. -/
lemma slot_cache_newInfoHash {x y : EntryName} (h : y ≠ x) (d : Disk) (sizes : ℕ → ℕ) :
    (after (d.newInfoHash env x.val sizes).2 d).slot y.val .cache = d.slot y.val .cache :=
  slot_after_other (onSlots_newInfoHash env d x.val sizes) fun heq => absurd heq h

lemma Tracked.newInfoHash (hs : s.Tracked env) (x : EntryName) (sizes : ℕ → ℕ) :
    Tracked env ⟨after (s.disk.newInfoHash env x.val sizes).2 s.disk,
      if (s.disk.slot x.val .cache).isSome then s.source
      else update s.source x (s.disk.slot x.val .file)⟩ := by
  have hslot := slot_newInfoHash env s.disk x.val sizes
  intro y
  by_cases hy : y = x
  · subst hy
    simp only [hslot]
    cases hcache : s.disk.slot y.val .cache with
    | some contents =>
      have hy := hs y
      rwa [hcache] at hy
    | none =>
      simp only [Option.isSome_none, Bool.false_eq_true, if_false, update_self]
      cases s.disk.slot y.val .file with
      | some content => exact ⟨sizes, rfl⟩
      | none => exact .inr rfl
  · have hsource : (if (s.disk.slot x.val .cache).isSome then s.source
        else update s.source x (s.disk.slot x.val .file)) y = s.source y := by
      split_ifs
      · rfl
      · exact update_of_ne hy _ _
    simp only [hsource, slot_cache_newInfoHash hy]
    exact hs y

lemma Tracked.step (hs : s.Tracked env) (h : step env s a = some t) : t.Tracked env := by
  cases a with
  | edit name content =>
    simp only [CacheHistory.step] at h
    split_ifs at h with hshared
    obtain rfl := Option.some.inj h
    intro x
    simp only [slot_cache_edit hshared]
    exact hs x
  | call info c =>
    simp only [CacheHistory.step] at h
    split_ifs at h with hshared
    obtain rfl := Option.some.inj h
    obtain ⟨r, hr⟩ := performs_fileCall env info s.disk c
    intro x
    simp only [hr.runFrom_eq]
    split_ifs with hsame
    · rw [hsame]
      exact hs x
    · exact (slot_cache_call hshared c x).resolve_left hsame
  | newInfoHash x sizes =>
    obtain rfl := Option.some.inj h
    rw [(performs_newInfoHash env s.disk x.val sizes).runFrom_eq]
    exact hs.newInfoHash x sizes

lemma tracked_run {s₀ : CacheHistory} (hs₀ : s₀.Fresh) (h : Run (step env) s₀ tr s) :
    s.Tracked env :=
  h.preserve (I := fun s => s.Tracked env) (fun _ _ _ hs ha => hs.step ha) hs₀.tracked

/-- What a call loads from the `.filecache` file of a recorded content. -/
lemma loadFileCache_eq_iff {x : EntryName} {old content : Bytes} {sizes sizes' : ℕ → ℕ} :
    loadFileCache (cacheText (.compute env x.val old sizes))
        = .ok (.compute env x.val content sizes') ↔
      SameDigests env old content ∧ IsLine x.val.toList := by
  constructor
  · intro hload
    have hname : IsLine (InfoHash.compute env x.val old sizes).name.toList :=
      isLine_of_loadFileCache (by rfl) hload
    rw [loadFileCache_cacheText_iff.mpr hname] at hload
    exact ⟨compute_eq_iff.mp (Except.ok.inj hload), hname⟩
  · rintro ⟨hsame, hname⟩
    rw [loadFileCache_cacheText_iff.mpr hname, compute_eq_iff.mpr hsame]

/-- In every history, a call of `InfoHash::new` returns what the file's content gives exactly when
there is no `.filecache` file, or it was made from a content with the same hashes under a name that
fits on a line. -/
theorem newInfoHash_current_iff {s₀ : CacheHistory} (hs₀ : s₀.Fresh)
    (hrun : Run (step env) s₀ tr s) {x : EntryName} {content : Bytes}
    (hfile : s.disk.slot x.val .file = some content) (sizes : ℕ → ℕ) :
    (runFrom (BearTorrent.newInfoHash env x.val sizes : DiskM InfoHash) s.disk).1
        = .ok (.compute env x.val content sizes) ↔
      s.disk.slot x.val .cache = none ∨
        ∃ old, s.source x = some old ∧ SameDigests env old content ∧ IsLine x.val.toList := by
  have hx := tracked_run hs₀ hrun x
  rw [(performs_newInfoHash env s.disk x.val sizes).runFrom_eq]
  cases hcache : s.disk.slot x.val .cache with
  | none => simp [Disk.newInfoHash, hcache, hfile]
  | some contents =>
    simp only [Disk.newInfoHash, hcache]
    rw [hcache] at hx
    cases hsource : s.source x with
    | some old =>
      rw [hsource] at hx
      obtain ⟨sizes', hx⟩ := hx
      rw [Option.some.inj hx, loadFileCache_eq_iff]
      simp
    | none =>
      -- an empty `.filecache` file has no first line
      rw [hsource] at hx
      obtain rfl := Option.some.inj (hx.resolve_left (by simp))
      have hempty : loadFileCache [] = .error .panic := by decide
      rw [hempty]
      simp

/-! ### A file that is overwritten -/

/-- A client without files. -/
def emptyFolder : CacheHistory := ⟨⟨[], fun _ => none⟩, fun _ => none⟩

lemma fresh_emptyFolder : emptyFolder.Fresh := ⟨fun _ => rfl, fun _ => rfl⟩

/-- Another program can write a file of any name, and leaves the other files of the name alone. -/
lemma step_edit (env : Env) (s : CacheHistory) (x : EntryName) (content : Bytes) :
    ∃ t, step env s (.edit x.val (some content)) = some t ∧ t.source = s.source ∧
      ∀ slot, t.disk.slot x.val slot
        = if slot = .file then some content else s.disk.slot x.val slot := by
  refine ⟨{ s with disk := s.disk.set (filePath x.val) (some content) }, ?_, rfl,
    fun slot => s.disk.slot_set x.val .file slot (some content)⟩
  rw [step]
  exact if_pos (x.shared_file s.disk.cwd)

/-- The first scan of a file. -/
lemma step_newInfoHash (env : Env) {s : CacheHistory} {x : EntryName} {content : Bytes}
    (hfile : s.disk.slot x.val .file = some content) (hcache : s.disk.slot x.val .cache = none)
    (sizes : ℕ → ℕ) :
    ∃ t, step env s (.newInfoHash x sizes) = some t ∧ t.source x = some content ∧
      t.disk.slot x.val .file = some content ∧
      t.disk.slot x.val .cache = some (cacheText (.compute env x.val content sizes)) := by
  refine ⟨_, rfl, ?_, ?_, ?_⟩
  · rw [hcache, hfile]
    exact update_self x (some content) s.source
  · rw [(performs_newInfoHash env s.disk x.val sizes).runFrom_eq, ← hfile]
    refine slot_after s.disk x.val .file fun e he p hp => ?_
    obtain ⟨slot, hslot, rfl⟩ := onSlots_newInfoHash env s.disk x.val sizes e he p hp
    obtain rfl := List.mem_singleton.mp hslot
    exact (locate_injective s.disk.cwd x.val).ne (by decide)
  · have hslot := slot_newInfoHash env s.disk x.val sizes
    rw [hcache, hfile] at hslot
    rw [(performs_newInfoHash env s.disk x.val sizes).runFrom_eq]
    exact hslot

/-- A file is written and scanned. -/
lemma exists_scanned (env : Env) (x : EntryName) (content : Bytes) (sizes : ℕ → ℕ) :
    ∃ tr s, Run (step env) emptyFolder tr s ∧ s.source x = some content ∧
      s.disk.slot x.val .file = some content ∧
      s.disk.slot x.val .cache = some (cacheText (.compute env x.val content sizes)) := by
  obtain ⟨s, hs, -, hslot⟩ := step_edit env emptyFolder x content
  obtain ⟨t, ht, hscan⟩ := step_newInfoHash env (hslot .file) (hslot .cache) sizes
  exact ⟨_, t, ((Run.nil emptyFolder).snoc hs).snoc ht, hscan⟩

def scanEnv : Env := ⟨fun _ => Digest.zero, true⟩

def entryA : EntryName := ⟨"a", ⟨by decide, by decide, by decide⟩, by decide⟩

/-- A second scan of an unchanged file. -/
theorem newInfoHash_current_iff_unchanged : ∃ tr s, Run (step scanEnv) emptyFolder tr s ∧
    (runFrom (BearTorrent.newInfoHash scanEnv "a" (fun _ => 1) : DiskM InfoHash) s.disk).1
      = .ok (.compute scanEnv "a" [1] fun _ => 1) := by
  obtain ⟨tr, s, hrun, hsource, hfile, -⟩ := exists_scanned scanEnv entryA [1] fun _ => 1
  refine ⟨tr, s, hrun, ?_⟩
  apply (newInfoHash_current_iff fresh_emptyFolder hrun hfile fun _ => 1).mpr
  exact .inr ⟨[1], hsource, ⟨rfl, rfl⟩, by decide, by decide⟩

/-- After a file is overwritten, a scan still returns its old length. -/
theorem overwritten_file_is_stale : ¬ ∀ env s₀ tr s (x : EntryName) content sizes,
    s₀.Fresh → Run (step env) s₀ tr s → s.disk.slot x.val .file = some content →
    (runFrom (BearTorrent.newInfoHash env x.val sizes : DiskM InfoHash) s.disk).1
      = .ok (.compute env x.val content sizes) := by
  intro h
  obtain ⟨tr, s, hrun, -, -, hcache⟩ := exists_scanned scanEnv entryA [1] fun _ => 1
  obtain ⟨t, ht, -, hslot⟩ := step_edit scanEnv s entryA [1, 2]
  have hstale := h scanEnv _ _ t entryA [1, 2] (fun _ => 1) fresh_emptyFolder (hrun.snoc ht)
    (hslot .file)
  have hcache : t.disk.slot entryA.val .cache
      = some (cacheText (.compute scanEnv entryA.val [1] fun _ => 1)) := (hslot .cache).trans hcache
  rw [(performs_newInfoHash scanEnv t.disk entryA.val fun _ => 1).runFrom_eq] at hstale
  simp only [Disk.newInfoHash, hcache] at hstale
  exact absurd (loadFileCache_eq_iff.mp hstale).1.length (by decide)

end CacheHistory

end BearTorrent
