import BearTorrent.Client.FileCalls
import BearTorrent.Lib.FolderTree

/-!
# The file handler among folders

Here the calls of the file handler are made on a disk with folders. A folder exists, but it is not
created, opened for writing or removed as a file. A path that goes through a folder that is missing,
or that has a name longer than the file system takes, leads nowhere. Otherwise a call does what it
does on a disk alone.
-/

namespace BearTorrent

open Patch FileSystem Effects LexicalPath

/-- A computation on a disk with folders, which stay as they are. -/
def FolderM (α : Type) : Type := FolderTree → DiskM α

instance : Monad FolderM where
  pure a _ := pure a
  bind x f t := x t >>= fun a => f a t

instance : LawfulMonad FolderM := .mk' FolderM
  (fun x => funext fun t => id_map (x t))
  (fun a f => funext fun t => pure_bind a fun b => f b t)
  (fun x f g => funext fun t => bind_assoc (x t) (fun a => f a t) fun b => g b t)

instance : MonadExcept Fault FolderM where
  throw e _ := throw e
  tryCatch x handle t := tryCatch (x t) fun e => handle e t

/-- The error of a call whose path cannot be followed. -/
def followFault : FollowError → Fault
  | .notFound     => notFound
  | .notDirectory => .err "Not a directory"
  | .nameTooLong  => .err "File name too long"
  | .nulByte      => .err "file name contained an unexpected NUL byte"

/-- The error of a call that needs a file and finds a folder. -/
def isDirectory : Fault := .err "Is a directory"

/-- Follow a path among the folders and files as far as its last component. -/
def Disk.reach (d : Disk) (t : FolderTree) (path : String) : Except FollowError Unit :=
  t.reach (fun loc => (d.files loc).isSome) d.cwd path

/-- A call that needs a path where no folder is. -/
def onPlace {α : Type} (path : String) (x : DiskM α) : FolderM α := fun t => do
  let d ← getState
  MonadExcept.ofExcept ((d.reach t path).mapError followFault)
  if t.folders (resolve d.cwd path) then throw isDirectory else x

/-- `exists` is an error unless the path is followed or something is missing on it. A folder can be
opened and nothing be read from it. Moving a folder is recorded only. -/
instance : FileSystem FolderM where
  pathExists path t := do
    let d ← getState
    match d.reach t path with
    | .ok ()           => if t.folders (resolve d.cwd path) then pure true else pathExists path
    | .error .notFound => pure false
    | .error e         => throw (followFault e)
  create path := onPlace path (create path)
  readToEnd path := onPlace path (readToEnd path)
  readExactAt path offset len t := do
    let d ← getState
    MonadExcept.ofExcept ((d.reach t path).mapError followFault)
    if t.folders (resolve d.cwd path) then
      if len = 0 then pure [] else throw isDirectory
    else readExactAt path offset len
  writeAllAt path offset bytes := onPlace path (writeAllAt path offset bytes)
  rename path newPath t := do
    let d ← getState
    MonadExcept.ofExcept ((d.reach t path).mapError followFault)
    onPlace newPath (if t.folders (resolve d.cwd path) then perform (.renamed path newPath)
      else rename path newPath) t
  removeFile path := onPlace path (removeFile path)

/-- The folders of the client, which the file system has room for. -/
structure HasResources (t : FolderTree) (cwd : Location) : Prop where
  cache : t.folders (cacheFolder cwd) = true
  files : t.folders (filesFolder cwd) = true
  names : 9 ≤ t.nameMax

lemma nul_mem_tempFileName_iff {name extension src : String}
    (hextension : '\x00' ∉ extension.toList) (hsrc : '\x00' ∉ src.toList) :
    '\x00' ∈ (tempFileName name extension src).toList ↔ '\x00' ∈ name.toList := by
  have hresources : '\x00' ∉ "resources/".toList := by decide
  have hslash : '\x00' ∉ "/".toList := by decide
  simp only [tempFileName, String.toList_append, List.mem_append, hresources, hsrc, hslash,
    hextension, false_or, or_false]

lemma nul_mem_path_iff {name : String} {s : Slot} :
    '\x00' ∈ (s.path name).toList ↔ '\x00' ∈ name.toList := by
  cases s with
  | part | info | cache => exact nul_mem_tempFileName_iff (by decide) (by decide)
  | file =>
    have hfile : '\x00' ∈ (tempFileName name "" "files").toList ↔ '\x00' ∈ name.toList :=
      nul_mem_tempFileName_iff (by decide) (by decide)
    rwa [tempFileName_files] at hfile

/-! ### What the calls touch -/

/-- The effect is on files of the name, where no folder is. -/
def Touches (t : FolderTree) (cwd : Location) (name : String) : Effect → Prop
  | .created p | .opened p | .written p _ _ | .removed p =>
    ∃ s : Slot, p = s.path name ∧ t.Free cwd p
  | .renamed p q => p = partPath name ∧ q = filePath name ∧ t.Free cwd q

/-- All effects of a computation are on files of the name, and its result satisfies `Q`. -/
def StaysOn {α : Type} (t : FolderTree) (cwd : Location) (name : String) (Q : α → Prop)
    (x : FolderM α) : Prop :=
  Emits (fun d : Disk => d.cwd = cwd) (Touches t cwd name) Q (x t)

namespace StaysOn

variable {α β : Type} {t : FolderTree} {cwd : Location} {name : String} {Q : α → Prop}
  {R : β → Prop} {s : Slot}

lemma pure {a : α} (ha : Q a) : StaysOn t cwd name Q (pure a : FolderM α) := Emits.pure ha

lemma throw (e : Fault) : StaysOn t cwd name Q (throw e : FolderM α) := Emits.throw e

lemma bind {x : FolderM α} {f : α → FolderM β} (hx : StaysOn t cwd name Q x)
    (hf : ∀ a, Q a → StaysOn t cwd name R (f a)) : StaysOn t cwd name R (x >>= f) :=
  Emits.bind hx hf

lemma tryCatch {x : FolderM α} {handle : Fault → FolderM α} (hx : StaysOn t cwd name Q x)
    (hhandle : ∀ e, StaysOn t cwd name Q (handle e)) :
    StaysOn t cwd name Q (tryCatch x handle) :=
  Emits.tryCatch hx hhandle

lemma unwrap {x : FolderM α} (hx : StaysOn t cwd name Q x) : StaysOn t cwd name Q (unwrap x) :=
  hx.tryCatch fun _ => throw .panic

lemma ofExcept (r : Except Fault α) :
    StaysOn t cwd name (fun _ => True) (MonadExcept.ofExcept r : FolderM α) := by
  cases r with
  | error e => exact throw e
  | ok a => exact pure trivial

/-! ### The operations -/

/-- On a path that can be followed and does not lead to a folder, the disk is used. -/
lemma onPlace {path : String} {x : DiskM α} (hx : t.Free cwd path →
      Emits (fun d : Disk => d.cwd = cwd) (Touches t cwd name) Q x) :
    StaysOn t cwd name Q (onPlace path x) := by
  refine Emits.getState_bind fun d hd => ?_
  subst hd
  cases hreach : d.reach t path with
  | error e => exact Emits.throw _
  | ok u =>
    refine (Emits.ofExcept (Q := fun _ => True) fun _ _ => trivial).bind fun _ _ => ?_
    split_ifs with hfolder
    · exact Emits.throw _
    · exact hx (FolderTree.free_of_reach hreach (Bool.eq_false_iff.mpr hfolder))

/-- The file at a path is looked for without effects. -/
lemma emits_onFile {path : String} {f : Bytes → DiskM α} {I : Disk → Prop} {P : Effect → Prop}
    (hf : ∀ content, Emits I P Q (f content)) : Emits I P Q (onFile path f) := by
  refine Emits.getState_bind fun d _ => ?_
  cases d.content path with
  | none => exact Emits.throw _
  | some content => exact hf content

lemma emits_perform {e : Effect} (he : Touches t cwd name e) :
    Emits (fun d : Disk => d.cwd = cwd) (Touches t cwd name) (fun _ => True)
      (perform e : DiskM Unit) :=
  .perform he fun d hd => (cwd_act e d).trans hd

lemma pathExists (path : String) :
    StaysOn t cwd name (fun _ => True) (pathExists path : FolderM Bool) := by
  refine Emits.getState_bind fun d _ => ?_
  cases d.reach t path with
  | ok u =>
    simp only
    split_ifs
    · exact Emits.pure trivial
    · exact Emits.getState_bind fun _ _ => Emits.pure trivial
  | error e =>
    cases e with
    | notFound => exact Emits.pure trivial
    | _ => exact Emits.throw _

lemma create (s : Slot) :
    StaysOn t cwd name (fun _ => True) (create (s.path name) : FolderM Unit) := by
  refine onPlace fun hfree => emits_perform ?_
  exact ⟨s, rfl, hfree⟩

lemma readToEnd (s : Slot) :
    StaysOn t cwd name (fun _ => True) (readToEnd (s.path name) : FolderM Bytes) := by
  refine onPlace fun hfree => emits_onFile fun content => (emits_perform ?_).bind fun _ _ => ?_
  · exact ⟨s, rfl, hfree⟩
  · exact Emits.pure trivial

lemma writeAllAt (s : Slot) (offset : ℕ) (bytes : Bytes) :
    StaysOn t cwd name (fun _ => True) (writeAllAt (s.path name) offset bytes : FolderM Unit) := by
  refine onPlace fun hfree => emits_onFile fun _ => emits_perform ?_
  exact ⟨s, rfl, hfree⟩

lemma removeFile (s : Slot) :
    StaysOn t cwd name (fun _ => True) (removeFile (s.path name) : FolderM Unit) := by
  refine onPlace fun hfree => emits_onFile fun _ => emits_perform ?_
  exact ⟨s, rfl, hfree⟩

lemma readExactAt (path : String) (offset len : ℕ) :
    StaysOn t cwd name (fun _ => True) (readExactAt path offset len : FolderM Bytes) := by
  refine Emits.getState_bind fun d _ =>
    (Emits.ofExcept (Q := fun _ => True) fun _ _ => trivial).bind fun _ _ => ?_
  split_ifs
  · exact Emits.pure trivial
  · exact Emits.throw _
  · refine emits_onFile fun content => ?_
    split_ifs
    · exact Emits.pure trivial
    · exact Emits.throw _

lemma rename : StaysOn t cwd name (fun _ => True)
    (rename (partPath name) (filePath name) : FolderM Unit) := by
  refine Emits.getState_bind fun d _ =>
    (Emits.ofExcept (Q := fun _ => True) fun _ _ => trivial).bind fun _ _ => ?_
  refine onPlace fun hfree => ?_
  have hrenamed : Touches t cwd name (.renamed (partPath name) (filePath name)) :=
    ⟨rfl, rfl, hfree⟩
  split_ifs
  · exact emits_perform hrenamed
  · exact emits_onFile fun _ => emits_perform hrenamed

/-! ### The functions -/

lemma getTempFile {fileName extension src : String}
    (h : tempFileName fileName extension src = s.path name) :
    StaysOn t cwd name (fun found => found.1 = s.path name)
      (getTempFile fileName extension src : FolderM _) := by
  rw [BearTorrent.getTempFile, h]
  refine (pathExists _).bind fun found _ => ?_
  split_ifs
  · exact pure rfl
  · exact (create s).bind fun _ _ => pure rfl

lemma getPartFile : StaysOn t cwd name (· = partPath name) (getPartFile name : FolderM _) :=
  (getTempFile (s := .part) rfl).unwrap.bind fun _ hpath => pure hpath

lemma getInfoFile :
    StaysOn t cwd name (fun found => found.1 = infoPath name) (getInfoFile name : FolderM _) :=
  (getTempFile (s := .info) rfl).unwrap

lemma getFileCache :
    StaysOn t cwd name (fun found => found.1 = fileCachePath name)
      (getFileCache name : FolderM _) :=
  (getTempFile (s := .cache) rfl).unwrap

lemma getFile : StaysOn t cwd name (· = filePath name) (getFile name : FolderM _) :=
  (getTempFile (s := .file) (tempFileName_files name)).unwrap.bind fun _ hpath => pure hpath

end StaysOn

/-- The computation begins with `x`, and goes on with files of the name. -/
def Begins {α β : Type} (t : FolderTree) (cwd : Location) (name : String) (Q : α → Prop)
    (x : FolderM α) (y : FolderM β) : Prop :=
  ∃ k, y = x >>= k ∧ ∀ a, Q a → StaysOn t cwd name (fun _ => True) (k a)

namespace Begins

variable {α β γ : Type} {t : FolderTree} {cwd : Location} {name : String} {Q : α → Prop}
  {x : FolderM α} {y : FolderM β}

lemma staysOn (h : Begins t cwd name Q x y) (hx : StaysOn t cwd name Q x) :
    StaysOn t cwd name (fun _ => True) y := by
  obtain ⟨k, rfl, hk⟩ := h
  exact hx.bind hk

lemma bind (h : Begins t cwd name Q x y) {f : β → FolderM γ}
    (hf : ∀ b, StaysOn t cwd name (fun _ => True) (f b)) : Begins t cwd name Q x (y >>= f) := by
  obtain ⟨k, rfl, hk⟩ := h
  exact ⟨fun a => k a >>= f, bind_assoc x k f, fun a ha => (hk a ha).bind fun b _ => hf b⟩

/-- What the beginning does is done. -/
lemma mem_effects (h : Begins t cwd name Q x y) (hx : StaysOn t cwd name Q x) {d : Disk}
    (hd : d.cwd = cwd) {e : Effect} (he : e ∈ (runFrom (x t) d).2.2) :
    e ∈ (runFrom (y t) d).2.2 := by
  obtain ⟨k, rfl, hk⟩ := h
  exact Emits.mem_bind hx hk hd he

end Begins

section Calls

open StaysOn

variable {t : FolderTree} {cwd : Location} {name : String} {h : InfoHash}

lemma begins_getInfoStatus : Begins t cwd h.name (fun found => found.1 = infoPath h.name)
    (getInfoFile h.name) (getInfoStatus h) := by
  refine ⟨_, rfl, fun found hpath => ?_⟩
  obtain ⟨path, isNew⟩ := found
  obtain rfl : path = infoPath h.name := hpath
  cases isNew with
  | true => exact (StaysOn.readToEnd .info).unwrap.bind fun _ _ => StaysOn.pure trivial
  | false => exact (StaysOn.writeAllAt .info _ _).unwrap.bind fun _ _ => StaysOn.pure trivial

lemma begins_isFileComplete : Begins t cwd h.name (fun found => found.1 = infoPath h.name)
    (getInfoFile h.name) (isFileComplete h) :=
  begins_getInfoStatus.bind fun _ => StaysOn.pure trivial

lemma staysOn_buildFile : StaysOn t cwd h.name (fun _ => True) (buildFile h : FolderM Unit) := by
  refine (begins_isFileComplete.staysOn StaysOn.getInfoFile).bind fun complete _ => ?_
  cases complete with
  | false => exact StaysOn.throw _
  | true =>
    refine StaysOn.getPartFile.bind fun partFile hpart =>
      StaysOn.getInfoFile.bind fun found hinfo => ?_
    obtain ⟨infoFile, isNew⟩ := found
    obtain rfl : infoFile = infoPath h.name := hinfo
    subst hpart
    have hmove : StaysOn t cwd h.name (fun _ => True) (do
        rename (partPath h.name) ("resources/files/" ++ h.name)
        removeFile (infoPath h.name) : FolderM Unit) :=
      StaysOn.rename.bind fun _ _ => StaysOn.removeFile .info
    refine (StaysOn.pathExists _).bind fun found _ => ?_
    split_ifs
    · exact (StaysOn.throw (Q := fun _ => True) _).bind fun _ _ => hmove
    · exact hmove

lemma begins_writePieceToPart (env : Env) (piece : Bytes) (index : UInt32) :
    Begins t cwd h.name (· = partPath h.name) (getPartFile h.name)
      (writePieceToPart env h piece index) := by
  refine ⟨_, rfl, fun path hpath => ?_⟩
  subst hpath
  refine (StaysOn.ofExcept _).bind fun offset _ =>
    (StaysOn.writeAllAt .part _ _).bind fun _ _ => ?_
  refine (begins_getInfoStatus.staysOn StaysOn.getInfoFile).bind fun status _ => ?_
  have hmark : StaysOn t cwd h.name (fun _ => True) (getInfoFile h.name >>= fun found =>
      writeAllAt found.1 index.toNat [1] : FolderM Unit) := by
    refine StaysOn.getInfoFile.bind fun found hinfo => ?_
    rw [hinfo]
    exact StaysOn.writeAllAt .info _ _
  split_ifs
  · exact (StaysOn.throw (Q := fun _ => True) _).bind fun _ _ => hmark
  · exact hmark

lemma begins_readPieceFromFile (env : Env) (index : UInt32) :
    Begins t cwd h.name (· = filePath h.name) (getFile h.name) (readPieceFromFile env h index) := by
  refine ⟨_, rfl, fun path hpath => ?_⟩
  subst hpath
  refine (StaysOn.ofExcept _).bind fun pieceLength _ => ?_
  have hread : StaysOn t cwd h.name (fun _ => True) (do
      let offset ← MonadExcept.ofExcept (mulU32 env h.pieceLength index)
      readExactAt (filePath h.name) offset.toNat pieceLength : FolderM Bytes) :=
    (StaysOn.ofExcept _).bind fun _ _ => StaysOn.readExactAt _ _ _
  split_ifs
  · exact (StaysOn.throw (Q := fun _ => True) _).bind fun _ _ => hread
  · exact hread

/-- The look-ups with which `delete_file` begins. -/
def lookUps (fileName : String) : FolderM (String × String × String) := do
  let (infoPath, _) ← getInfoFile fileName
  let partPath ← getPartFile fileName
  let (cachePath, _) ← getFileCache fileName
  return (infoPath, partPath, cachePath)

lemma staysOn_lookUps : StaysOn t cwd name
    (fun paths => paths = (infoPath name, partPath name, fileCachePath name)) (lookUps name) := by
  refine StaysOn.getInfoFile.bind fun info hinfo => StaysOn.getPartFile.bind fun part hpart =>
    StaysOn.getFileCache.bind fun cache hcache => StaysOn.pure ?_
  rw [hinfo, hpart, hcache]

lemma begins_deleteFile : Begins t cwd name
    (fun paths => paths = (infoPath name, partPath name, fileCachePath name)) (lookUps name)
      (deleteFile name) := by
  refine ⟨fun paths => do
    if ← pathExists ("resources/files/" ++ name) then
      removeOrReport ("resources/files/" ++ name)
      removeOrReport paths.2.1
      removeOrReport paths.2.2
      removeOrReport paths.1, ?_, fun paths hpaths => ?_⟩
  · rw [lookUps, bind_assoc]
    refine bind_congr fun info => ?_
    rw [bind_assoc]
    refine bind_congr fun part => ?_
    rw [bind_assoc]
    refine bind_congr fun cache => ?_
    rw [pure_bind]
  · subst hpaths
    have hremove (s : Slot) :
        StaysOn t cwd name (fun _ => True) (removeOrReport (s.path name) : FolderM Unit) :=
      (StaysOn.removeFile s).tryCatch fun _ => StaysOn.pure trivial
    refine (StaysOn.pathExists _).bind fun found _ => ?_
    split_ifs
    · exact (hremove .file).bind fun _ _ => (hremove .part).bind fun _ _ =>
        (hremove .cache).bind fun _ _ => hremove .info
    · exact StaysOn.pure trivial

/-- Whatever a call creates, writes, renames or removes is a file of the name. -/
theorem staysOn_fileCall (env : Env) (c : FileCall) :
    StaysOn t cwd h.name (fun _ => True) (c.call env h : FolderM CallResult) := by
  cases c with
  | download c =>
    cases c with
    | writePiece piece index =>
      exact ((begins_writePieceToPart env piece index).staysOn StaysOn.getPartFile).bind
        fun _ _ => StaysOn.pure trivial
    | isComplete =>
      exact (begins_isFileComplete.staysOn StaysOn.getInfoFile).bind fun _ _ => StaysOn.pure trivial
    | build => exact staysOn_buildFile.bind fun _ _ => StaysOn.pure trivial
  | delete =>
    exact (begins_deleteFile.staysOn staysOn_lookUps).bind fun _ _ => StaysOn.pure trivial
  | readPiece index =>
    exact ((begins_readPieceFromFile env index).staysOn StaysOn.getFile).bind
      fun _ _ => StaysOn.pure trivial

end Calls

/-! ### Where no folder is in the way -/

/-- The computation does the same as on a disk alone, and its result satisfies `Q`. -/
def SameAs {α : Type} (t : FolderTree) (cwd : Location) (Q : α → Prop) (x : FolderM α)
    (y : DiskM α) : Prop :=
  SameOn (fun d : Disk => d.cwd = cwd) Q (x t) y

namespace SameAs

variable {α β : Type} {t : FolderTree} {cwd : Location} {Q : α → Prop} {R : β → Prop}
  {x : FolderM α} {y : DiskM α} {path : String}

lemma pure {a : α} (ha : Q a) : SameAs t cwd Q (pure a : FolderM α) (pure a) := SameOn.pure ha

lemma bind {f : α → FolderM β} {g : α → DiskM β} (hx : SameAs t cwd Q x y)
    (hf : ∀ a, Q a → SameAs t cwd R (f a) (g a)) : SameAs t cwd R (x >>= f) (y >>= g) :=
  SameOn.bind hx hf

lemma unwrap (hx : SameAs t cwd Q x y) : SameAs t cwd Q (unwrap x) (unwrap y) :=
  SameOn.tryCatch hx fun _ => SameOn.throw Fault.panic

lemma ofExcept (r : Except Fault α) :
    SameAs t cwd (fun _ => True) (MonadExcept.ofExcept r : FolderM α)
      (MonadExcept.ofExcept r) := by
  cases r with
  | error e => exact SameOn.throw e
  | ok a => exact SameOn.pure trivial

lemma onPlace (hfree : t.Free cwd path) {y : DiskM α}
    (hy : ∀ s log, (y (s, log)).2.1.cwd = s.cwd) :
    SameAs t cwd (fun _ => True) (onPlace path y) y := by
  intro d log hd
  subst hd
  have hreach : d.reach t path = .ok () := hfree.reach_eq_ok
  refine ⟨?_, hy d log, fun _ _ => trivial⟩
  change ((MonadExcept.ofExcept ((d.reach t path).mapError followFault) >>= fun _ =>
    if t.folders (resolve d.cwd path) then MonadExcept.throw isDirectory
    else y) : DiskM α) (d, log) = _
  rw [hreach, hfree.last]
  rfl

lemma cwd_onFile {f : Bytes → DiskM α} (hf : ∀ content s log, (f content (s, log)).2.1.cwd = s.cwd)
    (s : Disk) (log : List Effect) : (onFile path f (s, log)).2.1.cwd = s.cwd := by
  rw [onFile, getState_bind]
  cases s.content path with
  | none => rfl
  | some content => exact hf content s log

lemma pathExists (hfree : t.Free cwd path) :
    SameAs t cwd (fun _ => True) (pathExists path : FolderM Bool) (pathExists path) := by
  intro d log hd
  subst hd
  have hreach : d.reach t path = .ok () := hfree.reach_eq_ok
  refine ⟨?_, rfl, fun _ _ => trivial⟩
  change ((match d.reach t path with
    | .ok () =>
      if t.folders (resolve d.cwd path) then Pure.pure true else FileSystem.pathExists path
    | .error .notFound => Pure.pure false
    | .error e => MonadExcept.throw (followFault e)) : DiskM Bool) (d, log) = _
  rw [hreach, hfree.last]
  rfl

lemma create (hfree : t.Free cwd path) :
    SameAs t cwd (fun _ => True) (create path : FolderM Unit) (create path) :=
  onPlace hfree fun s _ => cwd_act _ s

lemma writeAllAt (hfree : t.Free cwd path) (offset : ℕ) (bytes : Bytes) :
    SameAs t cwd (fun _ => True) (writeAllAt path offset bytes : FolderM Unit)
      (writeAllAt path offset bytes) :=
  onPlace hfree (cwd_onFile fun _ s _ => cwd_act _ s)

lemma getTempFile {fileName extension src : String}
    (hfree : t.Free cwd (tempFileName fileName extension src)) :
    SameAs t cwd (fun found => found.1 = tempFileName fileName extension src)
      (getTempFile fileName extension src : FolderM _) (getTempFile fileName extension src) := by
  refine (pathExists hfree).bind fun found _ => ?_
  split_ifs
  · exact pure rfl
  · exact (create hfree).bind fun _ _ => pure rfl

end SameAs

section LookUp

variable {t : FolderTree} {d : Disk} {name : String} {s : Slot}

/-- The effects of looking up a file when there may be a folder. -/
def Disk.touchAmong (d : Disk) (t : FolderTree) (name : String) (s : Slot) : List Effect :=
  if t.folders (locate d.cwd name s) then [] else d.touch name s

/-- A look-up with a path that can be followed. -/
lemma performs_getTempFile_among {fileName extension src : String}
    (h : tempFileName fileName extension src = s.path name)
    (hreach : d.reach t (s.path name) = .ok ()) :
    ∃ found, Performs ((getTempFile fileName extension src : FolderM _) t) d (.ok found)
      (d.touchAmong t name s) := by
  rw [Disk.touchAmong]
  split_ifs with hfolder
  · refine ⟨(s.path name, true), ?_⟩
    have hexists : Performs ((pathExists (s.path name) : FolderM Bool) t) d (.ok true) [] := by
      refine Performs.getState.bind ?_
      rw [after_nil, hreach]
      change Performs (if t.folders (locate d.cwd name s) then pure true else _) d _ _
      rw [if_pos hfolder]
      exact .pure true
    rw [getTempFile, h]
    exact hexists.bind (.pure _)
  · have hfree : t.Free d.cwd (s.path name) :=
      FolderTree.free_of_reach hreach (Bool.eq_false_iff.mpr hfolder)
    rw [← h] at hfree
    exact ⟨_, (SameAs.getTempFile hfree).performs rfl (performs_getTempFile d name s h)⟩

end LookUp

end BearTorrent
