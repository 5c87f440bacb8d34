import BearTorrent.Client.FileStore
import BearTorrent.Lib.Effects
import BearTorrent.Lib.LexicalPath

/-!
# The file handler on a disk

Here a path leads to a location, so that two names may share files, and every effect is recorded.
A name has four files: the three of its cache and the finished one. They are at four locations
whatever the name is, and each call of the file handler is specified by its effects on them. The
disk holds files only. The folders that a name goes through are taken to exist, no folder is where
a file is to be, and every name fits: `exists` and `create` never fail. `FolderEffects` has the
folders, and the calls that fail.
-/

namespace BearTorrent

open Patch FileSystem Effects LexicalPath

/-- The files, and the folder that the client runs in. -/
structure Disk where
  cwd : Location
  files : Location → Option Bytes

/-- The content of the file at a path. -/
def Disk.content (d : Disk) (path : String) : Option Bytes := d.files (resolve d.cwd path)

/-- Create, overwrite or remove the file at a path. -/
def Disk.set (d : Disk) (path : String) (content : Option Bytes) : Disk :=
  { d with files := Function.update d.files (resolve d.cwd path) content }

/-- What a call does to the file system. Opening is for writing. -/
inductive Effect where
  | created (path : String)
  | opened (path : String)
  | written (path : String) (offset : ℕ) (bytes : Bytes)
  | renamed (path newPath : String)
  | removed (path : String)
  deriving DecidableEq, Repr

/-- The paths that an effect names. -/
def Effect.paths : Effect → List String
  | .created p | .opened p | .written p _ _ | .removed p => [p]
  | .renamed p q => [p, q]

instance : ActsOn Effect Disk where
  act
    | .created p, d => d.set p (some [])
    | .opened _, d => d
    | .written p offset bytes, d => d.set p ((d.content p).map (patch 0 · offset bytes))
    | .renamed p q, d => (d.set p none).set q (d.content p)
    | .removed p, d => d.set p none

/-- A computation on a disk. -/
abbrev DiskM := EffectM Effect Disk Fault

/-- Open a file that has to exist. -/
def onFile {α : Type} (path : String) (f : Bytes → DiskM α) : DiskM α := do
  match (← getState).content path with
  | some content => f content
  | none => throw notFound

instance : FileSystem DiskM where
  pathExists path := do return ((← getState).content path).isSome
  create path := perform (.created path)
  readToEnd path := onFile path fun content => do
    perform (.opened path)
    return content
  readExactAt path offset len := onFile path fun content =>
    if len = 0 ∨ offset + len ≤ content.length then pure (slice content offset len)
    else throw (.err "failed to fill whole buffer")
  writeAllAt path offset bytes := onFile path fun _ => perform (.written path offset bytes)
  rename path newPath := onFile path fun _ => perform (.renamed path newPath)
  removeFile path := onFile path fun _ => perform (.removed path)

/-! ### Locations -/

/-- `resources/cache` -/
def cacheFolder (cwd : Location) : Location := "cache".toList :: "resources".toList :: cwd

/-- `resources/files` -/
def filesFolder (cwd : Location) : Location := "files".toList :: "resources".toList :: cwd

lemma components_cache (name : String) {extension : String} (h : '/' ∉ extension.toList) :
    components (tempFileName name extension "cache").toList
      = "resources".toList :: "cache".toList ::
          (folders name.toList ++ [fileName name.toList ++ extension.toList]) := by
  have hpath : (tempFileName name extension "cache").toList
      = "resources".toList ++ '/' :: ("cache".toList ++ '/' ::
          (name.toList ++ extension.toList)) := by
    simp [tempFileName]
  rw [hpath, components_append_cons, components_append_cons,
    components_of_notMem (by decide), components_of_notMem (by decide), components_append h]
  rfl

lemma resolve_cache (cwd : Location) (name : String) {extension : String}
    (h : '/' ∉ extension.toList) :
    resolve cwd (tempFileName name extension "cache")
      = walk (cacheFolder cwd)
          (folders name.toList ++ [fileName name.toList ++ extension.toList]) := by
  rw [resolve, components_cache name h]
  rfl

lemma components_files (name : String) : components (filePath name).toList
    = "resources".toList :: "files".toList :: components name.toList := by
  have hpath : (filePath name).toList
      = "resources".toList ++ '/' :: ("files".toList ++ '/' :: name.toList) := by
    simp [filePath]
  rw [hpath, components_append_cons, components_append_cons,
    components_of_notMem (by decide), components_of_notMem (by decide)]
  rfl

lemma resolve_files (cwd : Location) (name : String) :
    resolve cwd (filePath name) = walk (filesFolder cwd) (components name.toList) := by
  rw [resolve, components_files]
  rfl

/-- The files that belong to a name. -/
inductive Slot where
  | part
  | info
  | cache
  | file
  deriving DecidableEq, Repr

/-- The `.filecache` file. -/
abbrev fileCachePath (name : String) : String := tempFileName name ".filecache" "cache"

/-- The path of a file. -/
def Slot.path (name : String) : Slot → String
  | .part  => partPath name
  | .info  => infoPath name
  | .cache => fileCachePath name
  | .file  => filePath name

/-- What the path of a file ends with, after the name. -/
def Slot.extension : Slot → List Char
  | .part  => ".part".toList
  | .info  => ".info".toList
  | .cache => ".filecache".toList
  | .file  => []

/-- Where a file of a name is. -/
def locate (cwd : Location) (name : String) (s : Slot) : Location := resolve cwd (s.path name)

/-- The folder of a file, when the name has no slash. -/
def Slot.folder (cwd : Location) : Slot → Location
  | .file => filesFolder cwd
  | _     => cacheFolder cwd

lemma Slot.length_folder (cwd : Location) (s : Slot) :
    (s.folder cwd).length = cwd.length + 2 := by
  cases s <;> rfl

lemma locate_eq (cwd : Location) (name : String) (s : Slot) :
    locate cwd name s
      = walk (s.folder cwd) (folders name.toList ++ [fileName name.toList ++ s.extension]) := by
  cases s with
  | part  => exact resolve_cache cwd name (by decide)
  | info  => exact resolve_cache cwd name (by decide)
  | cache => exact resolve_cache cwd name (by decide)
  | file =>
    have hext : Slot.file.extension = [] := rfl
    rw [hext, List.append_nil, ← components_eq]
    exact resolve_files cwd name

/-- The four files of a name are at four locations. -/
theorem locate_injective (cwd : Location) (name : String) :
    Function.Injective (locate cwd name) := by
  have hfolder (s t : Slot) : (s.folder cwd).length = (t.folder cwd).length := by
    rw [s.length_folder, t.length_folder]
  have hlong (s : Slot) : s = .file ∨ 3 ≤ s.extension.length := by
    cases s <;> decide
  have hext {s t : Slot} (h : s ≠ t) : s.extension ≠ t.extension := by
    revert h
    cases s <;> cases t <;> decide
  intro s t heq
  by_contra hne
  rw [locate_eq, locate_eq] at heq
  rcases hlong s with rfl | hs
  · rcases hlong t with rfl | ht
    · exact hne rfl
    · exact walk_append_ne (hfolder t .file) _ _ ht (hext (Ne.symm hne)) heq.symm
  · exact walk_append_ne (hfolder s t) _ _ hs (hext hne) heq

@[simp] lemma Slot.path_inj {name : String} {s t : Slot} :
    s.path name = t.path name ↔ s = t :=
  ⟨fun h => locate_injective [] name (congrArg (resolve []) h), congrArg _⟩

/-- A file of the cache is in the folder that the name's folders lead to. -/
lemma locate_cache (cwd : Location) (name : String) {s : Slot} (hs : s ≠ .file) :
    locate cwd name s = (fileName name.toList ++ s.extension) ::
      walk (cacheFolder cwd) (folders name.toList) := by
  have hplain : Plain (fileName name.toList ++ s.extension) := by
    apply plain_of_length
    have hlong : 3 ≤ s.extension.length := by cases s <;> first | decide | exact absurd rfl hs
    rw [List.length_append]
    omega
  have hfolder : s.folder cwd = cacheFolder cwd := by
    cases s <;> first | rfl | exact absurd rfl hs
  rw [locate_eq, walk_append_singleton, enter_of_plain hplain, hfolder]

/-- The files of a name without a slash. -/
lemma locate_cache_of_notMem (cwd : Location) {name : String} (h : '/' ∉ name.toList) {s : Slot}
    (hs : s ≠ .file) :
    locate cwd name s = (name.toList ++ s.extension) :: cacheFolder cwd := by
  rw [locate_cache cwd name hs, folders_of_notMem h, fileName_of_notMem h, walk_nil]

lemma locate_file_of_notMem (cwd : Location) {name : String} (h : '/' ∉ name.toList) :
    locate cwd name .file = enter (filesFolder cwd) name.toList := by
  rw [locate_eq, folders_of_notMem h, fileName_of_notMem h, List.nil_append]
  exact congrArg _ (List.append_nil _)

/-! ### Effects on the files of a name -/

@[simp] lemma cwd_act (e : Effect) (d : Disk) : (act e d).cwd = d.cwd := by
  cases e <;> rfl

@[simp] lemma cwd_after (es : List Effect) (d : Disk) : (after es d).cwd = d.cwd :=
  observe_after (fun e _ d => cwd_act e d) d

/-- The content of a file of a name. -/
def Disk.slot (d : Disk) (name : String) (s : Slot) : Option Bytes := d.content (s.path name)

section Slot

variable (d : Disk) (name : String) (s t : Slot)

lemma Disk.content_set (p q : String) (c : Option Bytes) :
    (d.set p c).content q = if resolve d.cwd q = resolve d.cwd p then c else d.content q :=
  Function.update_apply d.files (resolve d.cwd p) c (resolve d.cwd q)

lemma Disk.slot_set (c : Option Bytes) :
    (d.set (s.path name) c).slot name t = if t = s then c else d.slot name t := by
  rw [slot, content_set]
  exact if_congr (locate_injective d.cwd name).eq_iff rfl rfl

@[simp] lemma slot_created :
    (act (Effect.created (s.path name)) d).slot name t
      = if t = s then some [] else d.slot name t :=
  d.slot_set name s t _

@[simp] lemma slot_opened (p : String) : (act (Effect.opened p) d).slot name t = d.slot name t :=
  rfl

@[simp] lemma slot_written (offset : ℕ) (bytes : Bytes) :
    (act (Effect.written (s.path name) offset bytes) d).slot name t
      = if t = s then (d.slot name s).map (patch 0 · offset bytes) else d.slot name t :=
  d.slot_set name s t _

@[simp] lemma slot_removed :
    (act (Effect.removed (s.path name)) d).slot name t
      = if t = s then none else d.slot name t :=
  d.slot_set name s t _

@[simp] lemma slot_renamed (u : Slot) :
    (act (Effect.renamed (s.path name) (u.path name)) d).slot name t
      = if t = u then d.slot name s else if t = s then none else d.slot name t := by
  have h := (d.set (s.path name) none).slot_set name u t (d.slot name s)
  rwa [d.slot_set name s t] at h

/-- An effect on other locations leaves a file as it is. -/
lemma files_act {e : Effect} {loc : Location} (h : ∀ p ∈ e.paths, loc ≠ resolve d.cwd p) :
    (act e d).files loc = d.files loc := by
  cases e with
  | created p     => exact Function.update_of_ne (h p List.mem_cons_self) _ _
  | opened p      => rfl
  | written p _ _ => exact Function.update_of_ne (h p List.mem_cons_self) _ _
  | removed p     => exact Function.update_of_ne (h p List.mem_cons_self) _ _
  | renamed p q =>
    have hp := h p List.mem_cons_self
    have hq := h q (List.mem_cons_of_mem p List.mem_cons_self)
    exact (Function.update_of_ne hq _ _).trans (Function.update_of_ne hp _ _)

/-- Effects on other locations leave a file as it is. -/
lemma files_after {es : List Effect} {loc : Location}
    (h : ∀ e ∈ es, ∀ p ∈ e.paths, loc ≠ resolve d.cwd p) :
    (after es d).files loc = d.files loc := by
  induction es generalizing d with
  | nil => rfl
  | cons e es ih =>
    rw [after_cons, ih, files_act d (h e List.mem_cons_self)]
    intro e' he'
    rw [cwd_act]
    exact h e' (List.mem_cons_of_mem e he')

lemma slot_after {es : List Effect}
    (h : ∀ e ∈ es, ∀ p ∈ e.paths, locate d.cwd name s ≠ resolve d.cwd p) :
    (after es d).slot name s = d.slot name s := by
  rw [Disk.slot, Disk.content]
  rw [cwd_after]
  exact files_after d h

end Slot

/-! ### Operations -/

section Operations

variable {α : Type} {d : Disk} {path : String} {content : Bytes}

lemma performs_pathExists :
    Performs (pathExists path : DiskM Bool) d (.ok (d.content path).isSome) [] :=
  Performs.getState.bind (.pure _)

lemma performs_create : Performs (create path : DiskM Unit) d (.ok ()) [.created path] :=
  .perform _

lemma performs_onFile {f : Bytes → DiskM α} {r : Except Fault α} {es : List Effect}
    (h : d.content path = some content) (hf : Performs (f content) d r es) :
    Performs (onFile path f) d r es := by
  refine Performs.getState.bind ?_
  simpa only [after_nil, h] using hf

lemma performs_onFile_none {f : Bytes → DiskM α} (h : d.content path = none) :
    Performs (onFile path f) d (.error notFound) [] := by
  have hthrow : Performs (match d.content path with
      | some content => f content
      | none => throw notFound) d (.error notFound) [] := by
    rw [h]
    exact .throw _
  exact Performs.getState.bind hthrow

lemma performs_unwrap {x : DiskM α} {a : α} {es : List Effect} (h : Performs x d (.ok a) es) :
    Performs (unwrap x) d (.ok a) es :=
  h.tryCatch

lemma performs_readToEnd (h : d.content path = some content) :
    Performs (readToEnd path : DiskM Bytes) d (.ok content) [.opened path] :=
  performs_onFile h ((Performs.perform _).bind (.pure content))

lemma performs_writeAllAt (h : d.content path = some content) (offset : ℕ) (bytes : Bytes) :
    Performs (writeAllAt path offset bytes : DiskM Unit) d (.ok ())
      [.written path offset bytes] :=
  performs_onFile h (.perform _)

lemma performs_rename (h : d.content path = some content) (newPath : String) :
    Performs (rename path newPath : DiskM Unit) d (.ok ()) [.renamed path newPath] :=
  performs_onFile h (.perform _)

lemma performs_removeFile (h : d.content path = some content) :
    Performs (removeFile path : DiskM Unit) d (.ok ()) [.removed path] :=
  performs_onFile h (.perform _)

lemma performs_removeOrReport (h : d.content path = some content) :
    Performs (removeOrReport path : DiskM Unit) d (.ok ()) [.removed path] :=
  (performs_removeFile h).tryCatch

/-- Reading a range has no effect, whether it fails or not. -/
lemma performs_readExactAt (h : d.content path = some content) (offset len : ℕ) :
    Performs (readExactAt path offset len : DiskM Bytes) d
      (if len = 0 ∨ offset + len ≤ content.length then .ok (slice content offset len)
        else .error (.err "failed to fill whole buffer")) [] := by
  refine performs_onFile h ?_
  split_ifs
  · exact .pure _
  · exact .throw _

end Operations

end BearTorrent
