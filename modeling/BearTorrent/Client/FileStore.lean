import BearTorrent.Client.FileHandler

/-!
# The file handler on a store

A store maps paths to contents. It has no folders and no limit on names: `exists` and `create` never
fail, and the other calls fail only where a file is missing or too short. `FileM` runs the functions
of the file handler on it; a fault keeps what was written before it. `runOn_*` evaluates each
operation, and the specifications of the functions speak of the three files of one download, its
`Partial`.
-/

namespace BearTorrent

open Patch FileSystem

/-- The files on disk. -/
abbrev Store := AList fun _ : String => Bytes

/-- A computation with files. -/
abbrev FileM := ExceptT Fault (StateM Store)

/-- Run a computation: its result and the files it leaves. -/
def runOn {α : Type} (x : FileM α) (σ : Store) : Except Fault α × Store := x.run σ

/-- What opening a missing file returns. -/
def notFound : Fault := .err "No such file or directory (os error 2)"

/-- Open a file that has to exist. -/
def withFile {α : Type} (path : String) (f : Bytes → FileM α) : FileM α := do
  match (← get).lookup path with
  | some content => f content
  | none => throw notFound

instance : FileSystem FileM where
  pathExists path := do return ((← get).lookup path).isSome
  create path := modify (·.insert path [])
  readToEnd path := withFile path fun content => pure content
  readExactAt path offset len := withFile path fun content =>
    if len = 0 ∨ offset + len ≤ content.length then pure (slice content offset len)
    else throw (.err "failed to fill whole buffer")
  writeAllAt path offset bytes := withFile path fun content =>
    modify (·.insert path (patch 0 content offset bytes))
  rename path newPath := withFile path fun content =>
    modify fun σ => (σ.erase path).insert newPath content
  removeFile path := withFile path fun _ => modify (·.erase path)

section RunOn

variable {α β : Type} (σ : Store)

@[simp] lemma runOn_pure (a : α) : runOn (pure a) σ = (.ok a, σ) := rfl

@[simp] lemma runOn_throw (e : Fault) : runOn (throw e : FileM α) σ = (.error e, σ) := rfl

lemma runOn_bind (x : FileM α) (f : α → FileM β) :
    runOn (x >>= f) σ = match runOn x σ with
      | (.ok a, σ')    => runOn (f a) σ'
      | (.error e, σ') => (.error e, σ') := by
  change (ExceptT.bindCont f (x.run σ).1 : StateM Store _) (x.run σ).2 = _
  rw [runOn]
  rcases x.run σ with ⟨⟨_⟩ | ⟨_⟩, σ'⟩ <;> rfl

/-- Sequencing after a computation that succeeds. -/
lemma runOn_bind_ok {x : FileM α} {f : α → FileM β} {σ σ' : Store} {a : α}
    (h : runOn x σ = (.ok a, σ')) : runOn (x >>= f) σ = runOn (f a) σ' := by
  rw [runOn_bind, h]

/-- Sequencing after a computation that fails. -/
lemma runOn_bind_error {x : FileM α} {f : α → FileM β} {σ σ' : Store} {e : Fault}
    (h : runOn x σ = (.error e, σ')) : runOn (x >>= f) σ = (.error e, σ') := by
  rw [runOn_bind, h]

lemma runOn_tryCatch (x : FileM α) (handle : Fault → FileM α) :
    runOn (tryCatch x handle) σ = match runOn x σ with
      | (.ok a, σ')    => (.ok a, σ')
      | (.error e, σ') => runOn (handle e) σ' := by
  change (ExceptT.tryCatch x handle : FileM α).run σ = _
  rw [runOn]
  simp only [ExceptT.tryCatch, ExceptT.run, ExceptT.mk, bind, StateT.bind]
  rcases x σ with ⟨⟨_⟩ | ⟨_⟩, σ'⟩ <;> rfl

lemma runOn_unwrap_ok {x : FileM α} {σ σ' : Store} {a : α} (h : runOn x σ = (.ok a, σ')) :
    runOn (unwrap x) σ = (.ok a, σ') := by
  change (ExceptT.tryCatch x fun _ => throw .panic : FileM α).run σ = _
  change x.run σ = _ at h
  simp only [ExceptT.tryCatch, ExceptT.run, ExceptT.mk, bind, StateT.bind] at h ⊢
  rw [h]
  rfl

@[simp] lemma runOn_ofExcept (x : Except Fault α) :
    runOn (MonadExcept.ofExcept x : FileM α) σ = (x, σ) := by
  cases x <;> rfl

@[simp] lemma runOn_pathExists (path : String) :
    runOn (pathExists path) σ = (.ok (σ.lookup path).isSome, σ) := rfl

@[simp] lemma runOn_create (path : String) :
    runOn (create path) σ = (.ok (), σ.insert path []) := rfl

variable {σ} {path : String} {content : Bytes} (h : σ.lookup path = some content)
include h

lemma runOn_withFile (f : Bytes → FileM α) : runOn (withFile path f) σ = runOn (f content) σ := by
  have hget : runOn (get : FileM Store) σ = (.ok σ, σ) := rfl
  rw [withFile, runOn_bind_ok hget, h]

lemma runOn_readToEnd : runOn (readToEnd path) σ = (.ok content, σ) :=
  runOn_withFile h _

lemma runOn_readExactAt (offset len : ℕ) :
    runOn (readExactAt path offset len) σ =
      (if len = 0 ∨ offset + len ≤ content.length then .ok (slice content offset len)
        else .error (.err "failed to fill whole buffer"), σ) := by
  refine (runOn_withFile h _).trans ?_
  split_ifs
  · rfl
  · rfl

lemma runOn_writeAllAt (offset : ℕ) (bytes : Bytes) :
    runOn (writeAllAt path offset bytes) σ
      = (.ok (), σ.insert path (patch 0 content offset bytes)) :=
  runOn_withFile h _

lemma runOn_rename (newPath : String) :
    runOn (rename path newPath) σ = (.ok (), (σ.erase path).insert newPath content) :=
  runOn_withFile h _

lemma runOn_removeFile : runOn (removeFile path) σ = (.ok (), σ.erase path) :=
  runOn_withFile h _

end RunOn

/-! ### Paths -/

/-- The `.part` file of a download. -/
abbrev partPath (name : String) : String := tempFileName name ".part" "cache"

/-- The `.info` file of a download. -/
abbrev infoPath (name : String) : String := tempFileName name ".info" "cache"

/-- The finished file. -/
abbrev filePath (name : String) : String := "resources/files/" ++ name

lemma tempFileName_files (name : String) : tempFileName name "" "files" = filePath name := by
  simp [tempFileName, filePath]

lemma partPath_ne_infoPath (name : String) : partPath name ≠ infoPath name := by
  intro h
  have h := congrArg String.toList h
  simp [tempFileName] at h

/-- A file of the cache has a longer path than the finished file of the same name. -/
lemma length_filePath_lt (name extension : String) (h : 0 < extension.length) :
    (filePath name).length < (tempFileName name extension "cache").length := by
  have h₁ : "resources/files/".length = 16 := by decide
  have h₂ : "resources/".length = 10 := by decide
  have h₃ : "cache".length = 5 := by decide
  have h₄ : "/".length = 1 := by decide
  simp only [tempFileName, String.length_append, h₁, h₂, h₃, h₄]
  omega

lemma partPath_ne_filePath (name : String) : partPath name ≠ filePath name := fun h =>
  absurd (congrArg String.length h)
    (Nat.ne_of_gt (length_filePath_lt name ".part" (by decide)))

lemma infoPath_ne_filePath (name : String) : infoPath name ≠ filePath name := fun h =>
  absurd (congrArg String.length h)
    (Nat.ne_of_gt (length_filePath_lt name ".info" (by decide)))

/-! ### The files of one download -/

/-- The three files of one download. -/
@[ext] structure Download where
  part : Option Bytes
  info : Option Bytes
  file : Option Bytes
  deriving DecidableEq, Repr

/-- The files of the download of `name`. -/
def download (σ : Store) (name : String) : Download where
  part := σ.lookup (partPath name)
  info := σ.lookup (infoPath name)
  file := σ.lookup (filePath name)

/-- The bytes of the `.part` file, none when it does not exist. -/
def Download.content (d : Download) : Bytes := d.part.getD []

/-- The status bytes; a `.info` file that does not exist is created with `n` zeros. -/
def Download.status (d : Download) (n : ℕ) : Bytes := d.info.getD (List.replicate n 0)

/-- The store once `path` has been created, if it did not exist. -/
def touch (σ : Store) (path : String) : Store :=
  if (σ.lookup path).isSome then σ else σ.insert path []

lemma lookup_touch_self (σ : Store) (path : String) :
    (touch σ path).lookup path = some ((σ.lookup path).getD []) := by
  rw [touch]
  cases h : σ.lookup path with
  | none => simp
  | some content => simp [h]

lemma touch_of_lookup {σ : Store} {path : String} {content : Bytes}
    (h : σ.lookup path = some content) : touch σ path = σ := by
  rw [touch, h]
  rfl

lemma lookup_touch_ne (σ : Store) {path path' : String} (h : path' ≠ path) :
    (touch σ path).lookup path' = σ.lookup path' := by
  rw [touch]
  split_ifs
  · rfl
  · exact AList.lookup_insert_ne h

lemma runOn_getTempFile (σ : Store) (fileName extension src : String) :
    runOn (getTempFile fileName extension src) σ
      = (.ok (tempFileName fileName extension src,
            (σ.lookup (tempFileName fileName extension src)).isSome),
          touch σ (tempFileName fileName extension src)) := by
  rw [getTempFile, runOn_bind_ok (runOn_pathExists σ _)]
  rw [touch]
  cases σ.lookup (tempFileName fileName extension src) with
  | none =>
    simp only [Option.isSome_none, Bool.false_eq_true, if_false]
    rw [runOn_bind_ok (runOn_create σ _), runOn_pure]
  | some content => simp

lemma runOn_getPartFile (σ : Store) (name : String) :
    runOn (getPartFile name) σ = (.ok (partPath name), touch σ (partPath name)) := by
  rw [getPartFile, runOn_bind_ok (runOn_unwrap_ok (runOn_getTempFile σ _ _ _))]
  rfl

lemma runOn_getInfoFile (σ : Store) (name : String) :
    runOn (getInfoFile name) σ
      = (.ok (infoPath name, (σ.lookup (infoPath name)).isSome), touch σ (infoPath name)) :=
  runOn_unwrap_ok (runOn_getTempFile σ _ _ _)

lemma runOn_getFile (σ : Store) (name : String) :
    runOn (getFile name) σ = (.ok (filePath name), touch σ (filePath name)) := by
  rw [getFile, runOn_bind_ok (runOn_unwrap_ok (runOn_getTempFile σ _ _ _)), tempFileName_files]
  rfl

/-- The store once the status has been read: a `.info` file that did not exist is filled with
zeros. -/
def initInfo (σ : Store) (h : InfoHash) : Store :=
  if (σ.lookup (infoPath h.name)).isSome then σ
  else σ.insert (infoPath h.name) (List.replicate h.pieces.length 0)

lemma runOn_getInfoStatus (σ : Store) (h : InfoHash) :
    runOn (getInfoStatus h) σ
      = (.ok ⟨(download σ h.name).status h.pieces.length⟩, initInfo σ h) := by
  rw [getInfoStatus, runOn_bind_ok (runOn_getInfoFile σ _)]
  cases hinfo : σ.lookup (infoPath h.name) with
  | none =>
    have htouch : touch σ (infoPath h.name) = σ.insert (infoPath h.name) [] := by
      simp [touch, hinfo]
    have hlookup : (touch σ (infoPath h.name)).lookup (infoPath h.name) = some [] := by
      simp [htouch]
    simp only [Option.isSome_none]
    rw [runOn_bind_ok (runOn_unwrap_ok (runOn_writeAllAt hlookup 0 _)), runOn_pure, patch_zero, htouch]
    simp [initInfo, hinfo, Download.status, download]
  | some content =>
    have htouch : touch σ (infoPath h.name) = σ := by simp [touch, hinfo]
    simp only [Option.isSome_some, htouch]
    rw [runOn_bind_ok (runOn_unwrap_ok (runOn_readToEnd hinfo)), runOn_pure]
    simp [initInfo, hinfo, Download.status, download]

lemma lookup_initInfo_self (σ : Store) (h : InfoHash) :
    (initInfo σ h).lookup (infoPath h.name)
      = some ((download σ h.name).status h.pieces.length) := by
  rw [initInfo, Download.status, download]
  cases hinfo : σ.lookup (infoPath h.name) with
  | none => simp
  | some content => simp [hinfo]

lemma lookup_initInfo_ne (σ : Store) (h : InfoHash) {path : String} (hne : path ≠ infoPath h.name) :
    (initInfo σ h).lookup path = σ.lookup path := by
  rw [initInfo]
  split_ifs
  · rfl
  · exact AList.lookup_insert_ne hne

lemma download_touch_part (σ : Store) (name : String) :
    download (touch σ (partPath name)) name
      = { download σ name with part := some (download σ name).content } := by
  rw [download]
  rw [lookup_touch_self, lookup_touch_ne σ (partPath_ne_infoPath name).symm,
    lookup_touch_ne σ (partPath_ne_filePath name).symm]
  rfl

lemma download_initInfo (σ : Store) (h : InfoHash) :
    download (initInfo σ h) h.name
      = { download σ h.name with info := some ((download σ h.name).status h.pieces.length) } := by
  ext1
  · exact lookup_initInfo_ne σ h (partPath_ne_infoPath h.name)
  · exact lookup_initInfo_self σ h
  · exact lookup_initInfo_ne σ h (infoPath_ne_filePath h.name).symm

lemma download_insert_part (σ : Store) (name : String) (content : Bytes) :
    download (σ.insert (partPath name) content) name
      = { download σ name with part := some content } := by
  unfold download
  rw [AList.lookup_insert, AList.lookup_insert_ne (partPath_ne_infoPath name).symm,
    AList.lookup_insert_ne (partPath_ne_filePath name).symm]

lemma download_insert_info (σ : Store) (name : String) (content : Bytes) :
    download (σ.insert (infoPath name) content) name
      = { download σ name with info := some content } := by
  unfold download
  rw [AList.lookup_insert, AList.lookup_insert_ne (partPath_ne_infoPath name),
    AList.lookup_insert_ne (infoPath_ne_filePath name).symm]

/-! ### Specifications on the files of a download -/

/-- The files of a download of `n` pieces after `piece` has been written at `offset` as piece
`index`. -/
def Download.write (d : Download) (n offset : ℕ) (piece : Bytes) (index : ℕ) : Download :=
  { d with
    part := some (patch 0 d.content offset piece)
    info := some (patch 0 (d.status n) index [1]) }

/-- What `read_piece_from_file` reads from a file with the given content. -/
def readPiece (env : Env) (h : InfoHash) (index : UInt32) (content : Bytes) :
    Except Fault Bytes := do
  let length ← readLength env h index
  if 2 ^ 63 ≤ length then throw .panic
  let offset ← mulU32 env h.pieceLength index
  if length = 0 ∨ offset.toNat + length ≤ content.length then
    pure (slice content offset.toNat length)
  else throw (.err "failed to fill whole buffer")

section Spec

variable (env : Env) (h : InfoHash) (σ : Store)

/-- `write_piece_to_part` writes the piece and its status when the offset does not overflow and the
status has a byte for the index. -/
theorem runOn_writePieceToPart (piece : Bytes) {index offset : UInt32}
    (hoff : mulU32 env index h.pieceLength = .ok offset)
    (hindex : index.toNat < ((download σ h.name).status h.pieces.length).length) :
    ∃ σ', runOn (writePieceToPart env h piece index) σ = (.ok (), σ') ∧
      download σ' h.name
        = (download σ h.name).write h.pieces.length offset.toNat piece index.toNat := by
  have hpart : (touch σ (partPath h.name)).lookup (partPath h.name)
      = some (download σ h.name).content := lookup_touch_self σ _
  generalize hσ : (touch σ (partPath h.name)).insert (partPath h.name)
    (patch 0 (download σ h.name).content offset.toNat piece) = σ₁
  have hd : download σ₁ h.name = { download σ h.name with
      part := some (patch 0 (download σ h.name).content offset.toNat piece) } := by
    rw [← hσ, download_insert_part, download_touch_part]
  have hstatus : (download σ₁ h.name).status h.pieces.length
      = (download σ h.name).status h.pieces.length := by
    rw [hd]; rfl
  have hinfo : (initInfo σ₁ h).lookup (infoPath h.name)
      = some ((download σ h.name).status h.pieces.length) := by
    rw [lookup_initInfo_self, hstatus]
  have htouch : touch (initInfo σ₁ h) (infoPath h.name) = initInfo σ₁ h := by
    simp [touch, hinfo]
  refine ⟨(initInfo σ₁ h).insert (infoPath h.name)
    (patch 0 ((download σ h.name).status h.pieces.length) index.toNat [1]), ?_, ?_⟩
  · rw [writePieceToPart, runOn_bind_ok (runOn_getPartFile σ h.name), hoff,
      runOn_bind_ok (runOn_ofExcept _ _), runOn_bind_ok (runOn_writeAllAt hpart _ _), hσ,
      runOn_bind_ok (runOn_getInfoStatus σ₁ h)]
    simp only [hstatus, Nat.not_le.mpr hindex, if_false]
    rw [runOn_bind_ok (runOn_getInfoFile _ _), htouch]
    exact runOn_writeAllAt hinfo _ _
  · rw [download_insert_info, download_initInfo, hd]
    rfl

/-- An offset that overflows stops `write_piece_to_part` before it has written anything. -/
lemma runOn_writePieceToPart_overflow (piece : Bytes) {index : UInt32} {e : Fault}
    (hoff : mulU32 env index h.pieceLength = .error e) :
    runOn (writePieceToPart env h piece index) σ = (.error e, touch σ (partPath h.name)) := by
  rw [writePieceToPart, runOn_bind_ok (runOn_getPartFile σ h.name), hoff,
    runOn_bind_error (runOn_ofExcept _ _)]

/-- An index without a status byte makes `write_piece_to_part` panic, once the piece is written. -/
lemma runOn_writePieceToPart_panic (piece : Bytes) {index offset : UInt32}
    (hoff : mulU32 env index h.pieceLength = .ok offset)
    (hindex : ((download σ h.name).status h.pieces.length).length ≤ index.toNat) :
    ∃ σ', runOn (writePieceToPart env h piece index) σ = (.error .panic, σ') ∧
      download σ' h.name = { download σ h.name with
        part := some (patch 0 (download σ h.name).content offset.toNat piece)
        info := some ((download σ h.name).status h.pieces.length) } := by
  have hpart : (touch σ (partPath h.name)).lookup (partPath h.name)
      = some (download σ h.name).content := lookup_touch_self σ _
  generalize hσ : (touch σ (partPath h.name)).insert (partPath h.name)
    (patch 0 (download σ h.name).content offset.toNat piece) = σ₁
  have hd : download σ₁ h.name = { download σ h.name with
      part := some (patch 0 (download σ h.name).content offset.toNat piece) } := by
    rw [← hσ, download_insert_part, download_touch_part]
  have hstatus : (download σ₁ h.name).status h.pieces.length
      = (download σ h.name).status h.pieces.length := by
    rw [hd]; rfl
  refine ⟨initInfo σ₁ h, ?_, ?_⟩
  · rw [writePieceToPart, runOn_bind_ok (runOn_getPartFile σ h.name), hoff,
      runOn_bind_ok (runOn_ofExcept _ _), runOn_bind_ok (runOn_writeAllAt hpart _ _), hσ,
      runOn_bind_ok (runOn_getInfoStatus σ₁ h)]
    simp only [hstatus, hindex, if_true]
    rw [runOn_bind_error (runOn_throw _ _)]
  · rw [download_initInfo, hd]
    rfl

lemma runOn_isFileComplete :
    runOn (isFileComplete h) σ
      = (.ok (Status.hasAllPieces ⟨(download σ h.name).status h.pieces.length⟩),
          initInfo σ h) := by
  rw [isFileComplete, runOn_bind_ok (runOn_getInfoStatus σ h), runOn_pure]

/-- A complete download is moved to `resources/files` when nothing is there under its name. -/
theorem runOn_buildFile_ok
    (hc : Status.hasAllPieces ⟨(download σ h.name).status h.pieces.length⟩ = true)
    (hf : (download σ h.name).file = none) :
    ∃ σ', runOn (buildFile h) σ = (.ok (), σ') ∧
      download σ' h.name = ⟨none, none, some (download σ h.name).content⟩ := by
  have hd := download_initInfo σ h
  generalize hσ : initInfo σ h = σ₁ at hd
  have hpart : (touch σ₁ (partPath h.name)).lookup (partPath h.name)
      = some (download σ h.name).content := by
    have : (download σ₁ h.name).content = (download σ h.name).content := by rw [hd]; rfl
    rw [← this]
    exact lookup_touch_self σ₁ _
  have hd₂ : download (touch σ₁ (partPath h.name)) h.name
      = { download σ h.name with
          part := some (download σ h.name).content
          info := some ((download σ h.name).status h.pieces.length) } := by
    rw [download_touch_part, hd]
    rfl
  generalize hσ₂ : touch σ₁ (partPath h.name) = σ₂ at hpart hd₂
  have hinfo : σ₂.lookup (infoPath h.name) = some ((download σ h.name).status h.pieces.length) :=
    congrArg Download.info hd₂
  have hfile : σ₂.lookup (filePath h.name) = none := (congrArg Download.file hd₂).trans hf
  have htouch : touch σ₂ (infoPath h.name) = σ₂ := by simp [touch, hinfo]
  have hinfo₃ : ((σ₂.erase (partPath h.name)).insert (filePath h.name)
      (download σ h.name).content).lookup (infoPath h.name)
        = some ((download σ h.name).status h.pieces.length) := by
    rw [AList.lookup_insert_ne (infoPath_ne_filePath _),
      AList.lookup_erase_ne (partPath_ne_infoPath _).symm, hinfo]
  refine ⟨((σ₂.erase (partPath h.name)).insert (filePath h.name)
    (download σ h.name).content).erase (infoPath h.name), ?_, ?_⟩
  · rw [buildFile, runOn_bind_ok (runOn_isFileComplete h σ), hc, hσ]
    simp only
    rw [runOn_bind_ok (runOn_getPartFile σ₁ h.name), hσ₂,
      runOn_bind_ok (runOn_getInfoFile σ₂ h.name), htouch]
    simp only
    rw [runOn_bind_ok (runOn_pathExists σ₂ _), hfile]
    simp only [Option.isSome_none, Bool.false_eq_true, if_false]
    rw [runOn_bind_ok (runOn_rename hpart _)]
    exact runOn_removeFile hinfo₃
  · ext1
    · change AList.lookup (partPath h.name) _ = none
      rw [AList.lookup_erase_ne (partPath_ne_infoPath _),
        AList.lookup_insert_ne (partPath_ne_filePath _), AList.lookup_erase]
    · exact AList.lookup_erase _ _
    · change AList.lookup (filePath h.name) _ = _
      rw [AList.lookup_erase_ne (infoPath_ne_filePath _).symm, AList.lookup_insert]

/-- A complete download is not moved over another file. -/
lemma runOn_buildFile_exists
    (hc : Status.hasAllPieces ⟨(download σ h.name).status h.pieces.length⟩ = true)
    (hf : (download σ h.name).file ≠ none) :
    ∃ fault σ', runOn (buildFile h) σ = (.error fault, σ') := by
  have hd := download_initInfo σ h
  generalize hσ : initInfo σ h = σ₁ at hd
  have hfile : (touch (touch σ₁ (partPath h.name)) (infoPath h.name)).lookup (filePath h.name)
      = (download σ h.name).file := by
    rw [lookup_touch_ne _ (infoPath_ne_filePath _).symm,
      lookup_touch_ne _ (partPath_ne_filePath _).symm]
    exact congrArg Download.file hd
  rw [buildFile, runOn_bind_ok (runOn_isFileComplete h σ), hc, hσ]
  simp only
  rw [runOn_bind_ok (runOn_getPartFile σ₁ h.name), runOn_bind_ok (runOn_getInfoFile _ h.name)]
  simp only
  rw [runOn_bind_ok (runOn_pathExists _ _), hfile, Option.isSome_iff_ne_none.mpr hf]
  exact ⟨_, _, runOn_bind_error (runOn_throw _ _)⟩

/-- The length that is read is that of the piece. -/
lemma readLength_eq (hh : h.WellFormed) {index : UInt32} (hindex : index.toNat < h.pieces.length) :
    readLength env h index
      = .ok (min h.pieceLength.toNat
          (h.fileLength.toNat - index.toNat * h.pieceLength.toNat)) := by
  have hpos := hh.pieceLength_pos
  have hfl : h.fileLength.toNat < 2 ^ 64 := h.fileLength.toNat_lt
  have hcomm := Nat.mul_comm h.pieceLength.toNat (h.pieces.length - 1)
  have hlast := hh.mul_lt (i := h.pieces.length - 1) (by omega)
  have hrest : ¬ h.pieces.length * h.pieceLength.toNat < h.fileLength.toNat := by
    rw [← lt_numPieces_iff hpos, ← hh.pieces_length]
    omega
  rw [readLength, subUsize_of_le env (by omega)]
  simp only [bind, Except.bind]
  split_ifs with hi
  · have hsucc : h.pieces.length * h.pieceLength.toNat
        = (h.pieces.length - 1) * h.pieceLength.toNat + h.pieceLength.toNat := by
      rw [← Nat.succ_mul]; congr 1; omega
    rw [mulUsize_of_lt env (by omega)]
    simp only
    rw [subUsize_of_le env (by omega), ← hi]
    congr 1
    omega
  · have hnext : (index.toNat + 1) * h.pieceLength.toNat
        ≤ (h.pieces.length - 1) * h.pieceLength.toNat :=
      Nat.mul_le_mul_right _ (by omega)
    rw [Nat.succ_mul] at hnext
    rw [Nat.min_eq_left (by omega)]
    rfl

/-- `read_piece_from_file` reads the file, which it creates when it is missing. -/
theorem runOn_readPieceFromFile_eq (index : UInt32) :
    runOn (readPieceFromFile env h index) σ
      = (readPiece env h index ((σ.lookup (filePath h.name)).getD []),
          touch σ (filePath h.name)) := by
  rw [readPieceFromFile, runOn_bind_ok (runOn_getFile σ h.name), readPiece]
  cases readLength env h index with
  | error e => rfl
  | ok length =>
    rw [runOn_bind_ok (runOn_ofExcept _ _)]
    simp only [bind, Except.bind]
    split_ifs with hbig
    · rfl
    · cases mulU32 env h.pieceLength index with
      | error e => rfl
      | ok offset =>
        exact runOn_readExactAt (lookup_touch_self σ _) offset.toNat length

/-- What is read of a copy of the file: the piece, when the copy reaches to its end. -/
lemma readPiece_eq (hh : h.WellFormed) {index : UInt32} (hindex : index.toNat < h.pieces.length)
    (hoff : index.toNat * h.pieceLength.toNat < 2 ^ 32) (copy : Bytes) :
    readPiece env h index copy =
      if index.toNat * h.pieceLength.toNat + min h.pieceLength.toNat
          (h.fileLength.toNat - index.toNat * h.pieceLength.toNat) ≤ copy.length then
        .ok (slice copy (index.toNat * h.pieceLength.toNat) (min h.pieceLength.toNat
          (h.fileLength.toNat - index.toNat * h.pieceLength.toNat)))
      else .error (.err "failed to fill whole buffer") := by
  have hpos := hh.pieceLength_pos
  have hpl : h.pieceLength.toNat < 2 ^ 32 := h.pieceLength.toNat_lt
  have hlt := hh.mul_lt hindex
  have hmul : h.pieceLength.toNat * index.toNat < 2 ^ 32 := by rwa [Nat.mul_comm]
  rw [readPiece, readLength_eq env h hh hindex]
  simp only [bind, Except.bind]
  rw [if_neg (by omega), mulU32_of_lt env hmul]
  simp only [pure, Except.pure]
  rw [toNat_mul_of_lt hmul, Nat.mul_comm h.pieceLength.toNat]
  congr 1
  exact propext (or_iff_right (by omega))

/-- Piece `index` of a file that is there is read. -/
theorem runOn_readPieceFromFile (hh : h.WellFormed) {content : Bytes}
    (hf : (download σ h.name).file = some content) (hlen : content.length = h.fileLength.toNat)
    {index : UInt32} (hindex : index.toNat < h.pieces.length)
    (hoff : index.toNat * h.pieceLength.toNat < 2 ^ 32) :
    runOn (readPieceFromFile env h index) σ
      = (.ok (chunk h.pieceLength.toNat content index.toNat), σ) := by
  have htouch : touch σ (filePath h.name) = σ := by simp [touch, show σ.lookup _ = _ from hf]
  have hin : index.toNat * h.pieceLength.toNat < content.length := hlen ▸ hh.mul_lt hindex
  rw [runOn_readPieceFromFile_eq, htouch, show σ.lookup _ = _ from hf, Option.getD_some,
    readPiece_eq env h hh hindex hoff, ← hlen, if_pos (by omega), slice_min]
  rfl

end Spec

end BearTorrent
