import BearTorrent.Client.FileEffects

/-!
# The effects of the file handler

For each function of the file handler its result and its effects, as they follow from what the
disk holds under the name. A look-up creates the file that is not there.
-/

namespace BearTorrent

open Patch FileSystem Effects LexicalPath

/-! ### Looking up a file -/

/-- The effects of looking up a file: it is created when it does not exist. -/
def Disk.touch (d : Disk) (name : String) (s : Slot) : List Effect :=
  if (d.slot name s).isSome then [] else [.created (s.path name)]

section Touch

variable (d : Disk) (name : String) (s t : Slot)

@[simp] lemma slot_touch :
    (after (d.touch name s) d).slot name t
      = if t = s then some ((d.slot name s).getD []) else d.slot name t := by
  rw [Disk.touch]
  cases h : d.slot name s with
  | none => simp
  | some content =>
    simp only [Option.isSome_some, if_true, after_nil, Option.getD_some]
    split_ifs with ht
    · rw [ht, h]
    · rfl

/-- A look-up depends on its own file alone. -/
lemma touch_congr {d d' : Disk} {name : String} {s : Slot} (h : d'.slot name s = d.slot name s) :
    d'.touch name s = d.touch name s := by
  unfold Disk.touch
  rw [h]

/-- A look-up after other effects. -/
lemma slot_touch_of {d d' : Disk} {name : String} {s : Slot}
    (h : d'.slot name s = d.slot name s) (t : Slot) :
    (after (d.touch name s) d').slot name t
      = if t = s then some ((d.slot name s).getD []) else d'.slot name t := by
  rw [← touch_congr h, slot_touch, h]

@[simp] lemma mem_touch {e : Effect} :
    e ∈ d.touch name s ↔ d.slot name s = none ∧ e = .created (s.path name) := by
  rw [Disk.touch]
  cases d.slot name s <;> simp

lemma performs_getTempFile {fileName extension src : String}
    (h : tempFileName fileName extension src = s.path name) :
    Performs (getTempFile fileName extension src : DiskM _) d
      (.ok (s.path name, (d.slot name s).isSome)) (d.touch name s) := by
  have hcreate : Performs (if (d.slot name s).isSome then pure (s.path name, true) else do
      create (s.path name)
      pure (s.path name, false) : DiskM _) d
      (.ok (s.path name, (d.slot name s).isSome)) (d.touch name s) := by
    rw [Disk.touch]
    cases d.slot name s with
    | none => exact performs_create.bind_nil (.pure _)
    | some content => exact .pure _
  rw [getTempFile, h]
  exact performs_pathExists.bind hcreate

lemma performs_getPartFile :
    Performs (getPartFile name : DiskM _) d (.ok (Slot.part.path name)) (d.touch name .part) :=
  (performs_unwrap (performs_getTempFile d name .part rfl)).bind_nil (.pure _)

lemma performs_getInfoFile :
    Performs (getInfoFile name : DiskM _) d
      (.ok (Slot.info.path name, (d.slot name .info).isSome)) (d.touch name .info) :=
  performs_unwrap (performs_getTempFile d name .info rfl)

lemma performs_getFileCache :
    Performs (getFileCache name : DiskM _) d
      (.ok (Slot.cache.path name, (d.slot name .cache).isSome)) (d.touch name .cache) :=
  performs_unwrap (performs_getTempFile d name .cache rfl)

lemma performs_getFile :
    Performs (getFile name : DiskM _) d (.ok (Slot.file.path name)) (d.touch name .file) :=
  (performs_unwrap (performs_getTempFile d name .file (tempFileName_files name))).bind_nil
    (.pure _)

end Touch

/-! ### The status -/

/-- The status bytes; a `.info` file that does not exist is created with zeros. -/
def Disk.status (d : Disk) (h : InfoHash) : Bytes :=
  (d.slot h.name .info).getD (List.replicate h.pieces.length 0)

/-- The effects of reading the status. -/
def Disk.statusEffects (d : Disk) (h : InfoHash) : List Effect :=
  if (d.slot h.name .info).isSome then [.opened (Slot.info.path h.name)]
  else [.created (Slot.info.path h.name),
    .written (Slot.info.path h.name) 0 (List.replicate h.pieces.length 0)]

/-- Whether the status says that the file is complete. -/
def Disk.complete (d : Disk) (h : InfoHash) : Bool := Status.hasAllPieces ⟨d.status h⟩

section Status

variable (d : Disk) (h : InfoHash)

@[simp] lemma slot_statusEffects (t : Slot) :
    (after (d.statusEffects h) d).slot h.name t
      = if t = .info then some (d.status h) else d.slot h.name t := by
  rw [Disk.statusEffects, Disk.status]
  cases hinfo : d.slot h.name .info with
  | none =>
    simp only [Option.isSome_none, Bool.false_eq_true, if_false, after_cons, after_nil,
      slot_written, slot_created, if_true, Option.map_some, patch_zero, Option.getD_none]
    split_ifs <;> rfl
  | some content =>
    simp only [Option.isSome_some, if_true, after_cons, after_nil, slot_opened, Option.getD_some]
    split_ifs with ht
    · rw [ht, hinfo]
    · rfl

/-- The status is read from the `.info` file alone. -/
lemma status_congr {d d' : Disk} {h : InfoHash}
    (hinfo : d'.slot h.name .info = d.slot h.name .info) :
    d'.status h = d.status h ∧ d'.statusEffects h = d.statusEffects h := by
  rw [Disk.status, Disk.statusEffects]
  rw [hinfo]
  exact ⟨rfl, rfl⟩

/-- Reading the status after other effects. -/
lemma slot_statusEffects_of {d d' : Disk} {h : InfoHash}
    (hinfo : d'.slot h.name .info = d.slot h.name .info) (t : Slot) :
    (after (d.statusEffects h) d').slot h.name t
      = if t = .info then some (d.status h) else d'.slot h.name t := by
  rw [← (status_congr hinfo).2, slot_statusEffects, (status_congr hinfo).1]

lemma performs_getInfoStatus :
    Performs (getInfoStatus h : DiskM _) d (.ok ⟨d.status h⟩) (d.statusEffects h) := by
  have hget := performs_getInfoFile d h.name
  have hslot := slot_touch d h.name .info .info
  rw [getInfoStatus, Disk.statusEffects, Disk.status]
  cases hinfo : d.slot h.name .info with
  | none =>
    rw [hinfo, Disk.touch, hinfo] at hget hslot
    exact hget.bind ((performs_unwrap (performs_writeAllAt hslot 0 _)).bind (.pure _))
  | some content =>
    rw [hinfo, Disk.touch, hinfo] at hget
    exact hget.bind ((performs_unwrap (performs_readToEnd hinfo)).bind (.pure _))

theorem performs_isFileComplete :
    Performs (isFileComplete h : DiskM _) d (.ok (d.complete h)) (d.statusEffects h) :=
  (performs_getInfoStatus d h).bind_nil (.pure _)

end Status

/-! ### Writing, building, reading and deleting -/

/-- The result and the effects of `write_piece_to_part`. -/
def Disk.writePiece (d : Disk) (env : Env) (h : InfoHash) (piece : Bytes) (index : UInt32) :
    Except Fault Unit × List Effect :=
  match mulU32 env index h.pieceLength with
  | .error e => (.error e, d.touch h.name .part)
  | .ok offset =>
    if (d.status h).length ≤ index.toNat then
      (.error .panic, d.touch h.name .part ++
        .written (Slot.part.path h.name) offset.toNat piece :: d.statusEffects h)
    else
      (.ok (), d.touch h.name .part ++
        .written (Slot.part.path h.name) offset.toNat piece ::
          (d.statusEffects h ++ [.written (Slot.info.path h.name) index.toNat [1]]))

/-- The result and the effects of `build_file`. -/
def Disk.build (d : Disk) (h : InfoHash) : Except Fault Unit × List Effect :=
  if d.complete h then
    if (d.slot h.name .file).isSome then
      (.error (.err "File already exists in resources/files, cannot build!"),
        d.statusEffects h ++ d.touch h.name .part)
    else
      (.ok (), d.statusEffects h ++ (d.touch h.name .part ++
        [.renamed (Slot.part.path h.name) (Slot.file.path h.name),
          .removed (Slot.info.path h.name)]))
  else (.error (.err "Missing pieces for file, cannot build!"), d.statusEffects h)

/-- The effects of `delete_file`. -/
def Disk.delete (d : Disk) (name : String) : List Effect :=
  d.touch name .info ++ (d.touch name .part ++ (d.touch name .cache ++
    if (d.slot name .file).isSome then
      [.removed (Slot.file.path name), .removed (Slot.part.path name),
        .removed (Slot.cache.path name), .removed (Slot.info.path name)]
    else []))

section Calls

variable (env : Env) (h : InfoHash) (d : Disk)

theorem performs_writePieceToPart (piece : Bytes) (index : UInt32) :
    Performs (writePieceToPart env h piece index : DiskM _) d
      (d.writePiece env h piece index).1 (d.writePiece env h piece index).2 := by
  rw [writePieceToPart, Disk.writePiece]
  cases hoff : mulU32 env index h.pieceLength with
  | error e =>
    exact (performs_getPartFile d h.name).bind_nil (.bind_error (.ofExcept _))
  | ok offset =>
    have hpart : (after (d.touch h.name .part) d).content (Slot.part.path h.name)
        = some ((d.slot h.name .part).getD []) := slot_touch d h.name .part .part
    have hwrite := performs_writeAllAt hpart offset.toNat piece
    generalize hd₁ : after (d.touch h.name .part) d = d₁ at hpart hwrite
    generalize hd₂ : after [Effect.written (Slot.part.path h.name) offset.toNat piece] d₁ = d₂
    have hinfo : d₂.slot h.name .info = d.slot h.name .info := by
      rw [← hd₂, ← hd₁]
      simp
    have hstatus := performs_getInfoStatus d₂ h
    rw [(status_congr hinfo).1, (status_congr hinfo).2] at hstatus
    generalize hd₃ : after (d.statusEffects h) d₂ = d₃
    have hinfo₃ : d₃.slot h.name .info = some (d.status h) := by
      rw [← hd₃, slot_statusEffects_of hinfo, if_pos rfl]
    have hget := performs_getInfoFile d₃ h.name
    rw [Disk.touch, hinfo₃] at hget
    have hone : Performs (writeAllAt (Slot.info.path h.name) index.toNat [1] : DiskM Unit) d₃
        (.ok ()) [.written (Slot.info.path h.name) index.toNat [1]] :=
      performs_writeAllAt hinfo₃ _ _
    subst hd₁ hd₂ hd₃
    simp only
    split_ifs with hindex
    · refine (performs_getPartFile d h.name).bind ((Performs.ofExcept _).bind (hwrite.bind
        (hstatus.bind_nil ?_)))
      rw [if_pos hindex]
      exact .bind_error (.throw _)
    · refine (performs_getPartFile d h.name).bind ((Performs.ofExcept _).bind (hwrite.bind
        (hstatus.bind ?_)))
      rw [if_neg hindex]
      exact hget.bind hone

theorem performs_buildFile :
    Performs (buildFile h : DiskM _) d (d.build h).1 (d.build h).2 := by
  rw [buildFile, Disk.build]
  have hcomplete := performs_isFileComplete d h
  cases hc : d.complete h with
  | false =>
    rw [hc] at hcomplete
    exact hcomplete.bind_nil (.throw _)
  | true =>
    rw [hc] at hcomplete
    have hslot₁ := slot_statusEffects d h
    generalize hd₁ : after (d.statusEffects h) d = d₁ at hslot₁
    have hpart₁ : d₁.slot h.name .part = d.slot h.name .part := by simp [hslot₁]
    have hpart := performs_getPartFile d₁ h.name
    have hslot₂ := slot_touch_of hpart₁
    rw [touch_congr hpart₁] at hpart
    simp only [hslot₁] at hslot₂
    generalize hd₂ : after (d.touch h.name .part) d₁ = d₂ at hslot₂
    have hinfo := performs_getInfoFile d₂ h.name
    rw [Disk.touch, hslot₂] at hinfo
    have hexists : Performs (pathExists ("resources/files/" ++ h.name) : DiskM Bool) d₂
        (.ok (d.slot h.name .file).isSome) [] := by
      have hp : Performs (pathExists ("resources/files/" ++ h.name) : DiskM Bool) d₂
          (.ok (d₂.slot h.name .file).isSome) [] := performs_pathExists
      rwa [hslot₂] at hp
    have hrename : Performs (rename (Slot.part.path h.name) ("resources/files/" ++ h.name) :
        DiskM Unit) d₂ (.ok ()) [.renamed (Slot.part.path h.name) (Slot.file.path h.name)] :=
      performs_rename (hslot₂ .part) _
    generalize hd₃ : after [Effect.renamed (Slot.part.path h.name) (Slot.file.path h.name)] d₂ = d₃
      at hrename
    have hinfo₃ : d₃.slot h.name .info = some (d.status h) := by
      rw [← hd₃]
      simp [hslot₂]
    have hremove := performs_removeFile hinfo₃
    subst hd₁ hd₂ hd₃
    cases hfile : (d.slot h.name .file).isSome with
    | true =>
      rw [hfile] at hexists
      refine hcomplete.bind (hpart.bind_nil (hinfo.bind_nil (hexists.bind_nil ?_)))
      exact .bind_error (.throw _)
    | false =>
      rw [hfile] at hexists
      refine hcomplete.bind (hpart.bind (hinfo.bind (hexists.bind ?_)))
      exact hrename.bind hremove

/-- `read_piece_from_file` creates the file when it does not exist. -/
theorem performs_readPieceFromFile (index : UInt32) :
    Performs (readPieceFromFile env h index : DiskM _) d
      (readPiece env h index ((d.slot h.name .file).getD [])) (d.touch h.name .file) := by
  have hget := performs_getFile d h.name
  have hfile : (after (d.touch h.name .file) d).content (Slot.file.path h.name)
      = some ((d.slot h.name .file).getD []) := slot_touch d h.name .file .file
  rw [readPieceFromFile, readPiece]
  cases readLength env h index with
  | error e => exact hget.bind_nil (.bind_error (.ofExcept _))
  | ok length =>
    refine hget.bind_nil ((Performs.ofExcept _).bind_nil ?_)
    simp only [bind, Except.bind]
    split_ifs with hbig
    · exact .bind_error (.throw _)
    · cases mulU32 env h.pieceLength index with
      | error e => exact .bind_error (.ofExcept _)
      | ok offset =>
        exact (Performs.ofExcept _).bind_nil (performs_readExactAt hfile offset.toNat length)

/-- The removals of `delete_file`, each of a file that is there. -/
lemma performs_removals {name : String} (hslot : ∀ s, (d.slot name s).isSome) :
    Performs (do
        removeOrReport (Slot.file.path name)
        removeOrReport (Slot.part.path name)
        removeOrReport (Slot.cache.path name)
        removeOrReport (Slot.info.path name) : DiskM Unit) d (.ok ())
      [.removed (Slot.file.path name), .removed (Slot.part.path name),
        .removed (Slot.cache.path name), .removed (Slot.info.path name)] := by
  have hremove (d' : Disk) (s : Slot) (hs : d'.slot name s = d.slot name s) :
      Performs (removeOrReport (s.path name) : DiskM Unit) d' (.ok ())
        [.removed (s.path name)] := by
    obtain ⟨content, hcontent⟩ := Option.isSome_iff_exists.mp (hslot s)
    exact performs_removeOrReport (hs.trans hcontent)
  refine (hremove d .file rfl).bind ?_
  refine (hremove _ .part (by simp)).bind ?_
  refine (hremove _ .cache (by simp)).bind ?_
  exact hremove _ .info (by simp)

theorem performs_deleteFile (name : String) :
    Performs (deleteFile name : DiskM _) d (.ok ()) (d.delete name) := by
  have hinfo := performs_getInfoFile d name
  have hslot₁ := slot_touch d name .info
  generalize hd₁ : after (d.touch name .info) d = d₁ at hslot₁
  have hpart := performs_getPartFile d₁ name
  have hpart₁ : d₁.slot name .part = d.slot name .part := by simp [hslot₁]
  have hslot₂ := slot_touch_of hpart₁
  rw [touch_congr hpart₁] at hpart
  generalize hd₂ : after (d.touch name .part) d₁ = d₂ at hslot₂
  have hcache := performs_getFileCache d₂ name
  have hcache₂ : d₂.slot name .cache = d.slot name .cache := by simp [hslot₂, hslot₁]
  have hslot₃ := slot_touch_of hcache₂
  rw [touch_congr hcache₂] at hcache
  generalize hd₃ : after (d.touch name .cache) d₂ = d₃ at hslot₃
  have hfile₃ : d₃.slot name .file = d.slot name .file := by simp [hslot₃, hslot₂, hslot₁]
  have hexists : Performs (pathExists ("resources/files/" ++ name) : DiskM Bool) d₃
      (.ok (d₃.slot name .file).isSome) [] := performs_pathExists
  rw [hfile₃] at hexists
  rw [deleteFile, Disk.delete]
  subst hd₁ hd₂
  refine hinfo.bind (hpart.bind (hcache.bind ?_))
  rw [hd₃]
  refine hexists.bind ?_
  cases hfile : (d.slot name .file).isSome with
  | false => exact .pure ()
  | true =>
    refine performs_removals d₃ fun s => ?_
    cases s <;> simp [hslot₃, hslot₂, hslot₁, hfile]

/-- After `delete_file` none of the files of a name is there, if the finished file was. -/
lemma slot_delete_of_file {name : String} (hfile : (d.slot name .file).isSome = true) (t : Slot) :
    (after (d.delete name) d).slot name t = none := by
  rw [Disk.delete, after_append, after_append, after_append, if_pos hfile]
  cases t <;> simp

/-- Otherwise the files of the cache are all there. -/
lemma slot_delete_of_none {name : String} (hfile : d.slot name .file = none) {t : Slot}
    (ht : t ≠ .file) :
    (after (d.delete name) d).slot name t = some ((d.slot name t).getD []) := by
  have hslot₁ := slot_touch d name .info
  generalize hd₁ : after (d.touch name .info) d = d₁ at hslot₁
  have hpart₁ : d₁.slot name .part = d.slot name .part := by simp [hslot₁]
  have hslot₂ := slot_touch_of hpart₁
  generalize hd₂ : after (d.touch name .part) d₁ = d₂ at hslot₂
  have hcache₂ : d₂.slot name .cache = d.slot name .cache := by simp [hslot₂, hslot₁]
  have hslot₃ := slot_touch_of hcache₂
  rw [Disk.delete, after_append, after_append, after_append, hd₁, hd₂, hfile]
  cases t with
  | file => exact absurd rfl ht
  | _ => simp [hslot₃, hslot₂, hslot₁]

end Calls

/-! ### Calls -/

/-- A call for a download under way. -/
inductive DownloadCall where
  | writePiece (piece : Bytes) (index : UInt32)
  | isComplete
  | build
  deriving DecidableEq, Repr

/-- What a call returns. -/
inductive CallResult where
  | done
  | complete (answer : Bool)
  | piece (bytes : Bytes)
  deriving DecidableEq, Repr

section Functions

variable {m : Type → Type} [Monad m] [MonadExcept Fault m] [FileSystem m]

def DownloadCall.call (env : Env) (h : InfoHash) : DownloadCall → m CallResult
  | .writePiece piece index => do
    writePieceToPart env h piece index
    return .done
  | .isComplete => do return .complete (← isFileComplete h)
  | .build => do
    buildFile h
    return .done

end Functions

/-- A call on a disk. -/
def DownloadCall.run (env : Env) (h : InfoHash) (c : DownloadCall) : DiskM CallResult :=
  c.call env h

/-- A call of the file handler. -/
inductive FileCall where
  | download (c : DownloadCall)
  | delete
  | readPiece (index : UInt32)
  deriving DecidableEq, Repr

section Functions

variable {m : Type → Type} [Monad m] [MonadExcept Fault m] [FileSystem m]

def FileCall.call (env : Env) (h : InfoHash) : FileCall → m CallResult
  | .download c => c.call env h
  | .delete => do
    deleteFile h.name
    return .done
  | .readPiece index => do return .piece (← readPieceFromFile env h index)

end Functions

/-- A call on a disk. -/
def FileCall.run (env : Env) (h : InfoHash) (c : FileCall) : DiskM CallResult := c.call env h

/-- The result and the effects of a call for a download. -/
def Disk.download (d : Disk) (env : Env) (h : InfoHash) :
    DownloadCall → Except Fault CallResult × List Effect
  | .writePiece piece index =>
    ((d.writePiece env h piece index).1.map fun _ => .done, (d.writePiece env h piece index).2)
  | .isComplete => (.ok (.complete (d.complete h)), d.statusEffects h)
  | .build => ((d.build h).1.map fun _ => .done, (d.build h).2)

/-- The effects of a call. -/
def Disk.effects (d : Disk) (env : Env) (h : InfoHash) : FileCall → List Effect
  | .download c  => (d.download env h c).2
  | .delete      => d.delete h.name
  | .readPiece _ => d.touch h.name .file

lemma performs_map {α β : Type} {x : DiskM α} {d : Disk} {r : Except Fault α} {es : List Effect}
    (h : Performs x d r es) (f : α → β) :
    Performs (do return f (← x) : DiskM β) d (r.map f) es := by
  cases r with
  | error e => exact h.bind_error
  | ok a => exact h.bind_nil (.pure _)

section Specs

variable (env : Env) (h : InfoHash) (d : Disk)

theorem performs_download (c : DownloadCall) :
    Performs (c.run env h) d (d.download env h c).1 (d.download env h c).2 := by
  cases c with
  | writePiece piece index => exact performs_map (performs_writePieceToPart env h d piece index) _
  | isComplete => exact performs_map (performs_isFileComplete d h) _
  | build => exact performs_map (performs_buildFile h d) _

theorem performs_fileCall (c : FileCall) :
    ∃ r, Performs (c.run env h) d r (d.effects env h c) := by
  cases c with
  | download c => exact ⟨_, performs_download env h d c⟩
  | delete => exact ⟨_, performs_map (performs_deleteFile d h.name) _⟩
  | readPiece index => exact ⟨_, performs_map (performs_readPieceFromFile env h d index) _⟩

/-- The effects of a call are those of its specification. -/
lemma effects_eq (c : FileCall) :
    (runFrom (c.run env h) d).2.2 = d.effects env h c := by
  obtain ⟨r, hr⟩ := performs_fileCall env h d c
  rw [hr.runFrom_eq]

end Specs

/-! ### The paths of a call -/

/-- Effects on some of the files of a name. -/
def OnSlots (name : String) (slots : List Slot) (es : List Effect) : Prop :=
  ∀ e ∈ es, ∀ p ∈ e.paths, ∃ s ∈ slots, p = s.path name

section Paths

variable {name : String} {slots : List Slot} {env : Env} {h : InfoHash} {d : Disk}

@[simp] lemma onSlots_nil : OnSlots name slots [] := fun _ he => absurd he List.not_mem_nil

@[simp] lemma onSlots_cons {e : Effect} {es : List Effect} :
    OnSlots name slots (e :: es)
      ↔ (∀ p ∈ e.paths, ∃ s ∈ slots, p = s.path name) ∧ OnSlots name slots es :=
  List.forall_mem_cons

@[simp] lemma onSlots_append {es es' : List Effect} :
    OnSlots name slots (es ++ es') ↔ OnSlots name slots es ∧ OnSlots name slots es' :=
  List.forall_mem_append

lemma onSlots_touch {s : Slot} (hs : s ∈ slots) : OnSlots name slots (d.touch name s) := by
  rw [Disk.touch]
  split_ifs
  · exact onSlots_nil
  · simp [Effect.paths, hs]

lemma onSlots_statusEffects (hs : .info ∈ slots) : OnSlots h.name slots (d.statusEffects h) := by
  rw [Disk.statusEffects]
  split_ifs <;> simp [Effect.paths, hs]

lemma onSlots_writePiece (hpart : .part ∈ slots) (hinfo : .info ∈ slots) (piece : Bytes)
    (index : UInt32) : OnSlots h.name slots (d.writePiece env h piece index).2 := by
  have htouch : OnSlots h.name slots (d.touch h.name .part) := onSlots_touch hpart
  have hstatus : OnSlots h.name slots (d.statusEffects h) := onSlots_statusEffects hinfo
  rw [Disk.writePiece]
  cases mulU32 env index h.pieceLength with
  | error e => exact htouch
  | ok offset =>
    simp only
    split_ifs <;> simp [Effect.paths, hpart, hinfo, htouch, hstatus]

/-- A call that builds nothing stays in the cache. -/
theorem onSlots_pending {c : DownloadCall}
    (hc : c = .build → (d.download env h c).1 ≠ .ok .done) :
    OnSlots h.name [.part, .info] (d.download env h c).2 := by
  have htouch : OnSlots h.name [.part, .info] (d.touch h.name .part) := onSlots_touch (by simp)
  have hstatus : OnSlots h.name [.part, .info] (d.statusEffects h) :=
    onSlots_statusEffects (by simp)
  cases c with
  | writePiece piece index => exact onSlots_writePiece (by simp) (by simp) piece index
  | isComplete => exact hstatus
  | build =>
    have hc := hc rfl
    rw [Disk.download, Disk.build] at hc ⊢
    simp only at hc ⊢
    split_ifs at hc ⊢
    · exact onSlots_append.mpr ⟨hstatus, htouch⟩
    · exact absurd rfl hc
    · exact hstatus

theorem onSlots_download (c : DownloadCall) :
    OnSlots h.name [.part, .info, .file] (d.download env h c).2 := by
  have htouch : OnSlots h.name [.part, .info, .file] (d.touch h.name .part) :=
    onSlots_touch (by simp)
  have hstatus : OnSlots h.name [.part, .info, .file] (d.statusEffects h) :=
    onSlots_statusEffects (by simp)
  cases c with
  | writePiece piece index => exact onSlots_writePiece (by simp) (by simp) piece index
  | isComplete => exact hstatus
  | build =>
    rw [Disk.download, Disk.build]
    simp only
    split_ifs <;> simp [Effect.paths, htouch, hstatus]

theorem onSlots_effects (c : FileCall) :
    OnSlots h.name [.part, .info, .cache, .file] (d.effects env h c) := by
  cases c with
  | download c =>
    intro e he p hp
    obtain ⟨s, hs, rfl⟩ := onSlots_download c e he p hp
    exact ⟨s, by cases s <;> simp, rfl⟩
  | readPiece index => exact onSlots_touch (by simp)
  | delete =>
    have htouch (s : Slot) : OnSlots h.name [.part, .info, .cache, .file] (d.touch h.name s) :=
      onSlots_touch (by cases s <;> simp)
    rw [Disk.effects, Disk.delete]
    simp only [onSlots_append, htouch, true_and]
    split_ifs <;> simp [Effect.paths]

end Paths

end BearTorrent
