import BearTorrent.Client.FileCalls
import BearTorrent.Lib.TextFormat

/-!
# The cached info hash

`InfoHash::new` computes the info hash of a file once and keeps it in a `.filecache` file, a text
of one line for each field and each piece. When there is such a file, its text is loaded and the
file itself is not looked at.
-/

namespace BearTorrent

open Patch FileSystem Effects LexicalPath TextFormat

/-- The operations with which `InfoHash::new` reads files. -/
class FileReader (m : Type → Type) where
  /-- `metadata`, and its `len` -/
  length : String → m UInt64
  /-- Open a file for reading; its content. -/
  contents : String → m Bytes

instance : FileReader DiskM where
  length path := onFile path fun content => pure (UInt64.ofNat content.length)
  contents path := onFile path pure

/-! ### The text -/

/-- The lines of a `.filecache` file. -/
def cacheLines (h : InfoHash) : List (List Char) :=
  ["name: ".toList ++ h.name.toList,
    "file_length: ".toList ++ decimal h.fileLength.toNat,
    "piece_length: ".toList ++ decimal h.pieceLength.toNat,
    "pieces:".toList] ++ h.pieces.map fun piece => hexEncode piece.hash

/-- What `writeln!` writes. -/
def lineBytes (line : List Char) : Bytes := toUtf8 (String.ofList (line ++ ['\n']))

/-- The whole `.filecache` file. -/
def cacheText (h : InfoHash) : Bytes := (cacheLines h).flatMap lineBytes

/-- `Option::unwrap`: a missing value becomes a panic. -/
def orPanic {α : Type} : Option α → Except Fault α
  | some a => .ok a
  | none   => .error .panic

lemma orPanic_eq_ok {α : Type} {o : Option α} {a : α} : orPanic o = .ok a ↔ o = some a := by
  cases o <;> simp [orPanic]

/-- Take the next line; there has to be one. -/
def nextLine : List (List Char) → Except Fault (List Char × List (List Char))
  | []            => .error .panic
  | line :: lines => .ok (line, lines)

/-- Load an info hash from the lines of a `.filecache` file. -/
def loadLines (lines : List (List Char)) : Except Fault InfoHash := do
  let (line, lines) ← nextLine lines
  let name ← orPanic (stripPrefix? "name: ".toList line)
  let (line, lines) ← nextLine lines
  let digits ← orPanic (stripPrefix? "file_length: ".toList line)
  let fileLength ← orPanic (parseUnsigned 64 digits)
  let (line, lines) ← nextLine lines
  let digits ← orPanic (stripPrefix? "piece_length: ".toList line)
  let pieceLength ← orPanic (parseUnsigned 32 digits)
  let (header, lines) ← nextLine lines
  if trim header ≠ "pieces:".toList then
    throw (.err "Invalid header")
  else
    let pieces ← orPanic (lines.mapM hexDecode)
    return {
      name := String.ofList name
      fileLength := UInt64.ofNat fileLength
      pieceLength := UInt32.ofNat pieceLength
      pieces := pieces.map PieceHash.mk }

/-- Load an info hash from the content of a `.filecache` file. -/
def loadFileCache (contents : Bytes) : Except Fault InfoHash :=
  match ofUtf8? contents with
  | some text => loadLines (lines text.toList)
  | none      => .error (.err "stream did not contain valid UTF-8")

section Functions

variable {m : Type → Type} [Monad m] [MonadExcept Fault m] [FileSystem m] [FileReader m]

/-- Write lines to a file from an offset on. -/
def writeLines (path : String) : ℕ → List (List Char) → m Unit
  | _, []                  => pure ()
  | offset, line :: lines => do
    writeAllAt path offset (lineBytes line)
    writeLines path (offset + (lineBytes line).length) lines

/-- `InfoHash::new` for the file `name` in `resources/files`, when its reads return `sizes`. The
`.filecache` file is looked up first, which creates it. -/
def newInfoHash (env : Env) (name : String) (sizes : ℕ → ℕ) : m InfoHash := do
  let path := filePath name
  let (fileCache, isNew) ← getFileCache name
  match isNew with
  | false =>
    let fileLength ← FileReader.length path
    let pieceLength := getPieceLength fileLength
    let content ← FileReader.contents path
    let pieces := getPieceHashes env ⟨content, sizes, 0⟩ pieceLength.toNat
    writeLines fileCache 0 (cacheLines { name, fileLength, pieceLength, pieces })
    return { name, fileLength, pieceLength, pieces }
  | true =>
    let contents ← FileReader.contents fileCache
    MonadExcept.ofExcept (loadFileCache contents)

end Functions

/-! ### Loading what was written -/

section Load

variable {h h' : InfoHash} {contents : Bytes}

lemma isLine_nameField : IsLine "name: ".toList := ⟨by decide, by decide⟩

/-- Every other line is read back as it was written. -/
lemma isLine_of_mem_cacheLines (hname : IsLine h.name.toList) :
    ∀ line ∈ cacheLines h, IsLine line := by
  intro line hline
  rcases List.mem_append.mp hline with hline | hline
  · simp only [List.mem_cons, List.not_mem_nil, or_false] at hline
    obtain rfl | rfl | rfl | rfl := hline
    · exact (isLine_append_iff isLine_nameField).mpr hname
    · exact (isLine_append_iff ⟨by decide, by decide⟩).mpr (isLine_decimal _)
    · exact (isLine_append_iff ⟨by decide, by decide⟩).mpr (isLine_decimal _)
    · exact ⟨by decide, by decide⟩
  · obtain ⟨piece, -, rfl⟩ := List.mem_map.mp hline
    exact isLine_hexEncode _

/-- The lines of a text are loaded. -/
lemma loadFileCache_lines (ls : List (List Char)) :
    loadFileCache (ls.flatMap lineBytes) = loadLines (lines (unlines ls)) := by
  have hbytes : ls.flatMap lineBytes = toUtf8 (String.ofList (unlines ls)) := by
    induction ls with
    | nil => exact toUtf8_empty.symm
    | cons l ls ih =>
      have hunlines : unlines (l :: ls) = (l ++ ['\n']) ++ unlines ls := rfl
      rw [List.flatMap_cons, ih, hunlines, String.ofList_append, toUtf8_append]
      rfl
  rw [hbytes, loadFileCache, ofUtf8?_toUtf8]
  exact congrArg (fun text => loadLines (lines text)) String.toList_ofList

lemma loadLines_cacheLines (h : InfoHash) : loadLines (cacheLines h) = .ok h := by
  have hlength : parseUnsigned 64 (decimal h.fileLength.toNat) = some h.fileLength.toNat :=
    parseUnsigned_decimal h.fileLength.toNat_lt
  have hpiece : parseUnsigned 32 (decimal h.pieceLength.toNat) = some h.pieceLength.toNat :=
    parseUnsigned_decimal h.pieceLength.toNat_lt
  have hpieces : (h.pieces.map fun piece => hexEncode piece.hash).mapM hexDecode
      = some (h.pieces.map PieceHash.hash) := by
    induction h.pieces with
    | nil => rfl
    | cons piece pieces ih =>
      rw [List.map_cons, List.mapM_cons, hexDecode_hexEncode, ih]
      rfl
  have htrim : trim "pieces:".toList = "pieces:".toList := by decide
  have hmap : (h.pieces.map PieceHash.hash).map PieceHash.mk = h.pieces := by
    rw [List.map_map]
    exact List.map_id _
  simp only [loadLines, cacheLines, List.cons_append, List.nil_append, nextLine, bind, Except.bind,
    stripPrefix?_append, orPanic, hlength, hpiece, htrim, ne_eq, not_true_eq_false, if_false,
    hpieces, hmap, String.ofList_toList, UInt64.ofNat_toNat, UInt32.ofNat_toNat]
  rfl

/-- The name is what follows the prefix of the first line. -/
lemma name_of_loadLines {ls : List (List Char)} (hload : loadLines ls = .ok h) :
    ∃ rest, ls = ("name: ".toList ++ h.name.toList) :: rest := by
  simp only [loadLines, except_bind_eq_ok] at hload
  obtain ⟨⟨line, rest⟩, hline, name, hname, ⟨_, _⟩, -, _, -, _, -, ⟨_, _⟩, -, _, -, _, -,
    ⟨_, _⟩, -, hload⟩ := hload
  split_ifs at hload
  obtain ⟨pieces, -, hload⟩ := except_bind_eq_ok.mp hload
  obtain rfl := Except.ok.inj hload
  cases ls with
  | nil => cases hline
  | cons l ls =>
    obtain ⟨rfl, rfl⟩ := Prod.mk.inj (Except.ok.inj hline)
    have hl := stripPrefix?_eq_some.mp (orPanic_eq_ok.mp hname)
    exact ⟨ls, congrArg (· :: ls) (hl.trans (congrArg _ String.toList_ofList.symm))⟩

/-- A name that is loaded as it was written is a line. -/
lemma isLine_of_loadLines {name : String} {ls : List (List Char)} (hname : h.name = name)
    (hload : loadLines (lines (unlines (("name: ".toList ++ name.toList) :: ls))) = .ok h) :
    IsLine name.toList := by
  obtain ⟨rest, hlines⟩ := name_of_loadLines hload
  rw [hname] at hlines
  have hfeed : '\n' ∉ "name: ".toList ++ name.toList := by
    apply notMem_of_mem_lines
    rw [hlines]
    exact List.mem_cons_self
  have hunlines : unlines (("name: ".toList ++ name.toList) :: ls)
      = ("name: ".toList ++ name.toList) ++ '\n' :: unlines ls := by
    simp [unlines]
  rw [hunlines, lines_append hfeed] at hlines
  have hstrip := (List.cons.inj hlines).1
  refine (isLine_append_iff isLine_nameField).mp ⟨hfeed, fun hlast => ?_⟩
  have hlt := length_stripCr_lt hlast
  rw [hstrip] at hlt
  exact lt_irrefl _ hlt

lemma isLine_of_loadFileCache (hname : h'.name = h.name)
    (hload : loadFileCache (cacheText h) = .ok h') : IsLine h.name.toList := by
  rw [cacheText, loadFileCache_lines] at hload
  exact isLine_of_loadLines hname hload

/-- A loaded info hash is the one that was written exactly when the name is a line. -/
theorem loadFileCache_cacheText_iff :
    loadFileCache (cacheText h) = .ok h ↔ IsLine h.name.toList := by
  constructor
  · exact isLine_of_loadFileCache rfl
  · intro hname
    rw [cacheText, loadFileCache_lines, lines_unlines (isLine_of_mem_cacheLines hname),
      loadLines_cacheLines]

end Load

/-! ### The effects -/

/-- The effects of writing lines. -/
def lineEffects (path : String) : ℕ → List (List Char) → List Effect
  | _, []                  => []
  | offset, line :: lines =>
    .written path offset (lineBytes line) ::
      lineEffects path (offset + (lineBytes line).length) lines

/-- The result and the effects of `InfoHash::new`. -/
def Disk.newInfoHash (d : Disk) (env : Env) (name : String) (sizes : ℕ → ℕ) :
    Except Fault InfoHash × List Effect :=
  match d.slot name .cache, d.slot name .file with
  | some contents, _   => (loadFileCache contents, [])
  | none, none         => (.error notFound, [.created (Slot.cache.path name)])
  | none, some content =>
    (.ok (.compute env name content sizes), .created (Slot.cache.path name) ::
      lineEffects (Slot.cache.path name) 0 (cacheLines (.compute env name content sizes)))

section Effects

variable {d : Disk} {name : String}

/-- Lines are appended to a file that is written from its end on. -/
lemma slot_lineEffects {content : Bytes} (h : d.slot name .cache = some content)
    (ls : List (List Char)) (s : Slot) :
    (after (lineEffects (Slot.cache.path name) content.length ls) d).slot name s
      = if s = .cache then some (content ++ ls.flatMap lineBytes) else d.slot name s := by
  induction ls generalizing d content with
  | nil =>
    simp only [lineEffects, after_nil, List.flatMap_nil, List.append_nil]
    split_ifs with hs
    · rw [hs, h]
    · rfl
  | cons line ls ih =>
    have hwritten : (act (Effect.written (Slot.cache.path name) content.length (lineBytes line))
        d).slot name .cache = some (content ++ lineBytes line) := by
      rw [slot_written, if_pos rfl, h, Option.map_some, patch_length]
    rw [lineEffects, after_cons, ← List.length_append, ih hwritten, slot_written]
    split_ifs with hs
    · rw [List.flatMap_cons, List.append_assoc]
    · rfl

lemma performs_writeLines {content : Bytes} (h : d.slot name .cache = some content)
    (ls : List (List Char)) :
    Performs (writeLines (Slot.cache.path name) content.length ls : DiskM Unit) d (.ok ())
      (lineEffects (Slot.cache.path name) content.length ls) := by
  induction ls generalizing d content with
  | nil => exact .pure ()
  | cons line ls ih =>
    have hwrite := performs_writeAllAt h content.length (lineBytes line)
    refine hwrite.bind ?_
    have hwritten : (after [Effect.written (Slot.cache.path name) content.length (lineBytes line)]
        d).slot name .cache = some (content ++ lineBytes line) := by
      rw [after_cons, after_nil, slot_written, if_pos rfl, h, Option.map_some, patch_length]
    have hlines := ih hwritten
    rwa [List.length_append] at hlines

theorem performs_newInfoHash (env : Env) (d : Disk) (name : String) (sizes : ℕ → ℕ) :
    Performs (newInfoHash env name sizes : DiskM InfoHash) d (d.newInfoHash env name sizes).1
      (d.newInfoHash env name sizes).2 := by
  have hget := performs_getFileCache d name
  have hslot := slot_touch d name .cache
  rw [newInfoHash, Disk.newInfoHash]
  rw [Disk.touch] at hget hslot
  cases hcache : d.slot name .cache with
  | some contents =>
    rw [hcache] at hget
    have hread : Performs (FileReader.contents (Slot.cache.path name) : DiskM Bytes) d
        (.ok contents) [] := performs_onFile hcache (.pure _)
    exact hget.bind (hread.bind (.ofExcept _))
  | none =>
    rw [hcache] at hget hslot
    have hfile : (after [Effect.created (Slot.cache.path name)] d).slot name .file
        = d.slot name .file := hslot .file
    have hempty : (after [Effect.created (Slot.cache.path name)] d).slot name .cache = some [] :=
      hslot .cache
    generalize hd : after [Effect.created (Slot.cache.path name)] d = d' at hfile hempty
    cases hcontent : d.slot name .file with
    | none =>
      rw [hcontent] at hfile
      have hlength : Performs (FileReader.length (filePath name) : DiskM UInt64) d'
          (.error notFound) [] := performs_onFile_none hfile
      subst hd
      exact hget.bind_nil hlength.bind_error
    | some content =>
      rw [hcontent] at hfile
      have hlength : Performs (FileReader.length (filePath name) : DiskM UInt64) d'
          (.ok (UInt64.ofNat content.length)) [] := performs_onFile hfile (.pure _)
      have hread : Performs (FileReader.contents (filePath name) : DiskM Bytes) d'
          (.ok content) [] := performs_onFile hfile (.pure _)
      have hwrite := performs_writeLines hempty
        (cacheLines (.compute env name content sizes))
      subst hd
      exact hget.bind (hlength.bind (hread.bind (hwrite.bind_nil (.pure _))))

end Effects

end BearTorrent
