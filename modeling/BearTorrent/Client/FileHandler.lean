import BearTorrent.Client.InfoHash
import Mathlib.Data.List.AList

/-!
# The file handler

The functions of `file_handler.rs` that keep a download on disk: the `.part` file with the bytes
received so far, the `.info` file with one status byte for each piece, and the finished file. They
are written over the file operations they call, so that one text can be run in several ways: on a
store and on a disk, where a file can be created under every name, and among folders, where a name
can be too long and a folder can be in the way.
-/

namespace BearTorrent

open Patch

/-- The operations on files that the client calls. -/
class FileSystem (m : Type → Type) where
  /-- `exists` -/
  pathExists : String → m Bool
  /-- `File::create` -/
  create : String → m Unit
  /-- Open a file and read all of it. -/
  readToEnd : String → m Bytes
  /-- Open a file, seek to an offset and `read_exact`. -/
  readExactAt : String → ℕ → ℕ → m Bytes
  /-- Open a file for writing, seek to an offset and `write_all`. -/
  writeAllAt : String → ℕ → Bytes → m Unit
  rename : String → String → m Unit
  removeFile : String → m Unit

/-- The status of the download: one byte for each piece, `1` once it is written. -/
structure Status where
  piecesStatus : Bytes
  deriving DecidableEq, Repr

/-- Whether all pieces have been assembled. -/
def Status.hasAllPieces (s : Status) : Bool :=
  if s.piecesStatus.isEmpty then true else s.piecesStatus.all (· == 1)

/-- The path of a client file. -/
def tempFileName (fileName extension src : String) : String :=
  "resources/" ++ src ++ "/" ++ fileName ++ extension

section Functions

variable {m : Type → Type} [Monad m] [MonadExcept Fault m] [FileSystem m]

open FileSystem

/-- `Result::unwrap`: an error becomes a panic. -/
def unwrap {α : Type} (x : m α) : m α := tryCatch x fun _ => throw .panic

/-- The path of a file, which is created when it does not exist, and whether it existed. -/
def getTempFile (fileName extension src : String) : m (String × Bool) := do
  let path := tempFileName fileName extension src
  if ← pathExists path then
    pure (path, true)
  else
    create path
    pure (path, false)

def getPartFile (fileName : String) : m String := do
  let (path, _) ← unwrap (getTempFile fileName ".part" "cache")
  pure path

def getInfoFile (fileName : String) : m (String × Bool) :=
  unwrap (getTempFile fileName ".info" "cache")

def getFileCache (fileName : String) : m (String × Bool) :=
  unwrap (getTempFile fileName ".filecache" "cache")

def getFile (fileName : String) : m String := do
  let (path, _) ← unwrap (getTempFile fileName "" "files")
  pure path

/-- Read the status from the `.info` file. One that did not exist is filled with zeros. -/
def getInfoStatus (infoHash : InfoHash) : m Status := do
  let (path, isNew) ← getInfoFile infoHash.name
  match isNew with
  | true =>
    let buffer ← unwrap (readToEnd path)
    pure ⟨buffer⟩
  | false =>
    let pieces := List.replicate infoHash.pieces.length 0
    unwrap (writeAllAt path 0 pieces)
    pure ⟨pieces⟩

def isFileComplete (infoHash : InfoHash) : m Bool := do
  let status ← getInfoStatus infoHash
  pure status.hasAllPieces

/-- Move a complete `.part` file to `resources/files` and remove its `.info` file. -/
def buildFile (infoHash : InfoHash) : m Unit := do
  match ← isFileComplete infoHash with
  | true =>
    let partFile ← getPartFile infoHash.name
    let (infoFile, _) ← getInfoFile infoHash.name
    let newFileName := "resources/files/" ++ infoHash.name
    if ← pathExists newFileName then
      throw (.err "File already exists in resources/files, cannot build!")
    rename partFile newFileName
    removeFile infoFile
  | false => throw (.err "Missing pieces for file, cannot build!")

/-- Write a piece into the `.part` file and set its status. The status vector is indexed, which
panics for an index past its end, when the piece is already written. -/
def writePieceToPart (env : Env) (infoHash : InfoHash) (piece : Bytes) (pieceIndex : UInt32) :
    m Unit := do
  let partPath ← getPartFile infoHash.name
  let offset ← MonadExcept.ofExcept (mulU32 env pieceIndex infoHash.pieceLength)
  writeAllAt partPath offset.toNat piece
  let infoStatus ← getInfoStatus infoHash
  if infoStatus.piecesStatus.length ≤ pieceIndex.toNat then
    throw .panic
  let (infoFilePath, _) ← getInfoFile infoHash.name
  writeAllAt infoFilePath pieceIndex.toNat [1]

/-- Remove a file; an error is only printed. -/
def removeOrReport (path : String) : m Unit := tryCatch (removeFile path) fun _ => pure ()

/-- Delete a file and its cache files. The cache files are looked up first, which creates those
that do not exist. -/
def deleteFile (fileName : String) : m Unit := do
  let filePath := "resources/files/" ++ fileName
  let (infoPath, _) ← getInfoFile fileName
  let partPath ← getPartFile fileName
  let (cachePath, _) ← getFileCache fileName
  if ← pathExists filePath then
    removeOrReport filePath
    removeOrReport partPath
    removeOrReport cachePath
    removeOrReport infoPath

/-- The length that `read_piece_from_file` reads: that of the last piece is what the pieces before
it leave of the file. -/
def readLength (env : Env) (infoHash : InfoHash) (pieceIndex : UInt32) : Except Fault ℕ := do
  let last ← subUsize env infoHash.pieces.length 1
  if last = pieceIndex.toNat then
    let before ← mulUsize env infoHash.pieceLength.toNat last
    subUsize env infoHash.fileLength.toNat before
  else
    pure infoHash.pieceLength.toNat

/-- Read a piece of a file in `resources/files`. The buffer is allocated first, which panics past
the largest allocation. -/
def readPieceFromFile (env : Env) (infoHash : InfoHash) (pieceIndex : UInt32) : m Bytes := do
  let filePath ← getFile infoHash.name
  let pieceLength ← MonadExcept.ofExcept (readLength env infoHash pieceIndex)
  if 2 ^ 63 ≤ pieceLength then
    throw .panic
  let offset ← MonadExcept.ofExcept (mulU32 env infoHash.pieceLength pieceIndex)
  readExactAt filePath offset.toNat pieceLength

end Functions

end BearTorrent
