import BearTorrent.Client.Message
import BearTorrent.Client.FileHandler

/-!
# The file assembler

`FileAssembler` is the object that `send_requests` and `reassemble_loop` share, and
`reassembleMessage` is one round of `reassemble_loop`: a piece is checked and written, a
`Cancel` removes a connection. Each section of the loop that runs under one lock is a function of
its own.
-/

namespace BearTorrent

/-- A connection, numbered in the order of the subscriptions. -/
abbrev ConnId := ℕ

/-- The shared state of a download. A sender in `requestTxs` is named by the connection that
holds its receiver. -/
structure FileAssembler where
  fileHash : InfoHash
  numConnections : ℕ
  requestTxs : List ConnId
  deriving DecidableEq

namespace FileAssembler

/-- An assembler with `numConnections` subscribed connections. -/
def new (fileHash : InfoHash) (numConnections : ℕ) : FileAssembler where
  fileHash
  numConnections
  requestTxs := List.range numConnections

/-- `request_txs.remove(seeder)` panics when there is no such position. -/
def removeRequestTx (a : FileAssembler) (seeder : UInt32) : Except Fault FileAssembler :=
  if seeder.toNat < a.requestTxs.length then
    .ok { a with requestTxs := a.requestTxs.eraseIdx seeder.toNat }
  else .error .panic

/-- `num_connections -= 1` -/
def decrementConnections (env : Env) (a : FileAssembler) : Except Fault FileAssembler := do
  let numConnections ← subUsize env a.numConnections 1
  pure { a with numConnections }

/-- All senders are dropped when the file is complete. -/
def drainRequestTxs (a : FileAssembler) : FileAssembler := { a with requestTxs := [] }

end FileAssembler

/-- What became of a received piece. -/
inductive PieceResult where
  | corrupted
  | written
  | complete
  deriving DecidableEq

/-- How the reassembly stands. -/
inductive LoopState where
  | running (assembler : FileAssembler)
  | finished
  | failed (fault : Fault)
  deriving DecidableEq

/-- The errors of `reassemble_loop`. -/
def sendError : Fault := .err "channel closed"
def pieceHashMissing : Fault := .err "Could not retrieve piece hash"
def pieceHashInvalid : Fault := .err "Could not convert piece hash"
def wrongMessageType : Fault := .err "wrong message type"
def failedToRetrieve : Fault := .err "Failed to Retrieve File"

/-- The hash that the info hash records for a piece. -/
def expectedHash (infoHash : InfoHash) (index : UInt32) : Except Fault Digest :=
  match infoHash.pieces[index.toNat]? with
  | none => .error pieceHashMissing
  | some pieceHash =>
    match Digest.ofBytes? pieceHash.hash with
    | none => .error pieceHashInvalid
    | some digest => .ok digest

/-- `resend_tx.send(..).await?` fails when `send_requests` has ended. -/
def sendResend (resendOpen : Bool) : Except Fault Unit :=
  if resendOpen then .ok () else .error sendError

/-- The `Cancel` branch: the connection is removed and the piece is to be asked for again. -/
def cancelConnection (env : Env) (resendOpen : Bool) (a : FileAssembler) (seeder : UInt32) :
    Except Fault FileAssembler := do
  let a ← a.removeRequestTx seeder
  let a ← a.decrementConnections env
  if a.numConnections = 0 then
    throw failedToRetrieve
  sendResend resendOpen
  pure a

section Functions

variable {m : Type → Type} [Monad m] [MonadExcept Fault m] [FileSystem m]

/-- Check a received piece and write it. Only a payload of exactly `piece_length` bytes is compared
with the recorded hash. -/
def receivePiece (env : Env) (infoHash : InfoHash) (index : UInt32) (piece : Bytes) :
    m PieceResult := do
  if piece.length = infoHash.pieceLength.toNat then
    let recvdPieceHash := hashPieceData env piece
    let expectedHash ← MonadExcept.ofExcept (expectedHash infoHash index)
    if recvdPieceHash ≠ expectedHash then
      return .corrupted
  writePieceToPart env infoHash piece index
  if ← isFileComplete infoHash then
    return .complete
  return .written

/-- One round of `reassemble_loop`, and the end of it when the file is complete. -/
def reassembleMessage (env : Env) (resendOpen : Bool) (a : FileAssembler) :
    Message → m LoopState
  | .piece index piece => do
    match ← receivePiece env a.fileHash index piece with
    | .corrupted =>
      MonadExcept.ofExcept (sendResend resendOpen)
      pure (.running a)
    | .written => pure (.running a)
    | .complete =>
      buildFile a.fileHash
      pure .finished
  | .cancel seeder _ _ _ => do
    let a ← MonadExcept.ofExcept (cancelConnection env resendOpen a seeder)
    pure (.running a)
  | .request _ _ _ _ _ => throw wrongMessageType

end Functions

end BearTorrent
