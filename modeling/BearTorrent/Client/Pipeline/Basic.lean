import BearTorrent.Client.FileAssembler
import BearTorrent.Client.FileStore
import BearTorrent.Lib.Channel
import BearTorrent.Lib.Transition
import Mathlib.Logic.Function.Basic

/-!
# The download pipeline

`send_requests`, `reassemble_loop` and the connection tasks of one download, taking turns. They
share the assembler behind its lock, and three kinds of bounded channels: requests to each
connection, replies to `reassemble_loop`, and what has to be asked for again.

A step is what a task does between two points where it may be interrupted: taking a lock, and
sending to or receiving from a channel. `send_requests` keeps its read lock while it waits for
room in a request channel, which keeps `reassemble_loop` from its write locks.
-/

namespace BearTorrent

open Function

/-- The capacities of the three channels. -/
abbrev requestCapacity : ℕ := 150
abbrev replyCapacity : ℕ := 150
abbrev resendCapacity : ℕ := 100

/-- A request on the way to a connection. That it was sent on the connection at `position` when
`removed` connections had been removed is recorded for the proofs only. -/
structure Sent where
  msg : Message
  position : ℕ
  removed : ℕ
  deriving DecidableEq

/-- A message on the way to `reassemble_loop`. The connection it comes from, and the request it
answers, are recorded for the proofs only. -/
structure Reply where
  msg : Message
  origin : ConnId
  request : Option Sent
  deriving DecidableEq

/-- A connection task: its request channel, the request it is working on, and whether it runs. -/
structure Connection where
  requests : Channel Sent requestCapacity
  hand : Option Sent
  running : Bool
  deriving DecidableEq

namespace Connection

/-- A task that waits for its first request. -/
def idle : Connection := ⟨.empty, none, true⟩

/-- A task that has ended; the receiver of its channel is dropped. -/
def closed : Connection := ⟨.empty, none, false⟩

end Connection

/-- Where `send_requests` stands. -/
inductive SenderState where
  /-- waiting for the start signal -/
  | starting
  /-- about to look up the connection for piece `i`; `numConnections` was read at the start -/
  | requesting (numConnections i : ℕ)
  /-- holding the read lock, waiting for room in a request channel -/
  | sendingRequest (numConnections i : ℕ) (c : ConnId) (sent : Sent)
  /-- waiting for a message of the resend channel, after `i` resent requests -/
  | waiting (i : ℕ)
  /-- about to read the number of connections -/
  | counting (i : ℕ) (msg : Message)
  /-- about to look up the connection for `request` -/
  | resending (numConnections i : ℕ) (request : Message)
  /-- holding the read lock, waiting for room in a request channel -/
  | sendingResend (i : ℕ) (c : ConnId) (sent : Sent)
  | ended (result : Except Fault Unit)

/-- Where `reassemble_loop` stands. -/
inductive ReassembleState where
  /-- waiting for a reply -/
  | receiving
  /-- waiting for room in the resend channel -/
  | resending (msg : Message)
  /-- waiting for the write lock, to remove the connection at `seeder` -/
  | removing (seeder : UInt32) (reply : Reply)
  /-- waiting for the write lock, to count the connection down; it still owns the sender -/
  | decrementing (badTx : ConnId) (msg : Message)
  /-- about to read the number of connections that are left -/
  | checking (msg : Message)
  /-- waiting for the write lock, to drop the senders -/
  | completing
  /-- about to build the file; the resend channel is closed -/
  | building
  | ended (result : Except Fault Unit)

/-- What stays the same during a download. -/
structure Config where
  env : Env
  infoHash : InfoHash
  /-- the hash of the info hash, which the requests carry -/
  hash : Digest
  numConnections : ℕ

/-- The state of a download. `removals` lists the positions of the connections removed so far, for
the proofs only. -/
structure Pipeline where
  assembler : FileAssembler
  store : Store
  sender : SenderState
  reassembler : ReassembleState
  conns : ConnId → Connection
  replies : Channel Reply replyCapacity
  resends : Channel Message resendCapacity
  removals : List ℕ

/-- A download of `n` pieces of one byte from `k` connections, in a debug build. -/
def unitConfig (n k : ℕ) : Config where
  env := ⟨fun _ => Digest.zero, true⟩
  infoHash := ⟨"unit", .ofNat n, 1, List.replicate n ⟨Digest.zero.val⟩⟩
  hash := Digest.zero
  numConnections := k

namespace Pipeline

variable (cfg : Config)

/-- The connections are subscribed and the start signal is given. -/
def init (σ : Store) : Pipeline where
  assembler := .new cfg.infoHash cfg.numConnections
  store := σ
  sender := .starting
  reassembler := .receiving
  conns := fun _ => .idle
  replies := .empty
  resends := .empty
  removals := []

end Pipeline

/-! ### `send_requests` -/

/-- `send_requests` holds the read lock. -/
def SenderState.readLocked : SenderState → Bool
  | .sendingRequest _ _ _ _ => true
  | .sendingResend _ _ _    => true
  | _                       => false

/-- `send_requests` has ended, the receiver of the resend channel is dropped. -/
def SenderState.hasEnded : SenderState → Bool
  | .ended _ => true
  | _        => false

/-- `reassemble_loop` has dropped its sender of the resend channel. -/
def ReassembleState.resendDropped : ReassembleState → Bool
  | .building => true
  | .ended _  => true
  | _         => false

/-- `reassemble_loop` has ended, the receiver of the reply channel is dropped. -/
def ReassembleState.hasEnded : ReassembleState → Bool
  | .ended _ => true
  | _        => false

/-- What `reassemble_loop` does after it has handled a piece. -/
def ReassembleState.afterPiece (msg : Message) : Except Fault PieceResult → ReassembleState
  | .ok .corrupted => .resending msg
  | .ok .written   => .receiving
  | .ok .complete  => .completing
  | .error fault   => .ended (.error fault)

/-- The error of `send_requests`. -/
def connectionMissing : Fault := .err "Could not retrieve connection rx"

section Requests

variable (env : Env) (infoHash : InfoHash) (hash : Digest)

/-- The first request for piece `i`. The remainder panics without connections. -/
def initialRequest (numConnections i : ℕ) : Except Fault Message :=
  if numConnections = 0 then .error .panic
  else do
    let begin ← mulU32 env infoHash.pieceLength (.ofNat i)
    pure (.request (.ofNat (i % numConnections)) (.ofNat i) begin infoHash.pieceLength hash)

/-- The connection that is asked next. -/
def newSeeder (numConnections i : ℕ) : UInt32 := .ofNat (i % numConnections)

/-- The request for a piece that failed; nothing is asked for a message of another kind. -/
def resendRequest (seeder : UInt32) : Message → Except Fault (Option Message)
  | .cancel _ index begin length => .ok (some (.request seeder index begin length hash))
  | .piece index _ => do
    let begin ← mulU32 env infoHash.pieceLength index
    pure (some (.request seeder index begin infoHash.pieceLength hash))
  | .request _ _ _ _ _ => .ok none

end Requests

namespace Pipeline

variable (cfg : Config)

/-- Look up a connection under the read lock. -/
def lookup (s : Pipeline) (position : ℕ) (msg : Message) (next : ConnId → Sent → SenderState) :
    Pipeline :=
  match s.assembler.requestTxs[position]? with
  | none   => { s with sender := .ended (.error connectionMissing) }
  | some c => { s with sender := next c ⟨msg, position, s.removals.length⟩ }

/-- Send a request to a connection, when its channel has room. A dropped receiver is an error. -/
def sendRequest (s : Pipeline) (c : ConnId) (sent : Sent) (next : SenderState) : Option Pipeline :=
  let conn := s.conns c
  if conn.running then
    (conn.requests.send? sent).map fun requests =>
      { s with conns := update s.conns c { conn with requests }, sender := next }
  else
    some { s with sender := .ended (.error sendError) }

/-- The next step of `send_requests`, if it is not blocked. -/
def stepSender (s : Pipeline) : Option Pipeline :=
  match s.sender with
  | .starting => some { s with sender := .requesting s.assembler.numConnections 0 }
  | .requesting m i =>
    if i < cfg.infoHash.pieces.length then
      match initialRequest cfg.env cfg.infoHash cfg.hash m i with
      | .error fault => some { s with sender := .ended (.error fault) }
      | .ok request  => some (s.lookup (i % m) request (.sendingRequest m i))
    else some { s with sender := .waiting 0 }
  | .sendingRequest m i c sent => s.sendRequest c sent (.requesting m (i + 1))
  | .waiting i =>
    match s.resends.recv? with
    | some (msg, resends) => some { s with resends, sender := .counting i msg }
    | none =>
      if s.reassembler.resendDropped then some { s with sender := .ended (.ok ()) } else none
  | .counting i msg =>
    let m := s.assembler.numConnections
    if m = 0 then some { s with sender := .ended (.error .panic) }
    else
      match resendRequest cfg.env cfg.infoHash cfg.hash (newSeeder m i) msg with
      | .error fault       => some { s with sender := .ended (.error fault) }
      | .ok none           => some { s with sender := .waiting i }
      | .ok (some request) => some { s with sender := .resending m i request }
  | .resending m i request =>
    some (s.lookup (newSeeder m i).toNat request (.sendingResend i))
  | .sendingResend i c sent => s.sendRequest c sent (.waiting (i + 1))
  | .ended _ => none

/-! ### `reassemble_loop` -/

/-- Take a reply. -/
def receive (s : Pipeline) (reply : Reply) : Pipeline :=
  match reply.msg with
  | .piece index piece =>
    match runOn (receivePiece cfg.env cfg.infoHash index piece) s.store with
    | (result, store) => { s with store, reassembler := .afterPiece reply.msg result }
  | .cancel seeder _ _ _ => { s with reassembler := .removing seeder reply }
  | .request _ _ _ _ _   => { s with reassembler := .ended (.error wrongMessageType) }

/-- The next step of `reassemble_loop`, if it is not blocked. -/
def stepReassembler (s : Pipeline) : Option Pipeline :=
  match s.reassembler with
  | .receiving =>
    match s.replies.recv? with
    | some (reply, replies) => some ({ s with replies }.receive cfg reply)
    | none                  => none
  | .resending msg =>
    if s.sender.hasEnded then some { s with reassembler := .ended (.error sendError) }
    else (s.resends.send? msg).map fun resends => { s with resends, reassembler := .receiving }
  | .removing seeder reply =>
    if s.sender.readLocked then none
    else
      match s.assembler.requestTxs[seeder.toNat]?, s.assembler.removeRequestTx seeder with
      | some badTx, .ok assembler =>
        some { s with
          assembler
          reassembler := .decrementing badTx reply.msg
          removals := s.removals ++ [seeder.toNat] }
      | _, _ => some { s with reassembler := .ended (.error .panic) }
  | .decrementing _ msg =>
    if s.sender.readLocked then none
    else
      match s.assembler.decrementConnections cfg.env with
      | .error fault   => some { s with reassembler := .ended (.error fault) }
      | .ok assembler  => some { s with assembler, reassembler := .checking msg }
  | .checking msg =>
    if s.assembler.numConnections = 0 then
      some { s with reassembler := .ended (.error failedToRetrieve) }
    else some { s with reassembler := .resending msg }
  | .completing =>
    if s.sender.readLocked then none
    else some { s with assembler := s.assembler.drainRequestTxs, reassembler := .building }
  | .building =>
    match runOn (buildFile cfg.infoHash) s.store with
    | (result, store) => some { s with store, reassembler := .ended result }
  | .ended _ => none

/-! ### The connection tasks -/

/-- Somebody may still send to the connection. -/
def hasSender (s : Pipeline) (c : ConnId) : Bool :=
  c ∈ s.assembler.requestTxs ||
    match s.reassembler with
    | .decrementing badTx _ => badTx = c
    | _                     => false

/-- Replace a connection. -/
def setConn (s : Pipeline) (c : ConnId) (conn : Connection) : Pipeline :=
  { s with conns := update s.conns c conn }

@[simp] lemma setConn_conns (s : Pipeline) (c : ConnId) (conn : Connection) :
    (s.setConn c conn).conns = update s.conns c conn := rfl

/-- Pass a message to `reassemble_loop`, when its channel has room. After the end of the loop it
is dropped. -/
def deliver (s : Pipeline) (reply : Reply) : Option Pipeline :=
  if s.reassembler.hasEnded then some s
  else (s.replies.send? reply).map fun replies => { s with replies }

/-- A connection takes its next request, or ends when nobody can send one. -/
def take (s : Pipeline) (c : ConnId) : Option Pipeline :=
  match (s.conns c).hand, (s.conns c).requests.recv? with
  | none, some (sent, requests) => some (s.setConn c { s.conns c with requests, hand := some sent })
  | none, none                  => if s.hasSender c then none else some (s.setConn c .closed)
  | some _, _                   => none

/-- The connection has dealt with its request. -/
def clearHand (s : Pipeline) (c : ConnId) : Pipeline :=
  s.setConn c { s.conns c with hand := none }

/-- The peer's answer to the request is passed on. -/
def answer (s : Pipeline) (c : ConnId) (msg : Message) : Option Pipeline :=
  match (s.conns c).hand with
  | none      => none
  | some sent => (s.clearHand c).deliver ⟨msg, c, some sent⟩

/-- The peer cannot be reached: the request is cancelled. After the end of the loop the task ends
instead. -/
def refuse (s : Pipeline) (c : ConnId) : Option Pipeline :=
  match (s.conns c).hand with
  | none      => none
  | some sent =>
    match sent.msg.toCancel with
    | none        => some (s.clearHand c)
    | some cancel =>
      if s.reassembler.hasEnded then some (s.setConn c .closed)
      else (s.clearHand c).deliver ⟨cancel, c, some sent⟩

/-- What a connection task may do. -/
inductive ConnectionAction where
  | take
  | answer (msg : Message)
  | refuse
  /-- the peer's answer is unreadable, which is only logged -/
  | lose
  /-- the relay's stream delivers a message nobody asked for -/
  | pass (msg : Message)
  /-- the task ends, whatever is queued -/
  | drop

/-- The next step of connection `c`, if it is not blocked. -/
def stepConnection (s : Pipeline) (c : ConnId) : ConnectionAction → Option Pipeline
  | .take       => s.take c
  | .answer msg => s.answer c msg
  | .refuse     => s.refuse c
  | .lose       => (s.conns c).hand.map fun _ => s.clearHand c
  | .pass msg   => s.deliver ⟨msg, c, none⟩
  | .drop       => some (s.setConn c .closed)

/-- Who takes the next step. -/
inductive Action where
  | send
  | reassemble
  | connection (c : ConnId) (act : ConnectionAction)

variable (cfg : Config)

/-- One step of the download. -/
def step (s : Pipeline) : Action → Option Pipeline
  | .send             => s.stepSender cfg
  | .reassemble       => s.stepReassembler cfg
  | .connection c act =>
    if c < cfg.numConnections ∧ (s.conns c).running then s.stepConnection c act else none

end Pipeline

end BearTorrent
