import BearTorrent.Client.InfoHash
import Mathlib.Data.List.AList
import Mathlib.Data.List.Perm.Basic

/-!
# The connection service

The maps of the server and its handlers for the files that clients share. A handler runs on the
service and ends with a reply or a `Failure`. The order in which a map is iterated is not
determined; where a reply depends on it, it is an argument of the handler.
-/

namespace BearTorrent

/-! ### Messages -/

structure ClientId where
  uid : String
  deriving DecidableEq, Repr

structure PeerId where
  ipaddr : UInt32
  port : UInt32
  privIpaddr : UInt32
  privPort : UInt32
  deriving DecidableEq, Repr

structure FileHash where
  hash : Bytes
  deriving DecidableEq, Repr

structure ClientRegistry where
  peerId : Option PeerId

structure FullId where
  selfId : Option ClientId
  peerId : Option PeerId

structure FileMessage where
  id : Option ClientId
  hash : Option FileHash
  infoHash : Option InfoHash

structure FileDelete where
  id : Option ClientId
  hash : Option FileHash

inductive Code where
  | invalidArgument
  | notFound
  | internal
  | resourceExhausted
  deriving DecidableEq, Repr

/-- How a call ends without a reply: with a `Status`, or by panicking. -/
inductive Failure where
  | status (code : Code) (message : String)
  | panic
  deriving DecidableEq, Repr

/-- `Status::invalid_argument`. -/
def invalidArgument (message : String) : Failure := .status .invalidArgument message

/-! ### The service -/

/-- The sending half of a channel to a call that waits. -/
abbrev SenderId := ℕ

structure ConnectionService where
  clientRegistry : AList fun _ : ClientId => Option PeerId
  fileTracker : AList fun _ : FileHash => InfoHash
  seederList : AList fun _ : FileHash => List ClientId
  seedNotifier : AList fun _ : PeerId => SenderId
  certSender : AList fun _ : PeerId => SenderId
  initHolePunch : AList fun _ : PeerId => SenderId

/-- A handler: it reads and changes the maps, and may fail. -/
abbrev Handler := ExceptT Failure (StateM ConnectionService)

/-- `ok_or(failure)?`. -/
def okOr {α : Type} (x : Option α) (failure : Failure) : Handler α :=
  match x with
  | some a => pure a
  | none   => throw failure

namespace ConnectionService

/-- The server starts with empty maps. -/
def default : ConnectionService := ⟨∅, ∅, ∅, ∅, ∅, ∅⟩

/-- The clients recorded for a file; none when there is no entry. -/
def seeders (s : ConnectionService) (fileHash : FileHash) : List ClientId :=
  (s.seederList.lookup fileHash).getD []

/-! ### Operations on one map -/

/-- `file_tracker.insert`. -/
def trackFile (s : ConnectionService) (fileHash : FileHash) (infoHash : InfoHash) :
    ConnectionService :=
  { s with fileTracker := s.fileTracker.insert fileHash infoHash }

/-- `file_tracker.remove`. -/
def untrackFile (s : ConnectionService) (fileHash : FileHash) : ConnectionService :=
  { s with fileTracker := s.fileTracker.erase fileHash }

/-- `seeder_list.entry(file_hash).or_insert_with(Vec::new).push(client_id)`. -/
def pushSeeder (s : ConnectionService) (fileHash : FileHash) (clientId : ClientId) :
    ConnectionService :=
  { s with seederList := s.seederList.insert fileHash (s.seeders fileHash ++ [clientId]) }

/-- Retain the other clients in an entry of `seeder_list`, when there is one. -/
def retainOthers (s : ConnectionService) (fileHash : FileHash) (clientId : ClientId) :
    ConnectionService :=
  match s.seederList.lookup fileHash with
  | some seeders =>
    { s with seederList := s.seederList.insert fileHash (seeders.filter (· ≠ clientId)) }
  | none => s

/-- `seeder_list.remove`. -/
def removeSeeders (s : ConnectionService) (fileHash : FileHash) : ConnectionService :=
  { s with seederList := s.seederList.erase fileHash }

/-- `client_registry.insert`. -/
def register (s : ConnectionService) (clientId : ClientId) (peerId : Option PeerId) :
    ConnectionService :=
  { s with clientRegistry := s.clientRegistry.insert clientId peerId }

/-- `client_registry.remove`. -/
def unregister (s : ConnectionService) (clientId : ClientId) : ConnectionService :=
  { s with clientRegistry := s.clientRegistry.erase clientId }

/-! ### Handlers -/

/-- The peers recorded for a file that are registered with a peer id. -/
def getFilePeerList (s : ConnectionService) (infoHash : FileHash) : List PeerId :=
  match s.seederList.lookup infoHash with
  | some clients => clients.filterMap fun c => (s.clientRegistry.lookup c).join
  | none         => []

/-- Record that a client owns a file. -/
def advertise (r : FileMessage) : Handler ClientId := do
  let fileHash ← okOr r.hash (invalidArgument "missing file hash")
  let infoHash ← okOr r.infoHash (invalidArgument "missing info hash")
  let clientId ← okOr r.id (invalidArgument "Client missing")
  modify (·.trackFile fileHash infoHash)
  modify (·.pushSeeder fileHash clientId)
  return clientId

/-- The loop of `register_client`: the first of the drawn ids that is not registered. There is
none while the loop is still running. -/
def drawUid (s : ConnectionService) : List String → Option ClientId
  | []            => none
  | uuid :: uuids => if ⟨uuid⟩ ∈ s.clientRegistry then s.drawUid uuids else some ⟨uuid⟩

/-- Register a client under the id that was drawn. -/
def registerClient (uid : ClientId) (r : ClientRegistry) : Handler ClientId := do
  if uid.uid.isEmpty then throw (.status .internal "failed to generate uid")
  modify (·.register uid r.peerId)
  return uid

/-- Change the peer id of a client. -/
def updateRegisteredPeerId (r : FullId) : Handler ClientId := do
  let selfId ← okOr r.selfId (invalidArgument "self id not provided")
  let peerId ← okOr r.peerId (invalidArgument "peer id not provided")
  modify (·.register selfId (some peerId))
  return selfId

/-- The first client with this peer id in the order of iteration. A client without a peer id that
comes before it makes `unwrap` panic. -/
def getClientId (peer : PeerId) : List (Σ _ : ClientId, Option PeerId) → Except Failure ClientId
  | []                             => .error (.status .notFound "No client registered for that peer")
  | ⟨_, none⟩ :: _                 => .error .panic
  | ⟨clientId, some saved⟩ :: rest =>
    if saved = peer then .ok clientId else getClientId peer rest

/-- The info hashes of all files, in the order of iteration. -/
def getAllFiles (order : List (Σ _ : FileHash, InfoHash)) : List InfoHash := order.map (·.2)

/-- Withdraw a file of a client. After its last seeder the file is removed. -/
def deleteFile (req : FileDelete) : Handler Unit := do
  let selfId ← okOr req.id (invalidArgument "missing self id")
  let fileHash ← okOr req.hash (invalidArgument "missing file hash")
  if fileHash ∈ (← get).seederList then
    modify (·.retainOthers fileHash selfId)
    if (← get).seeders fileHash = [] then
      modify (·.removeSeeders fileHash)
      modify (·.untrackFile fileHash)

/-- Remove the sender under a peer id, when there is one. -/
def dropSender (m : AList fun _ : PeerId => SenderId) (peerId : PeerId) :
    AList fun _ : PeerId => SenderId :=
  if peerId ∈ m then m.erase peerId else m

/-- Drop the senders under the peer id of a client. -/
def dropSenders (s : ConnectionService) : Option PeerId → ConnectionService
  | some peerId =>
    { s with
      seedNotifier := dropSender s.seedNotifier peerId
      certSender := dropSender s.certSender peerId
      initHolePunch := dropSender s.initHolePunch peerId }
  | none => s

/-- One entry of the walk of `delist_client`. The entry of a file without seeders stays. -/
def delistEntry (clientId : ClientId) (s : ConnectionService) (fileHash : FileHash) :
    ConnectionService :=
  let s := s.retainOthers fileHash clientId
  if s.seeders fileHash = [] then s.untrackFile fileHash else s

/-- Remove a client from the registry and from all files. -/
def delistClient (clientId : ClientId) : Handler Unit := do
  if let some entry := (← get).clientRegistry.lookup clientId then
    modify (·.unregister clientId)
    modify (·.dropSenders entry)
    modify fun s => s.seederList.keys.foldl (delistEntry clientId) s

end ConnectionService

/-! ### Sequences of requests -/

/-- A request, with the ids that are drawn and the order of iteration. -/
inductive ServerRequest where
  | getFilePeerList (infoHash : FileHash)
  | advertise (r : FileMessage)
  | registerClient (r : ClientRegistry) (uuids : List String)
  | updateRegisteredPeerId (r : FullId)
  | getClientId (peer : PeerId) (order : List (Σ _ : ClientId, Option PeerId))
  | getAllFiles (order : List (Σ _ : FileHash, InfoHash))
  | deleteFile (req : FileDelete)
  | delistClient (clientId : ClientId)

inductive ServerReply where
  | clientId (clientId : ClientId)
  | peerList (list : List PeerId)
  | fileList (infoHashes : List InfoHash)
  | empty
  deriving DecidableEq

namespace ConnectionService

/-- Run a handler to its end. -/
def run {α : Type} (s : ConnectionService) (x : Handler α) : Except Failure α × ConnectionService :=
  ExceptT.run x s

/-- Handle a request. An order that is not one of the map's is no request, and `register_client`
does not return before an id is found. -/
def handle (s : ConnectionService) :
    ServerRequest → Option (Except Failure ServerReply × ConnectionService)
  | .getFilePeerList infoHash   => some (.ok (.peerList (s.getFilePeerList infoHash)), s)
  | .advertise r                => some (s.run (.clientId <$> advertise r))
  | .registerClient r uuids     =>
    (s.drawUid uuids).map fun uid => s.run (.clientId <$> registerClient uid r)
  | .updateRegisteredPeerId r   => some (s.run (.clientId <$> updateRegisteredPeerId r))
  | .getClientId peer order     =>
    if order.Perm s.clientRegistry.entries then
      some (.clientId <$> getClientId peer order, s)
    else none
  | .getAllFiles order          =>
    if order.Perm s.fileTracker.entries then some (.ok (.fileList (getAllFiles order)), s)
    else none
  | .deleteFile req             => some (s.run ((fun _ => .empty) <$> deleteFile req))
  | .delistClient clientId      => some (s.run ((fun _ => .empty) <$> delistClient clientId))

/-- The service after a request. -/
def step (s : ConnectionService) (r : ServerRequest) : Option ConnectionService :=
  (s.handle r).map (·.2)

end ConnectionService

end BearTorrent
