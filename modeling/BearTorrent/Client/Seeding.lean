import BearTorrent.Server.Rendezvous

/-!
# The seeding loop

One client's seeding loop, its other calls, and the server, taking turns. In every round the loop
registers a new connection, advertises the files of `file_hashes` one by one, and waits for the
reply of `seed`. Nothing changes `file_hashes` after the client has started. What other clients do
is any step of the server.
-/

namespace BearTorrent

open Function Transition

/-! ### The client -/

/-- A client. The keys of `file_hashes` are the hashes of its files. -/
structure TorrentClient where
  uid : ClientId
  fileHashes : AList fun _ : Digest => InfoHash

/-- Where the seeding loop stands. -/
inductive SeedingState where
  /-- about to register a new connection -/
  | registering
  /-- about to read `file_hashes` -/
  | registered (p : PeerId)
  /-- about to advertise the rest of its files, or to seed when there is none left -/
  | advertising (p : PeerId) (rest : List InfoHash)
  /-- waiting for the reply of `advertise` -/
  | awaiting (p : PeerId) (i : RequestId) (rest : List InfoHash)
  /-- waiting for the reply of `seed` -/
  | seeding (p : PeerId) (i : ℕ)
  | ended

/-- A call of the client's `delete_file`, and whether it has returned `Ok`. -/
structure DeleteCall where
  infoHash : InfoHash
  returned : Bool

/-- The server, and the calls of one client. -/
structure Seeding where
  server : Rendezvous
  loop : SeedingState
  deletes : RequestId → Option DeleteCall

/-- The hash by which the server knows a file. -/
def InfoHash.fileHash (env : Env) (infoHash : InfoHash) : FileHash :=
  ⟨(infoHash.getHashedInfoHash env).val⟩

namespace TorrentClient

variable (env : Env) (client : TorrentClient)

/-- The request of `advertise`. -/
def advertise (infoHash : InfoHash) : TrackerRequest :=
  .advertise ⟨some client.uid, some (infoHash.fileHash env), some infoHash⟩

/-- The request of `delete_file`. -/
def deleteFile (infoHash : InfoHash) : TrackerRequest :=
  .deleteFile ⟨some client.uid, some (infoHash.fileHash env)⟩

end TorrentClient

namespace Seeding

variable (env : Env) (shards : Shards) (client : TorrentClient)

/-- The maps of the server. -/
def service (s : Seeding) : ConnectionService := s.server.tracker.service

/-- The tracker's requests. -/
def requests (s : Seeding) : RequestId → Option TrackerState := s.server.tracker.requests

/-- A client that has registered without a peer id, and does not seed yet. -/
def init : Seeding where
  server := Rendezvous.init.setService (ConnectionService.default.register client.uid none)
  loop := .registering
  deletes _ := none

/-- `register_new_connection`: a peer id is registered for the client. -/
def registerNewConnection (s : Seeding) (p : PeerId) : Seeding :=
  { s with server := s.server.setService (s.service.register client.uid (some p)) }

inductive Action where
  /-- the loop registers its new connection -/
  | register (p : PeerId)
  /-- `advertise_all` reads `file_hashes`, in an order that is not determined -/
  | advertiseAll (order : List (Σ _ : Digest, InfoHash))
  /-- the loop sends its next advertise request -/
  | advertise (i : RequestId)
  | advertised
  | seed (i : ℕ)
  | seeded
  /-- the loop gets an error: `seed` is called again in the next round, the others end the loop -/
  | fail
  /-- the loop is told to close down -/
  | closeDown
  /-- `file_request` registers a connection -/
  | request (p : PeerId)
  /-- `delete_file` sends its request -/
  | delete (i : RequestId) (infoHash : InfoHash)
  /-- `delete_file` has its reply, removes the files and returns `Ok` -/
  | deleted (i : RequestId)
  /-- a step of the server -/
  | server (a : Rendezvous.Action)

/-- One step. -/
def step (s : Seeding) : Action → Option Seeding
  | .register p =>
    match s.loop with
    | .registering => some { s.registerNewConnection client p with loop := .registered p }
    | _            => none
  | .advertiseAll order =>
    match s.loop with
    | .registered p =>
      if order.Perm client.fileHashes.entries then
        some { s with loop := .advertising p (order.map (·.2)) }
      else none
    | _ => none
  | .advertise i =>
    match s.loop with
    | .advertising p (infoHash :: rest) =>
      (s.server.step shards (.tracker (.call i (client.advertise env infoHash)))).map fun server =>
        { s with server, loop := .awaiting p i rest }
    | _ => none
  | .advertised =>
    match s.loop with
    | .awaiting p i rest =>
      match s.requests i with
      | some (.returned (.ok _))    => some { s with loop := .advertising p rest }
      | some (.returned (.error _)) => some { s with loop := .ended }
      | _                           => none
    | _ => none
  | .seed i =>
    match s.loop with
    | .advertising p [] =>
      (s.server.step shards (Rendezvous.seed i p)).map fun server =>
        { s with server, loop := .seeding p i }
    | _ => none
  | .seeded =>
    match s.loop with
    | .seeding _ i =>
      if ((s.server.seeds.listeners i).bind fun l => Rendezvous.seedReply l.state).isSome then
        some { s with loop := .registering }
      else none
    | _ => none
  | .fail =>
    match s.loop with
    | .seeding _ _ => some { s with loop := .registering }
    | .ended       => none
    | _            => some { s with loop := .ended }
  | .closeDown =>
    match s.loop with
    | .seeding _ _ => some { s with loop := .ended }
    | _            => none
  | .request p => some (s.registerNewConnection client p)
  | .delete i infoHash =>
    (s.server.step shards (.tracker (.call i (client.deleteFile env infoHash)))).map fun server =>
      { s with server, deletes := update s.deletes i (some ⟨infoHash, false⟩) }
  | .deleted i =>
    match s.deletes i, s.requests i with
    | some ⟨infoHash, false⟩, some (.returned (.ok _)) =>
      some { s with deletes := update s.deletes i (some ⟨infoHash, true⟩) }
    | _, _ => none
  | .server a => (s.server.step shards a).map fun server => { s with server }

end Seeding

/-! ### What a step can do -/

/-- The effects of the steps, with their guards. -/
inductive SeedingStep (env : Env) (shards : Shards) (client : TorrentClient) (s : Seeding) :
    Seeding.Action → Seeding → Prop
  | register {p : PeerId} (hloop : s.loop = .registering) :
      SeedingStep env shards client s (.register p)
        { s.registerNewConnection client p with loop := .registered p }
  | advertiseAll {p : PeerId} {order : List (Σ _ : Digest, InfoHash)}
      (hloop : s.loop = .registered p) (horder : order.Perm client.fileHashes.entries) :
      SeedingStep env shards client s (.advertiseAll order)
        { s with loop := .advertising p (order.map (·.2)) }
  | advertise {p : PeerId} {i : RequestId} {infoHash : InfoHash} {rest : List InfoHash}
      {server : Rendezvous} (hloop : s.loop = .advertising p (infoHash :: rest))
      (hserver : s.server.step shards (.tracker (.call i (client.advertise env infoHash)))
        = some server) :
      SeedingStep env shards client s (.advertise i)
        { s with server, loop := .awaiting p i rest }
  | advertised {p : PeerId} {i : RequestId} {rest : List InfoHash}
      (hloop : s.loop = .awaiting p i rest) :
      SeedingStep env shards client s .advertised { s with loop := .advertising p rest }
  | refused {p : PeerId} {i : RequestId} {rest : List InfoHash}
      (hloop : s.loop = .awaiting p i rest) :
      SeedingStep env shards client s .advertised { s with loop := .ended }
  | seed {p : PeerId} {i : ℕ} {server : Rendezvous} (hloop : s.loop = .advertising p [])
      (hserver : s.server.step shards (Rendezvous.seed i p) = some server) :
      SeedingStep env shards client s (.seed i) { s with server, loop := .seeding p i }
  | seeded {p : PeerId} {i : ℕ} (hloop : s.loop = .seeding p i) :
      SeedingStep env shards client s .seeded { s with loop := .registering }
  | retry {p : PeerId} {i : ℕ} (hloop : s.loop = .seeding p i) :
      SeedingStep env shards client s .fail { s with loop := .registering }
  | fail (hloop : ∀ p i, s.loop ≠ .seeding p i) :
      SeedingStep env shards client s .fail { s with loop := .ended }
  | closeDown {p : PeerId} {i : ℕ} (hloop : s.loop = .seeding p i) :
      SeedingStep env shards client s .closeDown { s with loop := .ended }
  | request {p : PeerId} :
      SeedingStep env shards client s (.request p) (s.registerNewConnection client p)
  | delete {i : RequestId} {infoHash : InfoHash} {server : Rendezvous}
      (hserver : s.server.step shards (.tracker (.call i (client.deleteFile env infoHash)))
        = some server) :
      SeedingStep env shards client s (.delete i infoHash)
        { s with server, deletes := update s.deletes i (some ⟨infoHash, false⟩) }
  | deleted {i : RequestId} {infoHash : InfoHash} {reply : ServerReply}
      (hdelete : s.deletes i = some ⟨infoHash, false⟩)
      (hreply : s.requests i = some (.returned (.ok reply))) :
      SeedingStep env shards client s (.deleted i)
        { s with deletes := update s.deletes i (some ⟨infoHash, true⟩) }
  | server {a : Rendezvous.Action} {server : Rendezvous}
      (hserver : s.server.step shards a = some server) :
      SeedingStep env shards client s (.server a) { s with server }

namespace Seeding

variable {env : Env} {shards : Shards} {client : TorrentClient} {s t : Seeding}

/-- All that a step can do. -/
lemma seedingStep_of_eq_some {a : Action} (h : s.step env shards client a = some t) :
    SeedingStep env shards client s a t := by
  cases a with
  | register p =>
    simp only [step] at h
    split at h
    · rename_i hloop
      cases h
      exact .register hloop
    · cases h
  | advertiseAll order =>
    simp only [step] at h
    split at h
    · rename_i p hloop
      split_ifs at h with horder
      cases h
      exact .advertiseAll hloop horder
    · cases h
  | advertise i =>
    simp only [step] at h
    split at h
    · rename_i p infoHash rest hloop
      obtain ⟨server, hserver, rfl⟩ := Option.map_eq_some_iff.mp h
      exact .advertise hloop hserver
    · cases h
  | advertised =>
    simp only [step] at h
    split at h
    · rename_i p i rest hloop
      split at h
      · cases h
        exact .advertised hloop
      · cases h
        exact .refused hloop
      · cases h
    · cases h
  | seed i =>
    simp only [step] at h
    split at h
    · rename_i p hloop
      obtain ⟨server, hserver, rfl⟩ := Option.map_eq_some_iff.mp h
      exact .seed hloop hserver
    · cases h
  | seeded =>
    simp only [step] at h
    split at h
    · rename_i p i hloop
      split_ifs at h
      cases h
      exact .seeded hloop
    · cases h
  | fail =>
    simp only [step] at h
    split at h
    · rename_i p i hloop
      cases h
      exact .retry hloop
    · cases h
    · rename_i hseeding _
      cases h
      exact .fail hseeding
  | closeDown =>
    simp only [step] at h
    split at h
    · rename_i p i hloop
      cases h
      exact .closeDown hloop
    · cases h
  | request p =>
    cases h
    exact .request
  | delete i infoHash =>
    obtain ⟨server, hserver, rfl⟩ := Option.map_eq_some_iff.mp h
    exact .delete hserver
  | deleted i =>
    simp only [step] at h
    split at h
    · rename_i infoHash reply hdelete hreply
      cases h
      exact .deleted hdelete hreply
    · cases h
  | server a =>
    obtain ⟨server, hserver, rfl⟩ := Option.map_eq_some_iff.mp h
    exact .server hserver

end Seeding

end BearTorrent
