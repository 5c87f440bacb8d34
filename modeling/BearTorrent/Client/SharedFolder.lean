import BearTorrent.Client.FileCalls
import BearTorrent.Client.TurnFallback

/-!
# What serving peers does to the shared folder

A request is served through `get_file`, which creates the file that it does not find. The map of
the shared files is filled once and keeps the files that are deleted later.
-/

namespace BearTorrent

open FileSystem Effects LexicalPath

/-- A request of a peer: the bytes of a stream that `send_data` accepts, or a packet of the session
that `start_seeding` reads. -/
inductive PeerRequest where
  | stream (bytes : Bytes)
  | packet (sessionId : String) (pkt : TurnPacket)

namespace PeerRequest

/-- Handle a request. The reply goes to the peer. -/
def serve (env : Env) (fileMap : FileMap) : PeerRequest → DiskM Unit
  | .stream bytes         => do let _ ← sendData env fileMap bytes
  | .packet sessionId pkt => do let _ ← seedRound env fileMap sessionId pkt

/-- The shared file that a request asks for. -/
def asksFor (fileMap : FileMap) : PeerRequest → Option InfoHash
  | .stream bytes =>
    if bytes.length < 41 then none
    else match Message.decode (bytes.take 41) with
      | .ok (some (.request _ _ _ _ hash)) => fileMap.lookup hash
      | _                                  => none
  | .packet _ pkt =>
    match pkt.body with
    | some (.request hash _) => (Digest.ofBytes? hash).bind fileMap.lookup
    | _                      => none

end PeerRequest

/-- The disk after the requests, each of which starts when the one before it has ended. -/
def Disk.served (env : Env) (fileMap : FileMap) (d : Disk) (requests : List PeerRequest) : Disk :=
  requests.foldl (fun d request => (runFrom (request.serve env fileMap) d).2.1) d

/-- A file in `resources/files`. -/
def Shared (cwd loc : Location) : Prop := Within (filesFolder cwd) loc ∧ loc ≠ filesFolder cwd

instance (cwd loc : Location) : Decidable (Shared cwd loc) := inferInstanceAs (Decidable (_ ∧ _))

/-- The files in `resources/files` are the same on both disks, and have the same contents. -/
def SameFolder (d d' : Disk) : Prop := ∀ loc, Shared d.cwd loc → d'.files loc = d.files loc

/-- The file of the info hash exists, or is none of `resources/files`. -/
def Present (d : Disk) (h : InfoHash) : Prop :=
  Shared d.cwd (locate d.cwd h.name .file) → (d.slot h.name .file).isSome = true

/-! ### One request -/

section Serve

variable (env : Env) (fileMap : FileMap) {d : Disk}

/-- The effects of serving: the file that is asked for is looked up. -/
def Disk.serveEffects (d : Disk) : Option InfoHash → List Effect
  | some h => d.touch h.name .file
  | none   => []

lemma performs_attempt {α : Type} {x : DiskM α} {r : Except Fault α} {es : List Effect}
    (hx : Performs x d r es) : ∃ r', Performs (attempt x) d r' es := by
  rw [attempt, map_eq_pure_bind]
  cases r with
  | ok a =>
    have hsome : Performs (x >>= fun a => pure (some a)) d (.ok (some a)) es :=
      hx.bind_nil (.pure _)
    exact ⟨_, hsome.tryCatch⟩
  | error e =>
    have hfail : Performs (x >>= fun a => pure (some a)) d (.error e) es := hx.bind_error
    cases e with
    | err message => exact ⟨.ok none, hfail.tryCatch_error (.pure _)⟩
    | panic => exact ⟨.error .panic, hfail.tryCatch_error (.throw _)⟩

lemma performs_answer (seeder index begin length : UInt32) (hash : Digest) :
    ∃ r, Performs (answer env fileMap seeder index begin length hash : DiskM Message) d r
      (d.serveEffects (fileMap.lookup hash)) := by
  rw [answer]
  cases fileMap.lookup hash with
  | none => exact ⟨_, .pure _⟩
  | some h =>
    refine Performs.exists_bind (performs_attempt (performs_readPieceFromFile env h d index)) ?_
    rintro (_ | piece)
    · exact ⟨_, .pure _⟩
    · exact ⟨_, .pure _⟩

lemma performs_sendData (stream : Bytes) :
    ∃ r, Performs (sendData env fileMap stream : DiskM Bytes) d r
      (d.serveEffects ((PeerRequest.stream stream).asksFor fileMap)) := by
  rw [sendData, PeerRequest.asksFor]
  split_ifs with hshort
  · exact ⟨_, .bind_error (.throw _)⟩
  · cases hdecode : Message.decode (stream.take 41) with
    | error e =>
      simp only [hdecode]
      exact ⟨_, .bind_error (.ofExcept _)⟩
    | ok msg =>
      simp only [hdecode]
      have hread : Performs (MonadExcept.ofExcept (.ok msg) : DiskM (Option Message)) d
          (.ok msg) [] := .ofExcept _
      have hnone : ∃ r, Performs (throw (.err "failed to decode request") : DiskM Bytes) d r [] :=
        ⟨_, .throw _⟩
      obtain _ | ⟨seeder, index, begin, length, hash⟩ | _ | _ := msg
      · obtain ⟨r, hr⟩ := hnone
        exact ⟨r, hread.bind hr⟩
      · have hreply := performs_answer env fileMap (d := d) seeder index begin length hash
        obtain ⟨r, hr⟩ := Performs.exists_bind hreply
          (f := fun msg => MonadExcept.ofExcept (msg.encode env)) fun msg => ⟨_, .ofExcept _⟩
        exact ⟨r, hread.bind hr⟩
      · obtain ⟨r, hr⟩ := hnone
        exact ⟨r, hread.bind hr⟩
      · obtain ⟨r, hr⟩ := hnone
        exact ⟨r, hread.bind hr⟩

lemma performs_seedRound (sessionId : String) (pkt : TurnPacket) :
    ∃ r, Performs (seedRound env fileMap sessionId pkt : DiskM SeedRound) d r
      (d.serveEffects ((PeerRequest.packet sessionId pkt).asksFor fileMap)) := by
  rw [seedRound, PeerRequest.asksFor]
  rcases pkt.body with _ | ⟨payload, index⟩ | ⟨hash, index⟩
  · exact ⟨_, .pure _⟩
  · exact ⟨_, .pure _⟩
  · simp only
    cases Digest.ofBytes? hash with
    | none => exact ⟨_, .throw _⟩
    | some hash =>
      simp only [Option.bind_some]
      cases fileMap.lookup hash with
      | none => exact ⟨_, .pure _⟩
      | some h =>
        refine Performs.exists_bind
          (performs_attempt (performs_readPieceFromFile env h d index)) ?_
        rintro (_ | piece)
        · exact ⟨_, .pure _⟩
        · exact ⟨_, .pure _⟩

/-- Handling a request looks up the file that it asks for. -/
lemma performs_serve (request : PeerRequest) :
    ∃ r, Performs (request.serve env fileMap) d r (d.serveEffects (request.asksFor fileMap)) := by
  cases request with
  | stream bytes =>
    exact Performs.exists_bind (performs_sendData env fileMap bytes) fun _ => ⟨_, .pure _⟩
  | packet sessionId pkt =>
    exact Performs.exists_bind (performs_seedRound env fileMap sessionId pkt)
      fun _ => ⟨_, .pure _⟩

/-- The disk after a look-up. -/
lemma files_touch (name : String) (s : Slot) (loc : Location) :
    (after (d.touch name s) d).files loc
      = if d.files loc = none ∧ loc = locate d.cwd name s then some [] else d.files loc := by
  by_cases hloc : loc = locate d.cwd name s
  · subst hloc
    have hslot := slot_touch d name s s
    rw [if_pos rfl, Disk.slot, Disk.content, cwd_after] at hslot
    rw [locate, hslot, Disk.slot, Disk.content]
    cases d.files (resolve d.cwd (s.path name)) with
    | none => exact (if_pos ⟨rfl, rfl⟩).symm
    | some content => exact (if_neg fun h => by cases h.1).symm
  · rw [if_neg fun h => hloc h.2]
    refine files_after d fun e he p hp => ?_
    obtain ⟨-, rfl⟩ := (mem_touch d name s).mp he
    obtain rfl := List.mem_singleton.mp hp
    exact hloc

/-! ### Sequences of requests -/

variable {env fileMap}

lemma served_cons (request : PeerRequest) (requests : List PeerRequest) :
    d.served env fileMap (request :: requests)
      = (after (d.serveEffects (request.asksFor fileMap)) d).served env fileMap requests := by
  obtain ⟨r, hr⟩ := performs_serve env fileMap (d := d) request
  rw [Disk.served, List.foldl_cons, hr.runFrom_eq]
  rfl

/-- A file that exists stays as it is. -/
lemma files_served_of_some {requests : List PeerRequest} {loc : Location} {content : Bytes}
    (hloc : d.files loc = some content) :
    (d.served env fileMap requests).files loc = some content := by
  induction requests generalizing d with
  | nil => exact hloc
  | cons request requests ih =>
    rw [served_cons]
    apply ih
    cases request.asksFor fileMap with
    | none => exact hloc
    | some h =>
      rw [Disk.serveEffects, files_touch, if_neg, hloc]
      rintro ⟨hnone, -⟩
      cases hnone.symm.trans hloc

/-- A file that does not exist is created when it is asked for. -/
lemma files_served_of_none {requests : List PeerRequest} {loc : Location}
    (hloc : d.files loc = none) :
    (d.served env fileMap requests).files loc = none ↔
      ∀ request ∈ requests, ∀ h, request.asksFor fileMap = some h →
        loc ≠ locate d.cwd h.name .file := by
  induction requests generalizing d with
  | nil => exact iff_of_true hloc (by simp)
  | cons request requests ih =>
    rw [served_cons, List.forall_mem_cons]
    cases hasks : request.asksFor fileMap with
    | none =>
      rw [Disk.serveEffects, after_nil, ih hloc]
      simp
    | some h =>
      have htouch := files_touch (d := d) h.name .file loc
      by_cases hfile : loc = locate d.cwd h.name .file
      · rw [if_pos ⟨hloc, hfile⟩] at htouch
        refine iff_of_false ?_ fun hall => hall.1 h rfl hfile
        rw [Disk.serveEffects, files_served_of_some htouch]
        simp
      · rw [if_neg fun h' => hfile h'.2, hloc] at htouch
        rw [Disk.serveEffects, ih htouch, cwd_after]
        refine (and_iff_right ?_).symm
        rintro h' heq
        obtain rfl := Option.some.inj heq
        exact hfile

end Serve

def sharedEnv : Env := ⟨fun _ => Digest.zero, true⟩

/-- A shared file of one byte. -/
def sharedHash : InfoHash := ⟨"x", 1, 65536, [⟨Digest.zero.val⟩]⟩

def sharedMap : FileMap := AList.insert Digest.zero sharedHash ∅

/-- The folder that the client runs in, with the shared file. -/
def sharedDisk : Disk where
  cwd := ["client".toList]
  files loc := if loc = locate ["client".toList] "x" .file then some [97] else none

/-- A request for the first piece of the shared file. -/
def sharedRequest : PeerRequest := .packet "ab" ⟨"ab", some (.request Digest.zero.val 0)⟩

end BearTorrent
