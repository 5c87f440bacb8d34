import BearTorrent.Lib.Channel
import BearTorrent.Server.Basic
import Mathlib.Logic.Function.Basic

/-!
# The TURN service

The relay's sessions, the calls of `register` and the streams of `send`, taking turns. A step is
what a call does between two points where it may wait: the lock of the sessions, the barrier of a
session, the next packet of a stream, and room in a receiver's channel. The lock is handed out in
the order of asking. A stream keeps its read lock while it waits for room in a channel.
-/

namespace BearTorrent

open Function

/-! ### Messages -/

inductive TurnBody where
  | piece (payload : Bytes) (index : UInt32)
  | request (hash : Bytes) (index : UInt32)
  deriving DecidableEq

structure TurnPacket where
  sessionId : String
  body : Option TurnBody
  deriving DecidableEq

structure RegisterRequest where
  sessionId : String
  isSeeder : Bool

/-- The headers of a request that are readable as strings. -/
abbrev MetadataMap := String → Option String

inductive Role where
  | seeder
  | leecher
  deriving DecidableEq

/-- The number of a `register` call. It also stands for the call's channel. -/
abbrev RegisterId := ℕ

/-- The number of a `send` call. -/
abbrev StreamId := ℕ

/-- The capacity of a receiver's channel. -/
abbrev turnCapacity : ℕ := 128

/-! ### Sessions -/

/-- A barrier for two. The waiting calls are released when the second one has arrived. -/
structure Barrier where
  arrived : ℕ
  generation : ℕ
  deriving DecidableEq

structure Session where
  seeder : Option RegisterId
  leecher : Option RegisterId
  barrier : Barrier
  deriving DecidableEq

namespace Barrier

def new : Barrier := ⟨0, 0⟩

/-- Arrive at the barrier. -/
def arrive (b : Barrier) : Barrier :=
  if b.arrived + 1 = 2 then ⟨0, b.generation + 1⟩ else { b with arrived := b.arrived + 1 }

end Barrier

namespace Session

def new : Session := ⟨none, none, .new⟩

/-- Register a seeder with the session. -/
def addSeeder (session : Session) (tx : RegisterId) : Except Failure Session :=
  if session.seeder.isSome then
    .error (.status .resourceExhausted "Seeder already registered")
  else .ok { session with seeder := some tx }

/-- Register a leecher with the session. -/
def addLeecher (session : Session) (tx : RegisterId) : Except Failure Session :=
  if session.leecher.isSome then
    .error (.status .resourceExhausted "Leecher already registered")
  else .ok { session with leecher := some tx }

/-- Fill the slot of a role. -/
def add (session : Session) (tx : RegisterId) : Role → Except Failure Session
  | .seeder  => session.addSeeder tx
  | .leecher => session.addLeecher tx

/-- The slot of a role. -/
def slot (session : Session) : Role → Option RegisterId
  | .seeder  => session.seeder
  | .leecher => session.leecher

end Session

/-- The role whose receiver a packet is for. -/
def TurnPacket.receiver (pkt : TurnPacket) : Option Role :=
  match pkt.body with
  | some (.request _ _) => some .seeder
  | some (.piece _ _)   => some .leecher
  | none                => none

/-- The channel into which `forward` sends the packet, if there is one. -/
def Session.target (session : Session) (pkt : TurnPacket) : Option RegisterId :=
  pkt.receiver.bind session.slot

/-! ### Calls -/

inductive RegisterState where
  /-- waiting for the write lock -/
  | locking
  /-- the slot is filled and the lock released -/
  | filled
  /-- waiting at the barrier, since the given generation -/
  | atBarrier (generation : ℕ)
  /-- the receiver stream, or an error, is returned -/
  | returned (result : Except Failure Unit)
  deriving DecidableEq

/-- A `register` call and its channel. A cancelled call is closed and takes no more steps. The
packets put into the channel and those taken out of it are recorded for the proofs only. -/
structure RegisterCall where
  session : String
  role : Role
  state : RegisterState
  channel : Channel TurnPacket turnCapacity
  isOpen : Bool
  put : List TurnPacket
  taken : List TurnPacket

/-- Create the channel of a call. -/
def RegisterCall.new (req : RegisterRequest) : RegisterCall where
  session := req.sessionId
  role := if req.isSeeder then .seeder else .leecher
  state := .locking
  channel := .empty
  isOpen := true
  put := []
  taken := []

inductive SendState where
  /-- waiting for the next packet -/
  | reading
  /-- waiting for the read lock -/
  | locking (pkt : TurnPacket)
  /-- holding the read lock, waiting for room in the channel -/
  | forwarding (pkt : TurnPacket) (tx : RegisterId)
  | ended (result : Except Failure Unit)

/-- How a client's stream ends: regularly, or with an error that is logged as given. -/
inductive Closing where
  | done
  | failed (error : String)

/-- A `send` call. `session` is its session id, if the call was accepted. The packets submitted on
it and those it is done with are recorded for the proofs only. -/
structure SendCall where
  session : Option String
  state : SendState
  inbound : List TurnPacket
  closing : Option Closing
  submitted : List TurnPacket
  handled : List TurnPacket

/-- A call that starts in the given state. -/
def SendCall.new (session : Option String) (state : SendState) : SendCall :=
  ⟨session, state, [], none, [], []⟩

/-- The call is done with a packet. -/
def SendCall.finish (stream : SendCall) (pkt : TurnPacket) : SendCall :=
  { stream with state := .reading, handled := stream.handled ++ [pkt] }

/-- Who waits for the lock of the sessions. -/
inductive Waiter where
  | read (j : StreamId)
  | write (i : RegisterId)
  deriving DecidableEq

/-- The service, its calls, and the holders of and waiters for the lock of the sessions. -/
structure TurnService where
  sessions : String → Option Session
  registers : RegisterId → Option RegisterCall
  streams : StreamId → Option SendCall
  readers : List StreamId
  queue : List Waiter

/-- A value of the metadata. -/
def extractHeader (md : MetadataMap) (key : String) : Except Failure String :=
  match md key with
  | some value => .ok value
  | none       => .error (invalidArgument ("missing metadata `" ++ key ++ "`"))

/-- The session id of a `send` call. The role is required as well, but not used. -/
def sendSession (md : MetadataMap) : Except Failure String := do
  let sessionId ← extractHeader md "x-session-id"
  let _ ← extractHeader md "x-role"
  return sessionId

/-- The headers with which a party opens its stream. -/
def partyHeaders (id : String) (r : Role) : MetadataMap := fun key =>
  if key = "x-session-id" then some id
  else if key = "x-role" then
    match r with
    | .seeder  => some "seeder"
    | .leecher => some "leecher"
  else none

namespace TurnService

/-- The service as it starts. -/
def default : TurnService := ⟨fun _ => none, fun _ => none, fun _ => none, [], []⟩

/-- Replace a call. -/
def setRegister (s : TurnService) (i : RegisterId) (call : RegisterCall) : TurnService :=
  { s with registers := update s.registers i (some call) }

def setStream (s : TurnService) (j : StreamId) (stream : SendCall) : TurnService :=
  { s with streams := update s.streams j (some stream) }

/-! ### `register` -/

/-- Create the channel and ask for the write lock. -/
def register (s : TurnService) (i : RegisterId) (req : RegisterRequest) : Option TurnService :=
  match s.registers i with
  | some _ => none
  | none   =>
    let s := s.setRegister i (.new req)
    some { s with queue := s.queue ++ [.write i] }

/-- Fill the slot under the write lock. When it is taken, the call ends. -/
def fillSlot (s : TurnService) (i : RegisterId) (call : RegisterCall) : TurnService :=
  let session := (s.sessions call.session).getD .new
  match session.add i call.role with
  | .ok session  =>
    let s := s.setRegister i { call with state := .filled }
    { s with sessions := update s.sessions call.session (some session) }
  | .error error => s.setRegister i { call with state := .returned (.error error) }

/-- Arrive at the barrier of the session. -/
def arrive (s : TurnService) (i : RegisterId) : Option TurnService :=
  match s.registers i with
  | none      => none
  | some call =>
    match call.isOpen, call.state, s.sessions call.session with
    | true, .filled, some session =>
      let s := s.setRegister i { call with state := .atBarrier session.barrier.generation }
      let session := { session with barrier := session.barrier.arrive }
      some { s with sessions := update s.sessions call.session (some session) }
    | _, _, _ => none

/-- Leave the barrier and return the receiver stream. -/
def pass (s : TurnService) (i : RegisterId) : Option TurnService :=
  match s.registers i with
  | none      => none
  | some call =>
    match call.isOpen, call.state, s.sessions call.session with
    | true, .atBarrier generation, some session =>
      if generation < session.barrier.generation then
        some (s.setRegister i { call with state := .returned (.ok ()) })
      else none
    | _, _, _ => none

/-- The client takes a packet from its receiver stream. -/
def read (s : TurnService) (i : RegisterId) : Option TurnService :=
  match s.registers i with
  | none      => none
  | some call =>
    match call.isOpen, call.state, call.channel.recv? with
    | true, .returned (.ok _), some (pkt, channel) =>
      some (s.setRegister i { call with channel, taken := call.taken ++ [pkt] })
    | _, _, _ => none

/-- The call is cancelled, or its receiver stream dropped. -/
def dropReceiver (s : TurnService) (i : RegisterId) : Option TurnService :=
  (s.registers i).map fun call =>
    let s := s.setRegister i { call with isOpen := false }
    { s with queue := s.queue.erase (.write i) }

/-! ### `send` -/

/-- Open a stream with the given headers. -/
def openStream (s : TurnService) (j : StreamId) (md : MetadataMap) : Option TurnService :=
  match s.streams j with
  | some _ => none
  | none   =>
    match sendSession md with
    | .ok sessionId => some (s.setStream j (.new (some sessionId) .reading))
    | .error error  => some (s.setStream j (.new none (.ended (.error error))))

/-- The client submits a packet on an accepted stream that it has not closed. -/
def submit (s : TurnService) (j : StreamId) (pkt : TurnPacket) : Option TurnService :=
  match s.streams j with
  | none        => none
  | some stream =>
    if stream.session.isSome ∧ stream.closing.isNone then
      some (s.setStream j { stream with
        inbound := stream.inbound ++ [pkt]
        submitted := stream.submitted ++ [pkt] })
    else none

/-- The client closes its stream. -/
def close (s : TurnService) (j : StreamId) (closing : Closing) : Option TurnService :=
  match s.streams j with
  | none        => none
  | some stream =>
    if stream.closing.isNone then
      some (s.setStream j { stream with closing := some closing })
    else none

/-- The end of a `send` call whose stream has ended. -/
def sendResult : Closing → Except Failure Unit
  | .done         => .ok ()
  | .failed error =>
    .error (.status .internal ("error reading inbound TURN packet: " ++ error))

/-- Take the next packet of the stream and ask for the read lock, or end. -/
def next (s : TurnService) (j : StreamId) : Option TurnService :=
  match s.streams j with
  | none        => none
  | some stream =>
    match stream.state, stream.inbound, stream.closing with
    | .reading, pkt :: inbound, _ =>
      let s := s.setStream j { stream with state := .locking pkt, inbound }
      some { s with queue := s.queue ++ [.read j] }
    | .reading, [], some closing  =>
      some (s.setStream j { stream with state := .ended (sendResult closing) })
    | _, _, _                     => none

/-- Forward a packet under the read lock. Without a session or a receiver it is dropped. -/
def forward (s : TurnService) (j : StreamId) (stream : SendCall) (pkt : TurnPacket) :
    TurnService :=
  match (stream.session.bind s.sessions).bind (·.target pkt) with
  | some tx =>
    let s := s.setStream j { stream with state := .forwarding pkt tx }
    { s with readers := s.readers ++ [j] }
  | none => s.setStream j (stream.finish pkt)

/-- Put the packet into the channel when there is room, and release the read lock. Sending to a
dropped receiver fails, which is ignored. -/
def put (s : TurnService) (j : StreamId) : Option TurnService :=
  match s.streams j with
  | none        => none
  | some stream =>
    match stream.state with
    | .forwarding pkt tx =>
      match s.registers tx with
      | none      => none
      | some call =>
        let s := { s.setStream j (stream.finish pkt) with readers := s.readers.erase j }
        if call.isOpen then
          (call.channel.send? pkt).map fun channel =>
            s.setRegister tx { call with channel, put := call.put ++ [pkt] }
        else some s
    | _ => none

/-! ### The lock of the sessions -/

/-- The first waiter gets the lock. A writer has to wait until there are no readers. -/
def acquire (s : TurnService) : Option TurnService :=
  match s.queue with
  | [] => none
  | .read j :: queue =>
    match s.streams j with
    | none        => none
    | some stream =>
      match stream.state with
      | .locking pkt => some ({ s with queue }.forward j stream pkt)
      | _            => none
  | .write i :: queue =>
    match s.registers i with
    | none      => none
    | some call =>
      match call.state with
      | .locking =>
        if s.readers = [] then some ({ s with queue }.fillSlot i call) else none
      | _        => none

inductive Action where
  | register (i : RegisterId) (req : RegisterRequest)
  | acquire
  | arrive (i : RegisterId)
  | pass (i : RegisterId)
  | read (i : RegisterId)
  | dropReceiver (i : RegisterId)
  | openStream (j : StreamId) (md : MetadataMap)
  | submit (j : StreamId) (pkt : TurnPacket)
  | close (j : StreamId) (closing : Closing)
  | next (j : StreamId)
  | put (j : StreamId)

/-- One step of the relay. -/
def step (s : TurnService) : Action → Option TurnService
  | .register i req  => s.register i req
  | .acquire         => s.acquire
  | .arrive i        => s.arrive i
  | .pass i          => s.pass i
  | .read i          => s.read i
  | .dropReceiver i  => s.dropReceiver i
  | .openStream j md => s.openStream j md
  | .submit j pkt    => s.submit j pkt
  | .close j closing => s.close j closing
  | .next j          => s.next j
  | .put j           => s.put j

end TurnService

end BearTorrent
