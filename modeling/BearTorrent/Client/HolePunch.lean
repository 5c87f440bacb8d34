import BearTorrent.Client.Basic
import BearTorrent.Lib.SharedValue
import BearTorrent.Lib.Transition

/-!
# Hole punching

`hole_punch` shares its socket between a task that sends the punch string and one that reads it,
and awaits both. A step is what a party does between two points where another one may run. A task
may also end with a panic or be cancelled by the runtime; its handle on the socket is then dropped.
-/

namespace BearTorrent

open Transition

/-- The places that hold a handle on the socket. -/
inductive SocketOwner where
  | caller
  | sendTask
  | readTask
  deriving DecidableEq

structure SocketAddr where
  ip : UInt32
  port : UInt16
  deriving DecidableEq

/-- `b"HELPFUL_SERF"` -/
def punchString : Bytes := [72, 69, 76, 80, 70, 85, 76, 95, 83, 69, 82, 70]

example : punchString = "HELPFUL_SERF".toList.map fun c => UInt8.ofNat c.toNat := by decide +kernel

/-- The length of `recv_buf`. -/
abbrev recvCapacity : ℕ := 1024

/-- The number of rounds of the send task. -/
abbrev sendRounds : ℕ := 200

/-- The time of a `timeout` is over. -/
inductive Elapsed where
  | elapsed
  deriving DecidableEq

/-- Why a task that is awaited has no result. -/
inductive JoinError where
  | panic
  | cancelled
  deriving DecidableEq

/-- The errors of `hole_punch`. -/
inductive HolePunchError where
  | message (text : String)
  | joinError (e : JoinError)
  | timedOut (text : String)
  deriving DecidableEq

/-- What happens on the socket. -/
inductive SocketCall where
  /-- `send_to` is called -/
  | sendTo (buf : Bytes) (target : SocketAddr)
  /-- `recv_from` returns a datagram -/
  | recvFrom (datagram : Bytes) (src : SocketAddr)
  deriving DecidableEq

/-- Where the send task is, in its round `i`. It returns the socket. -/
inductive SendTaskAt where
  | sending (i : ℕ)
  /-- `send_to` is called, and has not returned -/
  | awaitingSend (i : ℕ)
  | checking (i : ℕ)
  | sleeping (i : ℕ)
  | finished (result : Except JoinError (Except String Unit))
  deriving DecidableEq

/-- Where the read task is. -/
inductive ReadTaskAt where
  | receiving (buf : Bytes)
  /-- the punch string is received -/
  | matched
  /-- the token is cancelled, and the socket not yet dropped -/
  | cancelled
  /-- the timeout has returned -/
  | returning (result : Except Elapsed (Except String Unit))
  | finished (result : Except JoinError (Except Elapsed (Except String Unit)))
  deriving DecidableEq

/-- Where `hole_punch` itself is. -/
inductive CallerAt (S : Type) where
  | joiningSend
  | joiningRead
  | unwrapping
  | returned (result : Except HolePunchError S)
  | panicked
  deriving DecidableEq

/-- The state of a call. What happened on the socket is recorded for the proofs only. -/
structure HolePunchCall (S : Type) where
  socket : SharedValue S SocketOwner
  cancelled : Bool
  sendTask : SendTaskAt
  readTask : ReadTaskAt
  caller : CallerAt S
  calls : List SocketCall

/-- A datagram is written into a buffer: the number of bytes, and the buffer after it. What does not
fit is lost. -/
def recvInto (buf datagram : Bytes) : ℕ × Bytes :=
  let n := min datagram.length buf.length
  (n, datagram.take n ++ buf.drop n)

namespace HolePunchCall

variable {S : Type}

/-- Both tasks are spawned. -/
def init (sock : S) : HolePunchCall S where
  socket := ((SharedValue.new sock .caller).clone .readTask).move .caller .sendTask
  cancelled := false
  sendTask := .sending 0
  readTask := .receiving (List.replicate recvCapacity 0)
  caller := .joiningSend
  calls := []

inductive Action where
  | sendTask
  /-- the awaited `send_to` returns -/
  | sent (result : Except String ℕ)
  | readTask
  /-- the awaited `recv_from` returns -/
  | received (result : Except String (Bytes × SocketAddr))
  | timeout
  | abortSendTask (e : JoinError)
  | abortReadTask (e : JoinError)
  | caller

/-- The next step of the send task. -/
def stepSendTask (peerAddr : SocketAddr) (s : HolePunchCall S) : Option (HolePunchCall S) :=
  match s.sendTask with
  | .sending i      =>
    some { s with
      calls := s.calls ++ [.sendTo punchString peerAddr]
      sendTask := .awaitingSend i }
  | .awaitingSend _ => none
  | .checking i     =>
    if s.cancelled then some { s with sendTask := .finished (.ok (.ok ())) }
    else some { s with sendTask := .sleeping i }
  | .sleeping i     =>
    if i + 1 < sendRounds then some { s with sendTask := .sending (i + 1) }
    else some { s with
      socket := s.socket.release .sendTask
      sendTask := .finished (.ok (.error "send task finished without succeeding")) }
  | .finished _     => none

/-- An error of `send_to` is printed only. -/
def sent (s : HolePunchCall S) (_ : Except String ℕ) : Option (HolePunchCall S) :=
  match s.sendTask with
  | .awaitingSend i => some { s with sendTask := .checking i }
  | _               => none

/-- The next step of the read task. -/
def stepReadTask (s : HolePunchCall S) : Option (HolePunchCall S) :=
  match s.readTask with
  | .receiving _      => none
  | .matched          => some { s with cancelled := true, readTask := .cancelled }
  | .cancelled        =>
    some { s with socket := s.socket.release .readTask, readTask := .returning (.ok (.ok ())) }
  | .returning result => some { s with readTask := .finished (.ok result) }
  | .finished _       => none

/-- What the read task does with a datagram, or with an error. -/
def received (s : HolePunchCall S) (result : Except String (Bytes × SocketAddr)) :
    Option (HolePunchCall S) :=
  match s.readTask with
  | .receiving buf =>
    match result with
    | .ok (datagram, src) =>
      let (n, buf) := recvInto buf datagram
      some { s with
        calls := s.calls ++ [.recvFrom datagram src]
        readTask := if buf.take n = punchString then .matched else .receiving buf }
    | .error e            =>
      some { s with
        socket := s.socket.release .readTask
        readTask := .returning (.ok (.error e)) }
  | _              => none

/-- The timeout drops what it waits for, and the socket with it. -/
def timeout (s : HolePunchCall S) : Option (HolePunchCall S) :=
  match s.readTask with
  | .receiving _ =>
    some { s with
      socket := s.socket.release .readTask
      readTask := .returning (.error .elapsed) }
  | _            => none

/-- The send task ends early. -/
def abortSendTask (s : HolePunchCall S) (e : JoinError) : Option (HolePunchCall S) :=
  match s.sendTask with
  | .finished _ => none
  | _           =>
    some { s with socket := s.socket.release .sendTask, sendTask := .finished (.error e) }

/-- The read task ends early. -/
def abortReadTask (s : HolePunchCall S) (e : JoinError) : Option (HolePunchCall S) :=
  match s.readTask with
  | .finished _ => none
  | _           =>
    some { s with socket := s.socket.release .readTask, readTask := .finished (.error e) }

/-- The next step of `hole_punch` itself. -/
def stepCaller (s : HolePunchCall S) : Option (HolePunchCall S) :=
  match s.caller with
  | .joiningSend =>
    match s.sendTask with
    | .finished (.ok (.ok ()))      =>
      some { s with socket := s.socket.move .sendTask .caller, caller := .joiningRead }
    | .finished (.ok (.error text)) => some { s with caller := .returned (.error (.message text)) }
    | .finished (.error e)          => some { s with caller := .returned (.error (.joinError e)) }
    | _                             => none
  | .joiningRead =>
    match s.readTask with
    -- An error of `recv_from` comes as a success of the timeout.
    | .finished (.ok (.ok _))    => some { s with caller := .unwrapping }
    | .finished (.ok (.error _)) =>
      some { s with
        socket := s.socket.release .caller
        caller := .returned (.error (.timedOut "hole punch timed out")) }
    | .finished (.error e)       =>
      some { s with
        socket := s.socket.release .caller
        caller := .returned (.error (.joinError e)) }
    | _                          => none
  | .unwrapping  =>
    match s.socket.tryUnwrap with
    | .ok sock =>
      some { s with socket := s.socket.release .caller, caller := .returned (.ok sock) }
    | .error _ => some { s with caller := .panicked }
  | .returned _  => none
  | .panicked    => none

def step (peerAddr : SocketAddr) (s : HolePunchCall S) : Action → Option (HolePunchCall S)
  | .sendTask        => s.stepSendTask peerAddr
  | .sent result     => s.sent result
  | .readTask        => s.stepReadTask
  | .received result => s.received result
  | .timeout         => s.timeout
  | .abortSendTask e => s.abortSendTask e
  | .abortReadTask e => s.abortReadTask e
  | .caller          => s.stepCaller

/-! ### The rules -/

variable {peerAddr : SocketAddr} {sock : S} {s t : HolePunchCall S} {a : Action}
  {tr : List (HolePunchCall S × Action)}

/-- The steps of a call, one rule for each branch. -/
inductive Rule (peerAddr : SocketAddr) (s : HolePunchCall S) :
    Action → HolePunchCall S → Prop
  | send {i : ℕ} (hsend : s.sendTask = .sending i) : Rule peerAddr s .sendTask
      { s with calls := s.calls ++ [.sendTo punchString peerAddr], sendTask := .awaitingSend i }
  | sent {i : ℕ} {r : Except String ℕ} (hsend : s.sendTask = .awaitingSend i) :
      Rule peerAddr s (.sent r) { s with sendTask := .checking i }
  | stop {i : ℕ} (hsend : s.sendTask = .checking i) (htoken : s.cancelled = true) :
      Rule peerAddr s .sendTask { s with sendTask := .finished (.ok (.ok ())) }
  | goOn {i : ℕ} (hsend : s.sendTask = .checking i) (htoken : s.cancelled = false) :
      Rule peerAddr s .sendTask { s with sendTask := .sleeping i }
  | wake {i : ℕ} (hsend : s.sendTask = .sleeping i) :
      Rule peerAddr s .sendTask { s with sendTask := .sending (i + 1) }
  | giveUp {i : ℕ} {text : String} (hsend : s.sendTask = .sleeping i) :
      Rule peerAddr s .sendTask
        { s with socket := s.socket.release .sendTask, sendTask := .finished (.ok (.error text)) }
  | cancel (hread : s.readTask = .matched) :
      Rule peerAddr s .readTask { s with cancelled := true, readTask := .cancelled }
  | drop (hread : s.readTask = .cancelled) : Rule peerAddr s .readTask
      { s with socket := s.socket.release .readTask, readTask := .returning (.ok (.ok ())) }
  | finish {r : Except Elapsed (Except String Unit)} (hread : s.readTask = .returning r) :
      Rule peerAddr s .readTask { s with readTask := .finished (.ok r) }
  | receive {buf datagram : Bytes} {src : SocketAddr} (hread : s.readTask = .receiving buf) :
      Rule peerAddr s (.received (.ok (datagram, src))) { s with
        calls := s.calls ++ [.recvFrom datagram src]
        readTask := if (recvInto buf datagram).2.take (recvInto buf datagram).1 = punchString
          then .matched else .receiving (recvInto buf datagram).2 }
  | recvError {buf : Bytes} {e : String} (hread : s.readTask = .receiving buf) :
      Rule peerAddr s (.received (.error e)) { s with
        socket := s.socket.release .readTask, readTask := .returning (.ok (.error e)) }
  | elapse {buf : Bytes} (hread : s.readTask = .receiving buf) : Rule peerAddr s .timeout
      { s with socket := s.socket.release .readTask, readTask := .returning (.error .elapsed) }
  | abortSend {e : JoinError} (hsend : ∀ r, s.sendTask ≠ .finished r) :
      Rule peerAddr s (.abortSendTask e)
        { s with socket := s.socket.release .sendTask, sendTask := .finished (.error e) }
  | abortRead {e : JoinError} (hread : ∀ r, s.readTask ≠ .finished r) :
      Rule peerAddr s (.abortReadTask e)
        { s with socket := s.socket.release .readTask, readTask := .finished (.error e) }
  | joinSend (hcaller : s.caller = .joiningSend) (hsend : s.sendTask = .finished (.ok (.ok ()))) :
      Rule peerAddr s .caller
        { s with socket := s.socket.move .sendTask .caller, caller := .joiningRead }
  | sendFailed {r : Except JoinError (Except String Unit)} {e : HolePunchError}
      (hcaller : s.caller = .joiningSend) (hsend : s.sendTask = .finished r)
      (hr : r ≠ .ok (.ok ())) : Rule peerAddr s .caller { s with caller := .returned (.error e) }
  | joinRead {r : Except String Unit} (hcaller : s.caller = .joiningRead)
      (hread : s.readTask = .finished (.ok (.ok r))) :
      Rule peerAddr s .caller { s with caller := .unwrapping }
  | readFailed {e : HolePunchError} (hcaller : s.caller = .joiningRead) : Rule peerAddr s .caller
      { s with socket := s.socket.release .caller, caller := .returned (.error e) }
  | unwrap {sock : S} (hcaller : s.caller = .unwrapping) (hsock : s.socket.tryUnwrap = .ok sock) :
      Rule peerAddr s .caller
        { s with socket := s.socket.release .caller, caller := .returned (.ok sock) }
  | panic {c : SharedValue S SocketOwner} (hcaller : s.caller = .unwrapping)
      (hshared : s.socket.tryUnwrap = .error c) :
      Rule peerAddr s .caller { s with caller := .panicked }

lemma rule_of_step (h : step peerAddr s a = some t) : Rule peerAddr s a t := by
  cases a with
  | sendTask =>
    simp only [step, stepSendTask] at h
    split at h
    · cases h
      exact .send ‹_›
    · cases h
    · split_ifs at h with htoken <;> cases h
      · exact .stop ‹_› htoken
      · exact .goOn ‹_› (Bool.eq_false_iff.mpr htoken)
    · split_ifs at h <;> cases h
      · exact .wake ‹_›
      · exact .giveUp ‹_›
    · cases h
  | sent r =>
    simp only [step, sent] at h
    split at h <;> cases h
    exact .sent ‹_›
  | readTask =>
    simp only [step, stepReadTask] at h
    split at h <;> cases h
    · exact .cancel ‹_›
    · exact .drop ‹_›
    · exact .finish ‹_›
  | received r =>
    simp only [step, received] at h
    split at h
    · split at h <;> cases h
      · exact .receive ‹_›
      · exact .recvError ‹_›
    · cases h
  | timeout =>
    simp only [step, timeout] at h
    split at h <;> cases h
    exact .elapse ‹_›
  | abortSendTask e =>
    simp only [step, abortSendTask] at h
    split at h
    · cases h
    · cases h
      exact .abortSend ‹_›
  | abortReadTask e =>
    simp only [step, abortReadTask] at h
    split at h
    · cases h
    · cases h
      exact .abortRead ‹_›
  | caller =>
    simp only [step, stepCaller] at h
    split at h
    · split at h <;> cases h
      · exact .joinSend ‹_› ‹_›
      · exact .sendFailed ‹_› ‹_› (by simp)
      · exact .sendFailed ‹_› ‹_› (by simp)
    · split at h <;> cases h
      · exact .joinRead ‹_› ‹_›
      · exact .readFailed ‹_›
      · exact .readFailed ‹_›
    · split at h <;> cases h
      · exact .unwrap ‹_› ‹_›
      · exact .panic ‹_› ‹_›
    · cases h
    · cases h

/-! ### What the read task hears -/

lemma length_recvInto (buf datagram : Bytes) : (recvInto buf datagram).2.length = buf.length := by
  simp only [recvInto, List.length_append, List.length_take, List.length_drop]
  omega

/-- The bytes that are compared are those of the datagram, as far as they fit. -/
lemma take_recvInto (buf datagram : Bytes) :
    (recvInto buf datagram).2.take (recvInto buf datagram).1 = datagram.take buf.length := by
  have hlength : (datagram.take (min datagram.length buf.length)).length =
      min datagram.length buf.length := by simp
  rw [recvInto, List.take_append_of_le_length hlength.ge, List.take_of_length_le hlength.le,
    min_comm, ← List.take_eq_take_min]

/-- A longer datagram is not taken for the punch string. -/
lemma recvInto_eq_punchString_iff {buf datagram : Bytes} (hbuf : buf.length = recvCapacity) :
    (recvInto buf datagram).2.take (recvInto buf datagram).1 = punchString ↔
      datagram = punchString := by
  have hpunch : punchString.length < recvCapacity := by decide
  rw [take_recvInto, hbuf]
  constructor
  · intro h
    have hlength := congrArg List.length h
    rw [List.length_take] at hlength
    rwa [List.take_of_length_le (by omega)] at h
  · rintro rfl
    exact List.take_of_length_le hpunch.le

/-- The punch string was received. -/
def Heard (calls : List SocketCall) : Prop := ∃ src, .recvFrom punchString src ∈ calls

lemma heard_sendTo {calls : List SocketCall} {buf : Bytes} {target : SocketAddr} :
    Heard (calls ++ [.sendTo buf target]) ↔ Heard calls := by simp [Heard]

lemma heard_recvFrom {calls : List SocketCall} {datagram : Bytes} {src : SocketAddr} :
    Heard (calls ++ [.recvFrom datagram src]) ↔ Heard calls ∨ datagram = punchString := by
  simp only [Heard, List.mem_append, List.mem_singleton, SocketCall.recvFrom.injEq, exists_or]
  simp [eq_comm]

/-- The read task has cancelled the token, and if it has a result then its success. -/
def ReadTaskDone (x : ReadTaskAt) : Prop :=
  x = .cancelled ∨ x = .returning (.ok (.ok ())) ∨ x = .finished (.ok (.ok (.ok ()))) ∨
    ∃ e, x = .finished (.error e)

/-- Only the punch string makes the read task cancel the token. -/
structure Listening (x : ReadTaskAt) (token : Bool) (calls : List SocketCall) : Prop where
  buffer : ∀ buf, x = .receiving buf → buf.length = recvCapacity
  unheard : ∀ buf, x = .receiving buf → ¬ Heard calls
  matched : x = .matched → Heard calls
  cancelled : token = true → Heard calls ∧ ReadTaskDone x

namespace Listening

variable {x : ReadTaskAt} {token : Bool} {calls : List SocketCall} {buf : Bytes}

lemma not_cancelled (h : Listening x token calls)
    (hx : (∃ buf, x = .receiving buf) ∨ x = .matched) : token ≠ true := by
  intro htoken
  have hdone := (h.cancelled htoken).2
  rcases hx with ⟨buf, rfl⟩ | rfl <;> simp [ReadTaskDone] at hdone

lemma sendTo (h : Listening x token calls) {target : SocketAddr} :
    Listening x token (calls ++ [.sendTo buf target]) := by
  obtain ⟨hbuffer, hunheard, hmatched, hcancelled⟩ := h
  constructor
  · exact hbuffer
  · simpa only [heard_sendTo] using hunheard
  · simpa only [heard_sendTo] using hmatched
  · simpa only [heard_sendTo] using hcancelled

lemma recvFrom (h : Listening (.receiving buf) token calls) {datagram : Bytes} {src : SocketAddr} :
    Listening (if (recvInto buf datagram).2.take (recvInto buf datagram).1 = punchString
      then .matched else .receiving (recvInto buf datagram).2) token
      (calls ++ [.recvFrom datagram src]) := by
  have hbuf := h.buffer buf rfl
  have hunheard := h.unheard buf rfl
  have hmatch : _ ↔ datagram = punchString := recvInto_eq_punchString_iff hbuf
  split_ifs with hpunch
  · refine ⟨by simp, by simp, fun _ => heard_recvFrom.mpr (.inr (hmatch.mp hpunch)), ?_⟩
    exact fun htoken => absurd htoken (h.not_cancelled (.inl ⟨_, rfl⟩))
  · refine ⟨?_, ?_, by simp, fun htoken => absurd htoken (h.not_cancelled (.inl ⟨_, rfl⟩))⟩
    · intro buf' heq
      rw [← ReadTaskAt.receiving.inj heq, length_recvInto, hbuf]
    · intro _ _ hheard
      exact (heard_recvFrom.mp hheard).elim hunheard (mt hmatch.mpr hpunch)

/-- A result other than the success. -/
lemma fail (h : Listening (.receiving buf) token calls)
    {r : Except Elapsed (Except String Unit)} : Listening (.returning r) token calls :=
  ⟨by simp, by simp, by simp, fun htoken => absurd htoken (h.not_cancelled (.inl ⟨_, rfl⟩))⟩

lemma step (hs : Listening s.readTask s.cancelled s.calls) (h : Rule peerAddr s a t) :
    Listening t.readTask t.cancelled t.calls := by
  cases h with
  | send => exact hs.sendTo
  | cancel hread => exact ⟨by simp, by simp, by simp, fun _ => ⟨hs.matched hread, .inl rfl⟩⟩
  | drop hread =>
    exact ⟨by simp, by simp, by simp, fun htoken => ⟨(hs.cancelled htoken).1, .inr (.inl rfl)⟩⟩
  | finish hread =>
    refine ⟨by simp, by simp, by simp, fun htoken => ?_⟩
    obtain ⟨hheard, hdone⟩ := hs.cancelled htoken
    refine ⟨hheard, .inr (.inr (.inl ?_))⟩
    simpa [hread, ReadTaskDone] using hdone
  | receive hread => exact (hread ▸ hs : Listening (.receiving _) _ _).recvFrom
  | recvError hread => exact (hread ▸ hs : Listening (.receiving _) _ _).fail
  | elapse hread => exact (hread ▸ hs : Listening (.receiving _) _ _).fail
  | abortRead =>
    refine ⟨by simp, by simp, by simp, fun htoken => ⟨(hs.cancelled htoken).1, ?_⟩⟩
    exact .inr (.inr (.inr ⟨_, rfl⟩))
  | _ => exact hs

end Listening

lemma listening_init :
    Listening (init sock).readTask (init sock).cancelled (init sock).calls where
  buffer buf h := by
    cases h
    exact List.length_replicate
  unheard _ _ := by simp [Heard, init]
  matched h := by cases h
  cancelled h := by cases h

/-! ### The order of the joins -/

/-- The socket came back from the send task. -/
def PastSend (s : HolePunchCall S) : Prop :=
  match s.caller with
  | .joiningRead | .unwrapping | .returned (.ok _) | .panicked => True
  | .joiningSend | .returned (.error _)                        => False

/-- What has happened when the caller is where it is. -/
structure Ordered (s : HolePunchCall S) : Prop where
  joined : s.caller = .joiningSend ∨ ∃ r, s.sendTask = .finished r
  stopped : s.sendTask = .finished (.ok (.ok ())) → s.cancelled = true
  past : s.PastSend → s.sendTask = .finished (.ok (.ok ()))
  read : s.caller = .unwrapping → ∃ r, s.readTask = .finished (.ok (.ok r))

namespace Ordered

lemma of_joiningSend (hcaller : s.caller = .joiningSend)
    (hstopped : s.sendTask = .finished (.ok (.ok ())) → s.cancelled = true) : s.Ordered where
  joined := .inl hcaller
  stopped := hstopped
  past h := by simp [PastSend, hcaller] at h
  read h := by simp [hcaller] at h

/-- While the send task runs, the caller waits for it. -/
lemma joiningSend (hs : s.Ordered) (hsend : ∀ r, s.sendTask ≠ .finished r) :
    s.caller = .joiningSend :=
  hs.joined.resolve_right fun ⟨r, hr⟩ => hsend r hr

/-- The caller does not unwrap while the read task runs. -/
lemma not_unwrapping (hs : s.Ordered) (hread : ∀ r, s.readTask ≠ .finished r) :
    s.caller ≠ .unwrapping :=
  fun hcaller => (hs.read hcaller).elim fun r hr => hread (.ok (.ok r)) hr

lemma step (hs : s.Ordered) (h : Rule peerAddr s a t) : t.Ordered := by
  cases h with
  | send hsend | sent hsend | wake hsend | giveUp hsend =>
    exact of_joiningSend (hs.joiningSend (by simp [hsend])) (by simp)
  | goOn hsend _ => exact of_joiningSend (hs.joiningSend (by simp [hsend])) (by simp)
  | stop hsend htoken => exact of_joiningSend (hs.joiningSend (by simp [hsend])) fun _ => htoken
  | abortSend hsend => exact of_joiningSend (hs.joiningSend hsend) (by simp)
  | cancel hread =>
    exact ⟨hs.joined, fun _ => rfl, hs.past,
      fun h => absurd h (hs.not_unwrapping (by simp [hread]))⟩
  | drop hread | finish hread | receive hread | recvError hread | elapse hread =>
    exact ⟨hs.joined, hs.stopped, hs.past,
      fun h => absurd h (hs.not_unwrapping (by simp [hread]))⟩
  | abortRead hread =>
    exact ⟨hs.joined, hs.stopped, hs.past, fun h => absurd h (hs.not_unwrapping hread)⟩
  | joinSend _ hsend => exact ⟨.inr ⟨_, hsend⟩, hs.stopped, fun _ => hsend, by simp⟩
  | sendFailed _ hsend _ => exact ⟨.inr ⟨_, hsend⟩, hs.stopped, False.elim, by simp⟩
  | joinRead hcaller hread =>
    have hsend := hs.past (by simp [PastSend, hcaller])
    exact ⟨.inr ⟨_, hsend⟩, hs.stopped, fun _ => hsend, fun _ => ⟨_, hread⟩⟩
  | readFailed hcaller =>
    have hsend := hs.past (by simp [PastSend, hcaller])
    exact ⟨.inr ⟨_, hsend⟩, hs.stopped, False.elim, by simp⟩
  | unwrap hcaller _ | panic hcaller _ =>
    have hsend := hs.past (by simp [PastSend, hcaller])
    exact ⟨.inr ⟨_, hsend⟩, hs.stopped, fun _ => hsend, by simp⟩

end Ordered

/-! ### The owners of the socket -/

/-- A place holds the socket. The result of the send task holds it until it is taken. -/
def Holds (s : HolePunchCall S) : SocketOwner → Prop
  | .caller   => s.caller = .joiningRead ∨ s.caller = .unwrapping
  | .sendTask =>
    (∀ r, s.sendTask ≠ .finished r) ∨
      s.sendTask = .finished (.ok (.ok ())) ∧ s.caller = .joiningSend
  | .readTask => (∃ buf, s.readTask = .receiving buf) ∨ s.readTask = .matched ∨
      s.readTask = .cancelled

/-- The counted owners are the places that hold the socket. -/
def Owned (s : HolePunchCall S) : Prop := ∀ o, o ∈ s.socket.owners ↔ s.Holds o

lemma owned_init : (init sock).Owned := by
  intro o
  rw [init, SharedValue.mem_owners_move (by simp) (by simp)]
  cases o <;> simp [Holds]

namespace Owned

/-- At the unwrapping there is no other owner. -/
lemma sole (hs : s.Owned) (hordered : s.Ordered) (hcaller : s.caller = .unwrapping)
    (o : SocketOwner) : o ∈ s.socket.owners ↔ o = .caller := by
  have hsend := hordered.past (by simp [PastSend, hcaller])
  obtain ⟨r, hread⟩ := hordered.read hcaller
  rw [hs o]
  cases o with
  | caller   => simp [Holds, hcaller]
  | sendTask => simp [Holds, hsend, hcaller]
  | readTask => simp [Holds, hread]

lemma tryUnwrap (hs : s.Owned) (hordered : s.Ordered) (hcaller : s.caller = .unwrapping) :
    s.socket.tryUnwrap = .ok s.socket.value :=
  SharedValue.tryUnwrap_of_sole (hs.sole hordered hcaller)

lemma step (hs : s.Owned) (hordered : s.Ordered) (h : Rule peerAddr s a t) : t.Owned := by
  intro o
  have ho := hs o
  cases h with
  | stop hsend _ =>
    have hcaller := hordered.joiningSend (by simp [hsend])
    cases o <;> simp_all [Holds]
  | receive hread =>
    cases o with
    | readTask =>
      rw [ho]
      simp only [Holds, hread]
      split_ifs <;> simp
    | _ => exact ho
  | joinSend hcaller hsend =>
    have hcaller_notMem : .caller ∉ s.socket.owners := by simp [hs .caller, Holds, hcaller]
    have hsend_mem : .sendTask ∈ s.socket.owners := by simp [hs .sendTask, Holds, hcaller, hsend]
    rw [SharedValue.mem_owners_move hsend_mem hcaller_notMem]
    cases o <;> simp_all [Holds]
  | panic hcaller hshared =>
    rw [hs.tryUnwrap hordered hcaller] at hshared
    cases hshared
  | _ => cases o <;> simp_all [Holds]

end Owned

/-! ### Runs -/

/-- What holds throughout a call. -/
structure Sound (sock : S) (s : HolePunchCall S) : Prop where
  listening : Listening s.readTask s.cancelled s.calls
  ordered : s.Ordered
  owned : s.Owned
  value : s.socket.value = sock
  result : ∀ sock', s.caller = .returned (.ok sock') → sock' = sock
  unpanicked : s.caller ≠ .panicked

lemma sound_init : Sound sock (init sock) where
  listening := listening_init
  ordered := .of_joiningSend rfl (by simp [init])
  owned := owned_init
  value := by simp [init]
  result _ h := by cases h
  unpanicked h := by cases h

lemma Rule.value_socket (h : Rule peerAddr s a t) : t.socket.value = s.socket.value := by
  cases h <;> simp

lemma Sound.step (hs : s.Sound sock) (h : step peerAddr s a = some t) : t.Sound sock := by
  have hrule := rule_of_step h
  obtain ⟨hlistening, hordered, howned, hvalue, hresult, hunpanicked⟩ := hs
  refine ⟨hlistening.step hrule, hordered.step hrule, howned.step hordered hrule,
    hrule.value_socket.trans hvalue, ?_, ?_⟩
  · intro sock' ht
    cases hrule with
    | unwrap hcaller hsock =>
      rw [howned.tryUnwrap hordered hcaller, hvalue] at hsock
      cases hsock
      cases ht
      rfl
    | joinSend | sendFailed | joinRead | readFailed | panic => cases ht
    | _ => exact hresult sock' ht
  · intro ht
    cases hrule with
    | panic hcaller hshared =>
      rw [howned.tryUnwrap hordered hcaller] at hshared
      cases hshared
    | joinSend | sendFailed | joinRead | readFailed | unwrap => cases ht
    | _ => exact hunpanicked ht

lemma sound_run (h : Run (step peerAddr) (init sock) tr s) : s.Sound sock :=
  h.preserve (fun _ _ _ hs => hs.step) sound_init

namespace Sound

/-- A call that unwraps the socket has heard the punch string, and the read task has succeeded. -/
lemma past (hs : s.Sound sock) (hpast : s.PastSend) : Heard s.calls ∧ ReadTaskDone s.readTask :=
  hs.listening.cancelled (hs.ordered.stopped (hs.ordered.past hpast))

/-- An error of `recv_from` is never taken for a success. -/
theorem read_succeeded (hs : s.Sound sock) (hcaller : s.caller = .unwrapping) :
    s.readTask = .finished (.ok (.ok (.ok ()))) := by
  obtain ⟨r, hread⟩ := hs.ordered.read hcaller
  have hdone := (hs.past (by simp [PastSend, hcaller])).2
  simpa [hread, ReadTaskDone] using hdone

end Sound

/-- The socket that `hole_punch` returns is the one it took, the punch string was received on it,
and nobody else holds it when it is unwrapped. -/
theorem hole_punch_owned (h : Run (step peerAddr) (init sock) tr s) :
    (∀ sock', s.caller = .returned (.ok sock') → sock' = sock ∧ Heard s.calls) ∧
      (s.caller = .unwrapping →
        (∀ o, s.Holds o ↔ o = .caller) ∧ s.socket.tryUnwrap = .ok sock) ∧
      s.caller ≠ .panicked := by
  have hs := sound_run h
  refine ⟨fun sock' hcaller => ?_, fun hcaller => ⟨fun o => ?_, ?_⟩, hs.unpanicked⟩
  · exact ⟨hs.result sock' hcaller, (hs.past (by simp [PastSend, hcaller])).1⟩
  · exact (hs.owned o).symm.trans (hs.owned.sole hs.ordered hcaller o)
  · rw [hs.owned.tryUnwrap hs.ordered hcaller, hs.value]

/-- The peer answers after the second datagram. -/
def promptPeer : List Action :=
  [.sendTask, .sent (.ok 12), .sendTask, .sendTask, .sendTask,
    .received (.ok (punchString, ⟨1, 1⟩)), .readTask, .sent (.ok 12), .sendTask, .caller,
    .readTask, .readTask, .caller, .caller]

theorem hole_punch_owned_prompt : ∃ tr s, Run (step ⟨1, 1⟩) (init 7) tr s ∧
    s.caller = .returned (.ok 7) ∧ Heard s.calls := by
  have hexec : (exec (step ⟨1, 1⟩) (init 7) promptPeer).map caller =
      some (.returned (.ok 7)) := by decide +kernel
  obtain ⟨s, hs, hcaller⟩ := Option.map_eq_some_iff.mp hexec
  obtain ⟨tr, hrun, -⟩ := run_of_exec hs
  exact ⟨tr, s, hrun, hcaller, ((hole_punch_owned hrun).1 7 hcaller).2⟩

end HolePunchCall

end BearTorrent
