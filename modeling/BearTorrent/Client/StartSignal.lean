import BearTorrent.Lib.FairLock
import BearTorrent.Lib.Transition

/-!
# The start signal

`file_request` makes the assembler, which spawns `send_requests`, subscribes a connection for every
peer, and calls `start_requesting`. `notify_waiters` wakes the tasks whose future exists and stores
nothing, so the signal reaches `send_requests` only when it waits already.
-/

namespace BearTorrent

open Transition

/-- The tasks that share the lock of the assembler. -/
inductive AssemblerTask where
  | sendRequests
  | reassembleLoop
  | fileRequest
  deriving DecidableEq

/-- Where `send_requests` is, up to the end of its wait. It holds the lock or is in the queue for
it while it is `readingFields` or `readingHandle`. -/
inductive SendRequestsAt where
  | spawned
  | readingFields
  | fieldsRead
  | readingHandle
  | handleCloned
  | waiting
  | notified
  deriving DecidableEq

/-- What `notify_waiters` does to a task. -/
def SendRequestsAt.notifyWaiters : SendRequestsAt → SendRequestsAt
  | .waiting => .notified
  | place    => place

/-- Where `file_request` is, once it has made the assembler, with the number of connections that
remain to be made. -/
inductive FileRequestAt where
  | connecting (left : ℕ)
  | gettingConnTx (left : ℕ)
  | gotConnTx (left : ℕ)
  | subscribing (left : ℕ)
  | starting
  | started
  | failed
  deriving DecidableEq

/-- The tasks of a download that has not begun. -/
structure Startup where
  lock : FairLock AssemblerTask
  sendRequests : SendRequestsAt
  fileRequest : FileRequestAt
  reassembleLoop : Option LockMode

namespace Startup

/-- `FileAssembler::new` has returned, and `num_connections` is `n`. -/
def init (n : ℕ) : Startup := ⟨.free, .spawned, .connecting n, none⟩

inductive Action where
  | sendRequests
  | fileRequest
  /-- `register_new_connection` fails. -/
  | refused
  | start
  | reassembleLoop (mode : LockMode)
  | reassembleLoopDone
  | grant
  deriving DecidableEq

/-- The next step of `send_requests`. -/
def stepSendRequests (s : Startup) : Option Startup :=
  match s.sendRequests with
  | .spawned       =>
    some { s with lock := s.lock.request .sendRequests .read, sendRequests := .readingFields }
  | .readingFields =>
    if s.lock.Holds .sendRequests .read then
      some { s with lock := s.lock.release .sendRequests, sendRequests := .fieldsRead }
    else none
  | .fieldsRead    =>
    some { s with lock := s.lock.request .sendRequests .read, sendRequests := .readingHandle }
  | .readingHandle =>
    if s.lock.Holds .sendRequests .read then
      some { s with lock := s.lock.release .sendRequests, sendRequests := .handleCloned }
    else none
  | .handleCloned  => some { s with sendRequests := .waiting }
  | .waiting       => none
  | .notified      => none

/-- The next step of `file_request`, up to the write lock that it calls `start_requesting` with. -/
def stepFileRequest (s : Startup) : Option Startup :=
  match s.fileRequest with
  | .connecting 0          =>
    some { s with lock := s.lock.request .fileRequest .write, fileRequest := .starting }
  | .connecting (left + 1) =>
    some { s with lock := s.lock.request .fileRequest .read, fileRequest := .gettingConnTx left }
  | .gettingConnTx left    =>
    if s.lock.Holds .fileRequest .read then
      some { s with lock := s.lock.release .fileRequest, fileRequest := .gotConnTx left }
    else none
  | .gotConnTx left        =>
    some { s with lock := s.lock.request .fileRequest .write, fileRequest := .subscribing left }
  | .subscribing left      =>
    if s.lock.Holds .fileRequest .write then
      some { s with lock := s.lock.release .fileRequest, fileRequest := .connecting left }
    else none
  | .starting              => none
  | .started               => none
  | .failed                => none

/-- `start_requesting`, under the write lock. -/
def startRequesting (s : Startup) : Option Startup :=
  if s.fileRequest = .starting ∧ s.lock.Holds .fileRequest .write then
    some { s with
      lock := s.lock.release .fileRequest
      sendRequests := s.sendRequests.notifyWaiters
      fileRequest := .started }
  else none

def step (s : Startup) : Action → Option Startup
  | .sendRequests        => s.stepSendRequests
  | .fileRequest         => s.stepFileRequest
  | .refused             =>
    match s.fileRequest with
    | .connecting (_ + 1) => some { s with fileRequest := .failed }
    | _                   => none
  | .start               => s.startRequesting
  -- What the loop that reassembles the file wants the lock for is left open.
  | .reassembleLoop mode =>
    match s.reassembleLoop with
    | none   =>
      some { s with lock := s.lock.request .reassembleLoop mode, reassembleLoop := some mode }
    | some _ => none
  | .reassembleLoopDone  =>
    match s.reassembleLoop with
    | some mode =>
      if s.lock.Holds .reassembleLoop mode then
        some { s with lock := s.lock.release .reassembleLoop, reassembleLoop := none }
      else none
    | none      => none
  | .grant               => s.lock.grant.map fun lock => { s with lock }

/-- The signal is lost: `start_requesting` has been called, and `send_requests` waits for it or is
still going to. -/
def Lost (s : Startup) : Prop := s.fileRequest = .started ∧ s.sendRequests ≠ .notified

/-! ### The steps -/

variable {n : ℕ} {s t : Startup} {a : Action} {tr : List (Startup × Action)}

/-- Only `start_requesting` starts the requests and wakes `send_requests`. -/
lemma step_of_ne_start (h : step s a = some t) (ha : a ≠ .start) :
    (t.fileRequest = .started ↔ s.fileRequest = .started) ∧
      (t.sendRequests = .notified ↔ s.sendRequests = .notified) := by
  cases a with
  | sendRequests =>
    simp only [step, stepSendRequests] at h
    split at h <;> (try split_ifs at h) <;> cases h <;> simp_all
  | fileRequest =>
    simp only [step, stepFileRequest] at h
    split at h <;> (try split_ifs at h) <;> cases h <;> simp_all
  | refused =>
    simp only [step] at h
    split at h <;> cases h
    simp_all
  | start => exact absurd rfl ha
  | reassembleLoop mode =>
    simp only [step] at h
    split at h <;> cases h
    exact ⟨Iff.rfl, Iff.rfl⟩
  | reassembleLoopDone =>
    simp only [step] at h
    split at h <;> (try split_ifs at h) <;> cases h
    exact ⟨Iff.rfl, Iff.rfl⟩
  | grant =>
    obtain ⟨lock, -, rfl⟩ := Option.map_eq_some_iff.mp h
    exact ⟨Iff.rfl, Iff.rfl⟩

lemma of_start (h : step s .start = some t) :
    s.fileRequest = .starting ∧ s.lock.Holds .fileRequest .write ∧ t.fileRequest = .started ∧
      t.sendRequests = s.sendRequests.notifyWaiters := by
  simp only [step, startRequesting] at h
  split_ifs at h with hs
  obtain rfl := Option.some.inj h
  exact ⟨hs.1, hs.2, rfl, rfl⟩

lemma notifyWaiters_eq_notified {x : SendRequestsAt} (hx : x ≠ .notified) :
    x.notifyWaiters = .notified ↔ x = .waiting := by
  cases x <;> simp_all [SendRequestsAt.notifyWaiters]

/-! ### Runs -/

/-- What the trace of a run says about the signal. -/
structure Signalled (tr : List (Startup × Action)) (s : Startup) : Prop where
  unstarted : s.fileRequest ≠ .started →
    s.sendRequests ≠ .notified ∧ ∀ p ∈ tr, p.2 ≠ .start
  started : s.fileRequest = .started →
    (s.sendRequests = .notified ↔ ∀ p ∈ tr, p.2 = .start → p.1.sendRequests = .waiting)

lemma Signalled.step (hs : Signalled tr s) (h : s.step a = some t) :
    Signalled (tr ++ [(s, a)]) t := by
  by_cases ha : a = .start
  · subst ha
    obtain ⟨hstarting, -, hstarted, hsend⟩ := of_start h
    obtain ⟨hnot, htr⟩ := hs.unstarted (by simp [hstarting])
    refine ⟨fun ht => absurd hstarted ht, fun _ => ?_⟩
    rw [hsend, notifyWaiters_eq_notified hnot]
    constructor
    · intro hwaiting p hp hstart
      rcases List.mem_append.mp hp with hp | hp
      · exact absurd hstart (htr p hp)
      · obtain rfl := List.mem_singleton.mp hp
        exact hwaiting
    · intro hall
      exact hall (s, .start) (by simp) rfl
  · obtain ⟨hfile, hsend⟩ := step_of_ne_start h ha
    refine ⟨fun ht => ?_, fun ht => ?_⟩
    · obtain ⟨hnot, htr⟩ := hs.unstarted (mt hfile.mpr ht)
      refine ⟨mt hsend.mp hnot, fun p hp => ?_⟩
      rcases List.mem_append.mp hp with hp | hp
      · exact htr p hp
      · obtain rfl := List.mem_singleton.mp hp
        exact ha
    · rw [hsend, hs.started (hfile.mp ht)]
      simp [or_imp, forall_and, ha]

lemma signalled_run (h : Run step (init n) tr s) : Signalled tr s := by
  induction h with
  | nil => exact ⟨fun _ => ⟨by simp [init], by simp⟩, fun h => by simp [init] at h⟩
  | snoc _ ha ih => exact ih.step ha

/-- The signal arrives exactly in the runs where `send_requests` waits before `start_requesting` is
called. -/
theorem start_arrives_iff (h : Run step (init n) tr s) :
    ¬ s.Lost ↔ ∀ p ∈ tr, p.2 = .start → p.1.sendRequests = .waiting := by
  have hs := signalled_run h
  by_cases hstarted : s.fileRequest = .started
  · rw [← hs.started hstarted, Lost]
    simp [hstarted]
  · refine ⟨fun _ p hp hstart => ?_, fun _ hlost => hstarted hlost.1⟩
    exact absurd hstart ((hs.unstarted hstarted).2 p hp)

theorem start_arrives_iff_one : ∃ tr s, Run step (init 1) tr s ∧ ¬ s.Lost ∧
    (¬ s.Lost ↔ ∀ p ∈ tr, p.2 = .start → p.1.sendRequests = .waiting) := by
  have hexec : exec step (init 1)
      [.sendRequests, .grant, .sendRequests, .sendRequests, .grant, .sendRequests, .sendRequests,
        .fileRequest, .grant, .fileRequest, .fileRequest, .grant, .fileRequest,
        .fileRequest, .grant, .start]
      = some ⟨.free, .notified, .started, none⟩ := rfl
  obtain ⟨tr, hrun, -⟩ := run_of_exec hexec
  exact ⟨tr, _, hrun, fun h => h.2 rfl, start_arrives_iff hrun⟩

/-- With no connection to make, `file_request` may call `start_requesting` before the runtime has
run `send_requests` at all. -/
lemma run_unscheduled : ∃ tr, Run step (init 0) tr ⟨.free, .spawned, .started, none⟩ := by
  have hexec : exec step (init 0) [.fileRequest, .grant, .start]
      = some ⟨.free, .spawned, .started, none⟩ := rfl
  obtain ⟨tr, hrun, -⟩ := run_of_exec hexec
  exact ⟨tr, hrun⟩

theorem start_signal_lost : ¬ ∀ n tr s, Run step (init n) tr s → ¬ s.Lost := by
  intro h
  obtain ⟨tr, hrun⟩ := run_unscheduled
  exact h 0 tr _ hrun ⟨rfl, by decide⟩

/-- The signal can be lost whatever the number of connections. -/
theorem exists_lost (n : ℕ) : ∃ tr s, Run step (init n) tr s ∧ s.Lost := by
  induction n with
  | zero =>
    obtain ⟨tr, hrun⟩ := run_unscheduled
    exact ⟨tr, _, hrun, rfl, by decide⟩
  | succ n ih =>
    obtain ⟨tr, s, hrun, hlost⟩ := ih
    have hexec : exec step (init (n + 1))
        [.fileRequest, .grant, .fileRequest, .fileRequest, .grant, .fileRequest]
        = some (init n) := rfl
    obtain ⟨tr', hrun', -⟩ := run_of_exec hexec
    exact ⟨_, s, hrun'.append hrun, hlost⟩

end Startup

end BearTorrent
