import BearTorrent.Server.Handlers
import Mathlib.Logic.Function.Basic

/-!
# Concurrent tracker requests

Requests that change the tracker, taking turns. A step is one operation on one of the maps. The
map `seeder_list` is split into shards, each behind a lock: `delist_client` walks it shard by shard
and holds the lock of a shard while it removes files of that shard from `file_tracker`. The locks
of the other maps are never held across two steps.
-/

namespace BearTorrent

open Function

/-- How `seeder_list` is split into shards. -/
structure Shards where
  count : ℕ
  shardOf : FileHash → ℕ
  shardOf_lt : ∀ h, shardOf h < count

/-- The requests that change `file_tracker` or remove from `seeder_list`. -/
inductive TrackerRequest where
  | advertise (r : FileMessage)
  | deleteFile (req : FileDelete)
  | delistClient (clientId : ClientId)

/-- The maps of senders, in the order in which `delist_client` looks at them. -/
inductive SenderMap where
  | seedNotifier
  | certSender
  | initHolePunch
  deriving DecidableEq

/-- Where a request stands. -/
inductive TrackerState where
  /-- `advertise`, about to insert into `file_tracker` -/
  | tracking (c : ClientId) (h : FileHash) (info : InfoHash)
  /-- `advertise`, about to push into the entry of `seeder_list` -/
  | pushing (c : ClientId) (h : FileHash)
  /-- `delete_file`, about to retain the other clients and to look whether there are any -/
  | retaining (c : ClientId) (h : FileHash)
  /-- `delete_file`, about to remove from `seeder_list`; the entry's lock is released -/
  | removing (h : FileHash)
  /-- `delete_file`, about to remove from `file_tracker` -/
  | untracking (h : FileHash)
  /-- `delist_client`, about to remove from `client_registry` -/
  | unregistering (c : ClientId)
  /-- `delist_client`, about to look for the peer id in the first of the maps -/
  | searching (c : ClientId) (p : PeerId) (maps : List SenderMap)
  /-- `delist_client`, about to remove the peer id from a map -/
  | dropping (c : ClientId) (p : PeerId) (m : SenderMap) (maps : List SenderMap)
  /-- `delist_client`, with `entries` left in the shard before `next`, whose lock it holds -/
  | walking (c : ClientId) (entries : List FileHash) (next : ℕ)
  /-- `delist_client`, about to remove from `file_tracker` a file of the shard it is in -/
  | unlisting (c : ClientId) (h : FileHash) (entries : List FileHash) (next : ℕ)
  | returned (reply : Except Failure ServerReply)

/-- The number of a request. -/
abbrev RequestId := ℕ

/-- The service with its requests. A lock is held by at most one of them. -/
structure Tracker where
  service : ConnectionService
  requests : RequestId → Option TrackerState
  locks : ℕ → Option RequestId

namespace TrackerRequest

/-- Check the fields of a request. -/
def start : TrackerRequest → TrackerState
  | .advertise ⟨_, none, _⟩                    =>
    .returned (.error (invalidArgument "missing file hash"))
  | .advertise ⟨_, some _, none⟩               =>
    .returned (.error (invalidArgument "missing info hash"))
  | .advertise ⟨none, some _, some _⟩          =>
    .returned (.error (invalidArgument "Client missing"))
  | .advertise ⟨some c, some h, some info⟩     => .tracking c h info
  | .deleteFile ⟨none, _⟩                      =>
    .returned (.error (invalidArgument "missing self id"))
  | .deleteFile ⟨some _, none⟩                 =>
    .returned (.error (invalidArgument "missing file hash"))
  | .deleteFile ⟨some c, some h⟩               => .retaining c h
  | .delistClient c                            => .unregistering c

end TrackerRequest

namespace ConnectionService

/-- One of the maps of senders. -/
def senders (s : ConnectionService) : SenderMap → AList fun _ : PeerId => SenderId
  | .seedNotifier  => s.seedNotifier
  | .certSender    => s.certSender
  | .initHolePunch => s.initHolePunch

/-- Remove a peer id from a map of senders. -/
def removeSender (s : ConnectionService) (p : PeerId) : SenderMap → ConnectionService
  | .seedNotifier  => { s with seedNotifier := s.seedNotifier.erase p }
  | .certSender    => { s with certSender := s.certSender.erase p }
  | .initHolePunch => { s with initHolePunch := s.initHolePunch.erase p }

@[simp] lemma seeders_removeSender (s : ConnectionService) (p : PeerId) (m : SenderMap)
    (h : FileHash) : (s.removeSender p m).seeders h = s.seeders h := by
  cases m <;> rfl

@[simp] lemma fileTracker_removeSender (s : ConnectionService) (p : PeerId) (m : SenderMap) :
    (s.removeSender p m).fileTracker = s.fileTracker := by
  cases m <;> rfl

end ConnectionService

namespace Tracker

variable (shards : Shards)

/-- The requests start on a service that is not in use. -/
def init (s : ConnectionService) : Tracker := ⟨s, fun _ => none, fun _ => none⟩

/-- The lock of the file's entry is free. -/
def Unlocked (s : Tracker) (h : FileHash) : Prop := s.locks (shards.shardOf h) = none

instance (s : Tracker) (h : FileHash) : Decidable (s.Unlocked shards h) :=
  inferInstanceAs (Decidable (_ = none))

/-- Request `i` goes on to `state`, leaving the maps as in `service`. -/
def move (s : Tracker) (i : RequestId) (state : TrackerState) (service : ConnectionService) :
    Tracker :=
  { s with service, requests := update s.requests i (some state) }

/-- Release all locks of request `i`. -/
def release (s : Tracker) (i : RequestId) : Tracker :=
  { s with locks := fun k => if s.locks k = some i then none else s.locks k }

/-- Acquire the lock of a shard. -/
def acquire (s : Tracker) (i : RequestId) (shard : ℕ) : Tracker :=
  { s with locks := update s.locks shard (some i) }

/-- Request `i` carries out its next operation, if it is not blocked. -/
def advance (s : Tracker) (i : RequestId) : TrackerState → Option Tracker
  | .tracking c h info => some (s.move i (.pushing c h) (s.service.trackFile h info))
  | .pushing c h =>
    if s.Unlocked shards h then
      some (s.move i (.returned (.ok (.clientId c))) (s.service.pushSeeder h c))
    else none
  | .retaining c h =>
    if s.Unlocked shards h then
      let service := s.service.retainOthers h c
      if h ∈ s.service.seederList ∧ service.seeders h = [] then
        some (s.move i (.removing h) service)
      else some (s.move i (.returned (.ok .empty)) service)
    else none
  | .removing h =>
    if s.Unlocked shards h then some (s.move i (.untracking h) (s.service.removeSeeders h))
    else none
  | .untracking h => some (s.move i (.returned (.ok .empty)) (s.service.untrackFile h))
  | .unregistering c =>
    match s.service.clientRegistry.lookup c with
    | none          => some (s.move i (.returned (.ok .empty)) s.service)
    | some none     => some (s.move i (.walking c [] 0) (s.service.unregister c))
    | some (some p) =>
      some (s.move i (.searching c p [.seedNotifier, .certSender, .initHolePunch])
        (s.service.unregister c))
  | .searching c p (m :: maps) =>
    if p ∈ s.service.senders m then some (s.move i (.dropping c p m maps) s.service)
    else some (s.move i (.searching c p maps) s.service)
  | .searching c _ [] => some (s.move i (.walking c [] 0) s.service)
  | .dropping c p m maps =>
    some (s.move i (.searching c p maps) (s.service.removeSender p m))
  | .walking c [] next =>
    if next < shards.count then
      -- the next lock is taken before the lock of the shard is released
      if s.locks next = none then
        let entries := s.service.seederList.keys.filter fun h => shards.shardOf h = next
        some (((s.release i).acquire i next).move i (.walking c entries (next + 1)) s.service)
      else none
    else some ((s.release i).move i (.returned (.ok .empty)) s.service)
  | .walking _ (_ :: _) _ => none
  | .unlisting c h entries next =>
    some (s.move i (.walking c entries next) (s.service.untrackFile h))
  | .returned _ => none

/-- `delist_client` comes to an entry of its shard, in an order that is not determined. -/
def visit (s : Tracker) (i : RequestId) (h : FileHash) : TrackerState → Option Tracker
  | .walking c entries next =>
    if h ∈ entries then
      let service := s.service.retainOthers h c
      if service.seeders h = [] then
        some (s.move i (.unlisting c h (entries.erase h) next) service)
      else some (s.move i (.walking c (entries.erase h) next) service)
    else none
  | _ => none

inductive Action where
  | call (i : RequestId) (r : TrackerRequest)
  | advance (i : RequestId)
  | visit (i : RequestId) (h : FileHash)

/-- The request that takes the step. -/
def Action.request : Action → RequestId
  | .call i _  => i
  | .advance i => i
  | .visit i _ => i

/-- One step of the server. -/
def step (s : Tracker) : Action → Option Tracker
  | .call i r  =>
    match s.requests i with
    | none   => some (s.move i r.start s.service)
    | some _ => none
  | .advance i => (s.requests i).bind (s.advance shards i)
  | .visit i h => (s.requests i).bind (s.visit i h)

end Tracker

/-! ### What a step can do -/

/-- What a request does to the maps when it goes on from one state to another. -/
inductive TrackerMove (s : ConnectionService) :
    TrackerState → TrackerState → ConnectionService → Prop
  | track (c h info) : TrackerMove s (.tracking c h info) (.pushing c h) (s.trackFile h info)
  | push (c h) :
      TrackerMove s (.pushing c h) (.returned (.ok (.clientId c))) (s.pushSeeder h c)
  | retainLast (c h) : TrackerMove s (.retaining c h) (.removing h) (s.retainOthers h c)
  | retain (c h) :
      TrackerMove s (.retaining c h) (.returned (.ok .empty)) (s.retainOthers h c)
  | remove (h) : TrackerMove s (.removing h) (.untracking h) (s.removeSeeders h)
  | untrack (h) : TrackerMove s (.untracking h) (.returned (.ok .empty)) (s.untrackFile h)
  | missing (c) : TrackerMove s (.unregistering c) (.returned (.ok .empty)) s
  | unregister (c) : TrackerMove s (.unregistering c) (.walking c [] 0) (s.unregister c)
  | search (c p maps) :
      TrackerMove s (.unregistering c) (.searching c p maps) (s.unregister c)
  | found (c p m maps) :
      TrackerMove s (.searching c p (m :: maps)) (.dropping c p m maps) s
  | skip (c p m maps) : TrackerMove s (.searching c p (m :: maps)) (.searching c p maps) s
  | searched (c p) : TrackerMove s (.searching c p []) (.walking c [] 0) s
  | drop (c p m maps) :
      TrackerMove s (.dropping c p m maps) (.searching c p maps) (s.removeSender p m)
  | enter (c entries next) :
      TrackerMove s (.walking c [] next) (.walking c entries (next + 1)) s
  | finish (c next) : TrackerMove s (.walking c [] next) (.returned (.ok .empty)) s
  | visitLast (c h entries next) :
      TrackerMove s (.walking c entries next) (.unlisting c h (entries.erase h) next)
        (s.retainOthers h c)
  | visit (c h entries next) :
      TrackerMove s (.walking c entries next) (.walking c (entries.erase h) next)
        (s.retainOthers h c)
  | unlist (c h entries next) :
      TrackerMove s (.unlisting c h entries next) (.walking c entries next) (s.untrackFile h)

/-- A step calls a new request, or one request moves on. -/
inductive TrackerStep (s : Tracker) : Tracker.Action → Tracker → Prop
  | call {i : RequestId} {r : TrackerRequest} {t : Tracker} (hi : s.requests i = none)
      (hrequests : t.requests = update s.requests i (some r.start))
      (hservice : t.service = s.service) : TrackerStep s (.call i r) t
  | move {a : Tracker.Action} {state state' : TrackerState} {t : Tracker}
      (ha : ∀ i r, a ≠ .call i r) (hi : s.requests a.request = some state)
      (hrequests : t.requests = update s.requests a.request (some state'))
      (hmove : TrackerMove s.service state state' t.service) : TrackerStep s a t

namespace Tracker

variable {shards : Shards} {s t : Tracker}

lemma trackerStep_of_advance {i : RequestId} {state : TrackerState}
    (hi : s.requests i = some state) (h : s.advance shards i state = some t) :
    TrackerStep s (.advance i) t := by
  cases state with
  | tracking c k info =>
    cases h
    exact .move (fun _ _ => Action.noConfusion) hi rfl (.track c k info)
  | pushing c k =>
    simp only [advance] at h
    split_ifs at h
    cases h
    exact .move (fun _ _ => Action.noConfusion) hi rfl (.push c k)
  | retaining c k =>
    simp only [advance] at h
    split_ifs at h
    · cases h
      exact .move (fun _ _ => Action.noConfusion) hi rfl (.retainLast c k)
    · cases h
      exact .move (fun _ _ => Action.noConfusion) hi rfl (.retain c k)
  | removing k =>
    simp only [advance] at h
    split_ifs at h
    cases h
    exact .move (fun _ _ => Action.noConfusion) hi rfl (.remove k)
  | untracking k =>
    cases h
    exact .move (fun _ _ => Action.noConfusion) hi rfl (.untrack k)
  | unregistering c =>
    simp only [advance] at h
    split at h
    · cases h
      exact .move (fun _ _ => Action.noConfusion) hi rfl (.missing c)
    · cases h
      exact .move (fun _ _ => Action.noConfusion) hi rfl (.unregister c)
    · cases h
      exact .move (fun _ _ => Action.noConfusion) hi rfl (.search c _ _)
  | searching c p maps =>
    cases maps with
    | nil =>
      cases h
      exact .move (fun _ _ => Action.noConfusion) hi rfl (.searched c p)
    | cons m maps =>
      simp only [advance] at h
      split_ifs at h
      · cases h
        exact .move (fun _ _ => Action.noConfusion) hi rfl (.found c p m maps)
      · cases h
        exact .move (fun _ _ => Action.noConfusion) hi rfl (.skip c p m maps)
  | dropping c p m maps =>
    cases h
    exact .move (fun _ _ => Action.noConfusion) hi rfl (.drop c p m maps)
  | walking c entries next =>
    cases entries with
    | nil =>
      simp only [advance] at h
      split_ifs at h
      · cases h
        exact .move (fun _ _ => Action.noConfusion) hi rfl (.enter c _ next)
      · cases h
        exact .move (fun _ _ => Action.noConfusion) hi rfl (.finish c next)
    | cons k entries => cases h
  | unlisting c k entries next =>
    cases h
    exact .move (fun _ _ => Action.noConfusion) hi rfl (.unlist c k entries next)
  | returned reply => cases h

/-- All that a step can do. -/
lemma trackerStep_of_eq_some {a : Action} (h : s.step shards a = some t) :
    TrackerStep s a t := by
  cases a with
  | call i r =>
    simp only [step] at h
    split at h
    · rename_i hi
      cases h
      exact .call hi rfl rfl
    · cases h
  | advance i =>
    obtain ⟨state, hi, hstate⟩ := Option.bind_eq_some_iff.mp h
    exact trackerStep_of_advance hi hstate
  | visit i k =>
    obtain ⟨state, hi, hstate⟩ := Option.bind_eq_some_iff.mp h
    cases state with
    | walking c entries next =>
      simp only [visit] at hstate
      split_ifs at hstate
      · cases hstate
        exact .move (fun _ _ => Action.noConfusion) hi rfl (.visitLast c k entries next)
      · cases hstate
        exact .move (fun _ _ => Action.noConfusion) hi rfl (.visit c k entries next)
    | _ => cases hstate

end Tracker

end BearTorrent
