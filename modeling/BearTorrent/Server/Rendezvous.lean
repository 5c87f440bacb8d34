import BearTorrent.Lib.Mailbox
import BearTorrent.Lib.Transition
import BearTorrent.Server.Concurrent

/-!
# Rendezvous of peers

The calls of the server that wait for each other: `seed` and `send_file_request`, `get_cert` and
`send_cert`. They meet through the maps `seed_notifier` and `cert_sender`, from which
`delist_client` removes as well. The server runs them together with the requests that change the
tracker.
-/

namespace BearTorrent

open Transition Mailbox

/-! ### Messages -/

structure ConnectionIds where
  connectionPeer : Option PeerId
  selfId : Option PeerId

structure Cert where
  certificate : Bytes
  deriving DecidableEq

structure CertMessage where
  peerId : Option PeerId
  cert : Option Cert

/-! ### The server -/

/-- The calls around `seed_notifier` and `cert_sender`, and the other requests. -/
structure Rendezvous where
  tracker : Tracker
  seeds : Calls PeerId PeerId
  certs : Calls PeerId Cert

/-- How often `send_file_request` and `send_cert` look for a sender. -/
abbrev attempts : ℕ := 5

namespace Rendezvous

variable (shards : Shards)

/-- The server starts with empty maps and no calls. -/
def init : Rendezvous := ⟨.init .default, .empty, .empty⟩

/-- The map `seed_notifier` and its calls. -/
def seedOffice (s : Rendezvous) : Office PeerId PeerId := ⟨s.tracker.service.seedNotifier, s.seeds⟩

/-- The map `cert_sender` and its calls. -/
def certOffice (s : Rendezvous) : Office PeerId Cert := ⟨s.tracker.service.certSender, s.certs⟩

/-- Replace the maps of the server. -/
def setService (s : Rendezvous) (service : ConnectionService) : Rendezvous :=
  { s with tracker := { s.tracker with service } }

def setSeeds (s : Rendezvous) (o : Office PeerId PeerId) : Rendezvous :=
  { s.setService { s.tracker.service with seedNotifier := o.slots } with seeds := o.calls }

def setCerts (s : Rendezvous) (o : Office PeerId Cert) : Rendezvous :=
  { s.setService { s.tracker.service with certSender := o.slots } with certs := o.calls }

inductive Action where
  | tracker (a : Tracker.Action)
  /-- `register_client` or `update_registered_peer_id` -/
  | register (c : ClientId) (p : Option PeerId)
  | seeds (a : Mailbox.Action PeerId PeerId)
  | certs (a : Mailbox.Action PeerId Cert)

/-- One step of the server. -/
def step (s : Rendezvous) : Action → Option Rendezvous
  | .tracker a    => (s.tracker.step shards a).map fun tracker => { s with tracker }
  | .register c p => some (s.setService (s.tracker.service.register c p))
  | .seeds a      => (s.seedOffice.step attempts a).map s.setSeeds
  | .certs a      => (s.certOffice.step attempts a).map s.setCerts

/-! ### Requests and replies -/

/-- Call number `i` of `seed`. -/
def seed (i : ℕ) (selfPeerId : PeerId) : Action := .seeds (.listen i selfPeerId)

/-- Call number `i` of `get_cert`. -/
def getCert (i : ℕ) (selfAddr : PeerId) : Action := .certs (.listen i selfAddr)

/-- Call number `i` of `send_file_request`, once its fields are checked. -/
def sendFileRequest (i : ℕ) (r : ConnectionIds) : Except Failure Action :=
  match r.connectionPeer, r.selfId with
  | none, _                        => .error (invalidArgument "missing peer id")
  | some _, none                   => .error (invalidArgument "missing self")
  | some seederPeerId, some selfId => .ok (.seeds (.post i seederPeerId (some selfId)))

/-- Call number `i` of `send_cert`, once its peer id is checked. -/
def sendCert (i : ℕ) (r : CertMessage) : Except Failure Action :=
  match r.peerId with
  | none        => .error (invalidArgument "peer id not returned upon signal from server")
  | some peerId => .ok (.certs (.post i peerId r.cert))

/-- The reply of a listening call, which fails with `failure` when its sender is dropped. -/
def listenReply {α : Type} (failure : Failure) : Receipt α → Option (Except Failure α)
  | .waiting    => none
  | .received a => some (.ok a)
  | .closed     => some (.error failure)

/-- The reply of a posting call, which fails with `absent` when it finds no sender and with `gone`
when the listener does not receive. -/
def postReply (absent gone : Failure) : PostState → Option (Except Failure Unit)
  | .sent _   => some (.ok ())
  | .missing  => some (.error absent)
  | .closed   => some (.error gone)
  | .panicked => some (.error .panic)
  | _         => none

def seedReply : Receipt PeerId → Option (Except Failure PeerId) :=
  listenReply (.status .internal "Failed to receive client id")

def getCertReply : Receipt Cert → Option (Except Failure Cert) :=
  listenReply (.status .internal "failed to receive cert from server")

def sendFileRequestReply : PostState → Option (Except Failure Unit) :=
  postReply (.status .notFound "missing seeding peer")
    (.status .internal "Failed to send self_id")

def sendCertReply : PostState → Option (Except Failure Unit) :=
  postReply (invalidArgument "Cert sender not registered") (.status .internal "channel closed")

variable {α : Type}

lemma listenReply_eq_ok {failure : Failure} {state : Receipt α} {a : α} :
    listenReply failure state = some (.ok a) ↔ state = .received a := by
  cases state <;> simp [listenReply]

lemma postReply_eq_ok {absent gone : Failure} {state : PostState} :
    postReply absent gone state = some (.ok ()) ↔ ∃ r, state = .sent r := by
  cases state <;> simp [postReply]

/-! ### Pairing -/

/-- The calls of a map are paired: a posting call that returns has sent its message to one listening
call for its peer, which returns this message and was sent no other, and what a listening call
returns was sent by a posting call. -/
structure Paired (o : Office PeerId α) (posted : PostState → Option (Except Failure Unit))
    (listened : Receipt α → Option (Except Failure α)) : Prop where
  matched : ∀ i p, o.calls.posts i = some p → posted p.state = some (.ok ()) →
    ∃ r l a, p.state = .sent r ∧ o.calls.listeners r = some l ∧ l.key = p.key ∧
      p.message = some a ∧
      (listened l.state = some (.ok a) ∨ listened l.state = none ∧
        ∃ t l', o.receive r = some t ∧ t.calls.listeners r = some l' ∧
          listened l'.state = some (.ok a))
  single : ∀ i j p q r, o.calls.posts i = some p → o.calls.posts j = some q →
    p.state = .sent r → q.state = .sent r → i = j
  origin : ∀ r l a, o.calls.listeners r = some l → listened l.state = some (.ok a) →
    ∃ i p, o.calls.posts i = some p ∧ p.state = .sent r ∧ p.message = some a ∧ l.key = p.key

/-- A listener that finds a message in its channel can take it. -/
lemma receive_of_queue {o : Office PeerId α} {r : ℕ} {l : Listener PeerId α} {a : α}
    (hr : o.calls.listeners r = some l) (hstate : l.state = .waiting)
    (hqueue : l.channel.queue = [a]) :
    ∃ t l', o.receive r = some t ∧ t.calls.listeners r = some l' ∧ l'.state = .received a := by
  obtain ⟨channel, hrecv, -⟩ := Channel.exists_recv? hqueue
  have hreceive : o.receive r = some { o with
      calls := o.calls.setListener r { l with channel, state := .received a } } := by
    simp only [Office.receive, hr, hstate, hrecv]
  exact ⟨_, _, hreceive, Function.update_self .., rfl⟩

lemma paired_of_sound {o : Office PeerId α} (ho : Sound o) (absent gone failure : Failure) :
    Paired o (postReply absent gone) (listenReply failure) where
  matched i p hi hreply := by
    obtain ⟨r, hsent⟩ := postReply_eq_ok.mp hreply
    obtain ⟨l, a, hr, hkey, hmessage, hhas⟩ := ho.sent i p r hi hsent
    refine ⟨r, l, a, hsent, hr, hkey, hmessage, ?_⟩
    rcases hhas with hreceived | ⟨hwaiting, hqueue⟩
    · exact .inl (listenReply_eq_ok.mpr hreceived)
    · obtain ⟨t, l', ht, hl', hreceived⟩ := receive_of_queue hr hwaiting hqueue
      refine .inr ⟨?_, t, l', ht, hl', listenReply_eq_ok.mpr hreceived⟩
      rw [hwaiting]
      rfl
  single i j p q r hi hj hp hq :=
    ho.unique i j p q r hi hj (by rw [Post.target, hp]) (by rw [Post.target, hq])
  origin r l a hr hreply := by
    obtain ⟨i, p, hi, hsent, hmessage⟩ :=
      ho.origin r l a hr (.inl (listenReply_eq_ok.mp hreply))
    obtain ⟨l', -, hr', hkey, -⟩ := ho.sent i p r hi hsent
    cases hr.symm.trans hr'
    exact ⟨i, p, hi, hsent, hmessage, hkey⟩

end Rendezvous

/-! ### The other requests -/

lemma lookup_of_lookup_erase {slots : AList fun _ : PeerId => SenderId} {p q : PeerId}
    {r : SenderId} (h : (slots.erase q).lookup p = some r) : slots.lookup p = some r := by
  by_cases hp : p = q
  · subst hp
    rw [AList.lookup_erase] at h
    cases h
  · rwa [AList.lookup_erase_ne hp] at h

namespace ConnectionService

variable (s : ConnectionService) (m : SenderMap)

lemma senders_removeSender {m' : SenderMap} {p q : PeerId} {r : SenderId}
    (h : ((s.removeSender q m').senders m).lookup p = some r) :
    (s.senders m).lookup p = some r := by
  cases m' <;> cases m <;> first | exact h | exact lookup_of_lookup_erase h

@[simp] lemma senders_retainOthers (h : FileHash) (c : ClientId) :
    (s.retainOthers h c).senders m = s.senders m := by
  rw [retainOthers]
  split <;> cases m <;> rfl

end ConnectionService

/-- The requests that change the tracker only remove from the maps of senders. -/
lemma TrackerMove.lookup_senders {s t : ConnectionService} {state state' : TrackerState}
    (h : TrackerMove s state state' t) {m : SenderMap} {p : PeerId} {r : SenderId}
    (ht : (t.senders m).lookup p = some r) : (s.senders m).lookup p = some r := by
  cases h with
  | drop => exact s.senders_removeSender m ht
  | retain | retainLast | visit | visitLast => rwa [ConnectionService.senders_retainOthers] at ht
  | _ => cases m <;> exact ht

namespace Rendezvous

variable {shards : Shards} {s t : Rendezvous} {a : Action}

lemma lookup_senders_of_tracker {b : Tracker.Action} {tracker : Tracker}
    (h : s.tracker.step shards b = some tracker) (m : SenderMap) (p : PeerId) (r : SenderId)
    (ht : (tracker.service.senders m).lookup p = some r) :
    (s.tracker.service.senders m).lookup p = some r := by
  cases Tracker.trackerStep_of_eq_some h with
  | call hi hrequests hservice => rwa [hservice] at ht
  | move ha hi hrequests hmove => exact hmove.lookup_senders ht

/-- Both maps with their calls are sound. -/
def BothSound (s : Rendezvous) : Prop := Sound s.seedOffice ∧ Sound s.certOffice

lemma bothSound_init : BothSound init := ⟨.empty, .empty⟩

/-- Every step of the server keeps both maps sound. -/
lemma BothSound.step (hs : BothSound s) (h : s.step shards a = some t) : BothSound t := by
  obtain ⟨hseeds, hcerts⟩ := hs
  cases a with
  | tracker b =>
    obtain ⟨tracker, hstep, rfl⟩ := Option.map_eq_some_iff.mp h
    exact ⟨hseeds.removed (lookup_senders_of_tracker hstep .seedNotifier),
      hcerts.removed (lookup_senders_of_tracker hstep .certSender)⟩
  | register c p =>
    cases h
    exact ⟨hseeds, hcerts⟩
  | seeds b =>
    obtain ⟨o, hstep, rfl⟩ := Option.map_eq_some_iff.mp h
    exact ⟨hseeds.step (Office.effect_of_step hstep), hcerts⟩
  | certs b =>
    obtain ⟨o, hstep, rfl⟩ := Option.map_eq_some_iff.mp h
    exact ⟨hseeds, hcerts.step (Office.effect_of_step hstep)⟩

lemma bothSound_run {tr : List (Rendezvous × Action)} (hrun : Run (step shards) init tr s) :
    BothSound s :=
  hrun.preserve (fun _ _ _ hs h => hs.step h) bothSound_init

/-- In every run of the server, requests are paired with seeders, and certificates with the calls
that wait for them. -/
theorem rendezvous_paired {tr : List (Rendezvous × Action)} (hrun : Run (step shards) init tr s) :
    Paired s.seedOffice sendFileRequestReply seedReply ∧
      Paired s.certOffice sendCertReply getCertReply :=
  ⟨paired_of_sound (bothSound_run hrun).1 .., paired_of_sound (bothSound_run hrun).2 ..⟩

/-- One shard. -/
def oneShard : Shards := ⟨1, fun _ => 0, fun _ => Nat.one_pos⟩

/-- Two peers. -/
def seederPeer : PeerId := ⟨1, 1, 1, 1⟩
def leecherPeer : PeerId := ⟨2, 2, 2, 2⟩

/-- A request that comes before the seeder is there, and finds it when it looks again. -/
def meetActions : List Action :=
  [.seeds (.post 0 seederPeer (some leecherPeer)), .seeds (.attempt 0), seed 0 seederPeer,
    .seeds (.wake 0), .seeds (.attempt 0), .seeds (.send 0), .seeds (.receive 0)]

theorem rendezvous_paired_meeting :
    ∃ tr s, Run (step oneShard) init tr s ∧
      ∃ l, s.seeds.listeners 0 = some l ∧ seedReply l.state = some (.ok leecherPeer) ∧
        ∃ p, s.seeds.posts 0 = some p ∧ p.state = .sent 0 ∧ p.message = some leecherPeer := by
  obtain ⟨s, hs, l, hl, hreply, p, hp, hsent⟩ :
      ∃ s, exec (step oneShard) init meetActions = some s ∧
        ∃ l, s.seeds.listeners 0 = some l ∧ seedReply l.state = some (.ok leecherPeer) ∧
          ∃ p, s.seeds.posts 0 = some p ∧ p.state = .sent 0 :=
    ⟨_, rfl, _, rfl, rfl, _, rfl, rfl⟩
  obtain ⟨tr, hrun, -⟩ := run_of_exec hs
  obtain ⟨hpaired, -⟩ := rendezvous_paired hrun
  obtain ⟨i, p', hi, hsent', hmessage, -⟩ := hpaired.origin 0 l leecherPeer hl hreply
  obtain rfl := hpaired.single i 0 p' p 0 hi hp hsent' hsent
  cases hi.symm.trans hp
  exact ⟨tr, s, hrun, l, hl, hreply, p, hp, hsent, hmessage⟩

end Rendezvous

end BearTorrent
