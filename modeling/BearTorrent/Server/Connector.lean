import BearTorrent.Server.PeerList
import BearTorrent.Server.Rendezvous

/-!
# The requests of the connector

All requests of the service, handled one at a time. A call that waits for a peer is handled when it
has put its sender into a map; whether its receiver is still there later is not known to the
service.
-/

namespace BearTorrent

open Transition

namespace ConnectionService

/-- Insert a sender into a map. -/
def insertSender (s : ConnectionService) (p : PeerId) (tx : SenderId) :
    SenderMap → ConnectionService
  | .seedNotifier  => { s with seedNotifier := s.seedNotifier.insert p tx }
  | .certSender    => { s with certSender := s.certSender.insert p tx }
  | .initHolePunch => { s with initHolePunch := s.initHolePunch.insert p tx }

/-! ### Handlers -/

/-- `seed`, up to the point where it waits. -/
def seed (selfPeerId : PeerId) (tx : SenderId) : Handler Unit :=
  modify (·.insertSender selfPeerId tx .seedNotifier)

/-- `await_hole_punch_trigger`, up to the point where it waits. -/
def awaitHolePunchTrigger (selfId : PeerId) (tx : SenderId) : Handler Unit :=
  modify (·.insertSender selfId tx .initHolePunch)

/-- `get_cert`, up to the point where it waits. -/
def getCert (selfAddr : PeerId) (tx : SenderId) : Handler Unit :=
  modify (·.insertSender selfAddr tx .certSender)

/-- Look for a sender so many times, and take it out of its map. -/
def takeSender (m : SenderMap) (peerId : PeerId) (absent : Failure) : ℕ → Handler SenderId
  | 0     => throw absent
  | n + 1 => do
    match ((← get).senders m).lookup peerId with
    | some tx =>
      modify (·.removeSender peerId m)
      return tx
    | none => takeSender m peerId absent n

/-- Send to a receiver, which fails when it is gone. -/
def sendTo (alive : SenderId → Bool) (tx : SenderId) (gone : Failure) : Handler Unit :=
  if alive tx then pure () else throw gone

/-- Give a peer id to the seeder that waits under another one. -/
def sendFileRequest (alive : SenderId → Bool) (r : ConnectionIds) : Handler Unit := do
  let seederPeerId ← okOr r.connectionPeer (invalidArgument "missing peer id")
  let _selfId ← okOr r.selfId (invalidArgument "missing self")
  let tx ← takeSender .seedNotifier seederPeerId (.status .notFound "missing seeding peer") attempts
  sendTo alive tx (.status .internal "Failed to send self_id")

/-- Give a certificate to the call that waits for it. The certificate is unwrapped when the sender
is already taken out of the map. -/
def sendCert (alive : SenderId → Bool) (r : CertMessage) : Handler Unit := do
  let peerId ← okOr r.peerId (invalidArgument "peer id not returned upon signal from server")
  let tx ← takeSender .certSender peerId (invalidArgument "Cert sender not registered") attempts
  let _cert ← okOr r.cert .panic
  sendTo alive tx (.status .internal "channel closed")

/-- Wake the seeder that waits for its trigger, with so many iterations left. The error of a missing
sender leaves the loop before it sleeps. -/
def initPunch (alive : SenderId → Bool) (peerId : PeerId) : ℕ → Handler Unit
  | 0     => pure ()
  | n + 1 => do
    match ((← get).senders .initHolePunch).lookup peerId with
    | some tx => sendTo alive tx (.status .internal "channel closed")
    | none    =>
      throw (.status .internal "no seeding peer")
      initPunch alive peerId n

/-! ### Requests with missing fields -/

/-- A handler refuses its request: it returns a status and changes nothing. -/
def Refuses {α : Type} (s : ConnectionService) (x : Handler α) : Prop :=
  ∃ code message, s.run x = (.error (.status code message), s)

end ConnectionService

/-- A request with optional fields. -/
inductive CheckedRequest where
  | sendFileRequest (r : ConnectionIds)
  | advertise (r : FileMessage)
  | updateRegisteredPeerId (r : FullId)
  | sendCert (r : CertMessage)
  | deleteFile (req : FileDelete)

namespace CheckedRequest

/-- One of the fields is missing. -/
def Incomplete : CheckedRequest → Prop
  | .sendFileRequest r        => r.connectionPeer = none ∨ r.selfId = none
  | .advertise r              => r.id = none ∨ r.hash = none ∨ r.infoHash = none
  | .updateRegisteredPeerId r => r.selfId = none ∨ r.peerId = none
  | .sendCert r               => r.peerId = none ∨ r.cert = none
  | .deleteFile req           => req.id = none ∨ req.hash = none

open ConnectionService in
/-- The handler of a request, its reply left out. -/
def handler (alive : SenderId → Bool) : CheckedRequest → Handler Unit
  | .sendFileRequest r        => ConnectionService.sendFileRequest alive r
  | .advertise r              => (fun _ => ()) <$> ConnectionService.advertise r
  | .updateRegisteredPeerId r => (fun _ => ()) <$> ConnectionService.updateRegisteredPeerId r
  | .sendCert r               => ConnectionService.sendCert alive r
  | .deleteFile req           => ConnectionService.deleteFile req

end CheckedRequest

namespace ConnectionService

variable {s t : ConnectionService} {p q : PeerId} {tx : SenderId}

/-- All looks of a call that is not interrupted have the same outcome. -/
lemma run_takeSender (m : SenderMap) (p : PeerId) (absent : Failure) (n : ℕ) :
    s.run (takeSender m p absent (n + 1)) = match (s.senders m).lookup p with
      | some tx => (.ok tx, s.removeSender p m)
      | none    => (.error absent, s) := by
  cases hlookup : (s.senders m).lookup p with
  | some tx => simp [takeSender, hlookup]
  | none =>
    dsimp only
    induction n with
    | zero => simp [takeSender, hlookup]
    | succ n ih =>
      rw [takeSender]
      simpa [hlookup] using ih

/-- What is done with a sender that is found. -/
lemma run_takeSender_bind {α : Type} (m : SenderMap) (p : PeerId) (absent : Failure)
    (f : SenderId → Handler α) :
    s.run (takeSender m p absent attempts >>= f) = match (s.senders m).lookup p with
      | some tx => (s.removeSender p m).run (f tx)
      | none    => (.error absent, s) := by
  rw [run_bind, run_takeSender m p absent 4]
  cases (s.senders m).lookup p with
  | some tx => rfl
  | none => rfl

/-- A `send_file_request` with both peer ids, to a call of `seed` that still waits. -/
lemma run_sendFileRequest_some (seederPeerId selfId : PeerId) :
    s.run (sendFileRequest (fun _ => true) ⟨some seederPeerId, some selfId⟩) =
      match s.seedNotifier.lookup seederPeerId with
      | some _ => (.ok (), s.removeSender seederPeerId .seedNotifier)
      | none   => (.error (.status .notFound "missing seeding peer"), s) := by
  rw [sendFileRequest, run_bind, run_okOr_some]
  exact run_takeSender_bind .seedNotifier seederPeerId _ _

/-- A `send_cert` with a peer id, to a call of `get_cert` that still waits. -/
lemma run_sendCert_some (peerId : PeerId) (cert : Option Cert) :
    s.run (sendCert (fun _ => true) ⟨some peerId, cert⟩) =
      match s.certSender.lookup peerId, cert with
      | some _, some _ => (.ok (), s.removeSender peerId .certSender)
      | some _, none   => (.error .panic, s.removeSender peerId .certSender)
      | none, _        => (.error (invalidArgument "Cert sender not registered"), s) := by
  rw [sendCert, run_bind, run_okOr_some]
  refine (run_takeSender_bind .certSender peerId _ _).trans ?_
  change (match s.certSender.lookup peerId with | some _ => _ | none => _) = _
  cases s.certSender.lookup peerId with
  | none => rfl
  | some r => cases cert <;> rfl

/-- The first look of `init_punch` decides. -/
lemma run_initPunch (alive : SenderId → Bool) (p : PeerId) (n : ℕ) :
    s.run (initPunch alive p (n + 1)) = match s.initHolePunch.lookup p with
      | some tx => s.run (sendTo alive tx (.status .internal "channel closed"))
      | none    => (.error (.status .internal "no seeding peer"), s) := by
  rw [initPunch, run_bind, run_get]
  change s.run (match s.initHolePunch.lookup p with
    | some tx => _
    | none    => _) = _
  cases s.initHolePunch.lookup p with
  | some tx => rfl
  | none => rfl

/-- A request that fails on a missing field at once is refused. -/
lemma refuses_okOr_none {α β : Type} (message : String) (f : α → Handler β) :
    s.Refuses (okOr none (invalidArgument message) >>= f) :=
  ⟨.invalidArgument, message, by simp [invalidArgument]⟩

lemma refuses_bind {α β : Type} {x : Handler α} {f : α → Handler β} {a : α}
    (hx : s.run x = (.ok a, s)) (hf : s.Refuses (f a)) : s.Refuses (x >>= f) := by
  obtain ⟨code, message, h⟩ := hf
  exact ⟨code, message, by rw [run_bind, hx]; exact h⟩

lemma refuses_map {α β : Type} {x : Handler α} (f : α → β) (hx : s.Refuses x) :
    s.Refuses (f <$> x) := by
  obtain ⟨code, message, h⟩ := hx
  exact ⟨code, message, by rw [run_map, h]⟩

/-- A certificate that is missing is noticed when the sender is taken. -/
lemma refuses_sendCert_iff (alive : SenderId → Bool) (p : PeerId) :
    s.Refuses (sendCert alive ⟨some p, none⟩) ↔ p ∉ s.certSender := by
  have hrun : s.run (sendCert alive ⟨some p, none⟩) = match s.certSender.lookup p with
      | some _ => (.error .panic, s.removeSender p .certSender)
      | none   => (.error (invalidArgument "Cert sender not registered"), s) := by
    rw [sendCert, run_bind, run_okOr_some]
    exact run_takeSender_bind .certSender p _ _
  rw [Refuses, hrun, ← AList.lookup_eq_none]
  cases s.certSender.lookup p with
  | some tx => simp
  | none => simp [invalidArgument]

/-- A request with a missing field is refused, without a panic and without an effect on the maps, if
and only if it is not a certificate message without its certificate to a peer that waits for one. -/
theorem incomplete_refused_iff (s : ConnectionService) (alive : SenderId → Bool)
    {r : CheckedRequest} (hr : r.Incomplete) :
    s.Refuses (r.handler alive) ↔ ∀ p, r = .sendCert ⟨some p, none⟩ → p ∉ s.certSender := by
  cases r with
  | sendCert r =>
    obtain ⟨_ | p, cert⟩ := r
    · exact iff_of_true (refuses_okOr_none _ _) (by simp)
    · obtain rfl : cert = none := hr.resolve_left (by simp)
      simpa [CheckedRequest.handler] using refuses_sendCert_iff alive p
  | sendFileRequest r =>
    refine iff_of_true ?_ (by simp)
    obtain ⟨_ | p, _ | q⟩ := r
    · exact refuses_okOr_none _ _
    · exact refuses_okOr_none _ _
    · exact refuses_bind (run_okOr_some s p _) (refuses_okOr_none _ _)
    · simp [CheckedRequest.Incomplete] at hr
  | advertise r =>
    refine iff_of_true (refuses_map _ ?_) (by simp)
    obtain ⟨id, _ | h, info⟩ := r
    · exact refuses_okOr_none _ _
    refine refuses_bind (run_okOr_some s h _) ?_
    obtain _ | info := info
    · exact refuses_okOr_none _ _
    refine refuses_bind (run_okOr_some s info _) ?_
    obtain rfl : id = none := by simpa [CheckedRequest.Incomplete] using hr
    exact refuses_okOr_none _ _
  | updateRegisteredPeerId r =>
    refine iff_of_true (refuses_map _ ?_) (by simp)
    obtain ⟨_ | c, peerId⟩ := r
    · exact refuses_okOr_none _ _
    refine refuses_bind (run_okOr_some s c _) ?_
    obtain rfl : peerId = none := by simpa [CheckedRequest.Incomplete] using hr
    exact refuses_okOr_none _ _
  | deleteFile req =>
    refine iff_of_true ?_ (by simp)
    obtain ⟨_ | c, hash⟩ := req
    · exact refuses_okOr_none _ _
    refine refuses_bind (run_okOr_some s c _) ?_
    obtain rfl : hash = none := by simpa [CheckedRequest.Incomplete] using hr
    exact refuses_okOr_none _ _

theorem incomplete_refused_absent :
    Refuses default ((CheckedRequest.sendCert ⟨some ⟨1, 1, 1, 1⟩, none⟩).handler fun _ => true) :=
  (incomplete_refused_iff default (fun _ => true)
    (r := .sendCert ⟨some ⟨1, 1, 1, 1⟩, none⟩) (.inr rfl)).mpr fun p _ => AList.notMem_empty p

/-- A message without a certificate panics and cuts off the call that waits for one. -/
theorem missing_cert_cuts_off : ¬ ∀ s alive (r : CheckedRequest), r.Incomplete →
    Refuses s (r.handler alive) := by
  intro h
  have hwaiting : (⟨1, 1, 1, 1⟩ : PeerId) ∈ (default.run (getCert ⟨1, 1, 1, 1⟩ 0)).2.certSender :=
    AList.lookup_isSome.mp rfl
  have hrefuses := h (default.run (getCert ⟨1, 1, 1, 1⟩ 0)).2 (fun _ => true)
    (.sendCert ⟨some ⟨1, 1, 1, 1⟩, none⟩) (.inr rfl)
  exact (refuses_sendCert_iff _ _).mp hrefuses hwaiting

/-! ### Sequences of requests -/

end ConnectionService

/-- A request of the connector, with the sender of a call that waits and the receivers that are
still there when it is handled. -/
inductive ConnectorRequest where
  | tracker (r : ServerRequest)
  | seed (selfPeerId : PeerId) (tx : SenderId)
  | awaitHolePunchTrigger (selfId : PeerId) (tx : SenderId)
  | getCert (selfAddr : PeerId) (tx : SenderId)
  | sendFileRequest (alive : SenderId → Bool) (r : ConnectionIds)
  | sendCert (alive : SenderId → Bool) (r : CertMessage)
  | initPunch (alive : SenderId → Bool) (peerId : PeerId)

namespace Connector

open ConnectionService

/-- The service after a request. -/
def step (s : ConnectionService) : ConnectorRequest → Option ConnectionService
  | .tracker r                       => s.step r
  | .seed selfPeerId tx              => some (s.run (seed selfPeerId tx)).2
  | .awaitHolePunchTrigger selfId tx => some (s.run (awaitHolePunchTrigger selfId tx)).2
  | .getCert selfAddr tx             => some (s.run (getCert selfAddr tx)).2
  | .sendFileRequest alive r         => some (s.run (sendFileRequest alive r)).2
  | .sendCert alive r                => some (s.run (sendCert alive r)).2
  | .initPunch alive peerId          => some (s.run (initPunch alive peerId attempts)).2

/-- The event of a request, if it is one that changes the tracker and succeeded. -/
def event (s : ConnectionService) : ConnectorRequest → Option Event
  | .tracker r => (s.handle r).bind fun reply => r.event reply.1
  | _          => none

/-- The events of a run, the latest last. -/
def history (tr : List (ConnectionService × ConnectorRequest)) : List Event :=
  tr.filterMap fun p => event p.1 p.2

/-- The services differ in the maps of senders only. -/
structure SameTracker (s t : ConnectionService) : Prop where
  clientRegistry : t.clientRegistry = s.clientRegistry
  fileTracker : t.fileTracker = s.fileTracker
  seederList : t.seederList = s.seederList

variable {s t : ConnectionService}

lemma SameTracker.refl (s : ConnectionService) : SameTracker s s := ⟨rfl, rfl, rfl⟩

lemma sameTracker_insertSender (s : ConnectionService) (p : PeerId) (tx : SenderId)
    (m : SenderMap) : SameTracker s (s.insertSender p tx m) := by
  cases m <;> exact ⟨rfl, rfl, rfl⟩

lemma sameTracker_removeSender (s : ConnectionService) (p : PeerId) (m : SenderMap) :
    SameTracker s (s.removeSender p m) := by
  cases m <;> exact ⟨rfl, rfl, rfl⟩

/-- A call that posts changes one map of senders at most. -/
lemma sameTracker_takeSender {α : Type} (m : SenderMap) (p : PeerId) (absent : Failure)
    {f : SenderId → Handler α} (hf : ∀ tx t, (ConnectionService.run t (f tx)).2 = t) :
    SameTracker s (s.run (takeSender m p absent attempts >>= f)).2 := by
  rw [run_takeSender_bind]
  cases (s.senders m).lookup p with
  | some tx =>
    change SameTracker s (ConnectionService.run _ (f tx)).2
    rw [hf]
    exact sameTracker_removeSender s p m
  | none => exact .refl s

/-- Sending has no effect on the maps. -/
lemma run_sendTo (alive : SenderId → Bool) (tx : SenderId) (gone : Failure) :
    (s.run (sendTo alive tx gone)).2 = s := by
  rw [sendTo]
  split_ifs <;> rfl

/-- The requests around the maps of senders leave the tracker as it is. -/
lemma sameTracker_of_step {r : ConnectorRequest} (hr : ∀ r', r ≠ .tracker r')
    (h : step s r = some t) : SameTracker s t := by
  cases r with
  | tracker r' => exact absurd rfl (hr r')
  | seed selfPeerId tx =>
    cases h
    exact sameTracker_insertSender s selfPeerId tx .seedNotifier
  | awaitHolePunchTrigger selfId tx =>
    cases h
    exact sameTracker_insertSender s selfId tx .initHolePunch
  | getCert selfAddr tx =>
    cases h
    exact sameTracker_insertSender s selfAddr tx .certSender
  | sendFileRequest alive r =>
    obtain ⟨_ | p, _ | q⟩ := r
    · cases h
      exact .refl s
    · cases h
      exact .refl s
    · cases h
      exact .refl s
    · cases h
      exact sameTracker_takeSender .seedNotifier p _ fun tx t => run_sendTo alive tx _
  | sendCert alive r =>
    obtain ⟨_ | p, cert⟩ := r
    · cases h
      exact .refl s
    · cases h
      refine sameTracker_takeSender .certSender p _ fun tx t => ?_
      cases cert with
      | none => rfl
      | some cert => exact run_sendTo alive tx _
  | initPunch alive p =>
    cases h
    rw [run_initPunch]
    split
    · rw [run_sendTo]
      exact .refl s
    · exact .refl s

/-- What holds of the empty server and its empty history, is preserved by every event, and does not
depend on the maps of senders, holds after every run. -/
lemma run_history {M : List Event → ConnectionService → Prop} (hinit : M [] default)
    (hevent : ∀ es s e, M es s → M (es ++ [e]) (s.apply e))
    (hsenders : ∀ es s t, M es s → SameTracker s t → M es t)
    {tr : List (ConnectionService × ConnectorRequest)} (hrun : Run step default tr s) :
    M (history tr) s := by
  induction hrun with
  | nil => exact hinit
  | @snoc t u tr r hrun hr ih =>
    rw [history, List.filterMap_append]
    change M (history tr ++ [(t, r)].filterMap _) u
    cases r with
    | tracker r =>
      obtain ⟨⟨reply, u'⟩, hhandle, rfl⟩ := Option.map_eq_some_iff.mp hr
      have hu := eq_of_handle hhandle
      cases hreply : r.event reply with
      | none =>
        rw [hreply] at hu
        subst hu
        simpa [event, hhandle, hreply] using ih
      | some e =>
        rw [hreply] at hu
        subst hu
        simpa [event, hhandle, hreply] using hevent _ _ _ ih
    | _ =>
      simpa [event] using hsenders _ _ _ ih (sameTracker_of_step (by simp) hr)

/-! ### The peer ids of a client -/

/-- The client has registered this peer id at some time. -/
def HasUsed (es : List Event) (c : ClientId) (p : PeerId) : Prop :=
  .registered c (some p) ∈ es ∨ .updated c p ∈ es

/-- Different clients register different peer ids. -/
def DifferentIds (es : List Event) : Prop :=
  ∀ c d p, HasUsed es c p → HasUsed es d p → c = d

/-- The peer ids of a single client are different from all others. -/
lemma differentIds_of_forall {es : List Event} {c : ClientId}
    (h : ∀ d p, HasUsed es d p → d = c) : DifferentIds es :=
  fun d d' p hd hd' => (h d p hd).trans (h d' p hd').symm

/-- A peer id is registered by one of two requests. -/
lemma exists_request_of_hasUsed {tr : List (ConnectionService × ConnectorRequest)} {c : ClientId}
    {p : PeerId} (h : HasUsed (history tr) c p) :
    ∃ q ∈ tr, (∃ uuids, q.2 = .tracker (.registerClient ⟨some p⟩ uuids)) ∨
      q.2 = .tracker (.updateRegisteredPeerId ⟨some c, some p⟩) := by
  obtain ⟨e, he, hmem⟩ : ∃ e, (e = .registered c (some p) ∨ e = .updated c p) ∧ e ∈ history tr :=
    h.elim (fun h => ⟨_, .inl rfl, h⟩) fun h => ⟨_, .inr rfl, h⟩
  obtain ⟨⟨s, r⟩, hr, hevent⟩ := List.mem_filterMap.mp hmem
  refine ⟨_, hr, ?_⟩
  cases r with
  | tracker r =>
    obtain ⟨reply, -, hevent⟩ := Option.bind_eq_some_iff.mp hevent
    unfold ServerRequest.event at hevent
    split at hevent
    · rename_i r uuids _ _ _
      rcases he with rfl | rfl
      · obtain ⟨rfl, hp⟩ := Event.registered.inj (Option.some.inj hevent)
        exact .inl ⟨uuids, by rw [← hp]⟩
      · cases hevent
    · rcases he with rfl | rfl <;> cases hevent
      exact .inr rfl
    all_goals
      rcases he with rfl | rfl <;> cases hevent
  | _ => cases hevent

/-- A client that is registered with a peer id has registered it. -/
lemma hasUsed_of_registeredWith {es : List Event} {c : ClientId} {p : PeerId}
    (h : RegisteredWith es c p) : HasUsed es c p := by
  obtain ⟨e, hlatest, hregistration⟩ := Option.bind_eq_some_iff.mp h
  have hmem : e ∈ es := List.mem_reverse.mp (List.mem_of_find?_eq_some hlatest)
  have hclient : e.registers c = true := List.find?_some hlatest
  cases e with
  | registered d q =>
    obtain rfl : d = c := by simpa [Event.registers] using hclient
    obtain rfl : q = some p := by simpa [Event.registration] using hregistration
    exact .inl hmem
  | updated d q =>
    obtain rfl : d = c := by simpa [Event.registers] using hclient
    obtain rfl : q = p := by simpa [Event.registration] using hregistration
    exact .inr hmem
  | _ => cases hregistration

/-- The registry is that of the history. -/
lemma lookup_clientRegistry_run {tr : List (ConnectionService × ConnectorRequest)}
    (hrun : Run step default tr s) (c : ClientId) :
    s.clientRegistry.lookup c = registrationOf (history tr) c := by
  refine run_history (M := fun es s => ∀ c, s.clientRegistry.lookup c = registrationOf es c)
    (fun c => rfl) (fun es s e hs c => ?_) (fun es s t hs hsame c => ?_) hrun c
  · rw [registrationOf_concat, ← hs, lookup_clientRegistry_apply]
  · rw [hsame.clientRegistry, hs]

end Connector

/-! ### Posting calls that are not interrupted -/

namespace Rendezvous

open Mailbox ConnectionService

variable (shards : Shards) {s : Rendezvous} {i : ℕ}

/-- What a call around `seed_notifier` does alone, the server does. -/
lemma reaches_seeds {o : Office PeerId PeerId}
    (h : Reaches (Office.step attempts) (Mailbox.Action.Posts i) s.seedOffice o) :
    Reaches (step shards) (fun a => ∃ b, a = .seeds b ∧ b.Posts i) s (s.setSeeds o) := by
  refine h.map s.setSeeds Action.seeds fun o a o' ha => ?_
  change (Office.step attempts o a).map (s.setSeeds o).setSeeds = _
  rw [ha]
  rfl

/-- What a call around `cert_sender` does alone, the server does. -/
lemma reaches_certs {o : Office PeerId Cert}
    (h : Reaches (Office.step attempts) (Mailbox.Action.Posts i) s.certOffice o) :
    Reaches (step shards) (fun a => ∃ b, a = .certs b ∧ b.Posts i) s (s.setCerts o) := by
  refine h.map s.setCerts Action.certs fun o a o' ha => ?_
  change (Office.step attempts o a).map (s.setCerts o).setCerts = _
  rw [ha]
  rfl

variable {tr : List (Rendezvous × Action)} (hrun : Run (step shards) init tr s)

include hrun

/-- A `send_file_request` whose fields are there and that is not interrupted does what its handler
does. -/
lemma sendFileRequest_alone (hi : s.seeds.posts i = none) (seederPeerId selfId : PeerId) :
    ∃ t p reply, Reaches (step shards) (fun a => ∃ b, a = .seeds b ∧ b.Posts i) s t ∧
      t.seeds.posts i = some p ∧ sendFileRequestReply p.state = some reply ∧
      s.tracker.service.run (ConnectionService.sendFileRequest (fun _ => true)
        ⟨some seederPeerId, some selfId⟩) = (reply, t.tracker.service) := by
  obtain ⟨o, ho, hslots, hpost⟩ := Office.reaches_post (bothSound_run hrun).1 hi
    (show 0 < attempts by decide) seederPeerId (some selfId)
  have hnotifier : s.tracker.service.seedNotifier = s.seedOffice.slots := rfl
  have hservice : (s.setSeeds o).tracker.service =
      { s.tracker.service with seedNotifier := s.seedOffice.slots.erase seederPeerId } := by
    rw [← hslots]
    rfl
  rw [ConnectionService.run_sendFileRequest_some, hnotifier]
  cases hslot : s.seedOffice.slots.lookup seederPeerId with
  | none =>
    rw [Office.erase_eq_self hslot] at hservice
    refine ⟨_, _, _, reaches_seeds shards ho, hpost, ?_, Prod.ext rfl hservice.symm⟩
    simp only [Office.postedAlone, hslot]
    rfl
  | some r =>
    refine ⟨_, _, _, reaches_seeds shards ho, hpost, ?_, Prod.ext rfl hservice.symm⟩
    simp only [Office.postedAlone, hslot]
    rfl

/-- So does a `send_cert`, also without a certificate. -/
lemma sendCert_alone (hi : s.certs.posts i = none) (peerId : PeerId) (cert : Option Cert) :
    ∃ t p reply, Reaches (step shards) (fun a => ∃ b, a = .certs b ∧ b.Posts i) s t ∧
      t.certs.posts i = some p ∧ sendCertReply p.state = some reply ∧
      s.tracker.service.run (ConnectionService.sendCert (fun _ => true) ⟨some peerId, cert⟩)
        = (reply, t.tracker.service) := by
  obtain ⟨o, ho, hslots, hpost⟩ := Office.reaches_post (bothSound_run hrun).2 hi
    (show 0 < attempts by decide) peerId cert
  have hcerts : s.tracker.service.certSender = s.certOffice.slots := rfl
  have hservice : (s.setCerts o).tracker.service =
      { s.tracker.service with certSender := s.certOffice.slots.erase peerId } := by
    rw [← hslots]
    rfl
  rw [ConnectionService.run_sendCert_some, hcerts]
  cases hslot : s.certOffice.slots.lookup peerId with
  | none =>
    rw [Office.erase_eq_self hslot] at hservice
    refine ⟨_, _, _, reaches_certs shards ho, hpost, ?_, Prod.ext rfl hservice.symm⟩
    simp only [Office.postedAlone, hslot]
    rfl
  | some r =>
    cases cert with
    | none =>
      refine ⟨_, _, _, reaches_certs shards ho, hpost, ?_, Prod.ext rfl hservice.symm⟩
      simp only [Office.postedAlone, hslot]
      rfl
    | some cert =>
      refine ⟨_, _, _, reaches_certs shards ho, hpost, ?_, Prod.ext rfl hservice.symm⟩
      simp only [Office.postedAlone, hslot]
      rfl

end Rendezvous

end BearTorrent
