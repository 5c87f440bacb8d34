import BearTorrent.Client.Seeding

/-!
# Whether a waiting seeder is reachable

The server keeps one peer id for a client, the one registered last. A `file_request` registers its
connections there as well, while the `seed` call of the seeding loop goes on waiting under the peer
id that the loop has registered.
-/

namespace BearTorrent

open Function Transition

namespace ConnectionService

/-- Where `get_file_peer_list` comes to the client, it returns the peer id `p`. -/
def Returns (s : ConnectionService) (h : FileHash) (c : ClientId) (p : PeerId) : Prop :=
  ∀ before after, s.seeders h = before ++ c :: after →
    s.getFilePeerList h = before.filterMap s.peerIdOf ++ p :: after.filterMap s.peerIdOf

variable {s : ConnectionService} {h : FileHash} {c : ClientId} {p : PeerId}

/-- What is returned for a client is its peer id. -/
lemma returns_iff (hc : c ∈ s.seeders h) : s.Returns h c p ↔ s.peerIdOf c = some p := by
  have hlist : ∀ {before after}, s.seeders h = before ++ c :: after → s.getFilePeerList h =
      before.filterMap s.peerIdOf ++ ((s.peerIdOf c).toList ++ after.filterMap s.peerIdOf) := by
    intro before after hsplit
    rw [getFilePeerList_eq, hsplit, List.filterMap_append]
    cases hpeer : s.peerIdOf c <;> simp [hpeer]
  constructor
  · intro hreturns
    obtain ⟨before, after, hsplit⟩ := List.append_of_mem hc
    have heq := (hlist hsplit).symm.trans (hreturns before after hsplit)
    have htail := List.append_cancel_left heq
    cases hpeer : s.peerIdOf c with
    | none =>
      rw [hpeer] at htail
      exact absurd (congrArg List.length htail) (by simp)
    | some q =>
      rw [hpeer] at htail
      exact congrArg some (List.cons.inj htail).1
  · intro hpeer before after hsplit
    rw [hlist hsplit, hpeer]
    rfl

end ConnectionService

namespace Rendezvous

/-- A `send_file_request` to `p` finds the `seed` call `i` when it looks for it. -/
def Finds (s : Rendezvous) (shards : Shards) (p : PeerId) (i : ℕ) : Prop :=
  ∀ n k message, s.seeds.posts n = some ⟨p, message, .trying k⟩ →
    ∃ t, s.step shards (.seeds (.attempt n)) = some t ∧
      t.seeds.posts n = some ⟨p, message, .holding i⟩

variable {shards : Shards} {s : Rendezvous} {p : PeerId} {i : ℕ}

lemma finds_of_lookup (hs : BothSound s)
    (hp : s.tracker.service.seedNotifier.lookup p = some i) : s.Finds shards p i := by
  intro n k message hn
  obtain ⟨l, hl, -⟩ := hs.1.slot p i hp
  change s.seeds.listeners i = some l at hl
  simp only [step, Mailbox.Office.step, Mailbox.Office.attempt, seedOffice, hn, hp, hl]
  exact ⟨_, rfl, update_self _ _ _⟩

end Rendezvous

/-- `delist_client` of this client is about to take it from the registry. -/
lemma TrackerMove.lookup_clientRegistry {s t : ConnectionService} {state state' : TrackerState}
    {c : ClientId} (h : TrackerMove s state state' t) (hc : state ≠ .unregistering c) :
    t.clientRegistry.lookup c = s.clientRegistry.lookup c := by
  have hne : ∀ {d}, TrackerState.unregistering d = state →
      (s.unregister d).clientRegistry.lookup c = s.clientRegistry.lookup c := by
    rintro d rfl
    rw [ConnectionService.lookup_unregister, if_neg]
    rintro rfl
    exact hc rfl
  cases h with
  | unregister d => exact hne rfl
  | search d => exact hne rfl
  | retain | retainLast | visit | visitLast => rw [ConnectionService.clientRegistry_retainOthers]
  | drop c p m => cases m <;> rfl
  | _ => rfl

namespace Seeding

variable {env : Env} {shards : Shards} {client : TorrentClient} {s t : Seeding} {p : PeerId}
  {i : ℕ}

/-- The server's steps that other clients cause: they are not about this client. -/
def Foreign (c : ClientId) : Action → Prop
  | .server (.register d _)                       => d ≠ c
  | .server (.tracker (.call _ (.delistClient d))) => d ≠ c
  | _                                             => True

/-- The peer id that the client has registered last, after one more step. -/
def afterStep (r : Option PeerId) : Action → Option PeerId
  | .register q => some q
  | .request q  => some q
  | _           => r

/-- The peer id that the client has registered last in a run. -/
def lastRegistered (tr : List (Seeding × Action)) : Option PeerId :=
  tr.foldl (fun r p => afterStep r p.2) none

lemma lastRegistered_eq (tr : List (Seeding × Action)) :
    lastRegistered tr = (tr.map Prod.snd).foldl afterStep none := by
  rw [lastRegistered, List.foldl_map]

/-- The server keeps the peer id registered last, and nothing is about to remove it. -/
structure Keeps (c : ClientId) (r : Option PeerId) (s : Seeding) : Prop where
  lookup : s.service.clientRegistry.lookup c = some r
  listed : ∀ i, s.requests i ≠ some (.unregistering c)

variable {r : Option PeerId}

lemma keeps_init : Keeps client.uid none (init client) := by
  constructor
  · exact AList.lookup_insert _
  · intro i hi
    cases hi

/-- The state in which a request starts takes a client from the registry only for that client. -/
lemma start_ne_unregistering {c : ClientId} {r : TrackerRequest} (hr : r ≠ .delistClient c) :
    r.start ≠ .unregistering c := by
  cases r with
  | advertise r =>
    obtain ⟨_ | _, _ | _, _ | _⟩ := r <;> rintro ⟨⟩
  | deleteFile req =>
    obtain ⟨_ | _, _ | _⟩ := req <;> rintro ⟨⟩
  | delistClient d =>
    rintro ⟨⟩
    exact hr rfl

/-- A step of the tracker that is not the client's `delist_client`. -/
lemma Keeps.tracker {c : ClientId} (hs : Keeps c r s) {a : Tracker.Action} {tracker : Tracker}
    (h : s.server.tracker.step shards a = some tracker) (ha : ∀ i, a ≠ .call i (.delistClient c))
    (ht : t.server.tracker = tracker) : Keeps c r t := by
  subst ht
  cases Tracker.trackerStep_of_eq_some h with
  | @call j request _ hj hrequests hservice =>
    constructor
    · rw [service, hservice]
      exact hs.lookup
    · intro k
      rw [requests, hrequests, update_apply]
      split_ifs with hk
      · intro hstart
        refine start_ne_unregistering ?_ (Option.some.inj hstart)
        rintro rfl
        exact ha j rfl
      · exact hs.listed k
  | @move _ state state' _ hcall hi hrequests hmove =>
    have hstate : state ≠ .unregistering c := by
      rintro rfl
      exact hs.listed a.request hi
    constructor
    · rw [service, hmove.lookup_clientRegistry hstate]
      exact hs.lookup
    · intro k
      rw [requests, hrequests, update_apply]
      split_ifs with hk
      · rintro ⟨⟩
        cases hmove
      · exact hs.listed k

/-- A registration. -/
lemma Keeps.register {c d : ClientId} {q : Option PeerId} (hs : Keeps c r s)
    (hservice : t.service = s.service.register d q) (hrequests : t.requests = s.requests) :
    Keeps c (if c = d then q else r) t := by
  constructor
  · rw [hservice, ConnectionService.lookup_register]
    split_ifs with hc
    · rfl
    · exact hs.lookup
  · rw [hrequests]
    exact hs.listed

/-- The server keeps the peer id that the client has registered last. -/
lemma Keeps.step {a : Action} (hs : Keeps client.uid r s) (h : SeedingStep env shards client s a t)
    (ha : Foreign client.uid a) : Keeps client.uid (afterStep r a) t := by
  have hcall : ∀ {i request server}, request ≠ .delistClient client.uid →
      s.server.step shards (.tracker (.call i request)) = some server →
      t.server = server → Keeps client.uid r t := by
    intro i request server hrequest hserver ht
    obtain ⟨tracker, htracker, rfl⟩ := Option.map_eq_some_iff.mp hserver
    refine hs.tracker htracker (fun j hj => ?_) (by rw [ht])
    cases hj
    exact hrequest rfl
  have hregister : ∀ {q}, t.server = (s.registerNewConnection client q).server →
      Keeps client.uid (some q) t := by
    intro q ht
    have hnew := hs.register (t := t) (d := client.uid) (q := some q) (by rw [service, ht]; rfl)
      (by rw [requests, ht]; rfl)
    rwa [if_pos rfl] at hnew
  cases h with
  | register hloop => exact hregister rfl
  | request => exact hregister rfl
  | advertise hloop hserver => exact hcall (by simp [TorrentClient.advertise]) hserver rfl
  | delete hserver => exact hcall (by simp [TorrentClient.deleteFile]) hserver rfl
  | seed hloop hserver =>
    obtain ⟨o, -, rfl⟩ := Option.map_eq_some_iff.mp hserver
    exact ⟨hs.lookup, hs.listed⟩
  | @server b server hserver =>
    cases b with
    | tracker b =>
      obtain ⟨tracker, htracker, rfl⟩ := Option.map_eq_some_iff.mp hserver
      refine hs.tracker htracker ?_ rfl
      rintro i rfl
      exact ha rfl
    | register d q =>
      cases hserver
      have hnew := hs.register (t := { s with
        server := s.server.setService (s.service.register d q) }) (d := d) (q := q) rfl rfl
      rwa [if_neg (Ne.symm ha)] at hnew
    | seeds b =>
      obtain ⟨o, -, rfl⟩ := Option.map_eq_some_iff.mp hserver
      exact ⟨hs.lookup, hs.listed⟩
    | certs b =>
      obtain ⟨o, -, rfl⟩ := Option.map_eq_some_iff.mp hserver
      exact ⟨hs.lookup, hs.listed⟩
  | _ => exact ⟨hs.lookup, hs.listed⟩

lemma keeps_run {tr : List (Seeding × Action)}
    (hrun : Run (step env shards client) (init client) tr s)
    (hforeign : ∀ p ∈ tr, Foreign client.uid p.2) : Keeps client.uid (lastRegistered tr) s := by
  generalize hs₀ : init client = s₀ at hrun
  induction hrun with
  | nil =>
    subst hs₀
    exact keeps_init
  | @snoc u t tr a hrun ha ih =>
    have hu := ih fun p hp => hforeign p (List.mem_append_left _ hp)
    have ht := hu.step (seedingStep_of_eq_some ha) (hforeign (u, a) (by simp))
    rwa [lastRegistered, List.foldl_append]

/-- The server part of a step is a step of the server, or there is none. -/
lemma server_of_step {a : Action} (h : SeedingStep env shards client s a t) :
    t.server = s.server ∨ ∃ b, s.server.step shards b = some t.server := by
  cases h with
  | register => exact .inr ⟨.register client.uid (some _), rfl⟩
  | request => exact .inr ⟨.register client.uid (some _), rfl⟩
  | advertise hloop hserver => exact .inr ⟨_, hserver⟩
  | seed hloop hserver => exact .inr ⟨_, hserver⟩
  | delete hserver => exact .inr ⟨_, hserver⟩
  | server hserver => exact .inr ⟨_, hserver⟩
  | _ => exact .inl rfl

lemma bothSound_run {tr : List (Seeding × Action)}
    (hrun : Run (step env shards client) (init client) tr s) : s.server.BothSound := by
  refine hrun.preserve (I := fun s => s.server.BothSound) (fun s a t hs h => ?_)
    Rendezvous.bothSound_init
  rcases server_of_step (seedingStep_of_eq_some h) with ht | ⟨b, hb⟩
  · rw [ht]
    exact hs
  · exact hs.step hb

/-- The loop waits for the reply of its `seed` call `i`, which the server has under `p`. -/
structure Pending (s : Seeding) (p : PeerId) (i : ℕ) : Prop where
  loop : s.loop = .seeding p i
  slot : s.service.seedNotifier.lookup p = some i

/-- While a `seed` call of the client waits under `p`, what `get_file_peer_list` returns for the
client is `p`, under which a request finds the call, if and only if `p` is the peer id that the
client has registered last. -/
theorem pending_seed_returned_iff {tr : List (Seeding × Action)}
    (hrun : Run (step env shards client) (init client) tr s)
    (hforeign : ∀ p ∈ tr, Foreign client.uid p.2) (hpending : Pending s p i) {h : FileHash}
    (hadvertised : client.uid ∈ s.service.seeders h) :
    s.service.Returns h client.uid p ∧ s.server.Finds shards p i ↔
      lastRegistered tr = some p := by
  have hpeer : s.service.peerIdOf client.uid = lastRegistered tr := by
    rw [ConnectionService.peerIdOf, (keeps_run hrun hforeign).lookup]
    rfl
  rw [ConnectionService.returns_iff hadvertised, hpeer]
  exact and_iff_left (Rendezvous.finds_of_lookup (bothSound_run hrun) hpending.slot)

/-! ### A download while a seed call waits -/

/-- The digest of an empty file with the name `a`. -/
def emptyDigest : Digest :=
  ⟨[68, 194, 68, 149, 148, 34, 199, 176, 134, 185, 170, 156, 50, 7, 131, 76, 73, 128, 37, 171], rfl⟩

def emptyEnv : Env where
  sha1 bytes :=
    if bytes = [0, 0, 0, 0, 0, 0, 0, 0, 0, 1, 0, 0, 97] then emptyDigest else Digest.zero
  overflowChecks := true

def emptyFile : InfoHash := ⟨"a", 0, 65536, []⟩

/-- A client that has the empty file. -/
def emptyClient : TorrentClient := ⟨⟨"c"⟩, AList.insert emptyDigest emptyFile ∅⟩

/-- A first round, up to the call of `seed`. -/
def firstRound : List Action :=
  [.register Rendezvous.seederPeer, .advertiseAll [⟨emptyDigest, emptyFile⟩], .advertise 0,
    .server (.tracker (.advance 0)), .server (.tracker (.advance 0)), .advertised, .seed 0]

lemma foreign_firstRound : ∀ a ∈ firstRound, Foreign emptyClient.uid a := by
  simp [firstRound, Foreign]

lemma exec_firstRound : ∃ s,
    exec (step emptyEnv Rendezvous.oneShard emptyClient) (init emptyClient) firstRound = some s ∧
      Pending s Rendezvous.seederPeer 0 ∧
      s.service.seeders (emptyFile.fileHash emptyEnv) = [emptyClient.uid] :=
  ⟨_, rfl, ⟨rfl, rfl⟩, rfl⟩

/-- In the first round the client is reachable. -/
theorem pending_seed_returned_iff_round :
    ∃ tr s, Run (step emptyEnv Rendezvous.oneShard emptyClient) (init emptyClient) tr s ∧
      Pending s Rendezvous.seederPeer 0 ∧
      s.service.Returns (emptyFile.fileHash emptyEnv) emptyClient.uid Rendezvous.seederPeer := by
  obtain ⟨s, hs, hpending, hadvertised⟩ := exec_firstRound
  obtain ⟨tr, hrun, hmap⟩ := run_of_exec hs
  have hforeign := forall_of_map (P := fun _ a => Foreign emptyClient.uid a) hmap
    fun a ha _ => foreign_firstRound a ha
  refine ⟨tr, s, hrun, hpending, ((pending_seed_returned_iff hrun hforeign hpending
    (by rw [hadvertised]; exact List.mem_singleton_self _)).mpr ?_).1⟩
  rw [lastRegistered_eq, hmap]
  rfl

/-- A `file_request` makes the server return a peer id under which no `seed` call waits. -/
theorem request_hides_pending_seed :
    ∃ tr s, Run (step emptyEnv Rendezvous.oneShard emptyClient) (init emptyClient) tr s ∧
      (∀ p ∈ tr, Foreign emptyClient.uid p.2) ∧ Pending s Rendezvous.seederPeer 0 ∧
      s.service.seeders (emptyFile.fileHash emptyEnv) = [emptyClient.uid] ∧
      s.service.getFilePeerList (emptyFile.fileHash emptyEnv) = [Rendezvous.leecherPeer] ∧
      s.service.seedNotifier.lookup Rendezvous.leecherPeer = none ∧
      Rendezvous.leecherPeer ≠ Rendezvous.seederPeer := by
  obtain ⟨s, hs, hrest⟩ : ∃ s, exec (step emptyEnv Rendezvous.oneShard emptyClient)
        (init emptyClient) (firstRound ++ [.request Rendezvous.leecherPeer]) = some s ∧
      Pending s Rendezvous.seederPeer 0 ∧
      s.service.seeders (emptyFile.fileHash emptyEnv) = [emptyClient.uid] ∧
      s.service.getFilePeerList (emptyFile.fileHash emptyEnv) = [Rendezvous.leecherPeer] ∧
      s.service.seedNotifier.lookup Rendezvous.leecherPeer = none ∧
      Rendezvous.leecherPeer ≠ Rendezvous.seederPeer :=
    ⟨_, rfl, ⟨rfl, rfl⟩, rfl, rfl, rfl, by decide⟩
  obtain ⟨tr, hrun, hmap⟩ := run_of_exec hs
  refine ⟨tr, s, hrun, forall_of_map (P := fun _ a => Foreign emptyClient.uid a) hmap
    fun a ha _ => ?_, hrest⟩
  rcases List.mem_append.mp ha with ha | ha
  · exact foreign_firstRound a ha
  · rw [List.mem_singleton.mp ha]
    trivial

end Seeding

end BearTorrent
