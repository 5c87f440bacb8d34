import BearTorrent.Client.Reachability

/-!
# Whether a deleted file stays withdrawn

`delete_file` takes the client off the server's list for a file. The seeding loop advertises all
files of `file_hashes` in every round, and `delete_file` does not take the file out of
`file_hashes`.
-/

namespace BearTorrent

open Function Transition

variable {env : Env} {shards : Shards} {client : TorrentClient} {c : ClientId} {h : FileHash}
  {i : RequestId}

/-! ### Advertise requests under way -/

/-- The request is going to add the client to the seeders of the file. -/
def TrackerState.Advertises (c : ClientId) (h : FileHash) : TrackerState → Prop
  | .tracking d k _ => d = c ∧ k = h
  | .pushing d k    => d = c ∧ k = h
  | _               => False

/-- An `advertise` of the client for the file. -/
def TrackerRequest.Advertises (c : ClientId) (h : FileHash) : TrackerRequest → Prop
  | .advertise r => r.id = some c ∧ r.hash = some h
  | _            => False

lemma TrackerRequest.advertises_of_start {r : TrackerRequest} (hr : r.start.Advertises c h) :
    r.Advertises c h := by
  cases r with
  | advertise r =>
    obtain ⟨_ | d, _ | k, _ | info⟩ := r
    case some.some.some => exact ⟨congrArg some hr.1, congrArg some hr.2⟩
    all_goals exact hr.elim
  | deleteFile req =>
    obtain ⟨_ | _, _ | _⟩ := req <;> exact hr.elim
  | delistClient d => exact hr.elim

namespace TrackerMove

variable {s t : ConnectionService} {state state' : TrackerState}

lemma advertises (hm : TrackerMove s state state' t) (ha : state'.Advertises c h) :
    state.Advertises c h := by
  cases hm <;> first | exact ha | exact ha.elim

/-- Only an `advertise` adds a seeder. -/
lemma mem_of_mem_seeders (hm : TrackerMove s state state' t) (ha : ¬ state.Advertises c h)
    (hc : c ∈ t.seeders h) : c ∈ s.seeders h := by
  cases hm with
  | push d k =>
    rcases ConnectionService.mem_pushSeeder.mp hc with hc | ⟨rfl, rfl⟩
    · exact hc
    · exact absurd ⟨rfl, rfl⟩ ha
  | retain | retainLast | visit | visitLast => exact (ConnectionService.mem_retainOthers.mp hc).1
  | remove k =>
    rw [ConnectionService.seeders_removeSeeders] at hc
    split_ifs at hc
    · cases hc
    · exact hc
  | drop => rwa [ConnectionService.seeders_removeSender] at hc
  | _ => exact hc

/-- `delete_file` takes the client off the list. -/
lemma not_mem_of_retaining (hm : TrackerMove s (.retaining c h) state' t) : c ∉ t.seeders h := by
  have hretain : c ∉ (s.retainOthers h c).seeders h := fun hc =>
    (ConnectionService.mem_retainOthers.mp hc).2 ⟨rfl, rfl⟩
  cases hm with
  | retainLast => exact hretain
  | retain => exact hretain

/-- No request starts over. -/
lemma ne_retaining (hm : TrackerMove s state state' t) {d : ClientId} {k : FileHash} :
    state' ≠ .retaining d k := by
  cases hm <;> rintro ⟨⟩

end TrackerMove

/-- A step of the tracker leaves the other requests alone. -/
lemma TrackerStep.requests_of_ne {s t : Tracker} {a : Tracker.Action} (hstep : TrackerStep s a t)
    {k : RequestId} (hk : k ≠ a.request) : t.requests k = s.requests k := by
  cases hstep with
  | call hj hrequests => exact (congrFun hrequests k).trans (update_of_ne hk _ _)
  | move hcall hi hrequests => exact (congrFun hrequests k).trans (update_of_ne hk _ _)

/-- A `delete_file` that is about to take its client off the list goes on by `advance`. -/
lemma Tracker.advance_of_retaining {s t : Tracker} {a : Tracker.Action}
    (hstep : s.step shards a = some t) (hi : s.requests a.request = some (.retaining c h)) :
    a = .advance a.request := by
  cases a with
  | call j r =>
    rw [Action.request] at hi
    simp [step, hi] at hstep
  | advance j => rfl
  | visit j k =>
    rw [Action.request] at hi
    simp [step, hi, visit] at hstep

/-- The files that are left in a round of the loop. -/
def SeedingState.rest : SeedingState → List InfoHash
  | .advertising _ rest => rest
  | .awaiting _ _ rest  => rest
  | _                   => []

namespace Seeding

variable {s t : Seeding} {infoHash : InfoHash}

/-- No `advertise` of the client for the file is under way or left in the round of the loop. -/
structure Quiet (env : Env) (c : ClientId) (h : FileHash) (s : Seeding) : Prop where
  requests : ∀ i state, s.requests i = some state → ¬ state.Advertises c h
  loop : ∀ info ∈ s.loop.rest, info.fileHash env ≠ h

/-- The client is off the list for the file, and nothing is going to add it. -/
structure Away (env : Env) (c : ClientId) (h : FileHash) (s : Seeding) : Prop extends
    Quiet env c h s where
  seeders : c ∉ s.service.seeders h

/-- Nobody but the seeding loop advertises the file for the client. -/
def AddsNoFile (c : ClientId) (h : FileHash) : Action → Prop
  | .server (.tracker (.call _ r)) => ¬ r.Advertises c h
  | _                              => True

/-- A step that leaves the requests and the seeders alone. -/
lemma Away.congr (hs : Away env c h s) (hrequests : t.requests = s.requests)
    (hseeders : t.service.seeders h = s.service.seeders h)
    (hloop : ∀ info ∈ t.loop.rest, info.fileHash env ≠ h) : Away env c h t := by
  constructor
  · exact ⟨hrequests ▸ hs.requests, hloop⟩
  · rw [hseeders]
    exact hs.seeders

/-- A step of the tracker that calls no `advertise` of the client for the file. -/
lemma Quiet.tracker (hs : Quiet env c h s) {a : Tracker.Action}
    (hstep : TrackerStep s.server.tracker a t.server.tracker)
    (ha : ∀ j r, a = .call j r → ¬ r.Advertises c h)
    (hloop : ∀ info ∈ t.loop.rest, info.fileHash env ≠ h) : Quiet env c h t := by
  refine ⟨fun k other hk hother => ?_, hloop⟩
  cases hstep with
  | @call j r _ hj hrequests hservice =>
    rw [Seeding.requests, hrequests, update_apply] at hk
    split_ifs at hk with hkj
    · cases hk
      exact ha j r rfl (TrackerRequest.advertises_of_start hother)
    · exact hs.requests k other hk hother
  | @move _ state state' _ hcall hi hrequests hmove =>
    rw [Seeding.requests, hrequests, update_apply] at hk
    split_ifs at hk with hka
    · cases hk
      exact hs.requests a.request state hi (hmove.advertises hother)
    · exact hs.requests k other hk hother

lemma Away.tracker (hs : Away env c h s) {a : Tracker.Action}
    (hstep : TrackerStep s.server.tracker a t.server.tracker)
    (ha : ∀ j r, a = .call j r → ¬ r.Advertises c h)
    (hloop : ∀ info ∈ t.loop.rest, info.fileHash env ≠ h) : Away env c h t := by
  refine ⟨hs.toQuiet.tracker hstep ha hloop, ?_⟩
  cases hstep with
  | call hj hrequests hservice =>
    rw [service, hservice]
    exact hs.seeders
  | @move _ state state' _ hcall hi hrequests hmove =>
    exact fun hc => hs.seeders (hmove.mem_of_mem_seeders (hs.requests a.request state hi) hc)

/-! ### A deletion -/

/-- Request `i` has taken its client off the list. -/
def Withdrawn (i : RequestId) (s : Seeding) : Prop :=
  ∃ state, s.requests i = some state ∧ ∀ d k, state ≠ .retaining d k

/-- When request `i` takes the client off the list, no `advertise` of the client for the file is
under way or left in the round, and afterwards no round is started with the file. -/
def StaysAway (env : Env) (client : TorrentClient) (i : RequestId) (h : FileHash) (s : Seeding) :
    Action → Prop
  | .server (.tracker (.advance j)) => j = i → ¬ Withdrawn i s → Quiet env client.uid h s
  | .advertiseAll _ => Withdrawn i s → ∀ e ∈ client.fileHashes.entries, e.2.fileHash env ≠ h
  | _ => True

/-- Request `i` of `delete_file` is about to take the client off the list, or the client is off the
list and stays so. -/
def Deleting (env : Env) (client : TorrentClient) (i : RequestId) (h : FileHash) (s : Seeding) :
    Prop :=
  s.requests i = some (.retaining client.uid h) ∨ Withdrawn i s ∧ Away env client.uid h s

/-- A step that leaves the requests and the seeders alone, and starts no round with the file. -/
lemma Deleting.congr (hs : Deleting env client i h s) (hrequests : t.requests = s.requests)
    (hseeders : t.service.seeders h = s.service.seeders h)
    (hloop : Withdrawn i s → (∀ info ∈ s.loop.rest, info.fileHash env ≠ h) →
      ∀ info ∈ t.loop.rest, info.fileHash env ≠ h) : Deleting env client i h t := by
  rcases hs with hi | ⟨hi, haway⟩
  · exact .inl (hrequests ▸ hi)
  · exact .inr ⟨by rwa [Withdrawn, hrequests],
      haway.congr hrequests hseeders (hloop hi haway.loop)⟩

lemma Withdrawn.tracker (hs : Withdrawn i s) {a : Tracker.Action}
    (hstep : TrackerStep s.server.tracker a t.server.tracker) : Withdrawn i t := by
  obtain ⟨state, hi, hstate⟩ := hs
  by_cases hai : i = a.request
  · subst hai
    cases hstep with
    | call hj => cases hj.symm.trans hi
    | @move _ state state' _ hcall hi' hrequests hmove =>
      refine ⟨state', ?_, fun d k => hmove.ne_retaining⟩
      rw [requests, hrequests, update_self]
  · exact ⟨state, (hstep.requests_of_ne hai).trans hi, hstate⟩

/-- The request takes the client off the list. -/
lemma Deleting.withdraw (hi : s.requests i = some (.retaining client.uid h))
    (hq : Quiet env client.uid h s)
    (hstep : TrackerStep s.server.tracker (.advance i) t.server.tracker)
    (hloop : ∀ info ∈ t.loop.rest, info ∈ s.loop.rest) : Deleting env client i h t := by
  have hquiet := hq.tracker hstep (fun _ _ => Tracker.Action.noConfusion) fun info hinfo =>
    hq.loop info (hloop info hinfo)
  cases hstep with
  | @move _ state state' _ hcall hi' hrequests hmove =>
    cases hi.symm.trans hi'
    refine .inr ⟨⟨state', ?_, fun d k => hmove.ne_retaining⟩, hquiet, hmove.not_mem_of_retaining⟩
    exact (congrFun hrequests i).trans (update_self _ _ _)

/-- A step of the tracker. -/
lemma Deleting.tracker (hs : Deleting env client i h s) {a : Tracker.Action} {tracker : Tracker}
    (hstep : s.server.tracker.step shards a = some tracker) (ht : t.server.tracker = tracker)
    (ha : Away env client.uid h s → ∀ j r, a = .call j r → ¬ r.Advertises client.uid h)
    (hloop : ∀ info ∈ t.loop.rest, info ∈ s.loop.rest)
    (hquiet : a = .advance i → ¬ Withdrawn i s → Quiet env client.uid h s) :
    Deleting env client i h t := by
  subst ht
  have h' := Tracker.trackerStep_of_eq_some hstep
  rcases hs with hi | ⟨hi, haway⟩
  · have hnot : ¬ Withdrawn i s := by
      rintro ⟨state, hi', hstate⟩
      cases hi.symm.trans hi'
      exact hstate _ _ rfl
    by_cases hai : i = a.request
    · subst hai
      have hadvance := Tracker.advance_of_retaining hstep hi
      exact .withdraw hi (hquiet hadvance hnot) (hadvance ▸ h') hloop
    · exact .inl ((h'.requests_of_ne hai).trans hi)
  · exact .inr ⟨hi.tracker h', haway.tracker h' (ha haway) fun info hinfo =>
      haway.loop info (hloop info hinfo)⟩

/-- Where the calls of `delete_file` stand: those that have returned have taken the client off the
list for good. -/
def Deletes (env : Env) (client : TorrentClient) (i : RequestId) (infoHash : InfoHash)
    (s : Seeding) : Prop :=
  ∀ b, s.deletes i = some ⟨infoHash, b⟩ →
    Deleting env client i (infoHash.fileHash env) s ∧ (b = true → Withdrawn i s)

/-- Every step keeps the client off the list, as long as the loop stays away from the file. -/
lemma Deletes.step {a : Action} (hs : Deletes env client i infoHash s)
    (hstep : SeedingStep env shards client s a t)
    (ha : AddsNoFile client.uid (infoHash.fileHash env) a)
    (haway : StaysAway env client i (infoHash.fileHash env) s a) :
    Deletes env client i infoHash t := by
  -- a step that leaves the requests and the seeders alone
  have hcongr : t.deletes i = s.deletes i → t.requests = s.requests →
      (∀ h, t.service.seeders h = s.service.seeders h) →
      (Withdrawn i s → (∀ info ∈ s.loop.rest, info.fileHash env ≠ infoHash.fileHash env) →
        ∀ info ∈ t.loop.rest, info.fileHash env ≠ infoHash.fileHash env) →
      Deletes env client i infoHash t := by
    intro hdeletes hrequests hseeders hloop b hb
    obtain ⟨hdeleting, hreturned⟩ := hs b (hdeletes ▸ hb)
    exact ⟨hdeleting.congr hrequests (hseeders _) hloop, fun h => by
      rw [Withdrawn, hrequests]
      exact hreturned h⟩
  -- a step of the tracker
  have htracker : ∀ {b tracker}, s.server.tracker.step shards b = some tracker →
      t.server.tracker = tracker → t.deletes i = s.deletes i →
      (Away env client.uid (infoHash.fileHash env) s →
        ∀ j r, b = .call j r → ¬ r.Advertises client.uid (infoHash.fileHash env)) →
      (∀ info ∈ t.loop.rest, info ∈ s.loop.rest) →
      (b = .advance i → ¬ Withdrawn i s → Quiet env client.uid (infoHash.fileHash env) s) →
      Deletes env client i infoHash t := by
    intro b tracker hb ht hdeletes hcall hloop hquiet r hr
    obtain ⟨hdeleting, hreturned⟩ := hs r (hdeletes ▸ hr)
    exact ⟨hdeleting.tracker hb ht hcall hloop hquiet, fun h =>
      (hreturned h).tracker (ht ▸ Tracker.trackerStep_of_eq_some hb)⟩
  cases hstep with
  | register hloop => exact hcongr rfl rfl (fun _ => rfl) fun _ _ _ h => by cases h
  | request => exact hcongr rfl rfl (fun _ => rfl) fun _ h => h
  | @advertiseAll p order hloop horder =>
    refine hcongr rfl rfl (fun _ => rfl) fun hi _ info hinfo => ?_
    obtain ⟨e, he, rfl⟩ := List.mem_map.mp hinfo
    exact haway hi e (horder.mem_iff.mp he)
  | @advertise p j info rest server hloop hserver =>
    obtain ⟨tracker, hb, rfl⟩ := Option.map_eq_some_iff.mp hserver
    refine htracker hb rfl rfl (fun hquiet k r hr hadvertises => ?_) (fun info' hinfo' => ?_)
      Tracker.Action.noConfusion
    · cases hr
      have hne := hquiet.loop info (by rw [hloop]; exact List.mem_cons_self)
      exact hne (Option.some.inj hadvertises.2)
    · rw [hloop]
      exact List.mem_cons_of_mem _ hinfo'
  | advertised hloop =>
    exact hcongr rfl rfl (fun _ => rfl) fun _ h => by rwa [hloop] at h
  | refused => exact hcongr rfl rfl (fun _ => rfl) fun _ _ _ h => by cases h
  | seed hloop hserver =>
    obtain ⟨o, -, rfl⟩ := Option.map_eq_some_iff.mp hserver
    exact hcongr rfl rfl (fun _ => rfl) fun _ _ _ h => by cases h
  | seeded | retry | fail | closeDown =>
    exact hcongr rfl rfl (fun _ => rfl) fun _ _ _ h => by cases h
  | @delete j info server hserver =>
    obtain ⟨tracker, hb, rfl⟩ := Option.map_eq_some_iff.mp hserver
    by_cases hij : i = j
    · -- the request is called now
      subst hij
      intro r hr
      cases (update_self i (some ⟨info, false⟩) s.deletes).symm.trans hr
      cases Tracker.trackerStep_of_eq_some hb with
      | call hi hrequests =>
        exact ⟨.inl ((congrFun hrequests i).trans (update_self _ _ _)), fun h => by cases h⟩
      | move hcall => exact absurd rfl (hcall _ _)
    · refine htracker hb rfl (update_of_ne hij _ _) (fun _ k r hr => ?_) (fun _ h => h)
        Tracker.Action.noConfusion
      cases hr
      exact id
  | @deleted j info reply hdelete hreply =>
    by_cases hij : i = j
    · -- the request has returned
      subst hij
      intro r hr
      cases (update_self i (some ⟨info, true⟩) s.deletes).symm.trans hr
      have hwithdrawn : Withdrawn i s := ⟨_, hreply, fun d k => by rintro ⟨⟩⟩
      obtain ⟨hdeleting, -⟩ := hs false hdelete
      exact ⟨hdeleting.congr rfl rfl fun _ h => h, fun _ => hwithdrawn⟩
    · exact hcongr (update_of_ne hij _ _) rfl (fun _ => rfl) fun _ h => h
  | @server b server hserver =>
    cases b with
    | tracker b =>
      obtain ⟨tracker, hb, rfl⟩ := Option.map_eq_some_iff.mp hserver
      refine htracker hb rfl rfl ?_ (fun _ h => h) ?_
      · rintro - j r rfl
        exact ha
      · rintro rfl
        exact haway rfl
    | register c p =>
      cases hserver
      exact hcongr rfl rfl (fun _ => rfl) fun _ h => h
    | seeds b =>
      obtain ⟨o, -, rfl⟩ := Option.map_eq_some_iff.mp hserver
      exact hcongr rfl rfl (fun _ => rfl) fun _ h => h
    | certs b =>
      obtain ⟨o, -, rfl⟩ := Option.map_eq_some_iff.mp hserver
      exact hcongr rfl rfl (fun _ => rfl) fun _ h => h

/-- Once `delete_file` has returned `Ok`, the client is not on the list for the file, in every run
in which the loop has no `advertise` for the file under way or left in its round when the server
takes the client off the list, and starts no round with the file afterwards. -/
theorem deleted_stays_withdrawn {tr : List (Seeding × Action)}
    (hrun : Run (step env shards client) (init client) tr s)
    (hadds : ∀ p ∈ tr, AddsNoFile client.uid (infoHash.fileHash env) p.2)
    (haway : ∀ p ∈ tr, StaysAway env client i (infoHash.fileHash env) p.1 p.2)
    (hdeleted : s.deletes i = some ⟨infoHash, true⟩) :
    client.uid ∉ s.service.seeders (infoHash.fileHash env) := by
  have hs : Deletes env client i infoHash s := by
    refine hrun.invariant (P := fun s a => AddsNoFile client.uid (infoHash.fileHash env) a ∧
      StaysAway env client i (infoHash.fileHash env) s a) (I := Deletes env client i infoHash)
      (fun s a t hs hP h => hs.step (seedingStep_of_eq_some h) hP.1 hP.2)
      (fun p hp => ⟨hadds p hp, haway p hp⟩) ?_
    intro b hb
    cases hb
  obtain ⟨hdeleting, hreturned⟩ := hs true hdeleted
  rcases hdeleting with hi | ⟨-, hquiet⟩
  · obtain ⟨state, hi', hstate⟩ := hreturned rfl
    cases hi.symm.trans hi'
    exact absurd rfl (hstate _ _)
  · exact hquiet.seeders

/-! ### A deletion between two rounds -/

/-- The deletion of the empty file. -/
def deletion : List Action :=
  [.delete 1 emptyFile, .server (.tracker (.advance 1)), .server (.tracker (.advance 1)),
    .server (.tracker (.advance 1)), .deleted 1]

/-- A first round after `file_hashes` is read. -/
def firstAdvertisement : List Action :=
  [.advertise 0, .server (.tracker (.advance 0)), .server (.tracker (.advance 0)), .advertised,
    .seed 0]

/-- A second round, after a request of another peer. -/
def secondRound : List Action :=
  [.server (.seeds (.post 0 Rendezvous.seederPeer (some Rendezvous.leecherPeer))),
    .server (.seeds (.attempt 0)), .server (.seeds (.send 0)), .server (.seeds (.receive 0)),
    .seeded, .register ⟨3, 3, 3, 3⟩, .advertiseAll [⟨emptyDigest, emptyFile⟩], .advertise 2,
    .server (.tracker (.advance 2)), .server (.tracker (.advance 2))]

theorem deleted_stays_withdrawn_once :
    ∃ tr s, Run (step emptyEnv Rendezvous.oneShard emptyClient) (init emptyClient) tr s ∧
      s.deletes 1 = some ⟨emptyFile, true⟩ ∧
      emptyClient.uid ∉ s.service.seeders (emptyFile.fileHash emptyEnv) := by
  obtain ⟨s₁, s₂, s₃, s₄, s₅, s₆, s₇, s₈, h₁, h₂, h₃, h₄, h₅, h₆, h₇, h₈, hdeleted, hfresh,
      hreturned, hcalled, hothers, hloop, hremoving, huntracking⟩ :
      ∃ s₁ s₂ s₃ s₄ s₅ s₆ s₇ s₈,
        (init emptyClient).step emptyEnv Rendezvous.oneShard emptyClient
          (.register Rendezvous.seederPeer) = some s₁ ∧
        s₁.step emptyEnv Rendezvous.oneShard emptyClient
          (.advertiseAll [⟨emptyDigest, emptyFile⟩]) = some s₂ ∧
        exec (step emptyEnv Rendezvous.oneShard emptyClient) s₂ firstAdvertisement = some s₃ ∧
        s₃.step emptyEnv Rendezvous.oneShard emptyClient (.delete 1 emptyFile) = some s₄ ∧
        s₄.step emptyEnv Rendezvous.oneShard emptyClient (.server (.tracker (.advance 1)))
          = some s₅ ∧
        s₅.step emptyEnv Rendezvous.oneShard emptyClient (.server (.tracker (.advance 1)))
          = some s₆ ∧
        s₆.step emptyEnv Rendezvous.oneShard emptyClient (.server (.tracker (.advance 1)))
          = some s₇ ∧
        s₇.step emptyEnv Rendezvous.oneShard emptyClient (.deleted 1) = some s₈ ∧
        s₈.deletes 1 = some ⟨emptyFile, true⟩ ∧ s₁.requests 1 = none ∧
        s₄.requests 0 = some (.returned (.ok (.clientId emptyClient.uid))) ∧
        s₄.requests 1 = some (.retaining emptyClient.uid (emptyFile.fileHash emptyEnv)) ∧
        (∀ n, s₄.requests (n + 2) = none) ∧ s₄.loop.rest = [] ∧
        s₅.requests 1 = some (.removing (emptyFile.fileHash emptyEnv)) ∧
        s₆.requests 1 = some (.untracking (emptyFile.fileHash emptyEnv)) :=
    ⟨_, _, _, _, _, _, _, _, rfl, rfl, rfl, rfl, rfl, rfl, rfl, rfl, rfl, rfl, rfl, rfl,
      fun _ => rfl, rfl, rfl, rfl⟩
  have hquiet : Quiet emptyEnv emptyClient.uid (emptyFile.fileHash emptyEnv) s₄ := by
    refine ⟨fun i state hi => ?_, fun info hinfo => ?_⟩
    · rcases i with _ | _ | n
      · cases hreturned.symm.trans hi
        exact id
      · cases hcalled.symm.trans hi
        exact id
      · cases (hothers n).symm.trans hi
    · rw [hloop] at hinfo
      cases hinfo
  obtain ⟨tr, hrun, hmap⟩ := run_of_exec h₃
  have hall := ((((((Run.single h₁).snoc h₂).append hrun).snoc h₄).snoc h₅).snoc h₆).snoc h₇
  refine ⟨_, s₈, hall.snoc h₈, hdeleted, deleted_stays_withdrawn (hall.snoc h₈) ?_ ?_ hdeleted⟩
  · have hround := forall_of_map (P := fun _ a => AddsNoFile emptyClient.uid
      (emptyFile.fileHash emptyEnv) a) hmap (by simp [firstAdvertisement, AddsNoFile])
    simp only [List.forall_mem_append, List.forall_mem_singleton]
    exact ⟨⟨⟨⟨⟨⟨⟨trivial, trivial⟩, hround⟩, trivial⟩, trivial⟩, trivial⟩, trivial⟩, trivial⟩
  · have hround := forall_of_map (P := StaysAway emptyEnv emptyClient 1
      (emptyFile.fileHash emptyEnv)) hmap (by simp [firstAdvertisement, StaysAway])
    simp only [List.forall_mem_append, List.forall_mem_singleton]
    refine ⟨⟨⟨⟨⟨⟨⟨trivial, ?_⟩, hround⟩, trivial⟩, fun _ _ => hquiet⟩, ?_⟩, ?_⟩, trivial⟩
    · rintro ⟨state, hi, -⟩
      cases hfresh.symm.trans hi
    · exact fun _ h => absurd ⟨_, hremoving, fun d k => by rintro ⟨⟩⟩ h
    · exact fun _ h => absurd ⟨_, huntracking, fun d k => by rintro ⟨⟩⟩ h

/-- The second round advertises the deleted file. -/
theorem second_round_advertises_deleted :
    ∃ tr s tr' t, Run (step emptyEnv Rendezvous.oneShard emptyClient) (init emptyClient) tr s ∧
      Run (step emptyEnv Rendezvous.oneShard emptyClient) s tr' t ∧
      (∀ p ∈ tr ++ tr', AddsNoFile emptyClient.uid (emptyFile.fileHash emptyEnv) p.2) ∧
      s.deletes 1 = some ⟨emptyFile, true⟩ ∧
      emptyClient.uid ∈ t.service.seeders (emptyFile.fileHash emptyEnv) := by
  obtain ⟨s, t, hs, ht, hdeleted, hadvertised⟩ :
      ∃ s t, exec (step emptyEnv Rendezvous.oneShard emptyClient) (init emptyClient)
          (firstRound ++ deletion) = some s ∧
        exec (step emptyEnv Rendezvous.oneShard emptyClient) s secondRound = some t ∧
        s.deletes 1 = some ⟨emptyFile, true⟩ ∧
        t.service.seeders (emptyFile.fileHash emptyEnv) = [emptyClient.uid] :=
    ⟨_, _, rfl, rfl, rfl, rfl⟩
  obtain ⟨tr, hrun, hmap⟩ := run_of_exec hs
  obtain ⟨tr', hrun', hmap'⟩ := run_of_exec ht
  refine ⟨tr, s, tr', t, hrun, hrun', fun p hp => ?_, hdeleted, ?_⟩
  · rcases List.mem_append.mp hp with hp | hp
    · refine forall_of_map (P := fun _ a => AddsNoFile emptyClient.uid _ a) hmap ?_ p hp
      simp [firstRound, deletion, AddsNoFile]
    · refine forall_of_map (P := fun _ a => AddsNoFile emptyClient.uid _ a) hmap' ?_ p hp
      simp [secondRound, AddsNoFile]
  · rw [hadvertised]
    exact List.mem_singleton_self _

end Seeding

end BearTorrent
