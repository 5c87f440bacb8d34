import BearTorrent.Server.Handlers

/-!
# The peer list reflects the history

`get_file_peer_list` joins `seeder_list` with `client_registry`. Its answer is determined by the
latest registration of each client and the latest of its events that concern the file.
-/

namespace BearTorrent

open Transition

namespace Event

/-- The event sets or removes the registration of the client. -/
def registers (c : ClientId) : Event → Bool
  | .registered d _ => d = c
  | .updated d _    => d = c
  | .delisted d     => d = c
  | _               => false

/-- The event concerns the client as a seeder of the file. -/
def seeds (c : ClientId) (h : FileHash) : Event → Bool
  | .advertised d k _ => d = c ∧ k = h
  | .deleted d k      => d = c ∧ k = h
  | .delisted d       => d = c
  | _                 => false

/-- The registration after an event that sets or removes it. -/
def registration : Event → Option (Option PeerId)
  | .registered _ p => some p
  | .updated _ p    => some (some p)
  | _               => none

/-- The event is an advertisement. -/
def isAdvertised : Event → Bool
  | .advertised _ _ _ => true
  | _                 => false

end Event

namespace ConnectionService

variable {s t : ConnectionService} {c : ClientId} {h : FileHash} {es : List Event}

/-- The registration of a client by its latest registering event. -/
def registrationOf (es : List Event) (c : ClientId) : Option (Option PeerId) :=
  (latest (·.registers c) es).bind Event.registration

/-- The client is registered with this peer id. -/
def RegisteredWith (es : List Event) (c : ClientId) (p : PeerId) : Prop :=
  registrationOf es c = some (some p)

/-- The latest event that concerns the client as a seeder of the file is an advertisement. -/
def Seeding (es : List Event) (c : ClientId) (h : FileHash) : Prop :=
  ∃ e, latest (·.seeds c h) es = some e ∧ e.isAdvertised = true

lemma registrationOf_concat (e : Event) (c : ClientId) :
    registrationOf (es ++ [e]) c =
      if e.registers c then e.registration else registrationOf es c := by
  rw [registrationOf, latest_concat]
  split_ifs <;> rfl

lemma seeding_concat (e : Event) (c : ClientId) (h : FileHash) :
    Seeding (es ++ [e]) c h ↔
      if e.seeds c h then e.isAdvertised = true else Seeding es c h := by
  rw [Seeding, latest_concat]
  split_ifs
  · simp
  · rfl

/-- An event that registers or delists a client sets its registration; the others keep it. -/
lemma lookup_clientRegistry_apply (e : Event) :
    (s.apply e).clientRegistry.lookup c =
      if e.registers c then e.registration else s.clientRegistry.lookup c := by
  cases e with
  | registered d p => simp [ConnectionService.apply, lookup_register, Event.registers,
      Event.registration, eq_comm]
  | updated d p => simp [ConnectionService.apply, lookup_register, Event.registers,
      Event.registration, eq_comm]
  | advertised d k info => rfl
  | deleted d k =>
    rw [ConnectionService.apply, clientRegistry_withdraw]
    rfl
  | delisted d => simp [ConnectionService.apply, lookup_clientRegistry_delist, Event.registers,
      Event.registration, eq_comm]

/-- The registry and the lists of seeders are those of the history. -/
structure Reflects (es : List Event) (s : ConnectionService) : Prop where
  registry : ∀ c, s.clientRegistry.lookup c = registrationOf es c
  seeders : ∀ c h, c ∈ s.seeders h ↔ Seeding es c h

lemma reflects_default : Reflects [] default := by
  constructor
  · intro c
    rfl
  · intro c h
    simp [seeders, default, Seeding]

lemma Reflects.apply (hs : Reflects es s) (e : Event)
    (he : ∀ c, e = .delisted c → c ∈ s.clientRegistry) : Reflects (es ++ [e]) (s.apply e) := by
  constructor
  · intro d
    rw [registrationOf_concat, ← hs.registry, lookup_clientRegistry_apply]
  · intro d h
    rw [seeding_concat]
    cases e with
    | registered c p => exact hs.seeders d h
    | updated c p => exact hs.seeders d h
    | advertised c k info =>
      rw [ConnectionService.apply, mem_pushSeeder, seeders_trackFile, hs.seeders]
      by_cases hck : c = d ∧ k = h
      · simp [Event.seeds, Event.isAdvertised, hck.1, hck.2]
      · rw [if_neg (by simpa [Event.seeds] using hck)]
        exact or_iff_left fun h' => hck ⟨h'.1.symm, h'.2.symm⟩
    | deleted c k =>
      rw [ConnectionService.apply, seeders_withdraw]
      by_cases hk : h = k
      · subst hk
        by_cases hc : c = d
        · simp [Event.seeds, Event.isAdvertised, hc]
        · simpa [Event.seeds, hc, Ne.symm hc] using hs.seeders d h
      · simpa [Event.seeds, hk, Ne.symm hk] using hs.seeders d h
    | delisted c =>
      rw [ConnectionService.apply, seeders_delist (he c rfl)]
      by_cases hc : c = d
      · simp [Event.seeds, Event.isAdvertised, hc]
      · simpa [Event.seeds, hc, Ne.symm hc] using hs.seeders d h

/-- Only `delist_client` withdraws all files of a client. -/
lemma eq_of_delisted {r : ServerRequest} {reply : Except Failure ServerReply}
    (hevent : r.event reply = some (.delisted c)) : r = .delistClient c := by
  unfold ServerRequest.event at hevent
  split at hevent <;> cases hevent
  rfl

/-- When clients are registered whenever they are delisted, `get_file_peer_list` returns the peer
ids of the registered clients whose latest operation on the file is to advertise it. -/
theorem mem_getFilePeerList_iff {tr : List (ConnectionService × ServerRequest)}
    (hrun : Run step default tr s)
    (hreg : ∀ p ∈ tr, ∀ c, p.2 = .delistClient c → c ∈ p.1.clientRegistry) (h : FileHash)
    (p : PeerId) :
    p ∈ s.getFilePeerList h ↔
      ∃ c, RegisteredWith (history tr) c p ∧ Seeding (history tr) c h := by
  have hs : Reflects (history tr) s :=
    run_history (P := fun s r => ∀ c, r = .delistClient c → c ∈ s.clientRegistry)
      (fun _ _ _ _ e hs hr hevent => hs.apply e fun c he =>
        hr c (eq_of_delisted (he ▸ hevent))) hrun hreg reflects_default
  rw [getFilePeerList_eq, List.mem_filterMap]
  constructor
  · rintro ⟨c, hc, hp⟩
    exact ⟨c, (hs.registry c).symm.trans (Option.join_eq_some_iff.mp hp), (hs.seeders c h).mp hc⟩
  · rintro ⟨c, hp, hc⟩
    exact ⟨c, (hs.seeders c h).mpr hc, Option.join_eq_some_iff.mpr ((hs.registry c).trans hp)⟩

/-- Three clients share a file, one of them before it has a peer id; another withdraws it. -/
def sharingRequests : List ServerRequest :=
  [.registerClient ⟨some ⟨1, 1, 1, 1⟩⟩ ["a"], .registerClient ⟨none⟩ ["a", "b"],
    .registerClient ⟨some ⟨3, 3, 3, 3⟩⟩ ["c"],
    .advertise ⟨some ⟨"a"⟩, some ⟨[1]⟩, some ⟨"one", 1, 1, []⟩⟩,
    .advertise ⟨some ⟨"b"⟩, some ⟨[1]⟩, some ⟨"one", 1, 1, []⟩⟩,
    .advertise ⟨some ⟨"c"⟩, some ⟨[1]⟩, some ⟨"one", 1, 1, []⟩⟩,
    .updateRegisteredPeerId ⟨some ⟨"b"⟩, some ⟨2, 2, 2, 2⟩⟩,
    .deleteFile ⟨some ⟨"a"⟩, some ⟨[1]⟩⟩]

theorem mem_getFilePeerList_sharing :
    ∃ tr s, Run step default tr s ∧ s.getFilePeerList ⟨[1]⟩ = [⟨2, 2, 2, 2⟩] ∧
      ∃ c, RegisteredWith (history tr) c ⟨2, 2, 2, 2⟩ ∧ Seeding (history tr) c ⟨[1]⟩ := by
  obtain ⟨s, t, hs, ht, hc, hlist⟩ : ∃ s t, exec step default sharingRequests = some s ∧
      s.step (.delistClient ⟨"c"⟩) = some t ∧
      (s.clientRegistry.lookup ⟨"c"⟩).isSome = true ∧
      t.getFilePeerList ⟨[1]⟩ = [⟨2, 2, 2, 2⟩] := ⟨_, _, rfl, rfl, rfl, rfl⟩
  obtain ⟨tr, hrun, hmap⟩ := run_of_exec hs
  refine ⟨_, t, hrun.snoc ht, hlist,
    (mem_getFilePeerList_iff (hrun.snoc ht) (fun p hp c hdelist => ?_) ⟨[1]⟩ ⟨2, 2, 2, 2⟩).mp
      (by simp [hlist])⟩
  rcases List.mem_append.mp hp with hp | hp
  · exact forall_of_map
      (P := fun s r => ∀ c, r = .delistClient c → c ∈ s.clientRegistry) hmap
      (by simp [sharingRequests]) p hp c hdelist
  · obtain rfl := List.mem_singleton.mp hp
    cases hdelist
    exact AList.lookup_isSome.mp hc

end ConnectionService

end BearTorrent
