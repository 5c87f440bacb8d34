import BearTorrent.Server.Connector

/-!
# Repeated seeders

`advertise` puts a client at the end of the list of seeders, also when it is already in the list. A
seeder advertises all of its files in every iteration of its loop, so it is in the list once for
each of them, and the peer list repeats its peer id.
-/

namespace BearTorrent

open Transition

/-! ### Repetitions in a list -/

/-- Where only one element is mapped to each image, the images of a list repeat themselves as often
as the elements do. -/
lemma nodup_filterMap_iff {α β : Type*} [DecidableEq α] [DecidableEq β] {f : α → Option β}
    (hf : ∀ a a' b, f a = some b → f a' = some b → a = a') {l : List α} :
    (l.filterMap f).Nodup ↔ ∀ a b, f a = some b → l.count a ≤ 1 := by
  have hcount : ∀ a b, f a = some b → (l.filterMap f).count b = l.count a := by
    intro a b hab
    rw [List.count_filterMap, List.count_eq_countP]
    refine List.countP_congr fun a' _ => ?_
    simp only [beq_iff_eq]
    constructor
    · intro ha'
      exact hf a' a b ha' hab
    · rintro rfl
      exact hab
  rw [List.nodup_iff_count_le_one]
  constructor
  · intro h a b hab
    rw [← hcount a b hab]
    exact h b
  · intro h b
    by_cases hb : b ∈ l.filterMap f
    · obtain ⟨a, -, hab⟩ := List.mem_filterMap.mp hb
      rw [hcount a b hab]
      exact h a b hab
    · rw [List.count_eq_zero_of_not_mem hb]
      exact Nat.zero_le 1

namespace ConnectionService

variable {s : ConnectionService} {c : ClientId} {h : FileHash} {es : List Event}

/-! ### Counting advertisements -/

/-- How often a client has advertised a file since it last withdrew it. The latest event comes
first; a delisting withdraws the files of a client that is registered. -/
def advertisedSince (c : ClientId) (h : FileHash) : List Event → ℕ
  | []                        => 0
  | .advertised d k _ :: rest =>
    if d = c ∧ k = h then advertisedSince c h rest + 1 else advertisedSince c h rest
  | .deleted d k :: rest      => if d = c ∧ k = h then 0 else advertisedSince c h rest
  | .delisted d :: rest       =>
    if d = c ∧ (registrationOf rest.reverse c).isSome then 0 else advertisedSince c h rest
  | _ :: rest                 => advertisedSince c h rest

/-- The advertisements of a file by a client that are not withdrawn. -/
def standingAdvertisements (es : List Event) (c : ClientId) (h : FileHash) : ℕ :=
  advertisedSince c h es.reverse

lemma count_filter_ne {α : Type*} [DecidableEq α] (l : List α) (a b : α) :
    (l.filter (· ≠ b)).count a = if b = a then 0 else l.count a := by
  split_ifs with hab
  · subst hab
    exact List.count_eq_zero_of_not_mem (by simp)
  · exact List.count_filter (by simpa using Ne.symm hab)

/-- Every event changes the list of seeders as it changes the standing advertisements. -/
lemma count_seeders_apply (hregistry : ∀ c, s.clientRegistry.lookup c = registrationOf es c)
    (hcount : ∀ c h, (s.seeders h).count c = standingAdvertisements es c h) (e : Event)
    (c : ClientId) (h : FileHash) :
    ((s.apply e).seeders h).count c = standingAdvertisements (es ++ [e]) c h := by
  rw [standingAdvertisements, List.reverse_concat]
  cases e with
  | registered d p => exact hcount c h
  | updated d p => exact hcount c h
  | advertised d k info =>
    rw [ConnectionService.apply, seeders_pushSeeder, seeders_trackFile, advertisedSince]
    by_cases hk : h = k
    · subst hk
      rw [if_pos rfl, List.count_append, hcount, List.count_singleton]
      by_cases hd : d = c
      · simp [hd, standingAdvertisements]
      · simp [hd, standingAdvertisements]
    · rw [if_neg hk, if_neg fun hdk => hk hdk.2.symm]
      exact hcount c h
  | deleted d k =>
    rw [ConnectionService.apply, seeders_withdraw, advertisedSince]
    by_cases hk : h = k
    · subst hk
      rw [if_pos rfl, count_filter_ne, hcount]
      simp [standingAdvertisements]
    · rw [if_neg hk, if_neg fun hdk => hk hdk.2.symm]
      exact hcount c h
  | delisted d =>
    rw [ConnectionService.apply, advertisedSince, List.reverse_reverse]
    by_cases hd : d = c
    · subst hd
      rw [← hregistry]
      by_cases hc : d ∈ s.clientRegistry
      · rw [seeders_delist hc, count_filter_ne, if_pos rfl,
          if_pos ⟨rfl, AList.lookup_isSome.mpr hc⟩]
      · rw [delist_of_notMem hc, if_neg fun h => hc (AList.lookup_isSome.mp h.2)]
        exact hcount d h
    · rw [if_neg fun h => hd h.1]
      by_cases hc : d ∈ s.clientRegistry
      · rw [seeders_delist hc, count_filter_ne, if_neg hd]
        exact hcount c h
      · rw [delist_of_notMem hc]
        exact hcount c h

/-- A client is in the list of a file as often as it has standing advertisements. -/
lemma count_seeders_run {tr : List (ConnectionService × ConnectorRequest)}
    (hrun : Run Connector.step default tr s) (c : ClientId) (h : FileHash) :
    (s.seeders h).count c = standingAdvertisements (Connector.history tr) c h := by
  refine (Connector.run_history (M := fun es s =>
      (∀ c, s.clientRegistry.lookup c = registrationOf es c) ∧
        ∀ c h, (s.seeders h).count c = standingAdvertisements es c h)
    ⟨fun c => rfl, fun c h => rfl⟩ (fun es s e hs => ⟨fun c => ?_, fun c h => ?_⟩)
    (fun es s t hs hsame => ⟨fun c => ?_, fun c h => ?_⟩) hrun).2 c h
  · rw [registrationOf_concat, ← hs.1, lookup_clientRegistry_apply]
  · exact count_seeders_apply hs.1 hs.2 e c h
  · rw [hsame.clientRegistry, hs.1]
  · rw [seeders, hsame.seederList]
    exact hs.2 c h

end ConnectionService

/-! ### The connections of a request -/

/-- The peers that `file_request` connects to, the first of the list: one for each piece or one for
each peer, whichever is less. -/
def connectedPeers (peerList : List PeerId) (fileHash : InfoHash) : List PeerId :=
  let numConnections := min peerList.length fileHash.pieces.length
  peerList.take numConnections

namespace ConnectionService

open Connector

variable {s : ConnectionService}

/-- The peer list of a file is without repetition, and so are the connections that are opened from
it, if and only if no client with a peer id has advertised the file twice without withdrawing it. -/
theorem getFilePeerList_nodup_iff {tr : List (ConnectionService × ConnectorRequest)}
    (hrun : Run Connector.step default tr s) (hids : DifferentIds (Connector.history tr))
    (h : FileHash) :
    ∃ peerList, s.handle (.getFilePeerList h) = some (.ok (.peerList peerList), s) ∧
      ((peerList.Nodup ∧ ∀ fileHash, (connectedPeers peerList fileHash).Nodup) ↔
        ∀ c p, RegisteredWith (Connector.history tr) c p →
          standingAdvertisements (Connector.history tr) c h ≤ 1) := by
  refine ⟨s.getFilePeerList h, rfl, ?_⟩
  have hregistered : ∀ c p, s.peerIdOf c = some p ↔ RegisteredWith (Connector.history tr) c p := by
    intro c p
    rw [peerIdOf, Option.join_eq_some_iff, lookup_clientRegistry_run hrun]
    rfl
  have hone : ∀ c d p, s.peerIdOf c = some p → s.peerIdOf d = some p → c = d := by
    intro c d p hc hd
    exact hids c d p (hasUsed_of_registeredWith ((hregistered c p).mp hc))
      (hasUsed_of_registeredWith ((hregistered d p).mp hd))
  have hnodup : (s.getFilePeerList h).Nodup ↔
      ∀ c p, RegisteredWith (Connector.history tr) c p →
        standingAdvertisements (Connector.history tr) c h ≤ 1 := by
    rw [getFilePeerList_eq, nodup_filterMap_iff hone]
    simp only [hregistered, count_seeders_run hrun]
  rw [← hnodup]
  constructor
  · intro hlist
    exact hlist.1
  · intro hlist
    exact ⟨hlist, fun fileHash => hlist.sublist (List.take_sublist _ _)⟩

/-- What a client has the server do in one iteration of its seeding loop, up to the point where it
waits for a peer: a new connection is registered and all files are advertised. -/
def seedingRound (c : ClientId) (files : List (FileHash × InfoHash)) (round : PeerId × SenderId) :
    List ConnectorRequest :=
  .tracker (.updateRegisteredPeerId ⟨some c, some round.1⟩) ::
    (files.map fun file => .tracker (.advertise ⟨some c, some file.1, some file.2⟩)) ++
      [.seed round.1 round.2]

/-- A client registers without a peer id and goes through its seeding loop. -/
def seedingRequests (c : ClientId) (files : List (FileHash × InfoHash))
    (rounds : List (PeerId × SenderId)) : List ConnectorRequest :=
  .tracker (.registerClient ⟨none⟩ [c.uid]) :: rounds.flatMap (seedingRound c files)

/-- A client that only goes through its seeding loop registers no peer ids of others. -/
lemma differentIds_seedingRequests {c : ClientId} {files : List (FileHash × InfoHash)}
    {rounds : List (PeerId × SenderId)} {tr : List (ConnectionService × ConnectorRequest)}
    (htr : tr.map Prod.snd = seedingRequests c files rounds) :
    DifferentIds (Connector.history tr) := by
  refine differentIds_of_forall (c := c) fun d p hused => ?_
  obtain ⟨q, hq, hrequest⟩ := exists_request_of_hasUsed hused
  have hmem : q.2 ∈ seedingRequests c files rounds := htr ▸ List.mem_map_of_mem hq
  rcases hrequest with ⟨uuids, hrequest⟩ | hrequest
  · simp [hrequest, seedingRequests, seedingRound] at hmem
  · obtain ⟨-, hclient⟩ : (∃ tx, (p, tx) ∈ rounds) ∧ d = c := by
      simpa [hrequest, seedingRequests, seedingRound] using hmem
    exact hclient

def oneFile : List (FileHash × InfoHash) := [(⟨[1]⟩, ⟨"one", 1, 1, []⟩)]

theorem getFilePeerList_nodup_round : ∃ tr s, Run Connector.step default tr s ∧
    s.getFilePeerList ⟨[1]⟩ = [⟨1, 1, 1, 1⟩] ∧
    ∀ c p, RegisteredWith (Connector.history tr) c p →
      standingAdvertisements (Connector.history tr) c ⟨[1]⟩ ≤ 1 := by
  obtain ⟨s, hs, hlist⟩ : ∃ s, exec Connector.step default
      (seedingRequests ⟨"a"⟩ oneFile [(⟨1, 1, 1, 1⟩, 0)]) = some s ∧
      s.getFilePeerList ⟨[1]⟩ = [⟨1, 1, 1, 1⟩] := ⟨_, rfl, rfl⟩
  obtain ⟨tr, hrun, hmap⟩ := run_of_exec hs
  obtain ⟨peerList, hhandle, hiff⟩ :=
    getFilePeerList_nodup_iff hrun (differentIds_seedingRequests hmap) ⟨[1]⟩
  have hpeerList : peerList = [⟨1, 1, 1, 1⟩] := by
    rw [← hlist]
    cases hhandle
    rfl
  refine ⟨tr, s, hrun, hlist, hiff.mp ⟨?_, fun fileHash => ?_⟩⟩
  · simp [hpeerList]
  · rw [hpeerList]
    exact (List.nodup_singleton _).sublist (List.take_sublist _ _)

/-- In the second iteration of its loop a seeder is listed twice. -/
theorem second_round_repeats : ¬ ∀ c files rounds tr s, (files.map Prod.fst).Nodup →
    Run Connector.step default tr s → tr.map Prod.snd = seedingRequests c files rounds →
    DifferentIds (Connector.history tr) → ∀ h, (s.getFilePeerList h).Nodup := by
  intro h
  obtain ⟨s, hs, hlist⟩ : ∃ s, exec Connector.step default
      (seedingRequests ⟨"a"⟩ oneFile [(⟨1, 1, 1, 1⟩, 0), (⟨2, 2, 2, 2⟩, 1)]) = some s ∧
      s.getFilePeerList ⟨[1]⟩ = [⟨2, 2, 2, 2⟩, ⟨2, 2, 2, 2⟩] := ⟨_, rfl, rfl⟩
  obtain ⟨tr, hrun, hmap⟩ := run_of_exec hs
  have hnodup := h _ _ _ tr s (by simp [oneFile]) hrun hmap
    (differentIds_seedingRequests hmap) ⟨[1]⟩
  rw [hlist] at hnodup
  simp at hnodup

end ConnectionService

end BearTorrent
