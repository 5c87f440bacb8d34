import BearTorrent.Server.Handlers
import Mathlib.Data.Set.Insert

/-!
# Requests of different clients commute

`delete_file` drops the entry of a file without seeders and `delist_client` leaves an empty list, so
the two orders of two requests may end in different maps. A board keeps what the answers show, and
for each file whether it has ever had an entry. On it the two orders end in the same state.
-/

namespace BearTorrent

open Function Transition

/-! ### The board -/

/-- What is on the board for one file. -/
@[ext] structure Listing where
  known : Prop
  seeds : Set ClientId
  info : Option InfoHash

namespace Listing

variable (l : Listing) {c d : ClientId} {info : InfoHash}

/-- Put a client on the list. -/
def add (c : ClientId) (info : InfoHash) : Listing := ⟨True, insert c l.seeds, some info⟩

open Classical in
/-- A file that has had an entry is taken off with its last seeder. -/
noncomputable def remove (c : ClientId) : Listing where
  known := l.known
  seeds := l.seeds \ {c}
  info := if l.known ∧ l.seeds \ {c} = ∅ then none else l.info

variable {l} in
lemma info_remove_of_nil (h : l.known ∧ l.seeds \ {c} = ∅) : (l.remove c).info = none := if_pos h

variable {l} in
lemma info_remove_of_ne (h : ¬ (l.known ∧ l.seeds \ {c} = ∅)) : (l.remove c).info = l.info :=
  if_neg h

lemma add_add : (l.add c info).add d info = (l.add d info).add c info := by
  ext1
  · rfl
  · exact Set.insert_comm _ _ _
  · rfl

lemma remove_add (h : c ≠ d) : (l.remove c).add d info = (l.add d info).remove c := by
  ext1
  · rfl
  · exact Set.insert_sdiff_singleton_comm h.symm _
  · have hmem : d ∈ insert d l.seeds \ {c} := ⟨Set.mem_insert _ _, h.symm⟩
    refine (info_remove_of_ne (l := l.add d info) ?_).symm
    rintro ⟨-, hnil⟩
    exact Set.notMem_empty d (hnil ▸ hmem)

lemma remove_remove : (l.remove c).remove d = (l.remove d).remove c := by
  have hseeds : (l.seeds \ {c}) \ {d} = (l.seeds \ {d}) \ {c} := Set.sdiff_sdiff_comm
  have hnil : ∀ {a b : ClientId}, l.seeds \ {a} = ∅ → (l.seeds \ {a}) \ {b} = ∅ := by
    intro a b ha
    rw [ha, Set.empty_sdiff]
  ext1
  · rfl
  · exact hseeds
  · by_cases hknown : l.known ∧ (l.seeds \ {c}) \ {d} = ∅
    · rw [info_remove_of_nil (l := l.remove c) hknown,
        info_remove_of_nil (l := l.remove d) ⟨hknown.1, hseeds.symm.trans hknown.2⟩]
    · rw [info_remove_of_ne (l := l.remove c) hknown,
        info_remove_of_ne fun h => hknown ⟨h.1, hnil h.2⟩,
        info_remove_of_ne (l := l.remove d) fun h => hknown ⟨h.1, hseeds.trans h.2⟩,
        info_remove_of_ne fun h => hknown ⟨h.1, hseeds.trans (hnil h.2)⟩]

end Listing

structure Board where
  registry : ClientId → Option (Option PeerId)
  files : FileHash → Listing

namespace Event

/-- The client of an event. -/
def client : Event → ClientId
  | .registered c _   => c
  | .updated c _      => c
  | .advertised c _ _ => c
  | .deleted c _      => c
  | .delisted c       => c

/-- The registration of the client after the event, if the event changes it. -/
def entry? : Event → Option (Option (Option PeerId))
  | .registered _ p => some (some p)
  | .updated _ p    => some (some (some p))
  | .delisted _     => some none
  | _               => none

open Classical in
/-- The effect on the listing of the file `k`, for a client that is registered or not. -/
noncomputable def onListing (registered : Bool) (k : FileHash) (l : Listing) : Event → Listing
  | .advertised c h info => if h = k then l.add c info else l
  | .deleted c h         => if h = k then l.remove c else l
  | .delisted c          => if registered then l.remove c else l
  | _                    => l

/-- The events do not advertise one file under two info hashes. -/
def Compatible (e e' : Event) : Prop :=
  ∀ c c' h info info', e = .advertised c h info → e' = .advertised c' h info' → info = info'

/-- An event leaves a listing alone, adds its client to it or removes its client from it. -/
lemma onListing_cases (e : Event) (b : Bool) (k : FileHash) :
    (∀ l, e.onListing b k l = l) ∨
      (∃ info, e = .advertised e.client k info ∧
        ∀ l, e.onListing b k l = l.add e.client info) ∨
      ∀ l, e.onListing b k l = l.remove e.client := by
  cases e with
  | registered c p => exact .inl fun _ => rfl
  | updated c p => exact .inl fun _ => rfl
  | advertised c h info =>
    by_cases hk : h = k
    · subst hk
      exact .inr (.inl ⟨info, rfl, fun l => if_pos rfl⟩)
    · exact .inl fun l => if_neg hk
  | deleted c h =>
    by_cases hk : h = k
    · exact .inr (.inr fun l => if_pos hk)
    · exact .inl fun l => if_neg hk
  | delisted c =>
    by_cases hb : b
    · exact .inr (.inr fun l => if_pos hb)
    · exact .inl fun l => if_neg hb

lemma onListing_comm {e e' : Event} (hne : e.client ≠ e'.client) (hinfo : e.Compatible e')
    (b b' : Bool) (k : FileHash) (l : Listing) :
    e'.onListing b' k (e.onListing b k l) = e.onListing b k (e'.onListing b' k l) := by
  rcases e.onListing_cases b k with h | ⟨info, he, h⟩ | h
  · rw [h, h]
  · rcases e'.onListing_cases b' k with h' | ⟨info', he', h'⟩ | h'
    · rw [h', h']
    · obtain rfl := hinfo _ _ k info info' he he'
      rw [h, h, h', h']
      exact l.add_add
    · rw [h, h, h', h']
      exact (l.remove_add hne.symm).symm
  · rcases e'.onListing_cases b' k with h' | ⟨info', he', h'⟩ | h'
    · rw [h', h']
    · rw [h, h, h', h']
      exact l.remove_add hne
    · rw [h, h, h', h']
      exact l.remove_remove

end Event

namespace Board

/-- The registry after an event. -/
def registryAfter (registry : ClientId → Option (Option PeerId)) (e : Event) :
    ClientId → Option (Option PeerId) :=
  match e.entry? with
  | some entry => update registry e.client entry
  | none       => registry

/-- The board after an event. -/
noncomputable def apply (v : Board) (e : Event) : Board where
  registry := registryAfter v.registry e
  files k := e.onListing (v.registry e.client).isSome k (v.files k)

lemma registryAfter_of_ne {registry : ClientId → Option (Option PeerId)} {e : Event} {c : ClientId}
    (h : c ≠ e.client) : registryAfter registry e c = registry c := by
  unfold registryAfter
  cases e.entry? with
  | none => rfl
  | some entry => exact update_of_ne h _ _

lemma registryAfter_comm {registry : ClientId → Option (Option PeerId)} {e e' : Event}
    (h : e.client ≠ e'.client) :
    registryAfter (registryAfter registry e) e' = registryAfter (registryAfter registry e') e := by
  unfold registryAfter
  cases e.entry? with
  | none => rfl
  | some entry =>
    cases e'.entry? with
    | none => rfl
    | some entry' => exact update_comm h _ _ _

/-- Events of different clients commute on the board. -/
theorem apply_comm (v : Board) {e e' : Event} (hne : e.client ≠ e'.client)
    (hinfo : e.Compatible e') : (v.apply e).apply e' = (v.apply e').apply e := by
  have hfiles : ∀ k, ((v.apply e).apply e').files k = ((v.apply e').apply e).files k := by
    intro k
    simp only [apply, registryAfter_of_ne hne, registryAfter_of_ne hne.symm]
    exact Event.onListing_comm hne hinfo _ _ k _
  have hregistry : ((v.apply e).apply e').registry = ((v.apply e').apply e).registry :=
    registryAfter_comm hne
  rw [show (v.apply e).apply e' = ⟨_, _⟩ from rfl, show (v.apply e').apply e = ⟨_, _⟩ from rfl,
    Board.mk.injEq]
  exact ⟨hregistry, funext hfiles⟩

end Board

namespace ConnectionService

variable {s t : ConnectionService} {c d : ClientId} {h k : FileHash} {l : Listing} {v : Board}

/-! ### Entries of the seeder list -/

lemma mem_seederList_retainOthers :
    k ∈ (s.retainOthers h c).seederList ↔ k ∈ s.seederList := by
  rw [retainOthers]
  split
  · rename_i clients hl
    have hm : h ∈ s.seederList := AList.lookup_isSome.mp (by rw [hl]; rfl)
    rw [AList.mem_insert]
    exact or_iff_right_of_imp fun hk => hk ▸ hm
  · rfl

lemma mem_seederList_delistEntry :
    k ∈ (delistEntry c s h).seederList ↔ k ∈ s.seederList := by
  rw [← mem_seederList_retainOthers (s := s) (h := h) (c := c)]
  unfold delistEntry
  dsimp only
  split_ifs <;> rfl

lemma mem_seederList_delist : k ∈ (s.delist c).seederList ↔ k ∈ s.seederList := by
  have hfold : ∀ (ks : List FileHash) (s : ConnectionService),
      k ∈ (ks.foldl (delistEntry c) s).seederList ↔ k ∈ s.seederList := by
    intro ks
    induction ks with
    | nil => exact fun s => Iff.rfl
    | cons h ks ih => exact fun s => (ih _).trans mem_seederList_delistEntry
  rw [delist]
  split
  · rw [hfold, seederList_dropSenders, seederList_unregister]
  · rfl

lemma mem_seederList_withdraw :
    k ∈ (s.withdraw h c).seederList ↔
      k ∈ s.seederList ∧ (k = h → (s.seeders h).filter (· ≠ c) ≠ []) := by
  have hfilter := seeders_retainOthers s c h (k := h)
  rw [if_pos rfl] at hfilter
  rw [← hfilter, withdraw]
  split_ifs with hm hnil
  · simp only [untrackFile, removeSeeders, AList.mem_erase, mem_seederList_retainOthers]
    constructor
    · rintro ⟨hne, hk⟩
      exact ⟨hk, fun h' => absurd h' hne⟩
    · rintro ⟨hk, hne⟩
      exact ⟨fun h' => hne h' hnil, hk⟩
  · rw [mem_seederList_retainOthers]
    exact (and_iff_left fun _ => hnil).symm
  · refine (and_iff_left_of_imp ?_).symm
    rintro hk rfl
    exact absurd hk hm

/-! ### The board of a server -/

/-- The listing shows what the maps hold for a file. -/
structure Shows (s : ConnectionService) (h : FileHash) (l : Listing) : Prop where
  seeds : ∀ c, c ∈ s.seeders h ↔ c ∈ l.seeds
  info : s.fileTracker.lookup h = l.info
  listed : h ∈ s.seederList → l.known
  dropped : l.known → h ∉ s.seederList → l.info = none

/-- The board shows what the maps hold. -/
structure Displays (s : ConnectionService) (v : Board) : Prop where
  registry : ∀ c, s.clientRegistry.lookup c = v.registry c
  files : ∀ h, s.Shows h (v.files h)

/-- The board on which the known files are those with an entry. -/
def board (s : ConnectionService) : Board where
  registry c := s.clientRegistry.lookup c
  files h := ⟨h ∈ s.seederList, {c | c ∈ s.seeders h}, s.fileTracker.lookup h⟩

lemma displays_board (s : ConnectionService) : s.Displays s.board :=
  ⟨fun _ => rfl, fun _ => ⟨fun _ => Iff.rfl, rfl, id, fun hm hn => absurd hm hn⟩⟩

lemma Shows.congr (hs : s.Shows h l) (hseeders : t.seeders h = s.seeders h)
    (hlookup : t.fileTracker.lookup h = s.fileTracker.lookup h)
    (hmem : h ∈ t.seederList ↔ h ∈ s.seederList) : t.Shows h l :=
  ⟨hseeders ▸ hs.seeds, hlookup.trans hs.info, fun hm => hs.listed (hmem.mp hm),
    fun hknown hm => hs.dropped hknown fun h' => hm (hmem.mpr h')⟩

/-- Removing a client from a file, and the file from the tracker with its last seeder. -/
lemma Shows.remove (hs : s.Shows h l)
    (hseeders : t.seeders h = (s.seeders h).filter (· ≠ c))
    (hlookup : t.fileTracker.lookup h =
      if h ∈ s.seederList ∧ (s.seeders h).filter (· ≠ c) = [] then none
      else s.fileTracker.lookup h)
    (hlisted : h ∈ t.seederList → h ∈ s.seederList)
    (hdropped : h ∈ s.seederList → h ∉ t.seederList → (s.seeders h).filter (· ≠ c) = []) :
    t.Shows h (l.remove c) := by
  have hmem : ∀ d, d ∈ (s.seeders h).filter (· ≠ c) ↔ d ∈ l.seeds \ {c} := by
    intro d
    simp [hs.seeds]
  have hnil : (s.seeders h).filter (· ≠ c) = [] ↔ l.seeds \ {c} = ∅ := by
    rw [List.eq_nil_iff_forall_not_mem, Set.eq_empty_iff_forall_notMem]
    exact forall_congr' fun d => not_congr (hmem d)
  have hempty : h ∉ s.seederList → l.seeds \ {c} = ∅ := by
    intro hm
    rw [← hnil, seeders_of_notMem hm, List.filter_nil]
  refine ⟨fun d => hseeders ▸ hmem d, ?_, fun hm => hs.listed (hlisted hm), ?_⟩
  · rw [hlookup]
    by_cases hm : h ∈ s.seederList
    · split_ifs with hnil'
      · exact (Listing.info_remove_of_nil ⟨hs.listed hm, hnil.mp hnil'.2⟩).symm
      · rw [Listing.info_remove_of_ne fun h' => hnil' ⟨hm, hnil.mpr h'.2⟩, hs.info]
    · rw [if_neg fun h' => hm h'.1, hs.info]
      by_cases hknown : l.known
      · rw [Listing.info_remove_of_nil ⟨hknown, hempty hm⟩, hs.dropped hknown hm]
      · rw [Listing.info_remove_of_ne fun h' => hknown h'.1]
  · intro hknown hm
    refine Listing.info_remove_of_nil ⟨hknown, ?_⟩
    by_cases hm' : h ∈ s.seederList
    · exact hnil.mp (hdropped hm' hm)
    · exact hempty hm'

/-- An event changes the board as it changes the maps. -/
lemma Displays.apply (hs : s.Displays v) (e : Event) : (s.apply e).Displays (v.apply e) := by
  cases e with
  | registered c p =>
    refine ⟨fun d => ?_, fun k => (hs.files k).congr rfl rfl Iff.rfl⟩
    simp [ConnectionService.apply, lookup_register, Board.apply, Board.registryAfter, Event.entry?,
      Event.client, update_apply, hs.registry]
  | updated c p =>
    refine ⟨fun d => ?_, fun k => (hs.files k).congr rfl rfl Iff.rfl⟩
    simp [ConnectionService.apply, lookup_register, Board.apply, Board.registryAfter, Event.entry?,
      Event.client, update_apply, hs.registry]
  | advertised c h info =>
    refine ⟨hs.registry, fun k => ?_⟩
    simp only [Board.apply, Event.onListing]
    split_ifs with hk
    · subst hk
      refine ⟨fun d => ?_, ?_, fun _ => trivial, fun _ hm => absurd ?_ hm⟩
      · rw [ConnectionService.apply, mem_pushSeeder, seeders_trackFile, (hs.files h).seeds,
          Listing.add, Set.mem_insert_iff]
        simp [or_comm]
      · rw [ConnectionService.apply, fileTracker_pushSeeder, lookup_trackFile, if_pos rfl]
        rfl
      · exact (AList.mem_insert _).mpr (.inl rfl)
    · refine (hs.files k).congr ?_ ?_ ?_
      · rw [ConnectionService.apply, seeders_pushSeeder, if_neg (Ne.symm hk), seeders_trackFile]
      · rw [ConnectionService.apply, fileTracker_pushSeeder, lookup_trackFile,
          if_neg (Ne.symm hk)]
      · exact (AList.mem_insert _).trans (or_iff_right (Ne.symm hk))
  | deleted c h =>
    refine ⟨fun d => ?_, fun k => ?_⟩
    · rw [ConnectionService.apply, clientRegistry_withdraw]
      exact hs.registry d
    simp only [Board.apply, Event.onListing]
    split_ifs with hk
    · subst hk
      refine (hs.files h).remove ?_ ?_ (fun hm => (mem_seederList_withdraw.mp hm).1) ?_
      · rw [ConnectionService.apply, seeders_withdraw, if_pos rfl]
      · rw [ConnectionService.apply, lookup_withdraw]
        simp only [true_and]
      · intro hm hn
        by_contra hnil
        exact hn (mem_seederList_withdraw.mpr ⟨hm, fun _ => hnil⟩)
    · refine (hs.files k).congr ?_ ?_ ?_
      · rw [ConnectionService.apply, seeders_withdraw, if_neg (Ne.symm hk)]
      · rw [ConnectionService.apply, lookup_withdraw, if_neg fun h' => hk h'.1.symm]
      · exact mem_seederList_withdraw.trans (and_iff_left fun h' => absurd h'.symm hk)
  | delisted c =>
    refine ⟨fun d => ?_, fun k => ?_⟩
    · rw [ConnectionService.apply, lookup_clientRegistry_delist]
      simp [Board.apply, Board.registryAfter, Event.entry?, Event.client, update_apply,
        hs.registry]
    simp only [Board.apply, Event.onListing, Event.client, ← hs.registry, AList.lookup_isSome]
    split_ifs with hc
    · refine (hs.files k).remove ?_ ?_ mem_seederList_delist.mp
        fun hm hn => absurd (mem_seederList_delist.mpr hm) hn
      · rw [ConnectionService.apply, seeders_delist hc]
      · rw [ConnectionService.apply, lookup_delist hc]
    · rw [ConnectionService.apply, delist_of_notMem hc]
      exact hs.files k

end ConnectionService

/-! ### Requests -/

namespace ServerRequest

/-- The client that issues a request to share or withdraw files or to register itself. -/
def issuer : ServerRequest → Option ClientId
  | .updateRegisteredPeerId r => r.selfId
  | .advertise r              => r.id
  | .deleteFile req           => req.id
  | .delistClient clientId    => some clientId
  | _                         => none

/-- The event of such a request; none when a field is missing. -/
def change : ServerRequest → Option Event
  | .updateRegisteredPeerId ⟨some c, some p⟩ => some (.updated c p)
  | .advertise ⟨some c, some h, some info⟩   => some (.advertised c h info)
  | .deleteFile ⟨some c, some h⟩             => some (.deleted c h)
  | .delistClient c                          => some (.delisted c)
  | _                                        => none

/-- The requests do not advertise one file under two info hashes. -/
def Compatible (r r' : ServerRequest) : Prop :=
  ∀ m m' h info info', r = .advertise m → r' = .advertise m' → m.hash = some h →
    m'.hash = some h → m.infoHash = some info → m'.infoHash = some info' → info = info'

variable {r r' : ServerRequest} {c c' : ClientId} {e e' : Event}

lemma client_of_change (hr : r.issuer = some c) (he : r.change = some e) : e.client = c := by
  unfold change at he
  split at he <;> cases he <;> exact Option.some.inj hr

lemma eq_of_change {h : FileHash} {info : InfoHash} (he : r.change = some (.advertised c h info)) :
    r = .advertise ⟨some c, some h, some info⟩ := by
  unfold change at he
  split at he <;> cases he
  rfl

lemma Compatible.change (hr : r.Compatible r') (he : r.change = some e)
    (he' : r'.change = some e') : e.Compatible e' := by
  rintro c c' h info info' rfl rfl
  exact hr _ _ h info info' (eq_of_change he) (eq_of_change he') rfl rfl rfl rfl

/-- The request is done and changes the service as its event says, whatever the maps hold. -/
lemma step_eq (hr : r.issuer = some c) (s : ConnectionService) :
    s.step r = some (r.change.elim s s.apply) := by
  cases r with
  | updateRegisteredPeerId m => obtain ⟨_ | c, _ | p⟩ := m <;> rfl
  | advertise m => obtain ⟨_ | c, _ | h, _ | info⟩ := m <;> rfl
  | deleteFile m =>
    obtain ⟨_ | c, _ | h⟩ := m
    · rfl
    · rfl
    · rfl
    · exact congrArg (fun x => some x.2) ConnectionService.run_deleteFile
  | delistClient c => exact congrArg (fun x => some x.2) ConnectionService.run_delistClient
  | _ => cases hr

end ServerRequest

namespace ConnectionService

variable {s t u : ConnectionService} {c c' : ClientId} {r r' : ServerRequest} {v : Board}

/-- The answers to `get_all_files` and `get_file_peer_list` are the same, as sets. -/
structure SameAnswers (t u : ConnectionService) : Prop where
  files : ∀ order order' infoHashes infoHashes',
    t.handle (.getAllFiles order) = some (.ok (.fileList infoHashes), t) →
      u.handle (.getAllFiles order') = some (.ok (.fileList infoHashes'), u) →
        {info | info ∈ infoHashes} = {info | info ∈ infoHashes'}
  peers : ∀ h, {p | p ∈ t.getFilePeerList h} = {p | p ∈ u.getFilePeerList h}

/-- The listed info hashes are those of the board. -/
lemma Displays.mem_getAllFiles (hs : s.Displays v) {order : List (Σ _ : FileHash, InfoHash)}
    {infoHashes : List InfoHash}
    (h : s.handle (.getAllFiles order) = some (.ok (.fileList infoHashes), s)) (info : InfoHash) :
    info ∈ infoHashes ↔ ∃ k, (v.files k).info = some info := by
  simp only [handle] at h
  split_ifs at h with hperm
  obtain ⟨⟨⟩, -⟩ := Prod.mk.inj (Option.some.inj h)
  rw [getAllFiles, List.mem_map]
  constructor
  · rintro ⟨⟨k, i⟩, hk, rfl⟩
    exact ⟨k, (hs.files k).info.symm.trans (AList.mem_lookup_iff.mpr (hperm.mem_iff.mp hk))⟩
  · rintro ⟨k, hk⟩
    exact ⟨⟨k, info⟩, hperm.mem_iff.mpr (AList.mem_lookup_iff.mp ((hs.files k).info.trans hk)), rfl⟩

/-- The listed peers are those of the board. -/
lemma Displays.mem_getFilePeerList (hs : s.Displays v) {h : FileHash} {p : PeerId} :
    p ∈ s.getFilePeerList h ↔ ∃ c ∈ (v.files h).seeds, v.registry c = some (some p) := by
  rw [getFilePeerList_eq, List.mem_filterMap]
  refine exists_congr fun c => and_congr ((hs.files h).seeds c) ?_
  rw [peerIdOf, Option.join_eq_some_iff, hs.registry]

/-- Two servers with the same board give the same answers. -/
lemma Displays.sameAnswers (ht : t.Displays v) (hu : u.Displays v) : t.SameAnswers u := by
  constructor
  · intro order order' infoHashes infoHashes' h h'
    ext info
    exact (ht.mem_getAllFiles h info).trans (hu.mem_getAllFiles h' info).symm
  · intro h
    ext p
    exact ht.mem_getFilePeerList.trans hu.mem_getFilePeerList.symm

/-- In every state, two requests of different clients that do not advertise one file under two info
hashes lead to the same answers in both orders. -/
theorem requests_commute (s : ConnectionService) (hr : r.issuer = some c)
    (hr' : r'.issuer = some c') (hne : c ≠ c') (hinfo : r.Compatible r') :
    ∃ t u, exec step s [r, r'] = some t ∧ exec step s [r', r] = some u ∧ t.SameAnswers u := by
  have hexec : ∀ {r r' : ServerRequest} {c c'}, r.issuer = some c → r'.issuer = some c' →
      exec step s [r, r'] = some (r'.change.elim (r.change.elim s s.apply)
        (r.change.elim s s.apply).apply) := by
    intro r r' c c' hr hr'
    simp only [exec, ServerRequest.step_eq hr, ServerRequest.step_eq hr', Option.bind_some]
  refine ⟨_, _, hexec hr hr', hexec hr' hr, ?_⟩
  have hs := displays_board s
  cases he : r.change with
  | none =>
    cases he' : r'.change with
    | none => exact hs.sameAnswers hs
    | some e' => exact (hs.apply e').sameAnswers (hs.apply e')
  | some e =>
    cases he' : r'.change with
    | none => exact (hs.apply e).sameAnswers (hs.apply e)
    | some e' =>
      have hclient : e.client ≠ e'.client := by
        rw [ServerRequest.client_of_change hr he, ServerRequest.client_of_change hr' he']
        exact hne
      have hcomm := s.board.apply_comm hclient (hinfo.change he he')
      exact ((hs.apply e).apply e').sameAnswers (hcomm ▸ (hs.apply e').apply e)

/-- Two clients share a file; one withdraws it and the other is delisted. -/
theorem requests_commute_pair :
    ∃ s t u, exec step default
        [.updateRegisteredPeerId ⟨some ⟨"b"⟩, some ⟨2, 2, 2, 2⟩⟩,
          .advertise ⟨some ⟨"a"⟩, some ⟨[1]⟩, some ⟨"one", 1, 1, []⟩⟩,
          .advertise ⟨some ⟨"b"⟩, some ⟨[1]⟩, some ⟨"one", 1, 1, []⟩⟩] = some s ∧
      exec step s [.deleteFile ⟨some ⟨"a"⟩, some ⟨[1]⟩⟩, .delistClient ⟨"b"⟩] = some t ∧
      exec step s [.delistClient ⟨"b"⟩, .deleteFile ⟨some ⟨"a"⟩, some ⟨[1]⟩⟩] = some u ∧
      t.seederList ≠ u.seederList ∧ t.SameAnswers u := by
  have hdelete : (ServerRequest.deleteFile ⟨some ⟨"a"⟩, some ⟨[1]⟩⟩).issuer = some ⟨"a"⟩ := rfl
  have hdelist : (ServerRequest.delistClient ⟨"b"⟩).issuer = some ⟨"b"⟩ := rfl
  refine ⟨_, _, _, rfl, rfl, rfl, ?_, ?_⟩
  · intro h
    have hlookup := congrArg (fun l => (l.lookup ⟨[1]⟩).isSome) h
    exact absurd hlookup (by decide)
  · obtain ⟨t, u, ht, hu, h⟩ := requests_commute
      (((default.register ⟨"b"⟩ (some ⟨2, 2, 2, 2⟩)).apply
        (.advertised ⟨"a"⟩ ⟨[1]⟩ ⟨"one", 1, 1, []⟩)).apply
          (.advertised ⟨"b"⟩ ⟨[1]⟩ ⟨"one", 1, 1, []⟩)) hdelete hdelist (by decide)
      (by rintro m m' h info info' hm; cases hm)
    cases ht
    cases hu
    exact h

end ConnectionService

end BearTorrent
