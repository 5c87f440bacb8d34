import BearTorrent.Server.Handlers

/-!
# The tracker lists the seeded files

`file_tracker` and `seeder_list` are cleaned up in different ways: `delete_file` drops both entries
of a file without seeders, `delist_client` drops the one in `file_tracker` and leaves an empty list.
An empty list therefore counts as no entry.
-/

namespace BearTorrent

open Transition

namespace Event

/-- The event advertises the file. -/
def advertises (h : FileHash) : Event → Bool
  | .advertised _ k _ => k = h
  | _                 => false

/-- The info hash of an advertisement. -/
def info? : Event → Option InfoHash
  | .advertised _ _ info => some info
  | _                    => none

end Event

namespace ConnectionService

variable {s t : ConnectionService} {c : ClientId} {h : FileHash} {es : List Event}

/-- The info hash that the latest advertisement of a file gives. -/
def advertisedInfo (es : List Event) (h : FileHash) : Option InfoHash :=
  (latest (·.advertises h) es).bind Event.info?

lemma advertisedInfo_concat (e : Event) (h : FileHash) :
    advertisedInfo (es ++ [e]) h = if e.advertises h then e.info? else advertisedInfo es h := by
  rw [advertisedInfo, latest_concat]
  split_ifs <;> rfl

/-- Exactly the files with seeders are tracked, under the info hash advertised last. -/
structure Agrees (es : List Event) (s : ConnectionService) : Prop where
  tracked : ∀ h, s.fileTracker.lookup h = none ↔ s.seeders h = []
  latest : ∀ h info, s.fileTracker.lookup h = some info → advertisedInfo es h = some info

lemma agrees_default : Agrees [] default := by
  constructor
  · intro h
    exact iff_of_true rfl rfl
  · intro h info hinfo
    cases hinfo

/-- An event that takes `c` from the seeders of the files in `P`, and those that are left without
seeders from the tracker, preserves the agreement. -/
lemma Agrees.of_filter (hs : Agrees es s) {e : Event} (he : ∀ h, e.advertises h = false)
    (P : FileHash → Prop) [DecidablePred P]
    (hseeders : ∀ h, t.seeders h = if P h then (s.seeders h).filter (· ≠ c) else s.seeders h)
    (hlookup : ∀ h, t.fileTracker.lookup h =
      if P h ∧ h ∈ s.seederList ∧ (s.seeders h).filter (· ≠ c) = [] then none
      else s.fileTracker.lookup h) : Agrees (es ++ [e]) t := by
  constructor
  · intro h
    rw [hseeders, hlookup]
    by_cases hP : P h
    · simp only [hP, true_and, if_true]
      by_cases hnil : (s.seeders h).filter (· ≠ c) = []
      · rw [hnil]
        by_cases hm : h ∈ s.seederList
        · simp [hm]
        · simpa [hm, hs.tracked] using seeders_of_notMem hm
      · rw [if_neg fun h' => hnil h'.2, hs.tracked]
        refine iff_of_false (fun h' => hnil ?_) hnil
        rw [h', List.filter_nil]
    · simpa [hP] using hs.tracked h
  · intro h info hinfo
    rw [advertisedInfo_concat, he h]
    rw [hlookup] at hinfo
    split_ifs at hinfo
    exact hs.latest h info hinfo

/-- Every event preserves the agreement. -/
lemma Agrees.apply (hs : Agrees es s) (e : Event) : Agrees (es ++ [e]) (s.apply e) := by
  cases e with
  | registered c p =>
    exact ⟨hs.tracked, fun h info hinfo => by
      rw [advertisedInfo_concat]
      exact hs.latest h info hinfo⟩
  | updated c p =>
    exact ⟨hs.tracked, fun h info hinfo => by
      rw [advertisedInfo_concat]
      exact hs.latest h info hinfo⟩
  | advertised c k info =>
    constructor
    · intro h
      simp only [ConnectionService.apply, fileTracker_pushSeeder, lookup_trackFile,
        seeders_pushSeeder, seeders_trackFile]
      split_ifs with hk
      · simp
      · exact hs.tracked h
    · intro h info' hinfo
      rw [advertisedInfo_concat]
      simp only [ConnectionService.apply, fileTracker_pushSeeder, lookup_trackFile] at hinfo
      by_cases hk : h = k
      · subst hk
        simpa [Event.advertises, Event.info?] using hinfo
      · rw [if_neg hk] at hinfo
        simpa [Event.advertises, Ne.symm hk] using hs.latest h info' hinfo
  | deleted c k =>
    refine hs.of_filter (c := c) (fun _ => rfl) (· = k) (fun h => ?_) fun h => ?_
    · rw [ConnectionService.apply, seeders_withdraw]
      split_ifs with hk
      · rw [hk]
      · rfl
    · rw [ConnectionService.apply, lookup_withdraw]
      by_cases hk : h = k
      · subst hk
        rfl
      · simp [hk]
  | delisted c =>
    by_cases hc : c ∈ s.clientRegistry
    · refine hs.of_filter (c := c) (fun _ => rfl) (fun _ => True) (fun h => ?_) fun h => ?_
      · rw [ConnectionService.apply, seeders_delist hc, if_pos trivial]
      · rw [ConnectionService.apply, lookup_delist hc]
        simp only [true_and]
    · refine ⟨?_, fun h info hinfo => ?_⟩
      · rw [ConnectionService.apply, delist_of_notMem hc]
        exact hs.tracked
      · rw [ConnectionService.apply, delist_of_notMem hc] at hinfo
        rw [advertisedInfo_concat]
        exact hs.latest h info hinfo

/-- The tracker agrees with the history of every run. -/
lemma agrees_run {tr : List (ConnectionService × ServerRequest)} (hrun : Run step default tr s) :
    Agrees (history tr) s :=
  run_history (P := fun _ _ => True) (fun _ _ _ _ e hs _ _ => hs.apply e) hrun
    (fun _ _ => trivial) agrees_default

/-- After any requests, a file is tracked if and only if its list of seeders is not empty, its info
hash is the one advertised last, and `get_all_files` lists exactly the files with seeders. -/
theorem tracker_agrees {tr : List (ConnectionService × ServerRequest)}
    (hrun : Run step default tr s) :
    (∀ h, h ∈ s.fileTracker ↔ ∃ clients, s.seederList.lookup h = some clients ∧ clients ≠ []) ∧
      (∀ h info, s.fileTracker.lookup h = some info →
        advertisedInfo (history tr) h = some info) ∧
      ∀ order infoHashes t,
        s.handle (.getAllFiles order) = some (.ok (.fileList infoHashes), t) →
          ∃ files : List FileHash, files.Nodup ∧ (∀ h, h ∈ files ↔ s.seeders h ≠ []) ∧
            infoHashes.map some = files.map (advertisedInfo (history tr)) := by
  have hs := agrees_run hrun
  have htracked : ∀ h, h ∈ s.fileTracker ↔ s.seeders h ≠ [] := by
    intro h
    rw [← AList.lookup_isSome, ne_eq, ← hs.tracked, Option.isSome_iff_ne_none]
  refine ⟨fun h => ?_, hs.latest, fun order infoHashes t hreply => ?_⟩
  · rw [htracked, seeders]
    cases s.seederList.lookup h with
    | none => simp
    | some clients => simp
  · simp only [handle] at hreply
    split_ifs at hreply with hperm
    obtain ⟨⟨⟩, rfl⟩ := Prod.mk.inj (Option.some.inj hreply)
    refine ⟨order.map (·.1), ?_, fun h => ?_, ?_⟩
    · exact ((List.perm_nodupKeys hperm).mpr s.fileTracker.nodupKeys)
    · rw [← htracked, AList.mem_keys, AList.keys]
      exact (hperm.map _).mem_iff
    · rw [getAllFiles, List.map_map, List.map_map]
      apply List.map_congr_left
      rintro ⟨h, info⟩ hmem
      exact (hs.latest h info (AList.mem_lookup_iff.mpr (hperm.mem_iff.mp hmem))).symm

/-- A client shares two files and another client one of them; the first is delisted. -/
def sharedRequests : List ServerRequest :=
  [.registerClient ⟨none⟩ ["a"], .advertise ⟨some ⟨"a"⟩, some ⟨[1]⟩, some ⟨"one", 1, 1, []⟩⟩,
    .advertise ⟨some ⟨"a"⟩, some ⟨[2]⟩, some ⟨"two", 2, 1, []⟩⟩,
    .advertise ⟨some ⟨"b"⟩, some ⟨[2]⟩, some ⟨"two", 2, 2, []⟩⟩, .delistClient ⟨"a"⟩]

theorem tracker_agrees_shared :
    ∃ tr s, Run step default tr s ∧
      (∀ h, h ∈ s.fileTracker ↔
        ∃ clients, s.seederList.lookup h = some clients ∧ clients ≠ []) ∧
      s.seederList.lookup ⟨[1]⟩ = some [] ∧ s.seederList.lookup ⟨[2]⟩ = some [⟨"b"⟩] ∧
      s.fileTracker.lookup ⟨[2]⟩ = some ⟨"two", 2, 2, []⟩ := by
  obtain ⟨s, hs, hone, htwo, hinfo⟩ : ∃ s, exec step default sharedRequests = some s ∧
      s.seederList.lookup ⟨[1]⟩ = some [] ∧ s.seederList.lookup ⟨[2]⟩ = some [⟨"b"⟩] ∧
      s.fileTracker.lookup ⟨[2]⟩ = some ⟨"two", 2, 2, []⟩ := ⟨_, rfl, rfl, rfl, rfl⟩
  obtain ⟨tr, hrun, -⟩ := run_of_exec hs
  exact ⟨tr, s, hrun, (tracker_agrees hrun).1, hone, htwo, hinfo⟩

end ConnectionService

end BearTorrent
