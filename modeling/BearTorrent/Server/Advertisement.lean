import BearTorrent.Lib.Transition
import BearTorrent.Server.Concurrent

/-!
# Advertisements under concurrent requests

`delete_file` decides that a file has no seeders and removes the file in later steps, and
`delist_client` removes a file while a new seeder may have it in `file_tracker` but not yet in
`seeder_list`. An advertisement is kept when no removal hits a file that has come into use again.
-/

namespace BearTorrent

open Function Transition

variable {s t : Tracker} {service service' : ConnectionService} {state state' : TrackerState}
  {c : ClientId} {h : FileHash}

/-- The request may still take the client from the seeders of the file. -/
def TrackerState.Withdraws (c : ClientId) (h : FileHash) : TrackerState → Prop
  | .retaining d k      => d = c ∧ k = h
  | .unregistering d    => d = c
  | .searching d _ _    => d = c
  | .dropping d _ _ _   => d = c
  | .walking d _ _      => d = c
  | .unlisting d _ _ _  => d = c
  | _                   => False

/-- A `delete_file` of the client for the file, or a `delist_client` of the client. -/
def TrackerRequest.Withdraws (c : ClientId) (h : FileHash) : TrackerRequest → Prop
  | .deleteFile req => req.id = some c ∧ req.hash = some h
  | .delistClient d => d = c
  | .advertise _    => False

lemma TrackerRequest.withdraws_of_start {r : TrackerRequest} (hr : r.start.Withdraws c h) :
    r.Withdraws c h := by
  cases r with
  | advertise r =>
    obtain ⟨_ | _, _ | _, _ | _⟩ := r <;> exact hr
  | deleteFile req =>
    obtain ⟨_ | d, _ | k⟩ := req
    · exact hr.elim
    · exact hr.elim
    · exact hr.elim
    · exact ⟨congrArg some hr.1, congrArg some hr.2⟩
  | delistClient d => exact hr

namespace TrackerMove

lemma withdraws (hm : TrackerMove service state state' service')
    (hw : state'.Withdraws c h) : state.Withdraws c h := by
  cases hm <;> first | exact hw | exact hw.elim

/-- A client stays among the seeders of a file, unless the request withdraws it or removes the
whole entry. -/
lemma mem_seeders (hm : TrackerMove service state state' service')
    (hw : ¬ state.Withdraws c h) (hremove : state = .removing h → service.seeders h = [])
    (hc : c ∈ service.seeders h) : c ∈ service'.seeders h := by
  have hretain : ∀ {d k}, ¬ (d = c ∧ k = h) → c ∈ (service.retainOthers k d).seeders h :=
    fun hne => ConnectionService.mem_retainOthers.mpr
      ⟨hc, fun ⟨hd, hk⟩ => hne ⟨hd.symm, hk.symm⟩⟩
  cases hm with
  | push d k => exact ConnectionService.mem_pushSeeder.mpr (.inl hc)
  | retainLast d k => exact hretain hw
  | retain d k => exact hretain hw
  | remove k =>
    rw [ConnectionService.seeders_removeSeeders]
    split_ifs with hk
    · subst hk
      rw [hremove rfl] at hc
      cases hc
    · exact hc
  | visitLast d k => exact hretain fun hdk => hw hdk.1
  | visit d k => exact hretain fun hdk => hw hdk.1
  | drop d p m maps =>
    rw [ConnectionService.seeders_removeSender]
    exact hc
  | _ => exact hc

/-- A file stays tracked, unless the request removes it from `file_tracker`. -/
lemma mem_fileTracker (hm : TrackerMove service state state' service')
    (hu : state ≠ .untracking h)
    (hl : ∀ d entries next, state ≠ .unlisting d h entries next)
    (hh : h ∈ service.fileTracker) : h ∈ service'.fileTracker := by
  have hmem : ∀ {k}, k ≠ h → h ∈ (service.untrackFile k).fileTracker :=
    fun hk => AList.mem_erase.mpr ⟨hk.symm, hh⟩
  cases hm with
  | track d k info => exact AList.mem_insert _ |>.mpr (.inr hh)
  | untrack k => exact hmem fun hk => hu (hk ▸ rfl)
  | unlist d k entries next => exact hmem fun hk => hl d entries next (hk ▸ rfl)
  | drop d p m maps =>
    rw [ConnectionService.fileTracker_removeSender]
    exact hh
  | retainLast d k =>
    rw [ConnectionService.fileTracker_retainOthers]
    exact hh
  | retain d k =>
    rw [ConnectionService.fileTracker_retainOthers]
    exact hh
  | visitLast d k =>
    rw [ConnectionService.fileTracker_retainOthers]
    exact hh
  | visit d k =>
    rw [ConnectionService.fileTracker_retainOthers]
    exact hh
  | _ => exact hh

end TrackerMove

namespace Tracker

/-- The file has no seeders, and no `advertise` is about to add one. -/
def Unused (s : Tracker) (h : FileHash) : Prop :=
  s.service.seeders h = [] ∧ ∀ i c, s.requests i ≠ some (.pushing c h)

/-- The step removes a file only while it is not in use. -/
def RemovesUnused (s : Tracker) (a : Action) : Prop :=
  match s.requests a.request with
  | some (.removing h)        => s.service.seeders h = []
  | some (.untracking h)      => s.Unused h
  | some (.unlisting _ h _ _) => s.Unused h
  | _                         => True

/-- What an `advertise` of the client for the file has achieved. -/
def Achieved (c : ClientId) (h : FileHash) (service : ConnectionService) : TrackerState → Prop
  | .tracking d k _ => d = c ∧ k = h
  | .pushing d k    => d = c ∧ k = h ∧ h ∈ service.fileTracker
  | .returned _     => c ∈ service.seeders h ∧ h ∈ service.fileTracker
  | _               => False

/-- No request withdraws the client from the file, and the `advertise` with number `i` is under way
or kept. -/
structure Kept (i : RequestId) (c : ClientId) (h : FileHash) (s : Tracker) : Prop where
  unwithdrawn : ∀ j state, s.requests j = some state → ¬ state.Withdraws c h
  achieved : ∃ state, s.requests i = some state ∧ Achieved c h s.service state

variable {i : RequestId}

/-- What is achieved is kept by the steps of other requests. -/
lemma Achieved.move {a : Action} {other : TrackerState} (hs : Achieved c h s.service state)
    (hi : s.requests i = some state) (hother : s.requests a.request = some other)
    (hm : TrackerMove s.service other state' service') (hw : ¬ other.Withdraws c h)
    (hunused : s.RemovesUnused a) : Achieved c h service' state := by
  have hremoved : other = .removing h → s.service.seeders h = [] := by
    intro ho
    simpa [RemovesUnused, hother, ho] using hunused
  have huntracked : (other = .untracking h ∨ ∃ d es n, other = .unlisting d h es n) →
      s.Unused h := by
    rintro (ho | ⟨d, es, n, ho⟩)
    · simpa [RemovesUnused, hother, ho] using hunused
    · simpa [RemovesUnused, hother, ho] using hunused
  have htracker : h ∈ s.service.fileTracker → ¬ s.Unused h → h ∈ service'.fileTracker := by
    intro hh hused
    apply hm.mem_fileTracker (fun ho => hused (huntracked (.inl ho)))
      (fun d es n ho => hused (huntracked (.inr ⟨d, es, n, ho⟩))) hh
  cases state with
  | tracking d k info => exact hs
  | pushing d k =>
    obtain ⟨rfl, rfl, hh⟩ := hs
    exact ⟨rfl, rfl, htracker hh fun hu => hu.2 i d hi⟩
  | returned reply =>
    obtain ⟨hc, hh⟩ := hs
    refine ⟨hm.mem_seeders hw hremoved hc, htracker hh fun hu => ?_⟩
    rw [hu.1] at hc
    cases hc
  | _ => exact hs.elim

/-- The `advertise` itself goes on. -/
lemma Achieved.advance (hs : Achieved c h service state)
    (hm : TrackerMove service state state' service') : Achieved c h service' state' := by
  cases hm with
  | track d k info =>
    obtain ⟨rfl, rfl⟩ := hs
    exact ⟨rfl, rfl, AList.mem_insert _ |>.mpr (.inl rfl)⟩
  | push d k =>
    obtain ⟨rfl, rfl, hh⟩ := hs
    exact ⟨ConnectionService.mem_pushSeeder.mpr (.inr ⟨rfl, rfl⟩), hh⟩
  | _ => exact hs.elim

lemma Kept.step {a : Action} (hs : Kept i c h s) (hstep : TrackerStep s a t)
    (hcall : ∀ j r, a = .call j r → ¬ r.Withdraws c h) (hunused : s.RemovesUnused a) :
    Kept i c h t := by
  obtain ⟨state, hi, hachieved⟩ := hs.achieved
  cases hstep with
  | @call j r _ hj hrequests hservice =>
    constructor
    · intro k other hk hw
      rw [hrequests] at hk
      by_cases hkj : k = j
      · subst hkj
        rw [update_self] at hk
        cases hk
        exact hcall k r rfl (TrackerRequest.withdraws_of_start hw)
      · rw [update_of_ne hkj] at hk
        exact hs.unwithdrawn k other hk hw
    · have hij : i ≠ j := by
        rintro rfl
        rw [hi] at hj
        cases hj
      refine ⟨state, ?_, hservice ▸ hachieved⟩
      rw [hrequests, update_of_ne hij, hi]
  | @move _ other other' _ _ hj hrequests hmove =>
    have hw := hs.unwithdrawn _ _ hj
    constructor
    · intro k state' hk hw'
      rw [hrequests] at hk
      by_cases hkj : k = a.request
      · subst hkj
        rw [update_self] at hk
        cases hk
        exact hw (hmove.withdraws hw')
      · rw [update_of_ne hkj] at hk
        exact hs.unwithdrawn k state' hk hw'
    · by_cases hij : i = a.request
      · subst hij
        obtain rfl := Option.some.inj (hi.symm.trans hj)
        refine ⟨other', ?_, hachieved.advance hmove⟩
        rw [hrequests, update_self]
      · refine ⟨state, ?_, hachieved.move hi hj hmove hw hunused⟩
        rw [hrequests, update_of_ne hij, hi]

/-- An advertisement is kept in every run that removes only files that are not in use: if no
earlier withdrawal of the client is still running, and none is issued later, then once all requests
have returned, the client is among the seeders of the file and the file is tracked. -/
theorem advertised_kept (shards : Shards) (service : ConnectionService)
    {tr tr' : List (Tracker × Action)} {info : InfoHash}
    (hrun : Run (step shards) (init service)
      (tr ++ (s, .call i (.advertise ⟨some c, some h, some info⟩)) :: tr') t)
    (hbefore : ∀ j state, s.requests j = some state → ¬ state.Withdraws c h)
    (hafter : ∀ p ∈ tr', ∀ j r, p.2 = .call j r → ¬ r.Withdraws c h)
    (hunused : ∀ p ∈ tr', p.1.RemovesUnused p.2)
    (hreturned : ∀ j state, t.requests j = some state → ∃ reply, state = .returned reply) :
    c ∈ t.service.seeders h ∧ h ∈ t.service.fileTracker := by
  obtain ⟨u, -, hu, hrun'⟩ := hrun.split_cons
  have hkept : Kept i c h u := by
    cases trackerStep_of_eq_some hu with
    | call hi hrequests hservice =>
      constructor
      · intro j state hj hw
        rw [hrequests] at hj
        by_cases hji : j = i
        · subst hji
          rw [update_self] at hj
          cases hj
          exact hw
        · rw [update_of_ne hji] at hj
          exact hbefore j state hj hw
      · refine ⟨.tracking c h info, ?_, rfl, rfl⟩
        rw [hrequests, update_self]
        rfl
    | move ha => exact absurd rfl (ha _ _)
  obtain ⟨state, hi, hachieved⟩ : ∃ state, t.requests i = some state ∧
      Achieved c h t.service state :=
    (hrun'.invariant (P := fun s a => (∀ j r, a = .call j r → ¬ r.Withdraws c h) ∧
        s.RemovesUnused a)
      (fun s a t hs hok ha => hs.step (trackerStep_of_eq_some ha) hok.1 hok.2)
      (fun p hp => ⟨hafter p hp, hunused p hp⟩) hkept).achieved
  obtain ⟨reply, rfl⟩ := hreturned i state hi
  exact hachieved

/-! ### The last seeder leaves while a new one arrives -/

/-- All files are in one shard. -/
def oneShard : Shards := ⟨1, fun _ => 0, fun _ => Nat.one_pos⟩

def sharedFile : FileHash := ⟨[1]⟩

def advertiseBy (uid : String) : TrackerRequest :=
  .advertise ⟨some ⟨uid⟩, some sharedFile, some ⟨"one", 1, 1, []⟩⟩

/-- The only seeder withdraws its file: the list is found empty. -/
def leavingActions : List Action :=
  [.call 0 (advertiseBy "a"), .advance 0, .advance 0,
    .call 1 (.deleteFile ⟨some ⟨"a"⟩, some sharedFile⟩), .advance 1]

/-- The states of the first requests; the others are not called yet. -/
def StatesAre (s : Tracker) (states : List TrackerState) : Prop :=
  ∀ i, s.requests i = states[i]?

lemma StatesAre.forall {states : List TrackerState} {P : TrackerState → Prop}
    (hs : s.StatesAre states) (hP : ∀ state ∈ states, P state) :
    ∀ i state, s.requests i = some state → P state := by
  intro i state hi
  exact hP state (List.mem_of_getElem? ((hs i).symm.trans hi))

theorem advertised_kept_arriving :
    ∃ tr tr' s t,
      Run (step oneShard) (init .default) (tr ++ (s, .call 2 (advertiseBy "b")) :: tr') t ∧
      s.requests 1 = some (.removing sharedFile) ∧
      ⟨"b"⟩ ∈ t.service.seeders sharedFile ∧ sharedFile ∈ t.service.fileTracker := by
  obtain ⟨s, s₁, s₂, s₃, s₄, t, hs, h₁, h₂, h₃, h₄, ht, hstates, hstates₂, hstates', hstates₁,
      hnil₁, hnil₂, hstates₃, hstates₄⟩ : ∃ s s₁ s₂ s₃ s₄ t,
      exec (step oneShard) (init .default) leavingActions = some s ∧
      s.step oneShard (.call 2 (advertiseBy "b")) = some s₁ ∧
      s₁.step oneShard (.advance 1) = some s₂ ∧ s₂.step oneShard (.advance 1) = some s₃ ∧
      s₃.step oneShard (.advance 2) = some s₄ ∧ s₄.step oneShard (.advance 2) = some t ∧
      s.StatesAre [.returned (.ok (.clientId ⟨"a"⟩)), .removing sharedFile] ∧
      s₂.StatesAre [.returned (.ok (.clientId ⟨"a"⟩)), .untracking sharedFile,
        .tracking ⟨"b"⟩ sharedFile ⟨"one", 1, 1, []⟩] ∧
      t.StatesAre [.returned (.ok (.clientId ⟨"a"⟩)), .returned (.ok .empty),
        .returned (.ok (.clientId ⟨"b"⟩))] ∧
      s₁.requests 1 = some (.removing sharedFile) ∧ s₁.service.seeders sharedFile = [] ∧
      s₂.service.seeders sharedFile = [] ∧
      s₃.requests 2 = some (.tracking ⟨"b"⟩ sharedFile ⟨"one", 1, 1, []⟩) ∧
      s₄.requests 2 = some (.pushing ⟨"b"⟩ sharedFile) :=
    ⟨_, _, _, _, _, _, rfl, rfl, rfl, rfl, rfl, rfl,
      fun | 0 => rfl | 1 => rfl | _ + 2 => rfl,
      fun | 0 => rfl | 1 => rfl | 2 => rfl | _ + 3 => rfl,
      fun | 0 => rfl | 1 => rfl | 2 => rfl | _ + 3 => rfl, rfl, rfl, rfl, rfl, rfl⟩
  obtain ⟨tr, hrun, -⟩ := run_of_exec hs
  have hrun' : Run (step oneShard) (init .default)
      (tr ++ (s, .call 2 (advertiseBy "b")) ::
        [(s₁, .advance 1), (s₂, .advance 1), (s₃, .advance 2), (s₄, .advance 2)]) t := by
    have hcalled := hrun.snoc h₁
    simpa using (((hcalled.snoc h₂).snoc h₃).snoc h₄).snoc ht
  refine ⟨tr, _, s, t, hrun', hstates 1, advertised_kept oneShard .default hrun'
    (hstates.forall ?_) ?_ ?_ (hstates'.forall ?_)⟩
  · simp [TrackerState.Withdraws]
  · simp
  · simp only [List.forall_mem_cons, List.not_mem_nil, false_imp_iff, implies_true, and_true]
    refine ⟨?_, ?_, ?_, ?_⟩
    · simp only [RemovesUnused, Action.request, hstates₁]
      exact hnil₁
    · simp only [RemovesUnused, Action.request, hstates₂ 1]
      refine ⟨hnil₂, fun i c hi => ?_⟩
      exact hstates₂.forall (P := fun state => state ≠ .pushing c sharedFile) (by simp) i _ hi rfl
    · simp only [RemovesUnused, Action.request, hstates₃]
    · simp only [RemovesUnused, Action.request, hstates₄]
  · simp

/-- A seeder arrives between the decision of `delete_file` and the removal that follows. -/
theorem advertisement_lost :
    ∃ tr tr' s t,
      Run (step oneShard) (init .default) (tr ++ (s, .call 2 (advertiseBy "b")) :: tr') t ∧
      (∀ j state, s.requests j = some state → ¬ state.Withdraws ⟨"b"⟩ sharedFile) ∧
      (∀ p ∈ tr', ∀ j r, p.2 = .call j r → ¬ r.Withdraws ⟨"b"⟩ sharedFile) ∧
      (∀ j state, t.requests j = some state → ∃ reply, state = .returned reply) ∧
      t.requests 2 = some (.returned (.ok (.clientId ⟨"b"⟩))) ∧
      t.service.seeders sharedFile = [] ∧ sharedFile ∉ t.service.fileTracker := by
  obtain ⟨s, u, t, hs, hu, ht, hstates, hstates', hseeders, htracker⟩ : ∃ s u t,
      exec (step oneShard) (init .default) leavingActions = some s ∧
      s.step oneShard (.call 2 (advertiseBy "b")) = some u ∧
      exec (step oneShard) u [.advance 2, .advance 2, .advance 1, .advance 1] = some t ∧
      s.StatesAre [.returned (.ok (.clientId ⟨"a"⟩)), .removing sharedFile] ∧
      t.StatesAre [.returned (.ok (.clientId ⟨"a"⟩)), .returned (.ok .empty),
        .returned (.ok (.clientId ⟨"b"⟩))] ∧
      t.service.seeders sharedFile = [] ∧ t.service.fileTracker.lookup sharedFile = none :=
    ⟨_, _, _, rfl, rfl, rfl, fun | 0 => rfl | 1 => rfl | _ + 2 => rfl,
      fun | 0 => rfl | 1 => rfl | 2 => rfl | _ + 3 => rfl, rfl, rfl⟩
  obtain ⟨tr, hrun, -⟩ := run_of_exec hs
  obtain ⟨tr', hrun', hmap⟩ := run_of_exec ht
  have hall := (hrun.snoc hu).append hrun'
  rw [List.append_assoc, List.singleton_append] at hall
  refine ⟨tr, tr', s, t, hall, hstates.forall ?_,
    forall_of_map (P := fun _ a => ∀ j r, a = .call j r → ¬ r.Withdraws ⟨"b"⟩ sharedFile) hmap ?_,
    hstates'.forall ?_, hstates' 2, hseeders, AList.lookup_eq_none.mp htracker⟩
  · simp [TrackerState.Withdraws]
  · simp
  · simp

end Tracker

end BearTorrent
