import BearTorrent.Lib.LockOrder
import BearTorrent.Lib.SumUpdate
import BearTorrent.Lib.Transition
import BearTorrent.Server.Advertisement
import BearTorrent.Server.Commute

/-!
# Concurrent tracker requests return

`delist_client` keeps the lock of a shard of `seeder_list` until it has the lock of the next one. All
walks take the locks in the order of the shards, and the other requests hold none, so there is
always a request that can go on. New seeders make the walks longer, but each request has only so
many steps.
-/

namespace BearTorrent

open Function Transition

namespace TrackerState

/-- The request walks shard `k`. -/
def InShard (k : ℕ) : TrackerState → Prop
  | .walking _ _ next     => next = k + 1
  | .unlisting _ _ _ next => next = k + 1
  | _                     => False

/-- The shard whose lock the request needs for its next operation. -/
def wants (shards : Shards) : TrackerState → Option ℕ
  | .pushing _ h       => some (shards.shardOf h)
  | .retaining _ h     => some (shards.shardOf h)
  | .removing h        => some (shards.shardOf h)
  | .walking _ [] next => if next < shards.count then some next else none
  | _                  => none

/-- A walk wants the lock of a later shard. -/
lemma lt_of_wants {shards : Shards} {state : TrackerState} {j k : ℕ} (hj : state.InShard j)
    (hk : state.wants shards = some k) : j < k ∧ k < shards.count := by
  cases state with
  | walking c entries next =>
    cases entries with
    | nil =>
      simp only [wants] at hk
      split_ifs at hk with hnext
      obtain rfl := Option.some.inj hk
      exact ⟨hj ▸ Nat.lt_succ_self j, hnext⟩
    | cons h entries => cases hk
  | unlisting c h entries next => cases hk
  | _ => exact hj.elim

end TrackerState

namespace Tracker

variable {shards : Shards} {s t : Tracker} {i : RequestId} {state state' : TrackerState}

/-! ### Who holds the locks -/

variable (shards) in
/-- The lock of a shard is held by a request that walks the shard. -/
def LocksWalked (s : Tracker) : Prop :=
  ∀ k i, s.locks k = some i →
    k < shards.count ∧ ∃ state, s.requests i = some state ∧ state.InShard k

lemma locksWalked_init (service : ConnectionService) : (init service).LocksWalked shards := by
  intro k i hk
  cases hk

namespace LocksWalked

lemma move (hs : s.LocksWalked shards) (hi : s.requests i = some state)
    (hshard : ∀ k, state.InShard k → state'.InShard k) (service : ConnectionService) :
    (s.move i state' service).LocksWalked shards := by
  intro k j hk
  obtain ⟨hlt, other, hj, hother⟩ := hs k j hk
  refine ⟨hlt, ?_⟩
  by_cases hji : j = i
  · subst hji
    obtain rfl := Option.some.inj (hi.symm.trans hj)
    exact ⟨state', update_self .., hshard k hother⟩
  · exact ⟨other, (update_of_ne hji ..).trans hj, hother⟩

/-- The locks that a request does not hold stay with those who hold them. -/
lemma release (hs : s.LocksWalked shards) (i : RequestId) (state' : TrackerState)
    (service : ConnectionService) : ((s.release i).move i state' service).LocksWalked shards := by
  intro k j hk
  change (if s.locks k = some i then none else s.locks k) = some j at hk
  split_ifs at hk with hki
  obtain ⟨hlt, other, hj, hother⟩ := hs k j hk
  have hji : j ≠ i := fun h => hki (h ▸ hk)
  exact ⟨hlt, other, (update_of_ne hji ..).trans hj, hother⟩

lemma acquire (hs : s.LocksWalked shards) (i : RequestId) {next : ℕ} (hnext : next < shards.count)
    (hshard : state'.InShard next) (service : ConnectionService) :
    (((s.release i).acquire i next).move i state' service).LocksWalked shards := by
  intro k j hk
  change update (s.release i).locks next (some i) k = some j at hk
  by_cases hkn : k = next
  · subst hkn
    rw [update_self] at hk
    obtain rfl := Option.some.inj hk
    exact ⟨hnext, state', update_self .., hshard⟩
  · rw [update_of_ne hkn] at hk
    exact hs.release i state' service k j hk

lemma call (hs : s.LocksWalked shards) (hi : s.requests i = none) (service : ConnectionService) :
    (s.move i state' service).LocksWalked shards := by
  intro k j hk
  obtain ⟨hlt, other, hj, hother⟩ := hs k j hk
  have hji : j ≠ i := by
    rintro rfl
    rw [hi] at hj
    cases hj
  exact ⟨hlt, other, (update_of_ne hji ..).trans hj, hother⟩

lemma advance (hs : s.LocksWalked shards) (hi : s.requests i = some state)
    (h : s.advance shards i state = some t) : t.LocksWalked shards := by
  cases state with
  | pushing c k | retaining c k | removing k =>
    simp only [Tracker.advance] at h
    split_ifs at h <;> cases h <;> exact hs.move hi (fun _ h => h.elim) _
  | unregistering c =>
    simp only [Tracker.advance] at h
    split at h <;> cases h <;> exact hs.move hi (fun _ h => h.elim) _
  | searching c p maps =>
    cases maps with
    | nil =>
      cases h
      exact hs.move hi (fun _ h => h.elim) _
    | cons m maps =>
      simp only [Tracker.advance] at h
      split_ifs at h <;> cases h <;> exact hs.move hi (fun _ h => h.elim) _
  | walking c entries next =>
    cases entries with
    | nil =>
      simp only [Tracker.advance] at h
      split_ifs at h with hnext hfree
      · cases h
        apply hs.acquire i hnext
        rfl
      · cases h
        exact hs.release i _ _
    | cons k entries => cases h
  | unlisting c k entries next =>
    cases h
    apply hs.move hi
    exact fun _ h => h
  | returned reply => cases h
  | _ =>
    cases h
    exact hs.move hi (fun _ h => h.elim) _

lemma step {a : Action} (hs : s.LocksWalked shards) (h : s.step shards a = some t) :
    t.LocksWalked shards := by
  cases a with
  | call i r =>
    simp only [Tracker.step] at h
    split at h
    · rename_i hi
      cases h
      exact hs.call hi _
    · cases h
  | advance i =>
    obtain ⟨state, hi, hstate⟩ := Option.bind_eq_some_iff.mp h
    exact hs.advance hi hstate
  | visit i k =>
    obtain ⟨state, hi, hstate⟩ := Option.bind_eq_some_iff.mp h
    cases state with
    | walking c entries next =>
      simp only [visit] at hstate
      split_ifs at hstate <;> cases hstate <;> apply hs.move hi <;> exact fun _ h => h
    | _ => cases hstate

end LocksWalked

/-! ### Blocked requests -/

variable (shards) in
/-- No operation of request `i` is possible. -/
def Blocked (s : Tracker) (i : RequestId) : Prop :=
  s.step shards (.advance i) = none ∧ ∀ h, s.step shards (.visit i h) = none

/-- A request that has not returned is only blocked by a lock. -/
lemma wants_of_blocked (hi : s.requests i = some state) (hblocked : s.Blocked shards i)
    (hreturned : ∀ reply, state ≠ .returned reply) :
    ∃ k, state.wants shards = some k ∧ (s.locks k).isSome = true := by
  have hadvance : s.advance shards i state = none := by
    have hnone := hblocked.1
    rwa [step, hi] at hnone
  have hlocked : ∀ {h}, ¬ s.Unlocked shards h → (s.locks (shards.shardOf h)).isSome = true :=
    fun h => Option.isSome_iff_ne_none.mpr h
  cases state with
  | pushing c h =>
    simp only [advance] at hadvance
    split_ifs at hadvance with hfree
    exact ⟨_, rfl, hlocked hfree⟩
  | retaining c h =>
    simp only [advance] at hadvance
    split_ifs at hadvance with hfree
    exact ⟨_, rfl, hlocked hfree⟩
  | removing h =>
    simp only [advance] at hadvance
    split_ifs at hadvance with hfree
    exact ⟨_, rfl, hlocked hfree⟩
  | unregistering c =>
    simp only [advance] at hadvance
    split at hadvance <;> cases hadvance
  | searching c p maps =>
    cases maps with
    | nil => cases hadvance
    | cons m maps =>
      simp only [advance] at hadvance
      split_ifs at hadvance
  | walking c entries next =>
    cases entries with
    | nil =>
      simp only [advance] at hadvance
      split_ifs at hadvance with hnext hfree
      exact ⟨next, if_pos hnext, Option.isSome_iff_ne_none.mpr hfree⟩
    | cons h entries =>
      have hvisit := hblocked.2 h
      simp only [step, hi, Option.bind_some, visit, if_pos List.mem_cons_self] at hvisit
      split_ifs at hvisit
  | returned reply => exact absurd rfl (hreturned reply)
  | _ => cases hadvance

/-- Where every request is blocked, no lock is held. -/
lemma unlocked_of_blocked (hs : s.LocksWalked shards) (hblocked : ∀ i, s.Blocked shards i)
    (k : ℕ) : s.locks k = none := by
  by_contra hk
  have hwaits : ∀ k i, s.locks k = some i → s.Blocked shards i →
      ∃ j, shards.count - j < shards.count - k ∧ (s.locks j).isSome = true := by
    intro k i hki hi
    obtain ⟨-, state, hstate, hshard⟩ := hs k i hki
    have hreturned : ∀ reply, state ≠ .returned reply := by
      rintro reply rfl
      exact hshard
    obtain ⟨j, hj, hheld⟩ := wants_of_blocked hstate hi hreturned
    obtain ⟨hlt, hcount⟩ := TrackerState.lt_of_wants hshard hj
    exact ⟨j, by omega, hheld⟩
  obtain ⟨-, i, -, hnot⟩ := LockOrder.exists_not_blocked _ _ hwaits
    (Option.isSome_iff_ne_none.mpr hk)
  exact hnot (hblocked i)

end Tracker

/-! ### How many files are listed -/

/-- The request is going to list the file. -/
def TrackerState.Lists (k : FileHash) : TrackerState → Prop
  | .tracking _ h _ => h = k
  | .pushing _ h    => h = k
  | _               => False

/-- The file that an `advertise` names. -/
def TrackerRequest.listed : TrackerRequest → Option FileHash
  | .advertise r => r.hash
  | _            => none

lemma TrackerRequest.listed_of_start {r : TrackerRequest} {k : FileHash} (hr : r.start.Lists k) :
    r.listed = some k := by
  cases r with
  | advertise r =>
    obtain ⟨_ | d, _ | h, _ | info⟩ := r
    case some.some.some => exact congrArg some hr
    all_goals exact hr.elim
  | deleteFile req =>
    obtain ⟨_ | _, _ | _⟩ := req <;> exact hr.elim
  | delistClient d => exact hr.elim

namespace ConnectionService

lemma seederList_removeSender (s : ConnectionService) (p : PeerId) (m : SenderMap) :
    (s.removeSender p m).seederList = s.seederList := by
  cases m <;> rfl

end ConnectionService

namespace TrackerMove

variable {s t : ConnectionService} {state state' : TrackerState} {k : FileHash}

lemma lists (hm : TrackerMove s state state' t) (hk : state'.Lists k) : state.Lists k := by
  cases hm <;> first | exact hk | exact hk.elim

/-- Only an `advertise` adds an entry to `seeder_list`. -/
lemma mem_seederList (hm : TrackerMove s state state' t) (hk : k ∈ t.seederList) :
    k ∈ s.seederList ∨ state.Lists k := by
  cases hm with
  | push c h =>
    rcases (AList.mem_insert _).mp hk with rfl | hk
    · exact .inr rfl
    · exact .inl hk
  | retain | retainLast | visit | visitLast =>
    exact .inl (ConnectionService.mem_seederList_retainOthers.mp hk)
  | remove h => exact .inl (AList.mem_erase.mp hk).2
  | drop =>
    rw [ConnectionService.seederList_removeSender] at hk
    exact .inl hk
  | _ => exact .inl hk

end TrackerMove

namespace Tracker

variable {shards : Shards} {service : ConnectionService} {s t : Tracker} {i : RequestId}
  {state state' : TrackerState} {K : ℕ}

/-- The request that a step calls. -/
def called (p : Tracker × Action) : List TrackerRequest :=
  match p.2 with
  | .call _ r => [r]
  | _         => []

/-- The files that the `advertise` requests of a run name. -/
def listedFiles (tr : List (Tracker × Action)) : List FileHash :=
  (tr.flatMap called).filterMap TrackerRequest.listed

lemma listedFiles_append (tr tr' : List (Tracker × Action)) :
    listedFiles (tr ++ tr') = listedFiles tr ++ listedFiles tr' := by
  rw [listedFiles, List.flatMap_append, List.filterMap_append]
  rfl

/-- An entry of `seeder_list` was there at the start, or the file has been named by an
`advertise`. -/
lemma mem_listedFiles {tr : List (Tracker × Action)}
    (hrun : Run (step shards) (init service) tr s) :
    (∀ i state k, s.requests i = some state → state.Lists k → k ∈ listedFiles tr) ∧
      ∀ k ∈ s.service.seederList, k ∈ service.seederList ∨ k ∈ listedFiles tr := by
  induction hrun with
  | nil =>
    constructor
    · intro i state k hi
      cases hi
    · intro k hk
      exact .inl hk
  | @snoc s t tr a hrun ha ih =>
    obtain ⟨hpending, hentries⟩ := ih
    have hgrows : ∀ {k}, k ∈ listedFiles tr → k ∈ listedFiles (tr ++ [(s, a)]) := fun hk => by
      rw [listedFiles_append]
      exact List.mem_append_left _ hk
    cases trackerStep_of_eq_some ha with
    | @call i r _ hi hrequests hservice =>
      constructor
      · intro j state k hj hk
        rw [hrequests] at hj
        by_cases hji : j = i
        · subst hji
          rw [update_self] at hj
          obtain rfl := Option.some.inj hj
          rw [listedFiles_append]
          refine List.mem_append_right _ (List.mem_filterMap.mpr ⟨r, ?_, ?_⟩)
          · simp [called]
          · exact TrackerRequest.listed_of_start hk
        · rw [update_of_ne hji] at hj
          exact hgrows (hpending j state k hj hk)
      · intro k hk
        rw [hservice] at hk
        exact (hentries k hk).imp_right hgrows
    | @move _ state state' _ hcall hi hrequests hmove =>
      constructor
      · intro j other k hj hk
        rw [hrequests] at hj
        by_cases hji : j = a.request
        · subst hji
          rw [update_self] at hj
          obtain rfl := Option.some.inj hj
          exact hgrows (hpending _ _ k hi (hmove.lists hk))
        · rw [update_of_ne hji] at hj
          exact hgrows (hpending j other k hj hk)
      · intro k hk
        rcases hmove.mem_seederList hk with hk | hk
        · exact (hentries k hk).imp_right hgrows
        · exact .inr (hgrows (hpending _ _ k hi hk))

/-- The entries that `seeder_list` can have after a run. -/
def entryBound (service : ConnectionService) (tr : List (Tracker × Action)) : ℕ :=
  service.seederList.keys.length + (listedFiles tr).length

/-- At no step of a run has `seeder_list` more entries. -/
lemma length_keys_le {tr : List (Tracker × Action)}
    (hrun : Run (step shards) (init service) tr s) {p : Tracker × Action} (hp : p ∈ tr) :
    p.1.service.seederList.keys.length ≤ entryBound service tr := by
  obtain ⟨tr₁, tr₂, rfl, hrun₁⟩ := hrun.of_mem hp
  have hsubset : p.1.service.seederList.keys
      ⊆ service.seederList.keys ++ listedFiles (tr₁ ++ p :: tr₂) := by
    intro k hk
    rw [listedFiles_append]
    rcases (mem_listedFiles hrun₁).2 k hk with hk | hk
    · exact List.mem_append_left _ hk
    · exact List.mem_append_right _ (List.mem_append_left _ hk)
  have hle := (p.1.service.seederList.keys_nodup.subperm hsubset).length_le
  rwa [List.length_append] at hle

end Tracker

/-! ### How many steps a request takes -/

namespace TrackerState

variable {shards : Shards} {K : ℕ}

variable (shards K) in
/-- The steps that a walk still takes: two for each entry that is left in its shard, and for each
shard to come one for the lock and two for each of at most `K` entries. -/
def walkWork (entries : List FileHash) (next : ℕ) : ℕ :=
  2 * entries.length + (shards.count - next) * (2 * K + 1) + 1

variable (shards K) in
/-- The steps that a request still takes while `seeder_list` has at most `K` entries. -/
def work : TrackerState → ℕ
  | .tracking _ _ _           => 2
  | .pushing _ _              => 1
  | .retaining _ _            => 3
  | .removing _               => 2
  | .untracking _             => 1
  | .unregistering _          => walkWork shards K [] 0 + 8
  | .searching _ _ maps       => walkWork shards K [] 0 + 2 * maps.length + 1
  | .dropping _ _ _ maps      => walkWork shards K [] 0 + 2 * maps.length + 2
  | .walking _ entries next   => walkWork shards K entries next
  | .unlisting _ _ entries next => walkWork shards K entries next + 1
  | .returned _               => 0

variable (shards K) in
/-- The walk comes to an entry. -/
lemma walkWork_erase {entries : List FileHash} {h : FileHash} (hh : h ∈ entries) (next : ℕ) :
    walkWork shards K (entries.erase h) next + 2 = walkWork shards K entries next := by
  have hpos := List.length_pos_of_mem hh
  rw [walkWork, walkWork, List.length_erase_of_mem hh]
  omega

/-- The walk goes on to the next shard. -/
lemma walkWork_enter {entries : List FileHash} {next : ℕ} (hnext : next < shards.count)
    (hentries : entries.length ≤ K) :
    walkWork shards K entries (next + 1) < walkWork shards K [] next := by
  have hleft : shards.count - next = shards.count - (next + 1) + 1 := by omega
  rw [walkWork, walkWork, hleft, Nat.succ_mul (shards.count - (next + 1)), List.length_nil]
  omega

end TrackerState

/-- The steps that a request takes at most, together with its call. -/
def TrackerRequest.cost (shards : Shards) (K : ℕ) : TrackerRequest → ℕ
  | .advertise _    => 3
  | .deleteFile _   => 4
  | .delistClient _ => shards.count * (2 * K + 1) + 10

lemma TrackerRequest.work_start (shards : Shards) (K : ℕ) (r : TrackerRequest) :
    1 + r.start.work shards K ≤ r.cost shards K := by
  cases r with
  | advertise r =>
    obtain ⟨_ | _, _ | _, _ | _⟩ := r <;> simp [start, cost, TrackerState.work]
  | deleteFile req =>
    obtain ⟨_ | _, _ | _⟩ := req <;> simp [start, cost, TrackerState.work]
  | delistClient c =>
    rw [start, TrackerState.work, TrackerState.walkWork, cost, List.length_nil, Nat.sub_zero]
    omega

namespace Tracker

variable {shards : Shards} {service : ConnectionService} {s t : Tracker} {i : RequestId}
  {state : TrackerState} {K : ℕ}

lemma work_advance (hentries : s.service.seederList.keys.length ≤ K)
    (h : s.advance shards i state = some t) : ∃ state',
      t.requests = update s.requests i (some state') ∧
        state'.work shards K < state.work shards K := by
  cases state with
  | tracking c k info =>
    cases h
    exact ⟨_, rfl, Nat.lt_succ_self _⟩
  | pushing c k | removing k =>
    simp only [advance] at h
    split_ifs at h
    cases h
    exact ⟨_, rfl, Nat.lt_succ_self _⟩
  | retaining c k =>
    simp only [advance] at h
    split_ifs at h
    · cases h
      exact ⟨_, rfl, Nat.lt_succ_self _⟩
    · cases h
      exact ⟨_, rfl, Nat.succ_pos _⟩
  | untracking k =>
    cases h
    exact ⟨_, rfl, Nat.lt_succ_self _⟩
  | unregistering c =>
    simp only [advance] at h
    split at h <;> cases h <;> refine ⟨_, rfl, ?_⟩ <;> simp only [TrackerState.work, List.length]
    all_goals omega
  | searching c p maps =>
    cases maps with
    | nil =>
      cases h
      exact ⟨_, rfl, Nat.lt_succ_self _⟩
    | cons m maps =>
      simp only [advance] at h
      split_ifs at h <;> cases h <;> refine ⟨_, rfl, ?_⟩ <;>
        simp only [TrackerState.work, List.length_cons]
      all_goals omega
  | dropping c p m maps =>
    cases h
    exact ⟨_, rfl, Nat.lt_succ_self _⟩
  | walking c entries next =>
    cases entries with
    | nil =>
      simp only [advance] at h
      split_ifs at h with hnext hfree
      · cases h
        exact ⟨_, rfl, TrackerState.walkWork_enter hnext
          ((List.length_filter_le _ _).trans hentries)⟩
      · cases h
        exact ⟨_, rfl, Nat.succ_pos _⟩
    | cons k entries => cases h
  | unlisting c k entries next =>
    cases h
    exact ⟨_, rfl, Nat.lt_succ_self _⟩
  | returned reply => cases h

lemma work_visit {k : FileHash} (h : s.visit i k state = some t) : ∃ state',
      t.requests = update s.requests i (some state') ∧
        state'.work shards K < state.work shards K := by
  cases state with
  | walking c entries next =>
    simp only [visit] at h
    split_ifs at h with hk
    all_goals
      have herase := TrackerState.walkWork_erase shards K hk next
      cases h
      refine ⟨_, rfl, ?_⟩
      simp only [TrackerState.work]
      omega
  | _ => cases h

variable (shards K) in
/-- The steps that the requests of the table still take. -/
def remaining (ids : Finset RequestId) (s : Tracker) : ℕ :=
  ∑ i ∈ ids, (s.requests i).elim 0 (TrackerState.work shards K)

variable (shards K) in
/-- The steps that a step brings in, when it calls a request. -/
def granted (p : Tracker × Action) : ℕ := ((called p).map (TrackerRequest.cost shards K)).sum

lemma sum_granted (tr : List (Tracker × Action)) :
    (tr.map (granted shards K)).sum
      = ((tr.flatMap called).map (TrackerRequest.cost shards K)).sum := by
  induction tr with
  | nil => rfl
  | cons p tr ih =>
    rw [List.map_cons, List.sum_cons, List.flatMap_cons, List.map_append, List.sum_append, ih]
    rfl

/-- A step is paid for by the request that takes it, or by a new one. -/
lemma remaining_step {ids : Finset RequestId} {a : Action} (ha : a.request ∈ ids)
    (hentries : s.service.seederList.keys.length ≤ K) (h : s.step shards a = some t) :
    1 + t.remaining shards K ids
      ≤ granted shards K (s, a) + s.remaining shards K ids := by
  have hsum : ∀ state' : TrackerState, t.requests = update s.requests a.request (some state') →
      t.remaining shards K ids + (s.requests a.request).elim 0 (TrackerState.work shards K)
        = s.remaining shards K ids + state'.work shards K := fun _ ht => by
    rw [remaining, ht]
    exact Finset.sum_update_add ha (fun state => state.elim 0 (TrackerState.work shards K))
      s.requests (some _)
  have hpaid : ∀ {state}, s.requests a.request = some state → (∃ state',
      t.requests = update s.requests a.request (some state') ∧
        state'.work shards K < state.work shards K) →
      1 + t.remaining shards K ids ≤ s.remaining shards K ids := by
    rintro state hi ⟨state', ht, hlt⟩
    have hwork := hsum state' ht
    rw [hi] at hwork
    simp only [Option.elim_some] at hwork
    omega
  cases a with
  | call i r =>
    simp only [step] at h
    split at h
    · rename_i hi
      cases h
      have hwork := hsum r.start rfl
      have hcost := r.work_start shards K
      rw [Action.request, hi, Option.elim_none, Nat.add_zero] at hwork
      rw [granted, called, List.map_singleton, List.sum_singleton]
      omega
    · cases h
  | advance i =>
    obtain ⟨state, hi, hstate⟩ := Option.bind_eq_some_iff.mp h
    exact (hpaid hi (work_advance hentries hstate)).trans (Nat.le_add_left _ _)
  | visit i k =>
    obtain ⟨state, hi, hstate⟩ := Option.bind_eq_some_iff.mp h
    exact (hpaid hi (work_visit hstate)).trans (Nat.le_add_left _ _)

/-- However many `advertise`, `delete_file` and `delist_client` requests take turns, there are only
so many steps, and where none of them can go on, all have returned. -/
theorem requests_return (shards : Shards) (service : ConnectionService)
    {tr : List (Tracker × Action)} {s : Tracker}
    (hrun : Run (step shards) (init service) tr s) :
    tr.length ≤ ((tr.flatMap called).map
        (TrackerRequest.cost shards (entryBound service tr))).sum ∧
      ((∀ i, s.Blocked shards i) →
        ∀ i state, s.requests i = some state → ∃ reply, state = .returned reply) := by
  constructor
  · have hle := hrun.length_le
      (P := fun s a => a.request ∈ (tr.map fun p => p.2.request).toFinset ∧
        s.service.seederList.keys.length ≤ entryBound service tr)
      (I := fun _ => True)
      (fun s a t _ hP h => ⟨trivial, remaining_step hP.1 hP.2 h⟩)
      (fun p hp => ⟨List.mem_toFinset.mpr (List.mem_map_of_mem hp), length_keys_le hrun hp⟩)
      trivial
    have hnone : remaining shards (entryBound service tr) (tr.map fun p => p.2.request).toFinset
        (init service) = 0 := Finset.sum_eq_zero fun _ _ => rfl
    rw [hnone, sum_granted, Nat.add_zero] at hle
    exact (Nat.le_add_right _ _).trans hle
  · intro hblocked i state hi
    have hs := hrun.preserve (fun _ _ _ hs h => hs.step h) (locksWalked_init service)
    by_contra hreturned
    obtain ⟨k, -, hk⟩ := wants_of_blocked hi (hblocked i) (not_exists.mp hreturned)
    rw [unlocked_of_blocked hs hblocked] at hk
    cases hk

/-- The hashes of even and of odd length. -/
def twoShards : Shards := ⟨2, fun h => h.hash.length % 2, fun h => Nat.mod_lt _ (by decide)⟩

/-- The seeder `a` delists, and holds the lock that the new seeder `b` needs for its entry. -/
def crossingActions : List Action :=
  [.call 0 (advertiseBy "a"), .advance 0, .advance 0, .call 1 (.delistClient ⟨"a"⟩), .advance 1,
    .advance 1, .advance 1, .call 2 (advertiseBy "b"), .advance 2, .visit 1 sharedFile, .advance 1,
    .advance 1, .advance 2]

theorem requests_return_crossing : ∃ tr s,
    Run (step twoShards) (init (ConnectionService.default.register ⟨"a"⟩ none)) tr s ∧
      tr.map Prod.snd = crossingActions ∧ tr.length ≤ 26 ∧
      ∀ i state, s.requests i = some state → ∃ reply, state = .returned reply := by
  obtain ⟨s, hexec, hstates⟩ : ∃ s, exec (step twoShards)
      (init (ConnectionService.default.register ⟨"a"⟩ none)) crossingActions = some s ∧
      s.StatesAre [.returned (.ok (.clientId ⟨"a"⟩)), .returned (.ok .empty),
        .returned (.ok (.clientId ⟨"b"⟩))] :=
    ⟨_, rfl, fun | 0 => rfl | 1 => rfl | 2 => rfl | _ + 3 => rfl⟩
  obtain ⟨tr, hrun, hmap⟩ := run_of_exec hexec
  obtain ⟨hlength, hreturn⟩ := requests_return twoShards _ hrun
  have hcalled : tr.flatMap called = [advertiseBy "a", .delistClient ⟨"a"⟩, advertiseBy "b"] := by
    have h : tr.flatMap called = (tr.map Prod.snd).flatMap fun a => called (s, a) := by
      rw [List.flatMap_map]
      rfl
    rw [h, hmap]
    rfl
  have hblocked : ∀ i, s.Blocked twoShards i := fun i => by
    have hi := hstates i
    rcases i with _ | _ | _ | i <;> simp [Blocked, step, hi, advance, visit]
  rw [entryBound, listedFiles, hcalled] at hlength
  exact ⟨tr, s, hrun, hmap, hlength, hreturn hblocked⟩

end Tracker

end BearTorrent
