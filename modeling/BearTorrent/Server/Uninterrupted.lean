import BearTorrent.Lib.Transition
import BearTorrent.Server.Concurrent

/-!
# A request that is not interrupted

The steps of a request that runs alone do what its handler does: the concurrent requests are those
of the connection service, taken apart.
-/

namespace BearTorrent

open Function Transition

/-- The handler of a request. -/
def TrackerRequest.handler : TrackerRequest → Handler ServerReply
  | .advertise r    => .clientId <$> ConnectionService.advertise r
  | .deleteFile req => (fun _ => .empty) <$> ConnectionService.deleteFile req
  | .delistClient c => (fun _ => .empty) <$> ConnectionService.delistClient c

namespace ConnectionService

/-- The maps are the same up to their order; an empty list of seeders counts as no entry. -/
structure Agree (s t : ConnectionService) : Prop where
  seeders : ∀ h, s.seeders h = t.seeders h
  fileTracker : ∀ h, s.fileTracker.lookup h = t.fileTracker.lookup h
  clientRegistry : s.clientRegistry = t.clientRegistry
  seedNotifier : s.seedNotifier = t.seedNotifier
  certSender : s.certSender = t.certSender
  initHolePunch : s.initHolePunch = t.initHolePunch

lemma Agree.refl (s : ConnectionService) : Agree s s :=
  ⟨fun _ => rfl, fun _ => rfl, rfl, rfl, rfl, rfl⟩

variable {s : ConnectionService} {c : ClientId} {h k : FileHash}

/-- The walk keeps the entries of `seeder_list`. -/
lemma mem_delistEntry : k ∈ (s.delistEntry c h).seederList ↔ k ∈ s.seederList := by
  have hretain : k ∈ (s.retainOthers h c).seederList ↔ k ∈ s.seederList := by
    rw [retainOthers]
    split
    · rename_i clients hl
      have hh : h ∈ s.seederList := AList.lookup_isSome.mp (by rw [hl]; rfl)
      rw [AList.mem_insert]
      exact or_iff_right_of_imp fun hk => hk ▸ hh
    · rfl
  rw [← hretain]
  unfold delistEntry
  dsimp only
  split_ifs <;> rfl

lemma mem_foldl_delistEntry (ks : List FileHash) :
    k ∈ (ks.foldl (delistEntry c) s).seederList ↔ k ∈ s.seederList := by
  induction ks generalizing s with
  | nil => rfl
  | cons h ks ih => rw [List.foldl_cons, ih, mem_delistEntry]

lemma senders_foldl_delistEntry (ks : List FileHash) (m : SenderMap) :
    (ks.foldl (delistEntry c) s).senders m = s.senders m := by
  induction ks generalizing s with
  | nil => rfl
  | cons h ks ih =>
    rw [List.foldl_cons, ih]
    unfold delistEntry retainOthers
    dsimp only
    split <;> split_ifs <;> cases m <;> rfl

/-- The order in which the entries are visited does not matter. -/
lemma agree_foldl_delistEntry {ks ls : List FileHash} (hkl : ∀ h, h ∈ ks ↔ h ∈ ls) :
    Agree (ks.foldl (delistEntry c) s) (ls.foldl (delistEntry c) s) where
  seeders h := by simp only [seeders_foldl_delistEntry, hkl]
  fileTracker h := by simp only [lookup_foldl_delistEntry, hkl]
  clientRegistry := by simp only [clientRegistry_foldl_delistEntry]
  seedNotifier :=
    (senders_foldl_delistEntry ks .seedNotifier).trans
      (senders_foldl_delistEntry ls .seedNotifier).symm
  certSender :=
    (senders_foldl_delistEntry ks .certSender).trans
      (senders_foldl_delistEntry ls .certSender).symm
  initHolePunch :=
    (senders_foldl_delistEntry ks .initHolePunch).trans
      (senders_foldl_delistEntry ls .initHolePunch).symm

end ConnectionService

namespace Tracker

variable {shards : Shards} {s : Tracker} {i : RequestId} {c : ClientId}
  {service : ConnectionService}

/-- Only request `i` takes steps. -/
def Alone (i : RequestId) (a : Action) : Prop := a.request = i

/-- Request `i` in a state of its own, holding the lock of the shard before `next`, if there is
one. -/
def alone (s : Tracker) (i : RequestId) (state : TrackerState) (service : ConnectionService)
    (next : ℕ) : Tracker where
  service := service
  requests := update s.requests i (some state)
  locks k := if k + 1 = next then some i else none

@[simp] lemma service_alone (state : TrackerState) (next : ℕ) :
    (s.alone i state service next).service = service := rfl

lemma unlocked_alone (state : TrackerState) (h : FileHash) :
    (s.alone i state service 0).Unlocked shards h := by
  simp [Unlocked, alone]

lemma step_alone (state : TrackerState) (next : ℕ) :
    (s.alone i state service next).step shards (.advance i)
      = (s.alone i state service next).advance shards i state := by
  simp [step, alone]

lemma move_alone (state state' : TrackerState) (service' : ConnectionService) (next : ℕ) :
    (s.alone i state service next).move i state' service' = s.alone i state' service' next := by
  simp [move, alone]

/-- One operation of the request. -/
lemma reaches_advance {t t' : Tracker} {state : TrackerState} {next : ℕ}
    (h : Reaches (step shards) (Alone i) t (s.alone i state service next))
    (ha : (s.alone i state service next).advance shards i state = some t') :
    Reaches (step shards) (Alone i) t t' :=
  h.tail ((step_alone state next).trans ha) rfl

/-- The entries of a shard are visited one after the other. -/
lemma reaches_visits {t : Tracker} {next : ℕ} (entries : List FileHash)
    (h : Reaches (step shards) (Alone i) t (s.alone i (.walking c entries next) service next)) :
    Reaches (step shards) (Alone i) t
      (s.alone i (.walking c [] next)
        (entries.foldl (ConnectionService.delistEntry c) service) next) := by
  induction entries generalizing service with
  | nil => exact h
  | cons k entries ih =>
    apply ih
    by_cases hnil : (service.retainOthers k c).seeders k = []
    · have hvisit : (s.alone i (.walking c (k :: entries) next) service next).step shards
          (.visit i k) =
            some (s.alone i (.unlisting c k entries next) (service.retainOthers k c) next) := by
        simp [step, visit, alone, move, hnil]
      refine reaches_advance (h.tail hvisit rfl) ?_
      rw [advance, move_alone]
      simp [ConnectionService.delistEntry, hnil, alone]
    · refine h.tail ?_ (rfl : Action.request (.visit i k) = i)
      simp [step, visit, alone, move, ConnectionService.delistEntry, hnil]

/-- From shard `next` on, the walk visits the entries of all shards. -/
lemma reaches_walk {t : Tracker} {next rest : ℕ} (hnext : next + rest = shards.count)
    (h : Reaches (step shards) (Alone i) t (s.alone i (.walking c [] next) service next)) :
    ∃ ks : List FileHash, (∀ k, k ∈ ks ↔ k ∈ service.seederList ∧ next ≤ shards.shardOf k) ∧
      Reaches (step shards) (Alone i) t
        (s.alone i (.returned (.ok .empty))
          (ks.foldl (ConnectionService.delistEntry c) service) 0) := by
  induction rest generalizing next service with
  | zero =>
    obtain rfl : next = shards.count := hnext
    refine ⟨[], fun k => ?_, reaches_advance h ?_⟩
    · simp only [List.not_mem_nil, false_iff, not_and, Nat.not_le]
      exact fun _ => shards.shardOf_lt k
    · rw [advance, if_neg (Nat.lt_irrefl _)]
      simp only [release, move, alone, update_idem, List.foldl_nil, Option.some.injEq,
        Tracker.mk.injEq, true_and]
      funext k
      by_cases hk : k + 1 = shards.count
      · simp [← hk]
      · simp [hk]
  | succ rest ih =>
    have hlt : next < shards.count := by omega
    have henter : (s.alone i (.walking c [] next) service next).advance shards i
        (.walking c [] next) = some (s.alone i (.walking c
          (service.seederList.keys.filter fun k => shards.shardOf k = next) (next + 1))
            service (next + 1)) := by
      rw [advance, if_pos hlt, if_pos (by simp [alone])]
      simp only [release, acquire, move, alone, update_idem, Option.some.injEq, Tracker.mk.injEq,
        true_and]
      funext k
      by_cases hk : k = next
      · simp [hk]
      · simp [hk]
    obtain ⟨ks, hks, hreach⟩ := ih (by omega) (reaches_visits _ (reaches_advance h henter))
    refine ⟨service.seederList.keys.filter (fun k => shards.shardOf k = next) ++ ks, fun k => ?_,
      by rwa [List.foldl_append]⟩
    have hshard : shards.shardOf k = next ∨ next + 1 ≤ shards.shardOf k ↔
        next ≤ shards.shardOf k := by omega
    rw [List.mem_append, hks, ConnectionService.mem_foldl_delistEntry, List.mem_filter,
      ← AList.mem_keys, decide_eq_true_iff, ← and_or_left, hshard]

/-- The senders under the peer id are looked up and removed, one map after the other. -/
lemma reaches_search {t : Tracker} {p : PeerId} (maps : List SenderMap)
    (h : Reaches (step shards) (Alone i) t (s.alone i (.searching c p maps) service 0)) :
    Reaches (step shards) (Alone i) t (s.alone i (.walking c [] 0)
      (maps.foldl (fun s m => if p ∈ s.senders m then s.removeSender p m else s) service) 0) := by
  induction maps generalizing service with
  | nil => exact reaches_advance h (congrArg some (move_alone _ _ _ _))
  | cons m maps ih =>
    apply ih
    by_cases hp : p ∈ service.senders m
    · have hfound : (s.alone i (.searching c p (m :: maps)) service 0).advance shards i
          (.searching c p (m :: maps)) = some (s.alone i (.dropping c p m maps) service 0) := by
        simp only [advance, service_alone, move_alone, if_pos hp]
      refine reaches_advance (reaches_advance h hfound) ?_
      simp only [advance, service_alone, move_alone, if_pos hp]
    · refine reaches_advance h ?_
      simp only [advance, service_alone, move_alone, if_neg hp]

lemma foldl_removeSender (p : PeerId) :
    [SenderMap.seedNotifier, .certSender, .initHolePunch].foldl
        (fun s m => if p ∈ s.senders m then s.removeSender p m else s) service
      = service.dropSenders (some p) := by
  simp only [List.foldl_cons, List.foldl_nil, ConnectionService.dropSenders,
    ConnectionService.dropSender]
  by_cases h₁ : p ∈ service.seedNotifier <;> by_cases h₂ : p ∈ service.certSender <;>
    by_cases h₃ : p ∈ service.initHolePunch <;>
    simp [ConnectionService.senders, ConnectionService.removeSender, h₁, h₂, h₃]

/-- `advertise` without interruption. -/
lemma reaches_advertise {t : Tracker} {h : FileHash} {info : InfoHash}
    (hstart : Reaches (step shards) (Alone i) t (s.alone i (.tracking c h info) service 0)) :
    Reaches (step shards) (Alone i) t (s.alone i (.returned (.ok (.clientId c)))
      ((service.trackFile h info).pushSeeder h c) 0) := by
  refine reaches_advance (reaches_advance hstart (congrArg some (move_alone _ _ _ _))) ?_
  simp only [advance, service_alone, move_alone, if_pos (unlocked_alone _ h)]

/-- `delete_file` without interruption. -/
lemma reaches_deleteFile {t : Tracker} {h : FileHash}
    (hstart : Reaches (step shards) (Alone i) t (s.alone i (.retaining c h) service 0)) :
    Reaches (step shards) (Alone i) t
      (s.alone i (.returned (.ok .empty)) (service.withdraw h c) 0) := by
  by_cases hlast : h ∈ service.seederList ∧ (service.retainOthers h c).seeders h = []
  · have hretained : (s.alone i (.retaining c h) service 0).advance shards i (.retaining c h)
        = some (s.alone i (.removing h) (service.retainOthers h c) 0) := by
      simp only [advance, service_alone, move_alone, if_pos (unlocked_alone _ h), if_pos hlast]
    have hremoved : (s.alone i (.removing h) (service.retainOthers h c) 0).advance shards i
        (.removing h) =
          some (s.alone i (.untracking h) ((service.retainOthers h c).removeSeeders h) 0) := by
      simp only [advance, service_alone, move_alone, if_pos (unlocked_alone _ h)]
    refine reaches_advance (reaches_advance (reaches_advance hstart hretained) hremoved) ?_
    rw [ConnectionService.withdraw, if_pos hlast.1, if_pos hlast.2]
    exact congrArg some (move_alone _ _ _ _)
  · have hwithdraw : service.withdraw h c = service.retainOthers h c := by
      rw [ConnectionService.withdraw]
      by_cases hm : h ∈ service.seederList
      · rw [if_pos hm, if_neg fun hnil => hlast ⟨hm, hnil⟩]
      · rw [if_neg hm, ConnectionService.retainOthers, AList.lookup_eq_none.mpr hm]
    refine reaches_advance hstart ?_
    simp only [advance, service_alone, move_alone, if_pos (unlocked_alone _ h), if_neg hlast,
      hwithdraw]

/-- `delist_client` without interruption. -/
lemma reaches_delistClient {t : Tracker}
    (hstart : Reaches (step shards) (Alone i) t (s.alone i (.unregistering c) service 0)) :
    ∃ service', Reaches (step shards) (Alone i) t
        (s.alone i (.returned (.ok .empty)) service' 0) ∧ service'.Agree (service.delist c) := by
  cases hentry : service.clientRegistry.lookup c with
  | none =>
    refine ⟨service, reaches_advance hstart ?_, ?_⟩
    · simp only [advance, service_alone, hentry, move_alone]
    · rw [ConnectionService.delist_of_notMem (AList.lookup_eq_none.mp hentry)]
      exact .refl _
  | some entry =>
    have hwalk : Reaches (step shards) (Alone i) t (s.alone i (.walking c [] 0)
        ((service.unregister c).dropSenders entry) 0) := by
      cases entry with
      | none =>
        refine reaches_advance hstart ?_
        simp only [advance, service_alone, hentry, move_alone]
        rfl
      | some p =>
        rw [← foldl_removeSender]
        refine reaches_search _ (reaches_advance hstart ?_)
        simp only [advance, service_alone, hentry, move_alone]
    obtain ⟨ks, hks, hreach⟩ := reaches_walk (Nat.zero_add _) hwalk
    refine ⟨_, hreach, ?_⟩
    rw [ConnectionService.delist, hentry]
    refine ConnectionService.agree_foldl_delistEntry fun k => ?_
    rw [hks, ConnectionService.seederList_dropSenders, ConnectionService.seederList_unregister]
    exact and_iff_left (Nat.zero_le _)

/-- A request that is not interrupted returns what its handler returns, and leaves the same maps. -/
theorem reaches_handler (hi : s.requests i = none) (hfree : ∀ k, s.locks k = none)
    (r : TrackerRequest) :
    ∃ service, Reaches (step shards) (Alone i) s
        (s.alone i (.returned (s.service.run r.handler).1) service 0) ∧
      service.Agree (s.service.run r.handler).2 := by
  have hcall : Reaches (step shards) (Alone i) s (s.alone i r.start s.service 0) := by
    refine .single (a := .call i r) ?_ rfl
    have hlocks : s.locks = fun k => if k + 1 = 0 then some i else none := by
      funext k
      rw [hfree, if_neg (Nat.succ_ne_zero k)]
    simp only [step, hi, move, alone, ← hlocks]
  cases r with
  | advertise r =>
    refine ⟨_, ?_, .refl _⟩
    obtain ⟨_ | c, _ | h, _ | info⟩ := r
    case some.some.some => exact reaches_advertise hcall
    all_goals exact hcall
  | deleteFile req =>
    obtain ⟨_ | c, _ | h⟩ := req
    case some.some =>
      rw [TrackerRequest.handler, ConnectionService.run_deleteFile]
      exact ⟨_, reaches_deleteFile hcall, .refl _⟩
    all_goals exact ⟨_, hcall, .refl _⟩
  | delistClient c =>
    rw [TrackerRequest.handler, ConnectionService.run_delistClient]
    exact reaches_delistClient hcall

end Tracker

end BearTorrent
