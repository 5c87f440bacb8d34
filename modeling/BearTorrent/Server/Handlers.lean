import BearTorrent.Lib.Transition
import BearTorrent.Server.Basic

/-!
# What the handlers do

First the effect of each operation on the maps, then the `Event` that a request is recorded as. A
request changes the service exactly as its event says.
-/

namespace BearTorrent

open Transition

variable {s t : ConnectionService} {c d : ClientId} {h k : FileHash} {p : PeerId}

namespace ConnectionService

/-! ### Running a handler -/

section Run

variable {α β : Type} (s)

@[simp] lemma run_pure (a : α) : s.run (pure a) = (.ok a, s) := rfl

@[simp] lemma run_throw (e : Failure) : s.run (throw e : Handler α) = (.error e, s) := rfl

@[simp] lemma run_get : s.run get = (.ok s, s) := rfl

@[simp] lemma run_modify (f : ConnectionService → ConnectionService) :
    s.run (modify f) = (.ok ⟨⟩, f s) := rfl

@[simp] lemma run_bind (x : Handler α) (f : α → Handler β) :
    s.run (x >>= f) = match s.run x with
      | (.ok a, s')    => s'.run (f a)
      | (.error e, s') => (.error e, s') := by
  change (ExceptT.bindCont f (x.run s).1 : StateM ConnectionService _) (x.run s).2 = _
  rw [run]
  rcases x.run s with ⟨⟨_⟩ | ⟨_⟩, s'⟩ <;> rfl

@[simp] lemma run_map (f : α → β) (x : Handler α) :
    s.run (f <$> x) = match s.run x with
      | (.ok a, s')    => (.ok (f a), s')
      | (.error e, s') => (.error e, s') := by
  rw [map_eq_pure_bind, run_bind]
  rfl

@[simp] lemma run_okOr_some (a : α) (e : Failure) : s.run (okOr (some a) e) = (.ok a, s) := rfl

@[simp] lemma run_okOr_none (e : Failure) : s.run (okOr (none : Option α) e) = (.error e, s) := rfl

end Run

/-! ### The maps after an operation -/

section Operations

variable (s c h) (info : InfoHash) (peerId : Option PeerId)

@[simp] lemma seeders_trackFile : (s.trackFile h info).seeders k = s.seeders k := rfl

@[simp] lemma seeders_untrackFile : (s.untrackFile h).seeders k = s.seeders k := rfl

@[simp] lemma seeders_register : (s.register c peerId).seeders k = s.seeders k := rfl

@[simp] lemma seeders_unregister : (s.unregister c).seeders k = s.seeders k := rfl

@[simp] lemma seeders_dropSenders : (s.dropSenders peerId).seeders k = s.seeders k := by
  cases peerId <;> rfl

lemma seeders_pushSeeder :
    (s.pushSeeder h c).seeders k = if k = h then s.seeders h ++ [c] else s.seeders k := by
  split_ifs with hk
  · subst hk
    simp [seeders, pushSeeder]
  · simp [seeders, pushSeeder, AList.lookup_insert_ne hk]

lemma seeders_retainOthers :
    (s.retainOthers h c).seeders k =
      if k = h then (s.seeders h).filter (· ≠ c) else s.seeders k := by
  rw [retainOthers]
  split
  · rename_i clients hl
    split_ifs with hk
    · subst hk
      simp [seeders, hl]
    · simp [seeders, AList.lookup_insert_ne hk]
  · rename_i hl
    split_ifs with hk
    · subst hk
      simp [seeders, hl]
    · rfl

lemma seeders_removeSeeders :
    (s.removeSeeders h).seeders k = if k = h then [] else s.seeders k := by
  split_ifs with hk
  · subst hk
    simp [seeders, removeSeeders]
  · simp [seeders, removeSeeders, AList.lookup_erase_ne hk]

@[simp] lemma seederList_unregister : (s.unregister c).seederList = s.seederList := rfl

@[simp] lemma seederList_dropSenders : (s.dropSenders peerId).seederList = s.seederList := by
  cases peerId <;> rfl

@[simp] lemma fileTracker_pushSeeder : (s.pushSeeder h c).fileTracker = s.fileTracker := rfl

@[simp] lemma fileTracker_removeSeeders : (s.removeSeeders h).fileTracker = s.fileTracker := rfl

@[simp] lemma fileTracker_register : (s.register c peerId).fileTracker = s.fileTracker := rfl

@[simp] lemma fileTracker_unregister : (s.unregister c).fileTracker = s.fileTracker := rfl

@[simp] lemma fileTracker_retainOthers : (s.retainOthers h c).fileTracker = s.fileTracker := by
  rw [retainOthers]
  split <;> rfl

@[simp] lemma fileTracker_dropSenders : (s.dropSenders peerId).fileTracker = s.fileTracker := by
  cases peerId <;> rfl

lemma lookup_trackFile :
    (s.trackFile h info).fileTracker.lookup k =
      if k = h then some info else s.fileTracker.lookup k := by
  split_ifs with hk
  · subst hk
    exact AList.lookup_insert _
  · exact AList.lookup_insert_ne hk

lemma lookup_untrackFile :
    (s.untrackFile h).fileTracker.lookup k =
      if k = h then none else s.fileTracker.lookup k := by
  split_ifs with hk
  · subst hk
    exact AList.lookup_erase _ _
  · exact AList.lookup_erase_ne hk

@[simp] lemma clientRegistry_pushSeeder : (s.pushSeeder h c).clientRegistry = s.clientRegistry :=
  rfl

@[simp] lemma clientRegistry_trackFile :
    (s.trackFile h info).clientRegistry = s.clientRegistry := rfl

@[simp] lemma clientRegistry_untrackFile : (s.untrackFile h).clientRegistry = s.clientRegistry :=
  rfl

@[simp] lemma clientRegistry_removeSeeders :
    (s.removeSeeders h).clientRegistry = s.clientRegistry := rfl

@[simp] lemma clientRegistry_retainOthers :
    (s.retainOthers h c).clientRegistry = s.clientRegistry := by
  rw [retainOthers]
  split <;> rfl

@[simp] lemma clientRegistry_dropSenders :
    (s.dropSenders peerId).clientRegistry = s.clientRegistry := by
  cases peerId <;> rfl

lemma lookup_register :
    (s.register c peerId).clientRegistry.lookup d =
      if d = c then some peerId else s.clientRegistry.lookup d := by
  split_ifs with hd
  · subst hd
    exact AList.lookup_insert _
  · exact AList.lookup_insert_ne hd

lemma lookup_unregister :
    (s.unregister c).clientRegistry.lookup d =
      if d = c then none else s.clientRegistry.lookup d := by
  split_ifs with hd
  · subst hd
    exact AList.lookup_erase _ _
  · exact AList.lookup_erase_ne hd

end Operations

lemma mem_pushSeeder : d ∈ (s.pushSeeder h c).seeders k ↔ d ∈ s.seeders k ∨ d = c ∧ k = h := by
  rw [seeders_pushSeeder]
  split_ifs with hk
  · subst hk
    simp
  · simp [hk]

lemma mem_retainOthers :
    d ∈ (s.retainOthers h c).seeders k ↔ d ∈ s.seeders k ∧ ¬ (d = c ∧ k = h) := by
  rw [seeders_retainOthers]
  split_ifs with hk
  · subst hk
    simp
  · simp [hk]

/-- The peer id of a client. -/
def peerIdOf (s : ConnectionService) (c : ClientId) : Option PeerId :=
  (s.clientRegistry.lookup c).join

lemma getFilePeerList_eq : s.getFilePeerList h = (s.seeders h).filterMap s.peerIdOf := by
  rw [getFilePeerList, seeders]
  cases s.seederList.lookup h <;> rfl

/-- A file without an entry has no seeders. -/
lemma seeders_of_notMem (hk : k ∉ s.seederList) : s.seeders k = [] := by
  rw [seeders, AList.lookup_eq_none.mpr hk]
  rfl

/-! ### The walk of `delist_client` -/

lemma seeders_delistEntry :
    (s.delistEntry c h).seeders k =
      if k = h then (s.seeders h).filter (· ≠ c) else s.seeders k := by
  rw [← seeders_retainOthers]
  unfold delistEntry
  dsimp only
  split_ifs <;> rfl

lemma lookup_delistEntry :
    (delistEntry c s h).fileTracker.lookup k =
      if k = h ∧ (s.seeders h).filter (· ≠ c) = [] then none else s.fileTracker.lookup k := by
  unfold delistEntry
  dsimp only
  rw [seeders_retainOthers, if_pos rfl]
  split_ifs with hnil hk hk
  · rw [lookup_untrackFile, if_pos hk.1]
  · rw [lookup_untrackFile, if_neg fun h => hk ⟨h, hnil⟩, fileTracker_retainOthers]
  · exact absurd hk.2 hnil
  · rw [fileTracker_retainOthers]

lemma seeders_foldl_delistEntry (ks : List FileHash) :
    (ks.foldl (delistEntry c) s).seeders k =
      if k ∈ ks then (s.seeders k).filter (· ≠ c) else s.seeders k := by
  induction ks generalizing s with
  | nil => rfl
  | cons h ks ih =>
    rw [List.foldl_cons, ih, seeders_delistEntry]
    by_cases hk : k = h
    · subst hk
      simp
    · simp [hk]

lemma lookup_foldl_delistEntry (ks : List FileHash) :
    (ks.foldl (delistEntry c) s).fileTracker.lookup k =
      if k ∈ ks ∧ (s.seeders k).filter (· ≠ c) = [] then none else s.fileTracker.lookup k := by
  induction ks generalizing s with
  | nil => simp
  | cons h ks ih =>
    rw [List.foldl_cons, ih, seeders_delistEntry, lookup_delistEntry]
    by_cases hk : k = h
    · subst hk
      have htwice :
          ((s.seeders k).filter (· ≠ c)).filter (· ≠ c) = (s.seeders k).filter (· ≠ c) := by
        simp [List.filter_filter]
      simp only [if_true, htwice, true_and, List.mem_cons, true_or]
      by_cases hnil : (s.seeders k).filter (· ≠ c) = []
      · simp only [hnil, if_true, ite_self]
      · simp only [hnil, and_false, if_false]
    · simp [hk]

@[simp] lemma clientRegistry_foldl_delistEntry (ks : List FileHash) :
    (ks.foldl (delistEntry c) s).clientRegistry = s.clientRegistry := by
  induction ks generalizing s with
  | nil => rfl
  | cons h ks ih =>
    rw [List.foldl_cons, ih]
    unfold delistEntry
    dsimp only
    split_ifs
    · rw [clientRegistry_untrackFile, clientRegistry_retainOthers]
    · rw [clientRegistry_retainOthers]

/-! ### Events -/

/-- What `delete_file` does. -/
def withdraw (s : ConnectionService) (h : FileHash) (c : ClientId) : ConnectionService :=
  if h ∈ s.seederList then
    if (s.retainOthers h c).seeders h = [] then
      ((s.retainOthers h c).removeSeeders h).untrackFile h
    else s.retainOthers h c
  else s

/-- What `delist_client` does. -/
def delist (s : ConnectionService) (c : ClientId) : ConnectionService :=
  match s.clientRegistry.lookup c with
  | some entry =>
    s.seederList.keys.foldl (delistEntry c) ((s.unregister c).dropSenders entry)
  | none => s

end ConnectionService

/-- What a request that succeeded has done. -/
inductive Event where
  | registered (c : ClientId) (p : Option PeerId)
  | updated (c : ClientId) (p : PeerId)
  | advertised (c : ClientId) (h : FileHash) (info : InfoHash)
  | deleted (c : ClientId) (h : FileHash)
  | delisted (c : ClientId)

/-- The latest of the events that satisfy `P`. -/
def latest (P : Event → Bool) (es : List Event) : Option Event := es.reverse.find? P

@[simp] lemma latest_nil (P : Event → Bool) : latest P [] = none := rfl

lemma latest_concat (P : Event → Bool) (es : List Event) (e : Event) :
    latest P (es ++ [e]) = if P e then some e else latest P es := by
  rw [latest, List.reverse_concat, List.find?_cons]
  cases P e <;> rfl

/-- The event of a request with its reply, if it is one that changes the maps and succeeded. -/
def ServerRequest.event : ServerRequest → Except Failure ServerReply → Option Event
  | .registerClient r _, .ok (.clientId c)                => some (.registered c r.peerId)
  | .updateRegisteredPeerId ⟨some c, some p⟩, .ok _       => some (.updated c p)
  | .advertise ⟨some c, some h, some info⟩, .ok _         => some (.advertised c h info)
  | .deleteFile ⟨some c, some h⟩, .ok _                   => some (.deleted c h)
  | .delistClient c, .ok _                                => some (.delisted c)
  | _, _                                                  => none

namespace ConnectionService

/-- The service after an event. -/
def apply (s : ConnectionService) : Event → ConnectionService
  | .registered c p      => s.register c p
  | .updated c p         => s.register c (some p)
  | .advertised c h info => (s.trackFile h info).pushSeeder h c
  | .deleted c h         => s.withdraw h c
  | .delisted c          => s.delist c

lemma run_deleteFile :
    s.run ((fun _ => ServerReply.empty) <$> deleteFile ⟨some c, some h⟩)
      = (.ok .empty, s.withdraw h c) := by
  by_cases hm : h ∈ s.seederList
  · by_cases hn : (s.retainOthers h c).seeders h = []
    · simp [deleteFile, withdraw, hm, hn]
    · simp [deleteFile, withdraw, hm, hn]
  · simp [deleteFile, withdraw, hm]

lemma run_delistClient :
    s.run ((fun _ => ServerReply.empty) <$> delistClient c) = (.ok .empty, s.delist c) := by
  cases hl : s.clientRegistry.lookup c with
  | none => simp [delistClient, delist, hl]
  | some entry => simp [delistClient, delist, hl]

/-- A request changes the service as its event says. -/
lemma eq_of_handle {r : ServerRequest} {reply : Except Failure ServerReply}
    (hr : s.handle r = some (reply, t)) :
    t = match r.event reply with
      | some e => s.apply e
      | none   => s := by
  cases r with
  | getFilePeerList infoHash =>
    cases hr
    rfl
  | advertise r =>
    obtain ⟨_ | c, _ | h, _ | info⟩ := r <;> cases hr <;> rfl
  | registerClient r uuids =>
    obtain ⟨uid, -, hrun⟩ := Option.map_eq_some_iff.mp hr
    by_cases hempty : uid.uid.isEmpty
    · simp [registerClient, hempty] at hrun
      obtain ⟨rfl, rfl⟩ := hrun
      rfl
    · simp [registerClient, hempty] at hrun
      obtain ⟨rfl, rfl⟩ := hrun
      rfl
  | updateRegisteredPeerId r =>
    obtain ⟨_ | c, _ | p⟩ := r <;> cases hr <;> rfl
  | getClientId peer order =>
    simp only [handle] at hr
    split_ifs at hr
    cases hr
    rfl
  | getAllFiles order =>
    simp only [handle] at hr
    split_ifs at hr
    cases hr
    rfl
  | deleteFile req =>
    obtain ⟨_ | c, _ | h⟩ := req
    · cases hr
      rfl
    · cases hr
      rfl
    · cases hr
      rfl
    · obtain ⟨rfl, rfl⟩ := Prod.mk.inj (run_deleteFile.symm.trans (Option.some.inj hr))
      rfl
  | delistClient c =>
    obtain ⟨rfl, rfl⟩ := Prod.mk.inj (run_delistClient.symm.trans (Option.some.inj hr))
    rfl

lemma seeders_withdraw :
    (s.withdraw h c).seeders k =
      if k = h then (s.seeders h).filter (· ≠ c) else s.seeders k := by
  rw [← seeders_retainOthers, withdraw]
  split_ifs with hm hnil
  · rw [seeders_untrackFile, seeders_removeSeeders]
    split_ifs with hk
    · rw [hk, hnil]
    · rfl
  · rfl
  · rw [seeders_retainOthers]
    split_ifs with hk
    · rw [hk, seeders_of_notMem hm, List.filter_nil]
    · rfl

lemma lookup_withdraw :
    (s.withdraw h c).fileTracker.lookup k =
      if k = h ∧ h ∈ s.seederList ∧ (s.seeders h).filter (· ≠ c) = [] then none
      else s.fileTracker.lookup k := by
  have hfilter := seeders_retainOthers s c h (k := h)
  rw [if_pos rfl] at hfilter
  rw [← hfilter, withdraw]
  by_cases hm : h ∈ s.seederList
  · by_cases hnil : (s.retainOthers h c).seeders h = []
    · simp [hm, hnil, lookup_untrackFile]
    · simp [hm, hnil]
  · simp [hm]

@[simp] lemma clientRegistry_withdraw : (s.withdraw h c).clientRegistry = s.clientRegistry := by
  rw [withdraw]
  split_ifs <;> simp

lemma seeders_delist (hc : c ∈ s.clientRegistry) :
    (s.delist c).seeders k = (s.seeders k).filter (· ≠ c) := by
  obtain ⟨entry, hentry⟩ := Option.isSome_iff_exists.mp (AList.lookup_isSome.mpr hc)
  rw [delist, hentry]
  change (List.foldl (delistEntry c) _ _).seeders k = _
  rw [seeders_foldl_delistEntry, seeders_dropSenders, seeders_unregister]
  split_ifs with hk
  · rfl
  · rw [seeders_of_notMem hk, List.filter_nil]

lemma lookup_delist (hc : c ∈ s.clientRegistry) :
    (s.delist c).fileTracker.lookup k =
      if k ∈ s.seederList ∧ (s.seeders k).filter (· ≠ c) = [] then none
      else s.fileTracker.lookup k := by
  obtain ⟨entry, hentry⟩ := Option.isSome_iff_exists.mp (AList.lookup_isSome.mpr hc)
  rw [delist, hentry]
  change (List.foldl (delistEntry c) _ _).fileTracker.lookup k = _
  rw [lookup_foldl_delistEntry, seeders_dropSenders, seeders_unregister, fileTracker_dropSenders,
    fileTracker_unregister]
  simp only [AList.mem_keys]

lemma lookup_clientRegistry_delist :
    (s.delist c).clientRegistry.lookup d =
      if d = c then none else s.clientRegistry.lookup d := by
  cases hentry : s.clientRegistry.lookup c with
  | none =>
    rw [delist, hentry]
    split_ifs with hd
    · rw [hd]
      exact hentry
    · rfl
  | some entry =>
    rw [delist, hentry]
    change (List.foldl (delistEntry c) _ _).clientRegistry.lookup d = _
    rw [clientRegistry_foldl_delistEntry, clientRegistry_dropSenders, lookup_unregister]

/-- Nothing happens when the client is not registered. -/
lemma delist_of_notMem (hc : c ∉ s.clientRegistry) : s.delist c = s := by
  rw [delist, AList.lookup_eq_none.mpr hc]

/-! ### The history of a run -/

/-- The events of a run, the latest last. -/
def history (tr : List (ConnectionService × ServerRequest)) : List Event :=
  tr.filterMap fun p => (p.1.handle p.2).bind fun r => p.2.event r.1

/-- What holds of the empty server and its empty history, and is preserved by every event that a
permitted request may have, holds after every run of permitted requests. -/
lemma run_history {P : ConnectionService → ServerRequest → Prop}
    {M : List Event → ConnectionService → Prop}
    (hstep : ∀ es s r reply e, M es s → P s r → r.event reply = some e →
      M (es ++ [e]) (s.apply e))
    {tr : List (ConnectionService × ServerRequest)} (hrun : Run step default tr s)
    (hok : ∀ p ∈ tr, P p.1 p.2) (hinit : M [] default) : M (history tr) s := by
  induction hrun with
  | nil => exact hinit
  | @snoc t u tr r hrun hr ih =>
    have ht := ih fun p hp => hok p (List.mem_append_left _ hp)
    obtain ⟨⟨reply, u'⟩, hhandle, rfl⟩ := Option.map_eq_some_iff.mp hr
    have hu := eq_of_handle hhandle
    rw [history, List.filterMap_append]
    change M (history tr ++ _) u'
    cases hevent : r.event reply with
    | none =>
      rw [hevent] at hu
      subst hu
      simpa [hhandle, hevent] using ht
    | some e =>
      rw [hevent] at hu
      subst hu
      simpa [hhandle, hevent] using
        hstep _ _ _ _ _ ht (hok (t, r) (by simp)) hevent

end ConnectionService

end BearTorrent
