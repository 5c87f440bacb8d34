import BearTorrent.Server.Connector
import BearTorrent.Server.Uninterrupted

/-!
# What `delist_client` leaves behind

The lists of seeders and the maps of senders are cleaned up only for a client that is in the
registry, and the maps of senders only under the peer id that the registry has for it.
-/

namespace BearTorrent

open Transition Connector

namespace ConnectionService

variable {s t : ConnectionService} {c : ClientId} {p : PeerId}

lemma handle_delistClient (s : ConnectionService) (c : ClientId) :
    s.handle (.delistClient c) = some (.ok .empty, s.delist c) :=
  congrArg some run_delistClient

/-! ### Lists of seeders -/

/-- Nothing in `t` tells that the client was a seeder or registered in `s`. -/
structure Traceless (s : ConnectionService) (c : ClientId) (t : ConnectionService) : Prop where
  unlisted : ∀ h clients, t.seederList.lookup h = some clients → c ∉ clients
  unregistered : c ∉ t.clientRegistry
  untracked : ∀ h, s.seeders h ≠ [] → (∀ d ∈ s.seeders h, d = c) → h ∉ t.fileTracker

/-- A client that is in the registry, or in no list of seeders, is delisted without a trace; any
other one stays in the lists. -/
theorem delist_traceless_iff (s : ConnectionService) (c : ClientId) :
    ∃ t, s.handle (.delistClient c) = some (.ok .empty, t) ∧
      (s.Traceless c t ↔ c ∈ s.clientRegistry ∨ ∀ h, c ∉ s.seeders h) := by
  have hlisted : ∀ {t : ConnectionService} {h clients}, t.seederList.lookup h = some clients →
      t.seeders h = clients := by
    intro t h clients hlookup
    rw [seeders, hlookup]
    rfl
  refine ⟨_, handle_delistClient s c, ?_⟩
  constructor
  · intro ht
    by_contra hnot
    obtain ⟨hc, hlists⟩ := not_or.mp hnot
    obtain ⟨h, hmem⟩ := not_forall_not.mp hlists
    have hkeep := ht.unlisted h (s.seeders h)
    rw [delist_of_notMem hc] at hkeep
    cases hlookup : s.seederList.lookup h with
    | none =>
      rw [seeders, hlookup] at hmem
      cases hmem
    | some clients => exact hkeep (by rw [hlisted hlookup, hlookup]) hmem
  · rintro (hc | hlists)
    · constructor
      · intro h clients hlookup
        rw [← hlisted hlookup, seeders_delist hc]
        simp
      · rw [← AList.lookup_isSome, lookup_clientRegistry_delist, if_pos rfl]
        simp
      · intro h hne honly
        have hkey : h ∈ s.seederList := by
          by_contra hkey
          exact hne (seeders_of_notMem hkey)
        have hnil : (s.seeders h).filter (· ≠ c) = [] :=
          List.filter_eq_nil_iff.mpr fun d hd => by simpa using honly d hd
        rw [← AList.lookup_isSome, lookup_delist hc, if_pos ⟨hkey, hnil⟩]
        simp
    · have hseeders : ∀ h, (s.delist c).seeders h = s.seeders h := by
        intro h
        by_cases hc : c ∈ s.clientRegistry
        · rw [seeders_delist hc]
          exact List.filter_eq_self.mpr fun d hd => by
            simpa using fun heq : d = c => hlists h (heq ▸ hd)
        · rw [delist_of_notMem hc]
      constructor
      · intro h clients hlookup
        rw [← hlisted hlookup, hseeders]
        exact hlists h
      · rw [← AList.lookup_isSome, lookup_clientRegistry_delist, if_pos rfl]
        simp
      · intro h hne honly
        obtain ⟨d, hd⟩ := List.exists_mem_of_ne_nil _ hne
        exact absurd (honly d hd ▸ hd) (hlists h)

/-- A client that advertises after it was delisted is not delisted again. -/
theorem late_advertisement_stays : ¬ ∀ tr s c t, Run step default tr s →
    s.handle (.delistClient c) = some (.ok .empty, t) → s.Traceless c t := by
  intro h
  obtain ⟨s, hs, hlookup⟩ : ∃ s, exec step default
      [.registerClient ⟨none⟩ ["a"], .delistClient ⟨"a"⟩,
        .advertise ⟨some ⟨"a"⟩, some ⟨[1]⟩, some ⟨"one", 1, 1, []⟩⟩] = some s ∧
      (s.delist ⟨"a"⟩).seederList.lookup ⟨[1]⟩ = some [⟨"a"⟩] := ⟨_, rfl, rfl⟩
  obtain ⟨tr, hrun, -⟩ := run_of_exec hs
  exact (h tr s ⟨"a"⟩ _ hrun (handle_delistClient s ⟨"a"⟩)).unlisted _ _ hlookup List.mem_cons_self

/-! ### Maps of senders -/

lemma lookup_dropSender (m : AList fun _ : PeerId => SenderId) (q p : PeerId) :
    (dropSender m q).lookup p = if p = q then none else m.lookup p := by
  rw [dropSender]
  split_ifs with hq hp hp
  · rw [hp, AList.lookup_erase]
  · exact AList.lookup_erase_ne hp
  · rw [hp]
    exact AList.lookup_eq_none.mpr hq
  · rfl

/-- `delist_client` removes the senders under the peer id of the client, and no others. -/
lemma lookup_senders_delist (s : ConnectionService) (c : ClientId) (m : SenderMap) (p : PeerId) :
    ((s.delist c).senders m).lookup p =
      if s.peerIdOf c = some p then none else (s.senders m).lookup p := by
  cases hentry : s.clientRegistry.lookup c with
  | none => rw [delist, hentry, peerIdOf, hentry]; rfl
  | some entry =>
    rw [delist, hentry, peerIdOf, hentry]
    change ((List.foldl (delistEntry c) _ _).senders m).lookup p = _
    rw [senders_foldl_delistEntry]
    cases entry with
    | none => cases m <;> rfl
    | some q =>
      have hdrop : ((s.unregister c).dropSenders (some q)).senders m =
          dropSender (s.senders m) q := by
        cases m <;> rfl
      rw [hdrop, lookup_dropSender]
      simp [eq_comm]

/-- An event keeps the sender under a peer id, unless it delists the client with this peer id. -/
lemma lookup_senders_apply {e : Event} (he : ∀ c, e = .delisted c → s.peerIdOf c ≠ some p)
    (m : SenderMap) : ((s.apply e).senders m).lookup p = (s.senders m).lookup p := by
  cases e with
  | delisted c => rw [ConnectionService.apply, lookup_senders_delist, if_neg (he c rfl)]
  | deleted c h =>
    have hremove : ∀ u : ConnectionService,
        ((u.removeSeeders h).untrackFile h).senders m = u.senders m := by
      intro u
      cases m <;> rfl
    rw [ConnectionService.apply, withdraw]
    split_ifs
    · rw [hremove, senders_retainOthers]
    · rw [senders_retainOthers]
    · rfl
  | _ => cases m <;> rfl

/-- A request of the tracker keeps the sender under a peer id, or it delists the client with this
peer id and removes it. -/
lemma lookup_senders_step {r : ServerRequest} (h : s.step r = some t) (m : SenderMap)
    (p : PeerId) :
    (t.senders m).lookup p = (s.senders m).lookup p ∨
      (t.senders m).lookup p = none ∧ ∃ c, r = .delistClient c ∧ s.peerIdOf c = some p := by
  obtain ⟨⟨reply, u⟩, hhandle, rfl⟩ := Option.map_eq_some_iff.mp h
  have hu := eq_of_handle hhandle
  cases hevent : r.event reply with
  | none =>
    rw [hevent] at hu
    exact .inl (by rw [hu])
  | some e =>
    rw [hevent] at hu
    subst hu
    by_cases he : ∃ c, e = .delisted c ∧ s.peerIdOf c = some p
    · obtain ⟨c, rfl, hc⟩ := he
      refine .inr ⟨?_, c, eq_of_delisted hevent, hc⟩
      change ((s.delist c).senders m).lookup p = none
      rw [lookup_senders_delist, if_pos hc]
    · exact .inl (lookup_senders_apply (fun c hc hp => he ⟨c, hc, hp⟩) m)

/-- After the client is delisted in `s`, there is no sender under a peer id that it has ever
registered, and those under the peer ids of other clients are as they were. -/
structure ClearsSenders (es : List Event) (s : ConnectionService) (c : ClientId)
    (t : ConnectionService) : Prop where
  cleared : ∀ m p, HasUsed es c p → (t.senders m).lookup p = none
  others : ∀ m p d, d ≠ c → HasUsed es d p → (t.senders m).lookup p = (s.senders m).lookup p

/-- A client is delisted with all its senders if and only if there are none under a peer id that it
has registered but is not registered with. -/
theorem delist_clears_senders_iff {tr : List (ConnectionService × ConnectorRequest)}
    (hrun : Run Connector.step default tr s) (hids : DifferentIds (Connector.history tr))
    (c : ClientId) :
    ∃ t, s.handle (.delistClient c) = some (.ok .empty, t) ∧
      (ClearsSenders (Connector.history tr) s c t ↔
        ∀ m p, HasUsed (Connector.history tr) c p → s.peerIdOf c ≠ some p →
          (s.senders m).lookup p = none) := by
  refine ⟨_, handle_delistClient s c, ?_⟩
  constructor
  · intro ht m p hused hne
    have hcleared := ht.cleared m p hused
    rwa [lookup_senders_delist, if_neg hne] at hcleared
  · intro hgiven
    refine ⟨fun m p hused => ?_, fun m p d hdc hused => ?_⟩
    · rw [lookup_senders_delist]
      split_ifs with hp
      · rfl
      · exact hgiven m p hused hp
    · rw [lookup_senders_delist, if_neg]
      intro hp
      have hregistered : RegisteredWith (Connector.history tr) c p :=
        (lookup_clientRegistry_run hrun c).symm.trans (Option.join_eq_some_iff.mp hp)
      exact hdc (hids d c p hused (hasUsed_of_registeredWith hregistered))

def firstId : PeerId := ⟨1, 1, 1, 1⟩
def secondId : PeerId := ⟨2, 2, 2, 2⟩

/-- A client registers and waits for a request. -/
lemma exists_waiting : ∃ tr s, Run Connector.step default tr s ∧
    Connector.history tr = [.registered ⟨"a"⟩ (some firstId)] ∧
    (s.senders .seedNotifier).lookup firstId = some 0 ∧ s.peerIdOf ⟨"a"⟩ = some firstId := by
  obtain ⟨s, t, hs, ht, hevent, hevent', hwaits, hid⟩ : ∃ s t,
      Connector.step default (.tracker (.registerClient ⟨some firstId⟩ ["a"])) = some s ∧
      Connector.step s (.seed firstId 0) = some t ∧
      Connector.event default (.tracker (.registerClient ⟨some firstId⟩ ["a"]))
        = some (.registered ⟨"a"⟩ (some firstId)) ∧
      Connector.event s (.seed firstId 0) = none ∧
      (t.senders .seedNotifier).lookup firstId = some 0 ∧ t.peerIdOf ⟨"a"⟩ = some firstId :=
    ⟨_, _, rfl, rfl, rfl, rfl, rfl, rfl⟩
  refine ⟨_, t, (Run.single hs).snoc ht, ?_, hwaits, hid⟩
  simp [Connector.history, hevent, hevent']

theorem delist_clears_senders_waiting : ∃ tr s t, Run Connector.step default tr s ∧
    (s.senders .seedNotifier).lookup firstId = some 0 ∧
    s.handle (.delistClient ⟨"a"⟩) = some (.ok .empty, t) ∧
    ClearsSenders (Connector.history tr) s ⟨"a"⟩ t := by
  obtain ⟨tr, s, hrun, hhistory, hwaits, hid⟩ := exists_waiting
  have hused : ∀ d p, HasUsed (Connector.history tr) d p → d = ⟨"a"⟩ ∧ p = firstId := by
    intro d p h
    rw [hhistory] at h
    simpa [HasUsed] using h
  obtain ⟨t, ht, hclears⟩ := delist_clears_senders_iff hrun
    (differentIds_of_forall fun d p h => (hused d p h).1) ⟨"a"⟩
  refine ⟨tr, s, t, hrun, hwaits, ht, hclears.mpr fun m p h hne => ?_⟩
  obtain ⟨-, rfl⟩ := hused _ p h
  exact absurd hid hne

/-- The seeder that waits under an earlier peer id is not removed. -/
theorem earlier_id_stays : ¬ ∀ tr s c t, Run Connector.step default tr s →
    DifferentIds (Connector.history tr) → c ∈ s.clientRegistry →
      s.handle (.delistClient c) = some (.ok .empty, t) →
        ClearsSenders (Connector.history tr) s c t := by
  intro h
  obtain ⟨tr, s, hrun, hhistory, hwaits, -⟩ := exists_waiting
  have hstep : Connector.step s (.tracker (.updateRegisteredPeerId ⟨some ⟨"a"⟩, some secondId⟩))
      = some (s.register ⟨"a"⟩ (some secondId)) := rfl
  have hevent : Connector.event s
      (.tracker (.updateRegisteredPeerId ⟨some ⟨"a"⟩, some secondId⟩))
        = some (.updated ⟨"a"⟩ secondId) := rfl
  generalize hrequest : ConnectorRequest.tracker
    (.updateRegisteredPeerId ⟨some ⟨"a"⟩, some secondId⟩) = r at hstep hevent
  have hhistory' : Connector.history (tr ++ [(s, r)])
      = [.registered ⟨"a"⟩ (some firstId), .updated ⟨"a"⟩ secondId] := by
    rw [Connector.history, List.filterMap_append]
    change Connector.history tr ++ _ = _
    simp [hhistory, hevent]
  have hclears := h _ _ ⟨"a"⟩ _ (hrun.snoc hstep)
    (differentIds_of_forall (c := ⟨"a"⟩) fun d p hd => by
      rw [hhistory'] at hd
      simp only [HasUsed, List.mem_cons, Event.registered.injEq, Event.updated.injEq, reduceCtorEq,
        List.not_mem_nil, or_false, false_or] at hd
      rcases hd with hd | hd
      · exact hd.1
      · exact hd.1)
    (AList.mem_insert _ |>.mpr (.inl rfl)) (handle_delistClient _ _)
  have hcleared := hclears.cleared .seedNotifier firstId (by simp [HasUsed, hhistory'])
  rw [lookup_senders_delist, if_neg] at hcleared
  · exact absurd (hwaits.symm.trans hcleared) (by simp)
  · rw [peerIdOf, lookup_register, if_pos rfl]
    decide

end ConnectionService

end BearTorrent
