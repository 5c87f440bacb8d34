import BearTorrent.Server.Handlers

/-!
# The client with a peer id

`get_client_id` goes through the registry in an order that is not determined, and unwraps the peer
ids on its way. A client that is registered without one must not come before the one that is
searched for.
-/

namespace BearTorrent

open Transition

namespace ConnectionService

/-- An entry of `client_registry`. -/
abbrev RegistryEntry : Type := Σ _ : ClientId, Option PeerId

variable {s : ConnectionService} {p : PeerId} {order : List RegistryEntry}

/-- A reverse look-up has to return a client that is registered with the peer id, or to say that
there is none. -/
def LooksUp (s : ConnectionService) (p : PeerId) : Except Failure ClientId → Prop
  | .ok c    => s.clientRegistry.lookup c = some (some p)
  | .error e =>
    (∀ c, s.clientRegistry.lookup c ≠ some (some p)) ∧
      e = .status .notFound "No client registered for that peer"

/-- Every client without a peer id comes after a client with the peer id `p`. -/
def PrecedesUnknown (p : PeerId) (order : List RegistryEntry) : Prop :=
  ∀ before c after, order = before ++ ⟨c, none⟩ :: after → ∃ d, ⟨d, some p⟩ ∈ before

lemma precedesUnknown_cons {e : RegistryEntry} :
    PrecedesUnknown p (e :: order) ↔
      e.2 ≠ none ∧ (e.2 = some p ∨ PrecedesUnknown p order) := by
  obtain ⟨c, peerId⟩ := e
  constructor
  · intro h
    refine ⟨?_, ?_⟩
    · rintro rfl
      obtain ⟨d, hd⟩ := h [] c order rfl
      cases hd
    · refine Classical.or_iff_not_imp_left.mpr fun hne before d after horder => ?_
      obtain ⟨d', hd'⟩ := h (⟨c, peerId⟩ :: before) d after (congrArg _ horder)
      rcases List.mem_cons.mp hd' with heq | hd'
      · cases heq
        exact absurd rfl hne
      · exact ⟨d', hd'⟩
  · rintro ⟨hknown, hfound⟩ before d after horder
    cases before with
    | nil =>
      cases (List.cons.inj horder).1
      exact absurd rfl hknown
    | cons e before =>
      obtain ⟨rfl, htail⟩ := List.cons.inj horder
      rcases hfound with hp | hrest
      · obtain rfl : peerId = some p := hp
        exact ⟨c, List.mem_cons_self⟩
      · obtain ⟨d', hd'⟩ := hrest before d after htail
        exact ⟨d', List.mem_cons_of_mem _ hd'⟩

/-- What the search through a list returns, when it does not panic. -/
lemma getClientId_of_precedesUnknown (h : PrecedesUnknown p order) :
    (∃ c, getClientId p order = .ok c ∧ ⟨c, some p⟩ ∈ order) ∨
      (∀ c, ⟨c, some p⟩ ∉ order) ∧
        getClientId p order = .error (.status .notFound "No client registered for that peer") := by
  induction order with
  | nil => exact .inr ⟨fun _ => List.not_mem_nil, rfl⟩
  | cons e order ih =>
    obtain ⟨hknown, hfound⟩ := precedesUnknown_cons.mp h
    obtain ⟨c, _ | q⟩ := e
    · exact absurd rfl hknown
    by_cases hq : q = p
    · subst hq
      exact .inl ⟨c, if_pos rfl, List.mem_cons_self⟩
    · have hskip : getClientId p (⟨c, some q⟩ :: order) = getClientId p order := if_neg hq
      have hrest := hfound.resolve_left fun h => hq (Option.some.inj h)
      rw [hskip]
      rcases ih hrest with ⟨d, hd, hmem⟩ | ⟨hnone, herror⟩
      · exact .inl ⟨d, hd, List.mem_cons_of_mem _ hmem⟩
      · refine .inr ⟨fun d hd => ?_, herror⟩
        rcases List.mem_cons.mp hd with heq | hd
        · cases heq
          exact hq rfl
        · exact hnone d hd

/-- Otherwise it panics. -/
lemma getClientId_of_not_precedesUnknown (h : ¬ PrecedesUnknown p order) :
    getClientId p order = .error .panic := by
  induction order with
  | nil =>
    refine absurd (fun before c after horder => ?_) h
    simp at horder
  | cons e order ih =>
    rw [precedesUnknown_cons, not_and_or, not_or, not_not] at h
    obtain ⟨c, _ | q⟩ := e
    · rfl
    · rcases h with h | ⟨hne, hrest⟩
      · cases h
      · have hq : q ≠ p := fun hq => hne (congrArg some hq)
        exact (if_neg hq).trans (ih hrest)

/-- In an order of iteration the look-up is correct if and only if no client without a peer id comes
before the first client that has the peer id. It is correct in all orders if and only if all
clients have one. -/
theorem getClientId_correct_iff (s : ConnectionService) (p : PeerId) :
    (∀ order : List RegistryEntry, order.Perm s.clientRegistry.entries →
        (LooksUp s p (getClientId p order) ↔ PrecedesUnknown p order)) ∧
      ((∀ order : List RegistryEntry, order.Perm s.clientRegistry.entries →
          LooksUp s p (getClientId p order)) ↔
        ∀ c, s.clientRegistry.lookup c ≠ some none) := by
  have hmem : ∀ order : List RegistryEntry, order.Perm s.clientRegistry.entries → ∀ c peerId,
      ⟨c, peerId⟩ ∈ order ↔
        s.clientRegistry.lookup c = some peerId := by
    intro order hperm c peerId
    rw [hperm.mem_iff]
    exact AList.mem_lookup_iff.symm
  have hiff : ∀ order : List RegistryEntry, order.Perm s.clientRegistry.entries →
      (LooksUp s p (getClientId p order) ↔ PrecedesUnknown p order) := by
    intro order hperm
    constructor
    · intro hlooks
      by_contra hunknown
      rw [getClientId_of_not_precedesUnknown hunknown] at hlooks
      cases hlooks.2
    · intro hprecedes
      rcases getClientId_of_precedesUnknown hprecedes with ⟨c, hc, hcmem⟩ | ⟨hnone, herror⟩
      · rw [hc]
        exact (hmem order hperm c (some p)).mp hcmem
      · rw [herror]
        exact ⟨fun c hc => hnone c ((hmem order hperm c (some p)).mpr hc), rfl⟩
  refine ⟨hiff, ?_⟩
  constructor
  · intro hall c hc
    -- the client without a peer id may come first
    have hin := (hmem _ (List.Perm.refl _) c none).mpr hc
    have hperm := (List.perm_cons_erase hin).symm
    obtain ⟨d, hd⟩ := (hiff _ hperm).mp (hall _ hperm) [] c _ rfl
    cases hd
  · intro hknown order hperm
    refine (hiff order hperm).mpr fun before c after horder => ?_
    refine absurd ((hmem order hperm c none).mp ?_) (hknown c)
    rw [horder]
    exact List.mem_append_right _ List.mem_cons_self

/-- A client without a peer id hides the one that is searched for. -/
theorem unknown_peer_panics : ¬ ∀ tr s, Run step default tr s → ∀ p (order : List RegistryEntry),
    order.Perm s.clientRegistry.entries → LooksUp s p (getClientId p order) := by
  intro h
  obtain ⟨s, hs, hentries⟩ : ∃ s, exec step default
      [.registerClient ⟨some ⟨1, 1, 1, 1⟩⟩ ["a"], .registerClient ⟨none⟩ ["b"]] = some s ∧
      s.clientRegistry.entries = [⟨⟨"b"⟩, none⟩, ⟨⟨"a"⟩, some ⟨1, 1, 1, 1⟩⟩] := ⟨_, rfl, rfl⟩
  obtain ⟨tr, hrun, -⟩ := run_of_exec hs
  have hlooks := h tr s hrun ⟨1, 1, 1, 1⟩ _ (List.Perm.refl _)
  rw [hentries] at hlooks
  cases hlooks.2

end ConnectionService

end BearTorrent
