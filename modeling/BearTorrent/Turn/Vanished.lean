import BearTorrent.Turn.Registration

/-!
# Parties that vanish

Nothing empties the slots of a session. A call whose party is gone keeps its slot, later calls of
its role are refused, and the packets for its role are still addressed to its channel.
-/

namespace BearTorrent

open Function Transition

namespace TurnService

variable {s t : TurnService} {i j k : RegisterId} {call : RegisterCall} {id : String} {r : Role}

/-! ### Parties -/

/-- The call of a party is cancelled while it waits at the barrier. -/
def CancelledAtBarrier (s : TurnService) (id : String) (r : Role) (i : RegisterId) : Prop :=
  ∃ call generation, s.registers i = some call ∧ call.session = id ∧ call.role = r ∧
    call.isOpen = false ∧ call.state = .atBarrier generation

/-- The stream that the call of a party has returned has ended. -/
def StreamEnded (s : TurnService) (id : String) (r : Role) (i : RegisterId) : Prop :=
  ∃ call, s.registers i = some call ∧ call.session = id ∧ call.role = r ∧ call.isOpen = false ∧
    call.state = .returned (.ok ())

/-- The party is gone. -/
def Gone (s : TurnService) (id : String) (r : Role) (i : RegisterId) : Prop :=
  s.CancelledAtBarrier id r i ∨ s.StreamEnded id r i

/-- A party of the session was cancelled at the barrier, or the streams of both have ended. -/
def Vanished (s : TurnService) (id : String) : Prop :=
  (∃ r i, s.CancelledAtBarrier id r i) ∨ ∀ r, ∃ i, s.StreamEnded id r i

/-- A call of the session that starts after `s`, as it stands in `t`. -/
structure Later (s t : TurnService) (id : String) (r : Role) (k : RegisterId)
    (call : RegisterCall) : Prop where
  unknown : s.registers k = none
  known : t.registers k = some call
  session : call.session = id
  role : call.role = r

lemma Gone.slot (hs : s.Gone id r i) (hreg : Registered s) : (s.sessionOf id).slot r = some i := by
  rcases hs with ⟨call, generation, hi, rfl, rfl, -, hstate⟩ | ⟨call, hi, rfl, rfl, -, hstate⟩
  · exact hreg.occupied i call hi (by rw [hstate]; rfl)
  · exact hreg.occupied i call hi (by rw [hstate]; rfl)

lemma Gone.isOpen (hs : s.Gone id r i) :
    ∃ call, s.registers i = some call ∧ call.isOpen = false := by
  rcases hs with ⟨call, generation, hi, -, -, hopen, -⟩ | ⟨call, hi, -, -, hopen, -⟩
  · exact ⟨call, hi, hopen⟩
  · exact ⟨call, hi, hopen⟩

/-! ### Packets -/

/-- A packet is put only into the channel of a slot. -/
def ForwardsToSlots (s : TurnService) : Prop :=
  ∀ j stream pkt tx, s.streams j = some stream → stream.state = .forwarding pkt tx →
    ∃ id r, (s.sessionOf id).slot r = some tx

lemma ForwardsToSlots.step {a : Action} (hs : ForwardsToSlots s) (h : TurnStep s a t) :
    ForwardsToSlots t := by
  intro j stream pkt tx hj hstate
  have hmono : (∃ id r, (s.sessionOf id).slot r = some tx) →
      ∃ id r, (t.sessionOf id).slot r = some tx := fun ⟨id, r, hslot⟩ =>
    ⟨id, r, slot_of_step h hslot⟩
  have hupdate : ∀ {m stream'}, t.streams = update s.streams m (some stream') →
      (stream'.state = .forwarding pkt tx → ∃ id r, (s.sessionOf id).slot r = some tx) →
        ∃ id r, (t.sessionOf id).slot r = some tx := by
    intro m stream' hstreams hstream'
    rw [hstreams, update_eq_some] at hj
    rcases hj with ⟨rfl, rfl⟩ | ⟨-, hj⟩
    · exact hmono (hstream' hstate)
    · exact hmono (hs j stream pkt tx hj hstate)
  cases h with
  | @forward m stream' pkt' tx' queue hqueue hm hlocking htarget =>
    refine hupdate rfl fun hstate' => ?_
    cases hstate'
    obtain ⟨id, r, -, -, hslot⟩ := target_eq_some htarget
    exact ⟨id, r, hslot⟩
  | skip => exact hupdate rfl fun hstate' => by cases hstate'
  | accept => exact hupdate rfl fun hstate' => by cases hstate'
  | refuse => exact hupdate rfl fun hstate' => by cases hstate'
  | submit hm => exact hupdate rfl fun hstate' => hs _ _ pkt tx hm hstate'
  | close hm => exact hupdate rfl fun hstate' => hs _ _ pkt tx hm hstate'
  | next => exact hupdate rfl fun hstate' => by cases hstate'
  | finish => exact hupdate rfl fun hstate' => by cases hstate'
  | put => exact hupdate rfl fun hstate' => by cases hstate'
  | putDropped => exact hupdate rfl fun hstate' => by cases hstate'
  | _ => exact hmono (hs j stream pkt tx hj hstate)

lemma forwardsToSlots_run {tr : List (TurnService × Action)} (hrun : Run step default tr s) :
    ForwardsToSlots s :=
  hrun.preserve (fun _ _ _ hs h => hs.step (turnStep_of_eq_some h)) fun j stream pkt tx hj => by
    cases hj

/-! ### Later calls -/

/-- Call `k` with this role waits for the lock or is refused, and gets no packet. -/
def Refused (id : String) (r : Role) (k : RegisterId) (s : TurnService) : Prop :=
  ∀ call, s.registers k = some call → call.session = id → call.role = r →
    (call.state = .locking ∨ call.state = .returned (.error r.taken)) ∧ call.put = []

/-- While the slot of its role is taken, a call gets nowhere. -/
lemma Refused.step {a : Action} (hs : Refused id r k s) (hreg : Registered s)
    (hforwards : ForwardsToSlots s) (hslot : (s.sessionOf id).slot r = some i)
    (h : TurnStep s a t) : Refused id r k t := by
  intro c hc hsession hrole
  have hupdate : ∀ {m c'}, t.registers = update s.registers m (some c') →
      (k = m → c = c' →
        (c.state = .locking ∨ c.state = .returned (.error r.taken)) ∧ c.put = []) →
      (c.state = .locking ∨ c.state = .returned (.error r.taken)) ∧ c.put = [] := by
    intro m c' hregisters hc'
    rw [hregisters, update_eq_some] at hc
    rcases hc with ⟨hk, rfl⟩ | ⟨-, hk⟩
    · exact hc' hk rfl
    · exact hs c hk hsession hrole
  have hidle : ∀ {c'}, s.registers k = some c' → c'.session = id → c'.role = r →
      c'.state.holdsSlot = false := by
    intro c' hk hsession hrole
    rcases (hs c' hk hsession hrole).1 with hstate | hstate
    · rw [hstate]
      rfl
    · rw [hstate]
      rfl
  cases h with
  | register hm =>
    refine hupdate rfl fun _ heq => ?_
    rw [heq]
    exact ⟨.inl rfl, rfl⟩
  | fill hqueue hm hstate hreaders hadd =>
    refine hupdate rfl fun _ heq => ?_
    rw [heq] at hsession hrole
    obtain ⟨hempty, -⟩ := Session.of_add_eq_ok hadd
    change (s.sessionOf _).slot _ = none at hempty
    rw [hsession, hrole, hslot] at hempty
    cases hempty
  | @reject m c' queue error hqueue hm hstate hreaders hadd =>
    refine hupdate rfl fun hk heq => ?_
    subst hk heq
    refine ⟨.inr ?_, (hs c' hm hsession hrole).2⟩
    have hsome : ((s.sessionOf c'.session).slot c'.role).isSome = true := by
      rw [hsession, hrole, hslot]
      rfl
    obtain rfl : c'.role.taken = error :=
      Except.error.inj ((Session.add_of_taken hsome).symm.trans hadd)
    rw [hrole]
  | arrive hm hopen hstate =>
    refine hupdate rfl fun hk heq => ?_
    subst hk heq
    have hholds := hidle hm hsession hrole
    rw [hstate] at hholds
    cases hholds
  | pass hm hopen hstate =>
    refine hupdate rfl fun hk heq => ?_
    subst hk heq
    have hholds := hidle hm hsession hrole
    rw [hstate] at hholds
    cases hholds
  | read hm hopen hstate =>
    refine hupdate rfl fun hk heq => ?_
    subst hk heq
    have hholds := hidle hm hsession hrole
    rw [hstate] at hholds
    cases hholds
  | @dropReceiver m c' hm =>
    refine hupdate rfl fun hk heq => ?_
    subst hk heq
    exact hs c' hm hsession hrole
  | @put j stream pkt tx c' channel hj hstate htx =>
    refine hupdate rfl fun hk heq => ?_
    subst hk heq
    -- the channel is that of a slot
    obtain ⟨id', r', hslot'⟩ := hforwards j stream pkt k hj hstate
    have hholds := hreg.holdsSlot hslot' htx
    rw [hidle htx hsession hrole] at hholds
    cases hholds
  | _ => exact hs c hc hsession hrole

/-- A call that starts while the slot of its role is taken is refused for good. -/
lemma refused_run {tr : List (TurnService × Action)} (hreg : Registered s)
    (hforwards : ForwardsToSlots s) (hslot : (s.sessionOf id).slot r = some i)
    (hk : s.registers k = none) (hrun : Run step s tr t) : Refused id r k t := by
  have hall := hrun.preserve (I := fun s => Refused id r k s ∧ Registered s ∧ ForwardsToSlots s ∧
      (s.sessionOf id).slot r = some i)
    (fun s a t hs ha => ?_) ⟨fun c hc => ?_, hreg, hforwards, hslot⟩
  · exact hall.1
  · obtain ⟨hrefused, hreg, hforwards, hslot⟩ := hs
    have h := turnStep_of_eq_some ha
    exact ⟨hrefused.step hreg hforwards hslot h, hreg.step h, hforwards.step h,
      slot_of_step h hslot⟩
  · rw [hk] at hc
    cases hc

/-- Among later calls, one for each role, there is one that is refused. -/
lemma refused_of_vanished (hreg : Registered s) (hforwards : ForwardsToSlots s)
    (hs : s.Vanished id) {tr : List (TurnService × Action)} (hrun : Run step s tr t)
    {ks : Role → RegisterId} {calls : Role → RegisterCall}
    (hlater : ∀ r, Later s t id r (ks r) (calls r)) :
    ∃ r, (calls r).state = .locking ∨ (calls r).state = .returned (.error r.taken) := by
  obtain ⟨r, i, hgone⟩ : ∃ r i, s.Gone id r i := by
    rcases hs with ⟨r, i, hcancelled⟩ | hended
    · exact ⟨r, i, .inl hcancelled⟩
    · obtain ⟨i, hi⟩ := hended .seeder
      exact ⟨.seeder, i, .inr hi⟩
  have hk := hlater r
  exact ⟨r, (refused_run hreg hforwards (hgone.slot hreg) hk.unknown hrun _ hk.known hk.session
    hk.role).1⟩

/-- A call whose role is free fills the slot when it has the lock. -/
lemma acquire_of_free {queue : List Waiter} (hqueue : s.queue = .write k :: queue)
    (hk : s.registers k = some call) (hlocking : call.state = .locking) (hreaders : s.readers = [])
    (hfree : (s.sessionOf call.session).slot call.role = none) :
    ∃ t, s.step .acquire = some t ∧ (t.sessionOf call.session).slot call.role = some k := by
  obtain ⟨session, hadd⟩ : ∃ session,
      (s.sessionOf call.session).add k call.role = .ok session := by
    cases hrole : call.role with
    | seeder =>
      rw [hrole] at hfree
      exact ⟨_, if_neg (by rw [show (s.sessionOf call.session).seeder = none from hfree]; simp)⟩
    | leecher =>
      rw [hrole] at hfree
      exact ⟨_, if_neg (by rw [show (s.sessionOf call.session).leecher = none from hfree]; simp)⟩
  have hadd' : ((s.sessions call.session).getD .new).add k call.role = .ok session := hadd
  refine ⟨_, by simp only [step, acquire, hqueue, hk, hlocking, hreaders, fillSlot, hadd']; rfl, ?_⟩
  rw [sessionOf_update rfl, if_pos rfl]
  exact (Session.of_add_eq_ok hadd).2.1

/-! ### The slot of a party that is gone -/

/-- The call keeps the slot for good: packets for the role are addressed to its channel, which is
closed, and a later call of the role waits for its turn and is refused, and gets no packet. -/
structure Occupies (s : TurnService) (id : String) (r : Role) (i : RegisterId) : Prop where
  target : ∀ tr t pkt, Run step s tr t → pkt.receiver = some r →
    (t.sessionOf id).target pkt = some i
  closed : ∀ tr t, Run step s tr t → ∃ call, t.registers i = some call ∧ call.isOpen = false
  refused : ∀ tr t k call, Run step s tr t → Later s t id r k call →
    (call.state = .locking ∨ call.state = .returned (.error r.taken)) ∧ call.put = []
  answered : ∀ tr t k call queue, Run step s tr t → Later s t id r k call →
    t.queue = .write k :: queue → t.readers = [] → call.state = .locking →
      t.step .acquire = some { t.setRegister k
        { call with state := .returned (.error r.taken) } with queue }

/-- A later call fills the slot of its role when it is free, and then packets for the role are
addressed to its channel for good. -/
def Admits (s : TurnService) (id : String) : Prop :=
  ∀ tr t r k call queue, Run step s tr t → Later s t id r k call →
    (t.sessionOf id).slot r = none → t.queue = .write k :: queue → t.readers = [] →
      call.state = .locking →
        ∃ u, t.step .acquire = some u ∧ ∀ tr' v pkt, Run step u tr' v → pkt.receiver = some r →
          (v.sessionOf id).target pkt = some k

/-- A party that is gone keeps its slot, so that of a later pair of calls, one for each role, one
does not succeed. A role that is free is given to a later call. -/
theorem vanished_party_blocks {tr : List (TurnService × Action)} (hrun : Run step default tr s)
    (hs : s.Vanished id) :
    (∀ r i, s.Gone id r i → s.Occupies id r i) ∧
      (∀ tr' t (ks : Role → RegisterId) (calls : Role → RegisterCall), Run step s tr' t →
        (∀ r, Later s t id r (ks r) (calls r)) →
          ∃ r, (calls r).state = .locking ∨ (calls r).state = .returned (.error r.taken)) ∧
      s.Admits id := by
  have hreg := registered_run hrun
  have hforwards := forwardsToSlots_run hrun
  refine ⟨fun r i hgone => ?_, fun tr' t ks calls hrun' hlater =>
    refused_of_vanished hreg hforwards hs hrun' hlater, ?_⟩
  swap
  · intro tr' t r k call queue hrun' hk hfree hqueue hreaders hstate
    obtain ⟨rfl, rfl⟩ := And.intro hk.session hk.role
    obtain ⟨u, hu, hslot⟩ := acquire_of_free hqueue hk.known hstate hreaders hfree
    refine ⟨u, hu, fun tr'' v pkt hrun'' hpkt => ?_⟩
    rw [Session.target, hpkt]
    exact slot_of_run hrun'' hslot
  have hslot := hgone.slot hreg
  constructor
  · intro tr' t pkt hrun' hpkt
    rw [Session.target, hpkt]
    exact slot_of_run hrun' hslot
  · intro tr' t hrun'
    obtain ⟨call, hi, hclosed⟩ := hgone.isOpen
    obtain ⟨call', hi', hcall⟩ := call_of_run hrun' hi
    exact ⟨call', hi', hcall.closed hclosed⟩
  · intro tr' t k call hrun' hk
    exact refused_run hreg hforwards hslot hk.unknown hrun' call hk.known hk.session hk.role
  · intro tr' t k call queue hrun' hk hqueue hreaders hstate
    have htaken : (t.sessionOf call.session).slot call.role = some i := by
      rw [hk.session, hk.role]
      exact slot_of_run hrun' hslot
    rw [acquire_of_taken hqueue hk.known hstate htaken, if_pos hreaders, hk.role]

/-- A seeder goes away while it waits for a leecher. -/
def cancelledSeeder : List Action :=
  [.register 0 ⟨"ab", true⟩, .acquire, .arrive 0, .dropReceiver 0]

lemma exists_vanished : ∃ tr s, Run step default tr s ∧ s.CancelledAtBarrier "ab" .seeder 0 := by
  obtain ⟨s, hs, hcancelled⟩ : ∃ s, exec step default cancelledSeeder = some s ∧
      s.CancelledAtBarrier "ab" .seeder 0 := ⟨_, rfl, _, 0, rfl, rfl, rfl, rfl, rfl⟩
  obtain ⟨tr, hrun, -⟩ := run_of_exec hs
  exact ⟨tr, s, hrun, hcancelled⟩

theorem vanished_party_blocks_seeder : ∃ tr s, Run step default tr s ∧
    s.CancelledAtBarrier "ab" .seeder 0 ∧ s.Occupies "ab" .seeder 0 := by
  obtain ⟨tr, s, hrun, hcancelled⟩ := exists_vanished
  exact ⟨tr, s, hrun, hcancelled,
    (vanished_party_blocks hrun (.inl ⟨.seeder, 0, hcancelled⟩)).1 .seeder 0 (.inl hcancelled)⟩

/-- After that, no later pair of calls succeeds in any run. -/
theorem no_later_pair : ¬ ∀ tr s id, Run step default tr s → s.Vanished id →
    ∃ tr' t, ∃ (ks : Role → RegisterId) (calls : Role → RegisterCall), Run step s tr' t ∧
      ∀ r, Later s t id r (ks r) (calls r) ∧ (calls r).state = .returned (.ok ()) := by
  intro h
  obtain ⟨tr, s, hrun, hcancelled⟩ := exists_vanished
  have hs : s.Vanished "ab" := .inl ⟨.seeder, 0, hcancelled⟩
  obtain ⟨tr', t, ks, calls, hrun', hcalls⟩ := h tr s "ab" hrun hs
  obtain ⟨r, hstate⟩ := refused_of_vanished (registered_run hrun) (forwardsToSlots_run hrun) hs
    hrun' fun r => (hcalls r).1
  rw [(hcalls r).2] at hstate
  rcases hstate with hstate | hstate
  · cases hstate
  · cases hstate

end TurnService

end BearTorrent
