import BearTorrent.Turn.Sessions

/-!
# Registration of a pair

A session takes one call of each role. A call whose role is taken is refused and never reaches the
barrier, so the two calls that a barrier releases are those in the two slots.
-/

namespace BearTorrent

open Function Transition

/-- The role of the other party. -/
def Role.other : Role → Role
  | .seeder  => .leecher
  | .leecher => .seeder

lemma Role.eq_other {r r' : Role} (h : r' ≠ r) : r' = r.other := by
  cases r <;> cases r' <;> simp_all [Role.other]

/-- The error of a call whose role is taken. -/
def Role.taken : Role → Failure
  | .seeder  => .status .resourceExhausted "Seeder already registered"
  | .leecher => .status .resourceExhausted "Leecher already registered"

/-- The call has arrived at the barrier of its session. -/
def RegisterState.Arrived (state : RegisterState) : Prop :=
  state.holdsSlot = true ∧ state ≠ .filled

/-- Adding to a slot that is taken fails. -/
lemma Session.add_of_taken {session : Session} {tx : RegisterId} {r : Role}
    (h : (session.slot r).isSome = true) : session.add tx r = .error r.taken := by
  cases r with
  | seeder => exact if_pos h
  | leecher => exact if_pos h

namespace TurnService

variable {s t : TurnService} {i k : RegisterId} {call call' : RegisterCall}

lemma registered_run {tr : List (TurnService × Action)} (hrun : Run step default tr s) :
    Registered s :=
  hrun.preserve (fun _ _ _ hs h => hs.step (turnStep_of_eq_some h)) registered_default

/-! ### Released together -/

/-- The calls of a session whose barrier has opened have arrived there. -/
def Together (s : TurnService) : Prop :=
  ∀ id r i call, 0 < (s.sessionOf id).barrier.generation → (s.sessionOf id).slot r = some i →
    s.registers i = some call → call.state ≠ .filled

lemma together_default : Together default := by
  intro id r i call hgeneration
  cases hgeneration

/-- A call that has not just filled its slot may change. -/
lemma Together.setRegister (hs : Together s)
    (hregisters : t.registers = update s.registers i (some call'))
    (hsessions : t.sessions = s.sessions)
    (hstate : call'.state = .filled → ∃ call, s.registers i = some call ∧ call.state = .filled) :
    Together t := by
  intro id r k c hgeneration hslot hk hfilled
  rw [sessionOf, hsessions] at hgeneration hslot
  rw [hregisters, update_eq_some] at hk
  rcases hk with ⟨rfl, rfl⟩ | ⟨-, hk⟩
  · obtain ⟨call, hi, hcall⟩ := hstate hfilled
    exact hs id r _ call hgeneration hslot hi hcall
  · exact hs id r k c hgeneration hslot hk hfilled

/-- A slot is filled only while the barrier is closed. -/
lemma Together.fill (hs : Together s) (hreg : Registered s) {session : Session}
    (hi : s.registers i = some call) (hlocking : call.state = .locking)
    (hadd : (s.sessionOf call.session).add i call.role = .ok session)
    (hregisters : t.registers = update s.registers i (some { call with state := .filled }))
    (hsessions : t.sessions = update s.sessions call.session (some session)) : Together t := by
  obtain ⟨hempty, -, -, hbarrier⟩ := Session.of_add_eq_ok hadd
  intro id r k c hgeneration hslot hk
  rw [sessionOf_update hsessions] at hgeneration hslot
  split_ifs at hgeneration hslot with hid
  · rw [hbarrier] at hgeneration
    have := hreg.released call.session hgeneration call.role
    rw [hempty] at this
    cases this
  · have hki : k ≠ i := by
      rintro rfl
      have hholds := hreg.holdsSlot hslot hi
      rw [hlocking] at hholds
      cases hholds
    rw [hregisters, update_of_ne hki] at hk
    exact hs id r k c hgeneration hslot hk

/-- The call that opens the barrier finds the other one there. -/
lemma Together.arrive (hs : Together s) (hreg : Registered s)
    (hi : s.registers i = some call) (hfilled : call.state = .filled) {generation : ℕ}
    (hregisters : t.registers =
      update s.registers i (some { call with state := .atBarrier generation }))
    (hsessions : t.sessions = update s.sessions call.session (some
      { s.sessionOf call.session with barrier := (s.sessionOf call.session).barrier.arrive })) :
    Together t := by
  have hi' : (s.sessionOf call.session).slot call.role = some i :=
    hreg.occupied i call hi (by rw [hfilled]; rfl)
  intro id r k c hgeneration hslot hk
  rw [hregisters, update_eq_some] at hk
  rcases hk with ⟨rfl, rfl⟩ | ⟨hki, hk⟩
  · simp
  rw [sessionOf_update hsessions] at hgeneration hslot
  split_ifs at hgeneration hslot with hid
  · replace hslot : (s.sessionOf call.session).slot r = some k := by
      cases r <;> exact hslot
    simp only [Barrier.arrive] at hgeneration
    split_ifs at hgeneration with htwo
    · obtain ⟨r', k', c', hk', hc', hne⟩ := hreg.arrived call.session (by omega)
      -- the call that waits is not `i`, so it is in the other slot, as `k` is
      have hrole : ∀ {r' k'}, (s.sessionOf call.session).slot r' = some k' → k' ≠ i →
          r' = call.role.other := by
        intro r' k' hk' hne
        apply Role.eq_other
        rintro rfl
        exact hne (Option.some.inj (hk'.symm.trans hi'))
      have hk'i : k' ≠ i := by
        rintro rfl
        rw [Option.some.inj (hc'.symm.trans hi)] at hne
        exact hne hfilled
      rw [hrole hslot hki, ← hrole hk' hk'i] at hslot
      obtain rfl := Option.some.inj (hslot.symm.trans hk')
      rwa [Option.some.inj (hk.symm.trans hc')]
    · exact hs _ r k c hgeneration hslot hk
  · exact hs id r k c hgeneration hslot hk

lemma Together.step {a : Action} (hs : Together s) (hreg : Registered s) (h : TurnStep s a t) :
    Together t := by
  cases h with
  | register hi => exact hs.setRegister rfl rfl (by simp [RegisterCall.new])
  | fill hqueue hi hstate hreaders hadd => exact hs.fill hreg hi hstate hadd rfl rfl
  | reject hqueue hi hstate => exact hs.setRegister rfl rfl (by simp)
  | arrive hi hopen hstate hsession =>
    refine hs.arrive hreg hi hstate rfl ?_
    rw [sessionOf_eq hsession]
  | pass hi hopen hstate hsession hlt => exact hs.setRegister rfl rfl (by simp)
  | read hi => exact hs.setRegister rfl rfl fun hstate => ⟨_, hi, hstate⟩
  | dropReceiver hi => exact hs.setRegister rfl rfl fun hstate => ⟨_, hi, hstate⟩
  | put hj hstate htx => exact hs.setRegister rfl rfl fun hstate => ⟨_, htx, hstate⟩
  | _ => exact hs

lemma together_run {tr : List (TurnService × Action)} (hrun : Run step default tr s) :
    Together s :=
  (hrun.preserve (I := fun s => Registered s ∧ Together s)
    (fun _ _ _ hs h =>
      ⟨hs.1.step (turnStep_of_eq_some h), hs.2.step hs.1 (turnStep_of_eq_some h)⟩)
    ⟨registered_default, together_default⟩).2

/-! ### One call of each role -/

/-- A filled slot is never replaced. -/
lemma slot_of_run {id : String} {r : Role} {tr : List (TurnService × Action)}
    (hrun : Run step s tr t) (hslot : (s.sessionOf id).slot r = some k) :
    (t.sessionOf id).slot r = some k :=
  hrun.preserve (I := fun s => (s.sessionOf id).slot r = some k)
    (fun _ _ _ hs h => slot_of_step (turnStep_of_eq_some h) hs) hslot

/-- A call stays, and with it its session and its role. A call that is closed stays closed. -/
structure Continues (call call' : RegisterCall) : Prop where
  session : call'.session = call.session
  role : call'.role = call.role
  closed : call.isOpen = false → call'.isOpen = false

lemma call_of_step {a : Action} (h : TurnStep s a t) (hi : s.registers i = some call) :
    ∃ call', t.registers i = some call' ∧ Continues call call' := by
  have hset : ∀ {j c c'}, s.registers j = some c → Continues c c' →
      ∃ call', update s.registers j (some c') i = some call' ∧ Continues call call' := by
    intro j c c' hj hc
    by_cases hij : i = j
    · subst hij
      obtain rfl := Option.some.inj (hj.symm.trans hi)
      exact ⟨c', update_self _ _ _, hc⟩
    · exact ⟨call, (update_of_ne hij _ _).trans hi, rfl, rfl, id⟩
  cases h with
  | @register j req hj =>
    have hij : i ≠ j := by
      rintro rfl
      cases hj.symm.trans hi
    exact ⟨call, (update_of_ne hij _ _).trans hi, rfl, rfl, id⟩
  | fill hqueue hj => exact hset hj ⟨rfl, rfl, id⟩
  | reject hqueue hj => exact hset hj ⟨rfl, rfl, id⟩
  | arrive hj => exact hset hj ⟨rfl, rfl, id⟩
  | pass hj => exact hset hj ⟨rfl, rfl, id⟩
  | read hj => exact hset hj ⟨rfl, rfl, id⟩
  | dropReceiver hj => exact hset hj ⟨rfl, rfl, fun _ => rfl⟩
  | put hj hstate htx => exact hset htx ⟨rfl, rfl, id⟩
  | _ => exact ⟨call, hi, rfl, rfl, id⟩

lemma call_of_run {tr : List (TurnService × Action)} (hrun : Run step s tr t)
    (hi : s.registers i = some call) :
    ∃ call', t.registers i = some call' ∧ Continues call call' := by
  refine hrun.preserve (I := fun s => ∃ call', s.registers i = some call' ∧ Continues call call')
    ?_ ⟨call, hi, rfl, rfl, id⟩
  rintro s a t ⟨c, hc, hcall⟩ h
  obtain ⟨c', hc', hcall'⟩ := call_of_step (turnStep_of_eq_some h) hc
  exact ⟨c', hc', hcall'.session.trans hcall.session, hcall'.role.trans hcall.role,
    fun hclosed => hcall'.closed (hcall.closed hclosed)⟩

/-- A waiting call whose role is taken never gets a slot. -/
lemma refused_of_run {tr : List (TurnService × Action)} (hs : Registered s)
    (hrun : Run step s tr t) (hi : s.registers i = some call) (hlocking : call.state = .locking)
    (htaken : (s.sessionOf call.session).slot call.role = some k)
    (hi' : t.registers i = some call') : call'.state.holdsSlot = false := by
  obtain ⟨c, hc, hsession, hrole, -⟩ := call_of_run hrun hi
  obtain rfl := Option.some.inj (hi'.symm.trans hc)
  have ht : Registered t :=
    hrun.preserve (fun _ _ _ hs h => hs.step (turnStep_of_eq_some h)) hs
  rw [← Bool.not_eq_true]
  intro hholds
  -- the slot would be that of `i` and still that of the call which holds it in `s`
  have hslot := ht.occupied i call' hi' hholds
  rw [hsession, hrole, slot_of_run hrun htaken] at hslot
  obtain rfl := Option.some.inj hslot
  have hholds := hs.holdsSlot htaken hi
  rw [hlocking] at hholds
  cases hholds

/-- A call whose role is taken is refused when it has the lock. -/
lemma acquire_of_taken {queue : List Waiter} (hqueue : s.queue = .write i :: queue)
    (hi : s.registers i = some call) (hlocking : call.state = .locking)
    (htaken : (s.sessionOf call.session).slot call.role = some k) :
    s.step .acquire = if s.readers = [] then
      some { s.setRegister i { call with state := .returned (.error call.role.taken) } with queue }
    else none := by
  have hsome : ((s.sessionOf call.session).slot call.role).isSome = true := by
    rw [htaken]
    rfl
  have hadd : ((s.sessions call.session).getD .new).add i call.role = .error call.role.taken :=
    Session.add_of_taken hsome
  simp only [step, acquire, hqueue, hi, hlocking, fillSlot, hadd]
  rfl

/-- What registration keeps: one call of each role for a session, for good, nothing from a call
that comes too late, and both calls behind the barrier. -/
structure PairsUp (s : TurnService) : Prop where
  one : ∀ i j call call', s.registers i = some call → s.registers j = some call' →
    call.session = call'.session → call.role = call'.role → call.state.holdsSlot = true →
      call'.state.holdsSlot = true → i = j
  kept : ∀ id r i, (s.sessionOf id).slot r = some i →
    ∀ tr t, Run step s tr t → (t.sessionOf id).slot r = some i
  rejected : ∀ i call k queue t, s.registers i = some call → call.state = .locking →
    (s.sessionOf call.session).slot call.role = some k → s.queue = .write i :: queue →
      s.step .acquire = some t → t = { s.setRegister i
        { call with state := .returned (.error call.role.taken) } with queue }
  refused : ∀ i call k, s.registers i = some call → call.state = .locking →
    (s.sessionOf call.session).slot call.role = some k →
      ∀ tr t call', Run step s tr t → t.registers i = some call' → call'.state.holdsSlot = false
  released : ∀ i call, s.registers i = some call → call.state = .returned (.ok ()) →
    (s.sessionOf call.session).slot call.role = some i ∧
      ∃ j partner, (s.sessionOf call.session).slot call.role.other = some j ∧
        s.registers j = some partner ∧ partner.session = call.session ∧
        partner.role = call.role.other ∧ partner.state.Arrived ∧
        ∀ k c, s.registers k = some c → c.session = call.session → c.role = call.role.other →
          c.state.holdsSlot = true → k = j

/-- Registration admits one call of each role and releases the two together. -/
theorem register_pairs_up {tr : List (TurnService × Action)} (hrun : Run step default tr s) :
    PairsUp s := by
  have hs := registered_run hrun
  have hone : ∀ i j call call', s.registers i = some call → s.registers j = some call' →
      call.session = call'.session → call.role = call'.role → call.state.holdsSlot = true →
        call'.state.holdsSlot = true → i = j := by
    intro i j call call' hi hj hsession hrole hholds hholds'
    have hslot := hs.occupied i call hi hholds
    rw [hsession, hrole, hs.occupied j call' hj hholds'] at hslot
    exact (Option.some.inj hslot).symm
  refine ⟨hone, fun id r i hslot tr t ht => slot_of_run ht hslot, ?_, ?_, ?_⟩
  · intro i call k queue t hi hlocking htaken hqueue h
    rw [acquire_of_taken hqueue hi hlocking htaken] at h
    split_ifs at h
    exact (Option.some.inj h).symm
  · intro i call k hi hlocking htaken tr t call' ht hi'
    exact refused_of_run hs ht hi hlocking htaken hi'
  · intro i call hi hreturned
    have hpos := hs.returned i call hi hreturned
    obtain ⟨j, hj⟩ :=
      Option.isSome_iff_exists.mp (hs.released call.session hpos call.role.other)
    obtain ⟨partner, hpartner, hsession, hrole, hholds⟩ := hs.owner _ _ _ hj
    refine ⟨hs.occupied i call hi (by rw [hreturned]; rfl), j, partner, hj, hpartner, hsession,
      hrole, ⟨hholds, together_run hrun _ _ j partner hpos hj hpartner⟩, ?_⟩
    intro k c hk hksession hkrole hkholds
    exact hone k j c partner hk hpartner (hksession.trans hsession.symm)
      (hkrole.trans hrole.symm) hkholds hholds

/-- A seeder, a leecher and a second seeder of one session. -/
def threeCalls : List Action :=
  [.register 0 ⟨"ab", true⟩, .register 1 ⟨"ab", false⟩, .register 2 ⟨"ab", true⟩, .acquire,
    .acquire, .acquire, .arrive 1, .arrive 0, .pass 0]

theorem register_pairs_up_three :
    ∃ tr s call, Run step default tr s ∧ s.registers 0 = some call ∧
      call.state = .returned (.ok ()) ∧ PairsUp s := by
  obtain ⟨s, call, hs, hcall, hstate⟩ : ∃ s call, exec step default threeCalls = some s ∧
      s.registers 0 = some call ∧ call.state = .returned (.ok ()) := ⟨_, _, rfl, rfl, rfl⟩
  obtain ⟨tr, hrun, -⟩ := run_of_exec hs
  exact ⟨tr, s, call, hrun, hcall, hstate, register_pairs_up hrun⟩

end TurnService

end BearTorrent
