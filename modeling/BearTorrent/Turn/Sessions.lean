import BearTorrent.Lib.Transition
import BearTorrent.Turn.Steps

/-!
# Slots and barriers

A slot is filled once and keeps its call. The barrier releases the calls of a session only after
both slots are filled, so a session with a call that has returned its stream has both receivers.
-/

namespace BearTorrent

open Function

/-- Looking up in a function with one updated value. -/
lemma update_eq_some {ι α : Type} [DecidableEq ι] {f : ι → Option α} {i k : ι} {a b : α} :
    update f i (some a) k = some b ↔ k = i ∧ a = b ∨ k ≠ i ∧ f k = some b := by
  by_cases hk : k = i
  · subst hk
    simp
  · simp [hk]

namespace Session

variable {session session' : Session} {tx : RegisterId} {r : Role}

/-- A slot can only be filled when it is empty; the rest of the session stays as it is. -/
lemma of_add_eq_ok (h : session.add tx r = .ok session') :
    session.slot r = none ∧ session'.slot r = some tx ∧
      (∀ r', r' ≠ r → session'.slot r' = session.slot r') ∧
      session'.barrier = session.barrier := by
  cases r with
  | seeder =>
    simp only [add, addSeeder] at h
    split_ifs at h with hnone
    cases h
    refine ⟨Option.not_isSome_iff_eq_none.mp hnone, rfl, fun r' hr' => ?_, rfl⟩
    cases r' with
    | seeder => exact absurd rfl hr'
    | leecher => rfl
  | leecher =>
    simp only [add, addLeecher] at h
    split_ifs at h with hnone
    cases h
    refine ⟨Option.not_isSome_iff_eq_none.mp hnone, rfl, fun r' hr' => ?_, rfl⟩
    cases r' with
    | seeder => rfl
    | leecher => exact absurd rfl hr'

end Session

/-- The call has filled its slot. -/
def RegisterState.holdsSlot : RegisterState → Bool
  | .filled         => true
  | .atBarrier _    => true
  | .returned (.ok _) => true
  | _               => false

namespace TurnService

variable {s t : TurnService} {i : RegisterId} {call call' : RegisterCall} {id : String}

/-- A session, as it is before the first call when there is none. -/
def sessionOf (s : TurnService) (id : String) : Session := (s.sessions id).getD .new

lemma sessionOf_eq {session : Session} (h : s.sessions id = some session) :
    s.sessionOf id = session := by
  rw [sessionOf, h]
  rfl

lemma sessionOf_update {session : Session} {k : String}
    (h : t.sessions = update s.sessions id (some session)) :
    t.sessionOf k = if k = id then session else s.sessionOf k := by
  rw [sessionOf, h]
  split_ifs with hk
  · rw [hk, update_self]
    rfl
  · rw [update_of_ne hk]
    rfl

/-- The target of a packet in a session. -/
lemma target_eq_some {stream : SendCall} {pkt : TurnPacket} {tx : RegisterId}
    (h : (stream.session.bind s.sessions).bind (·.target pkt) = some tx) :
    ∃ id r, stream.session = some id ∧ pkt.receiver = some r ∧
      (s.sessionOf id).slot r = some tx := by
  obtain ⟨session, hsession, htarget⟩ := Option.bind_eq_some_iff.mp h
  obtain ⟨id, hid, hsession⟩ := Option.bind_eq_some_iff.mp hsession
  obtain ⟨r, hr, hslot⟩ := Option.bind_eq_some_iff.mp htarget
  exact ⟨id, r, hid, hr, by rw [sessionOf_eq hsession, hslot]⟩

/-- The slots are those of the calls that have filled them, and a barrier that has released calls
has both slots of its session filled. -/
structure Registered (s : TurnService) : Prop where
  occupied : ∀ i call, s.registers i = some call → call.state.holdsSlot = true →
    (s.sessionOf call.session).slot call.role = some i
  owner : ∀ id r i, (s.sessionOf id).slot r = some i →
    ∃ call, s.registers i = some call ∧ call.session = id ∧ call.role = r ∧
      call.state.holdsSlot = true
  arrived : ∀ id, 0 < (s.sessionOf id).barrier.arrived →
    ∃ r i call, (s.sessionOf id).slot r = some i ∧ s.registers i = some call ∧
      call.state ≠ .filled
  released : ∀ id, 0 < (s.sessionOf id).barrier.generation →
    ∀ r, ((s.sessionOf id).slot r).isSome = true
  returned : ∀ i call, s.registers i = some call → call.state = .returned (.ok ()) →
    0 < (s.sessionOf call.session).barrier.generation

lemma registered_default : Registered default := by
  constructor
  · intro i call hi
    cases hi
  · intro id r i hslot
    cases r <;> cases hslot
  · intro id harrived
    cases harrived
  · intro id hgeneration
    cases hgeneration
  · intro i call hi
    cases hi

/-- The call in a slot has filled it. -/
lemma Registered.holdsSlot (hs : Registered s) {r : Role}
    (hslot : (s.sessionOf id).slot r = some i) (hi : s.registers i = some call) :
    call.state.holdsSlot = true := by
  obtain ⟨c, hc, -, -, hholds⟩ := hs.owner id r i hslot
  rwa [Option.some.inj (hc.symm.trans hi)] at hholds

/-- The channel of a call does not matter. -/
lemma Registered.setRegister (hs : Registered s) (hi : s.registers i = some call)
    (hregisters : t.registers = update s.registers i (some call'))
    (hsessions : t.sessions = s.sessions) (hsession : call'.session = call.session)
    (hrole : call'.role = call.role) (hstate : call'.state = call.state) : Registered t := by
  have hof : ∀ id, t.sessionOf id = s.sessionOf id := fun id => by
    rw [sessionOf, sessionOf, hsessions]
  have hold : ∀ {k c}, s.registers k = some c → ∃ c', t.registers k = some c' ∧
      c'.session = c.session ∧ c'.role = c.role ∧ c'.state = c.state := by
    intro k c hk
    by_cases hki : k = i
    · subst hki
      obtain rfl := Option.some.inj (hk.symm.trans hi)
      exact ⟨call', by rw [hregisters, update_self], hsession, hrole, hstate⟩
    · exact ⟨c, by rw [hregisters, update_of_ne hki, hk], rfl, rfl, rfl⟩
  have hnew : ∀ {k c}, t.registers k = some c → ∃ c', s.registers k = some c' ∧
      c.session = c'.session ∧ c.role = c'.role ∧ c.state = c'.state := by
    intro k c hk
    rw [hregisters, update_eq_some] at hk
    rcases hk with ⟨rfl, rfl⟩ | ⟨-, hk⟩
    · exact ⟨call, hi, hsession, hrole, hstate⟩
    · exact ⟨c, hk, rfl, rfl, rfl⟩
  constructor
  · intro k c hk hslot
    obtain ⟨c', hk', h₁, h₂, h₃⟩ := hnew hk
    rw [hof, h₁, h₂]
    exact hs.occupied k c' hk' (h₃ ▸ hslot)
  · intro id r k hslot
    rw [hof] at hslot
    obtain ⟨c, hk, h₁, h₂, h₃⟩ := hs.owner id r k hslot
    obtain ⟨c', hk', h₁', h₂', h₃'⟩ := hold hk
    exact ⟨c', hk', h₁'.trans h₁, h₂'.trans h₂, by rw [h₃', h₃]⟩
  · intro id harrived
    rw [hof] at harrived ⊢
    obtain ⟨r, k, c, hslot, hk, hfilled⟩ := hs.arrived id harrived
    obtain ⟨c', hk', -, -, h₃⟩ := hold hk
    exact ⟨r, k, c', hslot, hk', h₃ ▸ hfilled⟩
  · intro id hgeneration
    rw [hof] at hgeneration ⊢
    exact hs.released id hgeneration
  · intro k c hk hreturned
    obtain ⟨c', hk', h₁, -, h₃⟩ := hnew hk
    rw [hof, h₁]
    exact hs.returned k c' hk' (h₃ ▸ hreturned)

/-- A call that fills no slot and is in none may change its state. -/
lemma Registered.setUnslotted (hs : Registered s)
    (hi : ∀ call, s.registers i = some call → call.state.holdsSlot = false)
    (hregisters : t.registers = update s.registers i (some call'))
    (hsessions : t.sessions = s.sessions) (hstate : call'.state.holdsSlot = false) :
    Registered t := by
  have hof : ∀ id, t.sessionOf id = s.sessionOf id := fun id => by
    rw [sessionOf, sessionOf, hsessions]
  have hne : ∀ {id r k}, (s.sessionOf id).slot r = some k → k ≠ i := by
    rintro id r k hslot rfl
    obtain ⟨c, hk, -, -, hholds⟩ := hs.owner id r k hslot
    rw [hi c hk] at hholds
    cases hholds
  constructor
  · intro k c hk hslot
    rw [hregisters, update_eq_some] at hk
    rcases hk with ⟨rfl, rfl⟩ | ⟨-, hk⟩
    · rw [hstate] at hslot
      cases hslot
    · rw [hof]
      exact hs.occupied k c hk hslot
  · intro id r k hslot
    rw [hof] at hslot
    rw [hregisters, update_of_ne (hne hslot)]
    exact hs.owner id r k hslot
  · intro id harrived
    rw [hof] at harrived ⊢
    obtain ⟨r, k, c, hslot, hk, hfilled⟩ := hs.arrived id harrived
    exact ⟨r, k, c, hslot, by rw [hregisters, update_of_ne (hne hslot), hk], hfilled⟩
  · intro id hgeneration
    rw [hof] at hgeneration ⊢
    exact hs.released id hgeneration
  · intro k c hk hreturned
    rw [hregisters, update_eq_some] at hk
    rcases hk with ⟨rfl, rfl⟩ | ⟨-, hk⟩
    · rw [hreturned] at hstate
      cases hstate
    · rw [hof]
      exact hs.returned k c hk hreturned

/-- Filling a slot. -/
lemma Registered.fill (hs : Registered s) {session : Session} (hi : s.registers i = some call)
    (hlocking : call.state = .locking)
    (hadd : (s.sessionOf call.session).add i call.role = .ok session)
    (hregisters : t.registers = update s.registers i (some { call with state := .filled }))
    (hsessions : t.sessions = update s.sessions call.session (some session)) : Registered t := by
  obtain ⟨hempty, hslot, hother, hbarrier⟩ := Session.of_add_eq_ok hadd
  have hof : ∀ id, t.sessionOf id = if id = call.session then session else s.sessionOf id :=
    fun id => sessionOf_update hsessions
  -- a slot that was filled keeps its call, which is not `i`
  have hkeep : ∀ {id r k}, (s.sessionOf id).slot r = some k →
      (t.sessionOf id).slot r = some k ∧ k ≠ i := by
    intro id r k hk
    constructor
    · rw [hof]
      split_ifs with hid
      · subst hid
        have hr : r ≠ call.role := by
          rintro rfl
          rw [hempty] at hk
          cases hk
        rw [hother r hr, hk]
      · exact hk
    · rintro rfl
      have hholds := hs.holdsSlot hk hi
      rw [hlocking] at hholds
      cases hholds
  have hbarriers : ∀ id, (t.sessionOf id).barrier = (s.sessionOf id).barrier := by
    intro id
    rw [hof]
    split_ifs with hid
    · rw [hid, hbarrier]
    · rfl
  constructor
  · intro k c hk hholds
    rw [hregisters, update_eq_some] at hk
    rcases hk with ⟨rfl, rfl⟩ | ⟨-, hk⟩
    · rw [hof, if_pos rfl, hslot]
    · exact (hkeep (hs.occupied k c hk hholds)).1
  · intro id r k hk
    rw [hof] at hk
    by_cases hnew : id = call.session ∧ r = call.role
    · obtain ⟨rfl, rfl⟩ := hnew
      rw [if_pos rfl, hslot] at hk
      obtain rfl := Option.some.inj hk
      exact ⟨{ call with state := .filled }, by rw [hregisters, update_self], rfl, rfl, rfl⟩
    · have hold : (s.sessionOf id).slot r = some k := by
        split_ifs at hk with hid
        · subst hid
          rw [← hother r fun hr => hnew ⟨rfl, hr⟩, hk]
        · exact hk
      rw [hregisters, update_of_ne (hkeep hold).2]
      exact hs.owner id r k hold
  · intro id harrived
    rw [hbarriers] at harrived
    obtain ⟨r, k, c, hk, hc, hfilled⟩ := hs.arrived id harrived
    exact ⟨r, k, c, (hkeep hk).1, by rw [hregisters, update_of_ne (hkeep hk).2, hc], hfilled⟩
  · intro id hgeneration r
    rw [hbarriers] at hgeneration
    obtain ⟨k, hk⟩ := Option.isSome_iff_exists.mp (hs.released id hgeneration r)
    rw [(hkeep hk).1]
    rfl
  · intro k c hk hreturned
    rw [hbarriers]
    rw [hregisters, update_eq_some] at hk
    rcases hk with ⟨rfl, rfl⟩ | ⟨-, hk⟩
    · cases hreturned
    · exact hs.returned k c hk hreturned

/-- Arriving at the barrier. The second call to arrive finds both slots filled. -/
lemma Registered.arrive (hs : Registered s) {session : Session}
    (hi : s.registers i = some call) (hfilled : call.state = .filled)
    (hsession : s.sessionOf call.session = session) {generation : ℕ}
    (hregisters : t.registers =
      update s.registers i (some { call with state := .atBarrier generation }))
    (hsessions : t.sessions = update s.sessions call.session
      (some { session with barrier := session.barrier.arrive })) : Registered t := by
  subst hsession
  have hof : ∀ id, t.sessionOf id = if id = call.session then
      { s.sessionOf call.session with barrier := (s.sessionOf call.session).barrier.arrive }
      else s.sessionOf id := fun id => sessionOf_update hsessions
  have hslots : ∀ id r, (t.sessionOf id).slot r = (s.sessionOf id).slot r := by
    intro id r
    rw [hof]
    split_ifs with hid
    · subst hid
      cases r <;> rfl
    · rfl
  have hi' : (s.sessionOf call.session).slot call.role = some i :=
    hs.occupied i call hi (by rw [hfilled]; rfl)
  have hlater : ∀ {k c}, s.registers k = some c → c.state ≠ .filled →
      t.registers k = some c := by
    intro k c hk hne
    rw [hregisters, update_of_ne, hk]
    rintro rfl
    rw [Option.some.inj (hk.symm.trans hi)] at hne
    exact hne hfilled
  constructor
  · intro k c hk hholds
    rw [hslots]
    rw [hregisters, update_eq_some] at hk
    rcases hk with ⟨rfl, rfl⟩ | ⟨-, hk⟩
    · exact hi'
    · exact hs.occupied k c hk hholds
  · intro id r k hk
    rw [hslots] at hk
    obtain ⟨c, hc, h₁, h₂, h₃⟩ := hs.owner id r k hk
    by_cases hki : k = i
    · subst hki
      obtain rfl := Option.some.inj (hc.symm.trans hi)
      exact ⟨{ c with state := .atBarrier generation }, by rw [hregisters, update_self], h₁, h₂,
        rfl⟩
    · exact ⟨c, by rw [hregisters, update_of_ne hki, hc], h₁, h₂, h₃⟩
  · intro id harrived
    by_cases hid : id = call.session
    · refine ⟨call.role, i, _, ?_, by rw [hregisters, update_self], by simp⟩
      rw [hslots, hid, hi']
    · rw [hof, if_neg hid] at harrived
      obtain ⟨r, k, c, hk, hc, hne⟩ := hs.arrived id harrived
      exact ⟨r, k, c, by rw [hslots, hk], hlater hc hne, hne⟩
  · intro id hgeneration r
    rw [hslots]
    by_cases hid : id = call.session
    · subst hid
      rw [hof, if_pos rfl] at hgeneration
      simp only [Barrier.arrive] at hgeneration
      split_ifs at hgeneration with htwo
      · obtain ⟨r', k, c, hk, hc, hne⟩ := hs.arrived call.session (by omega)
        -- the call that waits is in the other slot
        have hrole : r' ≠ call.role := by
          rintro rfl
          obtain rfl := Option.some.inj (hk.symm.trans hi')
          rw [Option.some.inj (hc.symm.trans hi)] at hne
          exact hne hfilled
        by_cases hr : r = call.role
        · rw [hr, hi']
          rfl
        · obtain rfl : r = r' := by
            cases r <;> cases r' <;> cases hcall : call.role <;> simp_all
          rw [hk]
          rfl
      · exact hs.released _ hgeneration r
    · rw [hof, if_neg hid] at hgeneration
      exact hs.released id hgeneration r
  · intro k c hk hreturned
    rw [hregisters, update_eq_some] at hk
    rcases hk with ⟨rfl, rfl⟩ | ⟨-, hk⟩
    · cases hreturned
    · have hpos := hs.returned k c hk hreturned
      rw [hof]
      split_ifs with hid
      · rw [hid] at hpos
        simp only [Barrier.arrive]
        split_ifs
        · exact Nat.succ_pos _
        · exact hpos
      · exact hpos

/-- Leaving the barrier. -/
lemma Registered.pass (hs : Registered s) (hi : s.registers i = some call) {generation : ℕ}
    (hstate : call.state = .atBarrier generation)
    (hlt : generation < (s.sessionOf call.session).barrier.generation)
    (hregisters : t.registers =
      update s.registers i (some { call with state := .returned (.ok ()) }))
    (hsessions : t.sessions = s.sessions) : Registered t := by
  have hof : ∀ id, t.sessionOf id = s.sessionOf id := fun id => by
    rw [sessionOf, sessionOf, hsessions]
  constructor
  · intro k c hk hholds
    rw [hof]
    rw [hregisters, update_eq_some] at hk
    rcases hk with ⟨rfl, rfl⟩ | ⟨-, hk⟩
    · exact hs.occupied k call hi (by rw [hstate]; rfl)
    · exact hs.occupied k c hk hholds
  · intro id r k hk
    rw [hof] at hk
    obtain ⟨c, hc, h₁, h₂, h₃⟩ := hs.owner id r k hk
    by_cases hki : k = i
    · subst hki
      obtain rfl := Option.some.inj (hc.symm.trans hi)
      exact ⟨{ c with state := .returned (.ok ()) }, by rw [hregisters, update_self], h₁, h₂,
        rfl⟩
    · exact ⟨c, by rw [hregisters, update_of_ne hki, hc], h₁, h₂, h₃⟩
  · intro id harrived
    rw [hof] at harrived ⊢
    obtain ⟨r, k, c, hk, hc, hne⟩ := hs.arrived id harrived
    by_cases hki : k = i
    · subst hki
      exact ⟨r, k, _, hk, by rw [hregisters, update_self], by simp⟩
    · exact ⟨r, k, c, hk, by rw [hregisters, update_of_ne hki, hc], hne⟩
  · intro id hgeneration
    rw [hof] at hgeneration ⊢
    exact hs.released id hgeneration
  · intro k c hk hreturned
    rw [hof]
    rw [hregisters, update_eq_some] at hk
    rcases hk with ⟨rfl, rfl⟩ | ⟨-, hk⟩
    · exact Nat.lt_of_le_of_lt (Nat.zero_le _) hlt
    · exact hs.returned k c hk hreturned

/-- Every step preserves the slots and barriers. -/
lemma Registered.step {a : Action} (hs : Registered s) (h : TurnStep s a t) : Registered t := by
  cases h with
  | register hi => exact hs.setUnslotted (fun c hc => by rw [hi] at hc; cases hc) rfl rfl rfl
  | fill hqueue hi hstate hreaders hadd => exact hs.fill hi hstate hadd rfl rfl
  | reject hqueue hi hstate =>
    refine hs.setUnslotted (fun c hc => ?_) rfl rfl rfl
    rw [Option.some.inj (hc.symm.trans hi), hstate]
    rfl
  | arrive hi hopen hstate hsession => exact hs.arrive hi hstate (sessionOf_eq hsession) rfl rfl
  | pass hi hopen hstate hsession hlt =>
    exact hs.pass hi hstate (by rwa [sessionOf_eq hsession]) rfl rfl
  | read hi => exact hs.setRegister hi rfl rfl rfl rfl rfl
  | dropReceiver hi => exact hs.setRegister hi rfl rfl rfl rfl rfl
  | put hj hstate htx => exact hs.setRegister htx rfl rfl rfl rfl rfl
  | _ => exact ⟨hs.occupied, hs.owner, hs.arrived, hs.released, hs.returned⟩

/-- A filled slot is never replaced. -/
lemma slot_of_step {a : Action} (h : TurnStep s a t) {r : Role} {k : RegisterId}
    (hslot : (s.sessionOf id).slot r = some k) : (t.sessionOf id).slot r = some k := by
  cases h with
  | @fill _ call _ session hqueue hi hstate hreaders hadd =>
    obtain ⟨hempty, -, hother, -⟩ := Session.of_add_eq_ok hadd
    rw [sessionOf_update rfl]
    split_ifs with hid
    · subst hid
      rw [hother r fun hr => ?_]
      · exact hslot
      · subst hr
        cases hslot.symm.trans hempty
    · exact hslot
  | @arrive _ call session hi hopen hstate hsession =>
    rw [sessionOf_update rfl]
    split_ifs with hid
    · subst hid
      rw [sessionOf_eq hsession] at hslot
      cases r <;> exact hslot
    · exact hslot
  | _ => exact hslot

/-- A barrier that has released calls stays so. -/
lemma generation_pos_of_step {a : Action} (h : TurnStep s a t)
    (hpos : 0 < (s.sessionOf id).barrier.generation) :
    0 < (t.sessionOf id).barrier.generation := by
  cases h with
  | @fill _ call _ session hqueue hi hstate hreaders hadd =>
    obtain ⟨-, -, -, hbarrier⟩ := Session.of_add_eq_ok hadd
    rw [sessionOf_update rfl]
    split_ifs with hid
    · subst hid
      rw [hbarrier]
      exact hpos
    · exact hpos
  | @arrive _ call session hi hopen hstate hsession =>
    rw [sessionOf_update rfl]
    split_ifs with hid
    · subst hid
      rw [sessionOf_eq hsession] at hpos
      simp only [Barrier.arrive]
      split_ifs
      · exact Nat.succ_pos _
      · exact hpos
    · exact hpos
  | _ => exact hpos

end TurnService

end BearTorrent
