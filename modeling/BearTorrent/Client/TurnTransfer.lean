import BearTorrent.Client.SeederLoop
import BearTorrent.Turn.Line
import BearTorrent.Turn.Quiescence

/-!
# A transfer over TURN

The relay with the two loops of one session at its ends, and with all the other clients that use
it. The two parties make their calls as `start_leeching` and `start_seeding` do: they register, open
their stream when that has returned, and keep to what they put into their outbound channels.
-/

namespace BearTorrent

open Transition

/-- The request with which a party registers. -/
def registerRequest (id : String) : Role → RegisterRequest
  | .seeder  => ⟨id, true⟩
  | .leecher => ⟨id, false⟩

/-- What a client says when a call of `register` fails. -/
def Failure.text : Failure → String
  | .status _ message => message
  | .panic            => "panic"

/-- What a loop learns from its client of the relay. -/
inductive Signal where
  | registered (result : Except String Unit)
  | arrives (pkt : TurnPacket)
  | outboundTaken

def Signal.leecher : Signal → LeecherLoop.Action
  | .registered result => .register result
  | .arrives pkt       => .packetArrives (.ok pkt)
  | .outboundTaken     => .outboundTaken

def Signal.seeder : Signal → SeederLoop.Action
  | .registered result => .register result
  | .arrives pkt       => .packetArrives (.ok pkt)
  | .outboundTaken     => .outboundTaken

/-- The actions that a loop, or what it is connected to at its side, takes without the relay. -/
def LeecherLoop.Action.isOwn : LeecherLoop.Action → Bool
  | .register (.ok _) | .packetArrives (.ok _) | .outboundTaken => false
  | _                                                           => true

def SeederLoop.Action.isOwn : SeederLoop.Action → Bool
  | .register (.ok _) | .packetArrives (.ok _) | .outboundTaken => false
  | _                                                           => true

/-- The actions that the service and other clients take: they use other sessions. -/
def TurnService.Action.isForeign (id : String) : TurnService.Action → Bool
  | .register k req  => 2 ≤ k ∧ req.sessionId ≠ id
  | .read k          => 2 ≤ k
  | .openStream m md => 2 ≤ m ∧ md "x-session-id" ≠ some id
  | .submit m _      => 2 ≤ m
  | _                => true

/-- The relay and the loops of a session. -/
structure TurnTransfer where
  relay : TurnService
  leecher : LeecherLoop
  seeder : SeederLoop

namespace TurnTransfer

def init (id : String) (fileMap : FileMap) (σ : Store) : TurnTransfer :=
  ⟨.default, .init id, .init id fileMap σ⟩

inductive Action where
  /-- the service works for its calls, or another client calls it -/
  | relay (a : TurnService.Action)
  | leecher (a : LeecherLoop.Action)
  | seeder (a : SeederLoop.Action)
  /-- a party calls `register` -/
  | register (r : Role)
  /-- the call of `register` returns -/
  | registered (r : Role)
  /-- a party opens its stream -/
  | openStream (r : Role)
  /-- the stream takes a packet out of the outbound channel -/
  | submit (r : Role)
  /-- a packet for the party comes in -/
  | read (r : Role)

variable (env : Env) (id : String)

/-- The party has not registered yet. -/
def registering (s : TurnTransfer) : Role → Bool
  | .seeder  => s.seeder.place = .registering
  | .leecher => s.leecher.place = .registering

/-- The party has registered. -/
def inLoop (s : TurnTransfer) : Role → Bool
  | .seeder  => s.seeder.place.isRegistered
  | .leecher => s.leecher.place.isRegistered

/-- The next packet that leaves the outbound channel of a party. -/
def outgoing (s : TurnTransfer) : Role → Option TurnPacket
  | .seeder  => if s.seeder.outboundClosed then none else s.seeder.outbound.queue.head?
  | .leecher => if s.leecher.outboundClosed then none else s.leecher.outbound.queue.head?

/-- The result of a party's call of `register`, once it has returned. -/
def registration (s : TurnTransfer) (r : Role) : Option (Except String Unit) :=
  match s.relay.registers r.number with
  | some call =>
    match call.state with
    | .returned (.ok ())         => some (.ok ())
    | .returned (.error failure) => some (.error failure.text)
    | _                          => none
  | none => none

def signal (s : TurnTransfer) (x : Signal) : Role → Option TurnTransfer
  | .seeder  => (s.seeder.step env x.seeder).map fun seeder => { s with seeder }
  | .leecher => (s.leecher.step x.leecher).map fun leecher => { s with leecher }

def serve (s : TurnTransfer) (a : TurnService.Action) : Option TurnTransfer :=
  (s.relay.step a).map fun relay => { s with relay }

def step (s : TurnTransfer) : Action → Option TurnTransfer
  | .relay a      => if a.isForeign id then s.serve a else none
  | .leecher a    =>
    if a.isOwn then (s.leecher.step a).map fun leecher => { s with leecher } else none
  | .seeder a     =>
    if a.isOwn then (s.seeder.step env a).map fun seeder => { s with seeder } else none
  | .register r   =>
    if s.registering r then s.serve (.register r.number (registerRequest id r)) else none
  | .registered r => (s.registration r).bind fun result => s.signal env (.registered result) r
  | .openStream r =>
    if s.inLoop r then s.serve (.openStream r.number (partyHeaders id r)) else none
  | .submit r     =>
    (s.outgoing r).bind fun pkt =>
      (s.serve (.submit r.number pkt)).bind fun s => s.signal env .outboundTaken r
  | .read r       =>
    (s.relay.channelOf r.number).head?.bind fun pkt =>
      (s.serve (.read r.number)).bind fun s => s.signal env (.arrives pkt) r

/-! ### What a step can do -/

/-- The steps, with their guards. -/
inductive TransferStep (s : TurnTransfer) : Action → TurnTransfer → Prop
  | relay {a : TurnService.Action} {relay : TurnService} (hforeign : a.isForeign id = true)
      (h : s.relay.step a = some relay) : TransferStep s (.relay a) { s with relay }
  | leecher {a : LeecherLoop.Action} {leecher : LeecherLoop} (hown : a.isOwn = true)
      (h : s.leecher.step a = some leecher) : TransferStep s (.leecher a) { s with leecher }
  | seeder {a : SeederLoop.Action} {seeder : SeederLoop} (hown : a.isOwn = true)
      (h : s.seeder.step env a = some seeder) : TransferStep s (.seeder a) { s with seeder }
  | register {r : Role} {relay : TurnService} (hplace : s.registering r = true)
      (h : s.relay.step (.register r.number (registerRequest id r)) = some relay) :
      TransferStep s (.register r) { s with relay }
  | registered {r : Role} {result : Except String Unit} {t : TurnTransfer}
      (hresult : s.registration r = some result)
      (h : s.signal env (.registered result) r = some t) : TransferStep s (.registered r) t
  | openStream {r : Role} {relay : TurnService} (hloop : s.inLoop r = true)
      (h : s.relay.step (.openStream r.number (partyHeaders id r)) = some relay) :
      TransferStep s (.openStream r) { s with relay }
  | submit {r : Role} {pkt : TurnPacket} {relay : TurnService} {t : TurnTransfer}
      (hpkt : s.outgoing r = some pkt) (h : s.relay.step (.submit r.number pkt) = some relay)
      (hsignal : ({ s with relay } : TurnTransfer).signal env .outboundTaken r = some t) :
      TransferStep s (.submit r) t
  | read {r : Role} {pkt : TurnPacket} {relay : TurnService} {t : TurnTransfer}
      (hpkt : (s.relay.channelOf r.number).head? = some pkt)
      (h : s.relay.step (.read r.number) = some relay)
      (hsignal : ({ s with relay } : TurnTransfer).signal env (.arrives pkt) r = some t) :
      TransferStep s (.read r) t

variable {env id} {s t : TurnTransfer} {a : Action} {r : Role} {fileMap : FileMap} {σ : Store}
  {tr : List (TurnTransfer × Action)}

lemma transferStep_of_eq_some (h : s.step env id a = some t) : TransferStep env id s a t := by
  cases a with
  | relay a =>
    simp only [step, serve] at h
    split_ifs at h with hforeign
    obtain ⟨relay, hrelay, rfl⟩ := Option.map_eq_some_iff.mp h
    exact .relay hforeign hrelay
  | leecher a =>
    simp only [step] at h
    split_ifs at h with hown
    obtain ⟨leecher, hleecher, rfl⟩ := Option.map_eq_some_iff.mp h
    exact .leecher hown hleecher
  | seeder a =>
    simp only [step] at h
    split_ifs at h with hown
    obtain ⟨seeder, hseeder, rfl⟩ := Option.map_eq_some_iff.mp h
    exact .seeder hown hseeder
  | register r =>
    simp only [step, serve] at h
    split_ifs at h with hplace
    obtain ⟨relay, hrelay, rfl⟩ := Option.map_eq_some_iff.mp h
    exact .register hplace hrelay
  | registered r =>
    obtain ⟨result, hresult, hsignal⟩ := Option.bind_eq_some_iff.mp h
    exact .registered hresult hsignal
  | openStream r =>
    simp only [step, serve] at h
    split_ifs at h with hloop
    obtain ⟨relay, hrelay, rfl⟩ := Option.map_eq_some_iff.mp h
    exact .openStream hloop hrelay
  | submit r =>
    obtain ⟨pkt, hpkt, h⟩ := Option.bind_eq_some_iff.mp h
    obtain ⟨u, hu, hsignal⟩ := Option.bind_eq_some_iff.mp h
    obtain ⟨relay, hrelay, rfl⟩ := Option.map_eq_some_iff.mp hu
    exact .submit hpkt hrelay hsignal
  | read r =>
    obtain ⟨pkt, hpkt, h⟩ := Option.bind_eq_some_iff.mp h
    obtain ⟨u, hu, hsignal⟩ := Option.bind_eq_some_iff.mp h
    obtain ⟨relay, hrelay, rfl⟩ := Option.map_eq_some_iff.mp hu
    exact .read hpkt hrelay hsignal

/-- A signal moves the loop that it is for. -/
lemma signal_eq_some {x : Signal} (h : s.signal env x r = some t) :
    t.relay = s.relay ∧
      (r = .seeder → s.seeder.step env x.seeder = some t.seeder ∧ t.leecher = s.leecher) ∧
      (r = .leecher → s.leecher.step x.leecher = some t.leecher ∧ t.seeder = s.seeder) := by
  cases r with
  | seeder =>
    obtain ⟨seeder, hseeder, rfl⟩ := Option.map_eq_some_iff.mp h
    exact ⟨rfl, fun _ => ⟨hseeder, rfl⟩, fun h => by cases h⟩
  | leecher =>
    obtain ⟨leecher, hleecher, rfl⟩ := Option.map_eq_some_iff.mp h
    exact ⟨rfl, fun h => (by cases h), fun _ => ⟨hleecher, rfl⟩⟩

/-! ### The parts of a run -/

/-- What a step is for the relay. -/
def relayEvents (id : String) (p : TurnTransfer × Action) : List (TurnService × TurnService.Action) :=
  match p.2 with
  | .relay a      => [(p.1.relay, a)]
  | .register r   => [(p.1.relay, .register r.number (registerRequest id r))]
  | .openStream r => [(p.1.relay, .openStream r.number (partyHeaders id r))]
  | .submit r     => (p.1.outgoing r).toList.map fun pkt => (p.1.relay, .submit r.number pkt)
  | .read r       => [(p.1.relay, .read r.number)]
  | _             => []

/-- What a party learns in a step. -/
def signals (r : Role) (p : TurnTransfer × Action) : List Signal :=
  match p.2 with
  | .registered r' => if r' = r then (p.1.registration r).toList.map .registered else []
  | .submit r'     => if r' = r then [.outboundTaken] else []
  | .read r'       =>
    if r' = r then (p.1.relay.channelOf r.number).head?.toList.map .arrives else []
  | _              => []

/-- What a step is for the leecher. -/
def leecherEvents (p : TurnTransfer × Action) : List (LeecherLoop × LeecherLoop.Action) :=
  match p.2 with
  | .leecher a => [(p.1.leecher, a)]
  | _          => (signals .leecher p).map fun x => (p.1.leecher, x.leecher)

/-- What a step is for the seeder. -/
def seederEvents (p : TurnTransfer × Action) : List (SeederLoop × SeederLoop.Action) :=
  match p.2 with
  | .seeder a => [(p.1.seeder, a)]
  | _         => (signals .seeder p).map fun x => (p.1.seeder, x.seeder)

lemma relay_project (h : TransferStep env id s a t) :
    Run TurnService.step s.relay (relayEvents id (s, a)) t.relay := by
  cases h with
  | relay _ h | register _ h | openStream _ h => exact .single h
  | leecher | seeder => exact .nil _
  | registered _ h => exact (signal_eq_some h).1 ▸ .nil _
  | submit hpkt h hsignal =>
    rw [(signal_eq_some hsignal).1]
    simp only [relayEvents, hpkt]
    exact .single h
  | read hpkt h hsignal =>
    rw [(signal_eq_some hsignal).1]
    exact .single h

/-- The signals of a step go to one party. -/
lemma signals_registered {result : Except String Unit} (hresult : s.registration r = some result)
    (r' : Role) :
    signals r' (s, .registered r) = if r = r' then [.registered result] else [] := by
  by_cases hr : r = r'
  · subst hr
    simp [signals, hresult]
  · simp [signals, hr]

lemma signals_read {pkt : TurnPacket} (hpkt : (s.relay.channelOf r.number).head? = some pkt)
    (r' : Role) : signals r' (s, .read r) = if r = r' then [.arrives pkt] else [] := by
  by_cases hr : r = r'
  · subst hr
    simp [signals, hpkt]
  · simp [signals, hr]

lemma leecher_signal {u : TurnTransfer} {x : Signal} (h : u.signal env x r = some t) :
    Run LeecherLoop.step u.leecher
      ((if r = .leecher then [x] else []).map fun x => (u.leecher, x.leecher)) t.leecher := by
  cases r with
  | seeder => exact ((signal_eq_some h).2.1 rfl).2 ▸ .nil _
  | leecher => exact .single ((signal_eq_some h).2.2 rfl).1

lemma seeder_signal {u : TurnTransfer} {x : Signal} (h : u.signal env x r = some t) :
    Run (SeederLoop.step env) u.seeder
      ((if r = .seeder then [x] else []).map fun x => (u.seeder, x.seeder)) t.seeder := by
  cases r with
  | seeder => exact .single ((signal_eq_some h).2.1 rfl).1
  | leecher => exact ((signal_eq_some h).2.2 rfl).2 ▸ .nil _

lemma leecher_project (h : TransferStep env id s a t) :
    Run LeecherLoop.step s.leecher (leecherEvents (s, a)) t.leecher := by
  cases h with
  | relay | seeder | register | openStream => exact .nil _
  | leecher _ h => exact .single h
  | registered hresult h =>
    rw [leecherEvents, signals_registered hresult]
    exact leecher_signal h
  | submit _ _ hsignal =>
    have hrun := leecher_signal hsignal
    exact hrun
  | read hpkt _ hsignal =>
    rw [leecherEvents, signals_read hpkt]
    have hrun := leecher_signal hsignal
    exact hrun

lemma seeder_project (h : TransferStep env id s a t) :
    Run (SeederLoop.step env) s.seeder (seederEvents (s, a)) t.seeder := by
  cases h with
  | relay | leecher | register | openStream => exact .nil _
  | seeder _ h => exact .single h
  | registered hresult h =>
    rw [seederEvents, signals_registered hresult]
    exact seeder_signal h
  | submit _ _ hsignal =>
    have hrun := seeder_signal hsignal
    exact hrun
  | read hpkt _ hsignal =>
    rw [seederEvents, signals_read hpkt]
    have hrun := seeder_signal hsignal
    exact hrun

/-- A run is one of the relay and one of each loop. -/
lemma relay_run (hrun : Run (step env id) (init id fileMap σ) tr s) :
    Run TurnService.step .default (tr.flatMap (relayEvents id)) s.relay :=
  hrun.project fun _ _ _ h => relay_project (transferStep_of_eq_some h)

lemma leecher_run (hrun : Run (step env id) (init id fileMap σ) tr s) :
    Run LeecherLoop.step (.init id) (tr.flatMap leecherEvents) s.leecher :=
  hrun.project fun _ _ _ h => leecher_project (transferStep_of_eq_some h)

lemma seeder_run (hrun : Run (step env id) (init id fileMap σ) tr s) :
    Run (SeederLoop.step env) (.init id fileMap σ) (tr.flatMap seederEvents) s.seeder :=
  hrun.project fun _ _ _ h => seeder_project (transferStep_of_eq_some h)

/-! ### The session is private -/

/-- The signal of an event, when the step is none of the loop itself. -/
lemma mem_leecherEvents (h : TransferStep env id s a t)
    {q : LeecherLoop × LeecherLoop.Action} (hq : q ∈ leecherEvents (s, a)) :
    q.1 = s.leecher ∧ (q.2.isOwn = true ∨ ∃ x ∈ signals .leecher (s, a), q.2 = x.leecher) := by
  cases h with
  | leecher hown =>
    obtain rfl := List.mem_singleton.mp hq
    exact ⟨rfl, .inl hown⟩
  | _ =>
    obtain ⟨x, hx, rfl⟩ := List.mem_map.mp hq
    exact ⟨rfl, .inr ⟨x, hx, rfl⟩⟩

lemma mem_seederEvents (h : TransferStep env id s a t)
    {q : SeederLoop × SeederLoop.Action} (hq : q ∈ seederEvents (s, a)) :
    q.1 = s.seeder ∧ (q.2.isOwn = true ∨ ∃ x ∈ signals .seeder (s, a), q.2 = x.seeder) := by
  cases h with
  | seeder hown =>
    obtain rfl := List.mem_singleton.mp hq
    exact ⟨rfl, .inl hown⟩
  | _ =>
    obtain ⟨x, hx, rfl⟩ := List.mem_map.mp hq
    exact ⟨rfl, .inr ⟨x, hx, rfl⟩⟩

/-- What a party is told. -/
lemma mem_signals (h : TransferStep env id s a t) {x : Signal} (hx : x ∈ signals r (s, a)) :
    (∃ result, x = .registered result ∧ s.registration r = some result) ∨
      (∃ pkt, x = .arrives pkt ∧ a = .read r) ∨
      (x = .outboundTaken ∧ a = .submit r ∧ ∃ pkt, s.outgoing r = some pkt) := by
  cases h with
  | relay | leecher | seeder | register | openStream => cases hx
  | @registered r' result _ hresult =>
    rw [signals_registered hresult] at hx
    split_ifs at hx with hr
    · obtain rfl := List.mem_singleton.mp hx
      exact .inl ⟨result, rfl, hr ▸ hresult⟩
    · cases hx
  | @submit r' pkt _ _ hpkt =>
    simp only [signals] at hx
    split_ifs at hx with hr
    · obtain rfl := List.mem_singleton.mp hx
      subst hr
      exact .inr (.inr ⟨rfl, rfl, pkt, hpkt⟩)
    · cases hx
  | @read r' pkt _ _ hpkt =>
    rw [signals_read hpkt] at hx
    split_ifs at hx with hr
    · obtain rfl := List.mem_singleton.mp hx
      subst hr
      exact .inr (.inl ⟨pkt, rfl, rfl⟩)
    · cases hx

/-- A loop is in its place once the registration has returned. -/
lemma inLoop_of_step (h : TransferStep env id s a t) (hloop : t.inLoop r = true) :
    s.inLoop r = true ∨ s.registration r = some (.ok ()) := by
  cases r with
  | leecher =>
    obtain hs | ⟨q, hq, hreg⟩ := LeecherLoop.isRegistered_run (leecher_project h) hloop
    · exact .inl hs
    · obtain ⟨-, hown | ⟨x, hx, hqx⟩⟩ := mem_leecherEvents h hq
      · rw [hreg] at hown
        cases hown
      · rw [hreg] at hqx
        obtain ⟨result, rfl, hresult⟩ | ⟨pkt, rfl, -⟩ | ⟨rfl, -⟩ := mem_signals h hx
        · cases hqx
          exact .inr hresult
        · cases hqx
        · cases hqx
  | seeder =>
    obtain hs | ⟨q, hq, hreg⟩ := SeederLoop.isRegistered_run (seeder_project h) hloop
    · exact .inl hs
    · obtain ⟨-, hown | ⟨x, hx, hqx⟩⟩ := mem_seederEvents h hq
      · rw [hreg] at hown
        cases hown
      · rw [hreg] at hqx
        obtain ⟨result, rfl, hresult⟩ | ⟨pkt, rfl, -⟩ | ⟨rfl, -⟩ := mem_signals h hx
        · cases hqx
          exact .inr hresult
        · cases hqx
        · cases hqx

lemma outgoing_eq_some {pkt : TurnPacket} (hpkt : s.outgoing r = some pkt) :
    (r = .leecher → s.leecher.outboundClosed = false ∧
        s.leecher.outbound.queue.head? = some pkt) ∧
      (r = .seeder → s.seeder.outboundClosed = false ∧
        s.seeder.outbound.queue.head? = some pkt) := by
  cases r with
  | leecher =>
    simp only [outgoing] at hpkt
    split_ifs at hpkt with hclosed
    exact ⟨fun _ => ⟨Bool.eq_false_iff.mpr hclosed, hpkt⟩, fun h => by cases h⟩
  | seeder =>
    simp only [outgoing] at hpkt
    split_ifs at hpkt with hclosed
    exact ⟨fun h => (by cases h), fun _ => ⟨Bool.eq_false_iff.mpr hclosed, hpkt⟩⟩

/-- The packets of a loop are taken out of its channel while the stream is there. -/
lemma leecher_takes (hrun : Run (step env id) (init id fileMap σ) tr s) :
    ∀ q ∈ tr.flatMap leecherEvents, LeecherLoop.TakesFromOpen q.1 q.2 := by
  intro q hq
  obtain ⟨p, hp, hq⟩ := List.mem_flatMap.mp hq
  obtain ⟨-, u, -, hstep⟩ := hrun.step_of_mem hp
  have h := transferStep_of_eq_some hstep
  obtain ⟨h₁, hown | ⟨x, hx, hqx⟩⟩ := mem_leecherEvents h hq
  · cases hq₂ : q.2 with
    | outboundTaken =>
      rw [hq₂] at hown
      cases hown
    | _ => trivial
  · obtain ⟨result, rfl, -⟩ | ⟨pkt, rfl, -⟩ | ⟨rfl, -, pkt, hpkt⟩ := mem_signals h hx
    · rw [hqx]
      trivial
    · rw [hqx]
      trivial
    · rw [hqx, h₁]
      exact ((outgoing_eq_some hpkt).1 rfl).1

lemma seeder_takes (hrun : Run (step env id) (init id fileMap σ) tr s) :
    ∀ q ∈ tr.flatMap seederEvents, SeederLoop.TakesFromOpen q.1 q.2 := by
  intro q hq
  obtain ⟨p, hp, hq⟩ := List.mem_flatMap.mp hq
  obtain ⟨-, u, -, hstep⟩ := hrun.step_of_mem hp
  have h := transferStep_of_eq_some hstep
  obtain ⟨h₁, hown | ⟨x, hx, hqx⟩⟩ := mem_seederEvents h hq
  · cases hq₂ : q.2 with
    | outboundTaken =>
      rw [hq₂] at hown
      cases hown
    | _ => trivial
  · obtain ⟨result, rfl, -⟩ | ⟨pkt, rfl, -⟩ | ⟨rfl, -, pkt, hpkt⟩ := mem_signals h hx
    · rw [hqx]
      trivial
    · rw [hqx]
      trivial
    · rw [hqx, h₁]
      exact ((outgoing_eq_some hpkt).2 rfl).1

/-- A party sends what is for the other one. -/
lemma outgoing_receiver (hrun : Run (step env id) (init id fileMap σ) tr s) {pkt : TurnPacket}
    (hpkt : s.outgoing r = some pkt) : pkt.receiver = some r.other := by
  cases r with
  | leecher =>
    obtain ⟨hopen, hhead⟩ := (outgoing_eq_some hpkt).1 rfl
    obtain ⟨rest, heq, hrest⟩ := LeecherLoop.requests_in_order (leecher_run hrun)
      (leecher_takes hrun)
    rw [hrest hopen] at heq
    have hmem : pkt ∈ (tr.flatMap leecherEvents).flatMap LeecherLoop.queuedRequests := by
      rw [heq]
      exact List.mem_append_right _ (List.mem_append_left _ (List.mem_of_head? hhead))
    obtain ⟨q, -, hq⟩ := List.mem_flatMap.mp hmem
    exact LeecherLoop.receiver_of_queued hq
  | seeder =>
    obtain ⟨hopen, hhead⟩ := (outgoing_eq_some hpkt).2 rfl
    obtain ⟨rest, heq, hrest⟩ := SeederLoop.replies_in_order (seeder_run hrun) (seeder_takes hrun)
    rw [hrest hopen] at heq
    have hmem : pkt ∈ (tr.flatMap seederEvents).flatMap (SeederLoop.madeReplies env) := by
      have hnil : (SeederLoop.init id fileMap σ).pendingReplies = [] := rfl
      rw [hnil, List.nil_append] at heq
      rw [heq]
      exact List.mem_append_right _ (List.mem_append_left _ (List.mem_of_head? hhead))
    obtain ⟨q, -, hq⟩ := List.mem_flatMap.mp hmem
    exact SeederLoop.receiver_of_made hq

lemma sendSession_partyHeaders (r : Role) : sendSession (partyHeaders id r) = .ok id := by
  cases r <;> rfl

lemma registerRequest_private (r : Role) :
    (registerRequest id r).sessionId = id ∧
      r.number = (RegisterCall.new (registerRequest id r)).role.number := by
  cases r <;> exact ⟨rfl, rfl⟩

/-- The party's call of `register` has returned its stream. -/
def HasReturned (id : String) (s : TurnTransfer) (r : Role) : Prop :=
  ∃ call, s.relay.registers r.number = some call ∧ call.session = id ∧
    call.state = .returned (.ok ())

/-- What the relay is asked for leaves the session private. -/
lemma allowed_of_step (hrun : Run (step env id) (init id fileMap σ) tr s)
    (hreturned : ∀ r, s.inLoop r = true → s.HasReturned id r)
    (h : TransferStep env id s a t) :
    ∀ q ∈ relayEvents id (s, a), TurnService.Allowed id q.1 q.2 := by
  intro q hq
  cases h with
  | @relay a _ hforeign =>
    obtain rfl := List.mem_singleton.mp hq
    cases a with
    | register k req =>
      simp only [TurnService.Action.isForeign, decide_eq_true_eq] at hforeign
      exact .inr hforeign.symm
    | openStream m md =>
      simp only [TurnService.Action.isForeign, decide_eq_true_eq] at hforeign
      exact .inr hforeign
    | submit m pkt =>
      simp only [TurnService.Action.isForeign, decide_eq_true_eq] at hforeign
      exact .inr hforeign
    | _ => trivial
  | leecher | seeder | registered => cases hq
  | register =>
    obtain rfl := List.mem_singleton.mp hq
    exact .inl (registerRequest_private _)
  | openStream hloop =>
    obtain rfl := List.mem_singleton.mp hq
    refine .inl ⟨Role.number_lt _, sendSession_partyHeaders _, fun id' hid' => ?_⟩
    obtain rfl : id = id' := Option.some.inj hid'
    obtain ⟨call, hcall, hsession, hstate⟩ := hreturned _ hloop
    exact ⟨_, call, hcall, hsession, hstate⟩
  | @submit r pkt _ _ hpkt =>
    simp only [relayEvents, hpkt, Option.toList_some, List.map_cons, List.map_nil] at hq
    obtain rfl := List.mem_singleton.mp hq
    exact .inl ⟨r, rfl, outgoing_receiver hrun hpkt⟩
  | read =>
    obtain rfl := List.mem_singleton.mp hq
    trivial

/-- The result of the registration is that of the party's call. -/
lemma returned_of_registration (h : s.registration r = some (.ok ())) :
    ∃ call, s.relay.registers r.number = some call ∧ call.state = .returned (.ok ()) := by
  unfold registration at h
  split at h
  · rename_i call hcall
    split at h
    · exact ⟨call, hcall, ‹_›⟩
    · cases h
    · cases h
  · cases h

/-- In every run the session stays private, and a party in its loop has its stream. -/
lemma allowed_run (hrun : Run (step env id) (init id fileMap σ) tr s) :
    (∀ q ∈ tr.flatMap (relayEvents id), TurnService.Allowed id q.1 q.2) ∧
      ∀ r, s.inLoop r = true → s.HasReturned id r := by
  generalize hinit : init id fileMap σ = s₀ at hrun
  induction hrun with
  | nil =>
    subst hinit
    refine ⟨by simp, fun r hr => ?_⟩
    cases r <;> cases hr
  | @snoc t u tr a hrun ha ih =>
    subst hinit
    have h := transferStep_of_eq_some ha
    obtain ⟨hallowed, hreturned⟩ := ih
    refine ⟨fun q hq => ?_, fun r hr => ?_⟩
    · rw [List.flatMap_append, List.flatMap_singleton] at hq
      rcases List.mem_append.mp hq with hq | hq
      · exact hallowed q hq
      · exact allowed_of_step hrun hreturned h q hq
    · have hnow : t.HasReturned id r := by
        obtain hr | hr := inLoop_of_step h hr
        · exact hreturned r hr
        · obtain ⟨call, hcall, hstate⟩ := returned_of_registration hr
          obtain ⟨hsession, -⟩ | ⟨-, hle⟩ :=
            (TurnService.private_run (relay_run hrun) hallowed).calls _ _ hcall
          · exact ⟨call, hcall, hsession, hstate⟩
          · exact absurd hle (Nat.not_le.mpr r.number_lt)
      refine (relay_project h).preserve (I := fun s => ∃ call : RegisterCall,
        TurnService.registers s r.number = some call ∧ call.session = id ∧
          call.state = .returned (.ok ())) ?_ hnow
      rintro s b v ⟨call, hcall, hsession, hstate⟩ hb
      obtain ⟨c, hc, hc', hstate'⟩ :=
        TurnService.returned_of_step (TurnService.turnStep_of_eq_some hb) hcall hstate
      exact ⟨c, hc, hc'.trans hsession, hstate'⟩

/-! ### What a step hands over -/

/-- The packet that leaves the outbound channel of a party. -/
def sentBy (r : Role) (p : TurnTransfer × Action) : List TurnPacket :=
  match p.2 with
  | .submit r' => if r' = r then (p.1.outgoing r).toList else []
  | _          => []

/-- The packet that comes in for a party. -/
def receivedBy (r : Role) (p : TurnTransfer × Action) : List TurnPacket :=
  match p.2 with
  | .read r' => if r' = r then (p.1.relay.channelOf r.number).head?.toList else []
  | _        => []

lemma relay_submitted (hrun : Run (step env id) (init id fileMap σ) tr s)
    (h : TransferStep env id s a t) (r : Role) :
    (relayEvents id (s, a)).flatMap (TurnService.submittedOn r.other r.number) =
      sentBy r (s, a) := by
  cases h with
  | @relay a _ hforeign =>
    cases a with
    | submit m pkt =>
      simp only [TurnService.Action.isForeign, decide_eq_true_eq] at hforeign
      have hm : m ≠ r.number := fun hm => absurd r.number_lt (Nat.not_lt.mpr (hm ▸ hforeign))
      simp [relayEvents, sentBy, TurnService.submittedOn_submit, hm]
    | _ => rfl
  | @submit r' pkt _ _ hpkt =>
    have hkind := outgoing_receiver hrun hpkt
    simp only [relayEvents, hpkt, Option.toList_some, List.map_cons, List.map_nil,
      List.flatMap_singleton, TurnService.submittedOn_submit, Role.number_inj, sentBy]
    by_cases hr : r' = r
    · subst hr
      rw [if_pos ⟨rfl, hkind⟩, if_pos rfl, hpkt]
      rfl
    · rw [if_neg fun h => hr h.1, if_neg hr]
  | _ => rfl

lemma relay_read (h : TransferStep env id s a t) (r : Role) :
    (relayEvents id (s, a)).flatMap (TurnService.readBy r.number) = receivedBy r (s, a) := by
  cases h with
  | @relay a _ hforeign =>
    cases a with
    | read k =>
      simp only [TurnService.Action.isForeign, decide_eq_true_eq] at hforeign
      have hk : k ≠ r.number := fun hk => absurd r.number_lt (Nat.not_lt.mpr (hk ▸ hforeign))
      simp [relayEvents, receivedBy, TurnService.readBy_read, hk]
    | _ => rfl
  | submit hpkt =>
    simp only [relayEvents, hpkt]
    rfl
  | @read r' pkt _ _ hpkt =>
    simp only [relayEvents, List.flatMap_singleton, TurnService.readBy_read, Role.number_inj,
      receivedBy]
    by_cases hr : r' = r
    · rw [if_pos hr, if_pos hr, hr]
    · rw [if_neg hr, if_neg hr]
  | _ => rfl

lemma leecher_leaving (h : TransferStep env id s a t) :
    (leecherEvents (s, a)).flatMap LeecherLoop.leavingRequests = sentBy .leecher (s, a) := by
  cases h with
  | @leecher a _ hown =>
    cases a with
    | outboundTaken => cases hown
    | _ => rfl
  | registered hresult =>
    rw [leecherEvents, signals_registered hresult]
    split_ifs <;> rfl
  | @submit r pkt _ _ hpkt =>
    cases r with
    | seeder => rfl
    | leecher =>
      have hhead := ((outgoing_eq_some hpkt).1 rfl).2
      simp [leecherEvents, signals, sentBy, Signal.leecher, LeecherLoop.leavingRequests, hhead, hpkt]
  | read hpkt =>
    rw [leecherEvents, signals_read hpkt]
    split_ifs <;> rfl
  | _ => rfl

lemma leecher_arrived (h : TransferStep env id s a t) :
    (leecherEvents (s, a)).flatMap LeecherLoop.arrivedPieces =
      (receivedBy .leecher (s, a)).filterMap pieceMessage := by
  cases h with
  | @leecher a _ hown =>
    cases a with
    | packetArrives item =>
      cases item with
      | ok pkt => cases hown
      | error e => rfl
    | _ => rfl
  | registered hresult =>
    rw [leecherEvents, signals_registered hresult]
    split_ifs <;> rfl
  | @submit r => cases r <;> rfl
  | @read r pkt _ _ hpkt =>
    rw [leecherEvents, signals_read hpkt]
    cases r with
    | seeder => rfl
    | leecher =>
      simp [receivedBy, hpkt, Signal.leecher, LeecherLoop.arrivedPieces, LeecherLoop.pieceOf,
        List.filterMap_cons]
      cases pieceMessage pkt <;> rfl
  | _ => rfl

lemma seeder_leaving (h : TransferStep env id s a t) :
    (seederEvents (s, a)).flatMap SeederLoop.leavingReplies = sentBy .seeder (s, a) := by
  cases h with
  | @seeder a _ hown =>
    cases a with
    | outboundTaken => cases hown
    | _ => rfl
  | registered hresult =>
    rw [seederEvents, signals_registered hresult]
    split_ifs <;> rfl
  | @submit r pkt _ _ hpkt =>
    cases r with
    | leecher => rfl
    | seeder =>
      have hhead := ((outgoing_eq_some hpkt).2 rfl).2
      simp [seederEvents, signals, sentBy, Signal.seeder, SeederLoop.leavingReplies, hhead, hpkt]
  | read hpkt =>
    rw [seederEvents, signals_read hpkt]
    split_ifs <;> rfl
  | _ => rfl

lemma seeder_arrived (h : TransferStep env id s a t) :
    (seederEvents (s, a)).flatMap SeederLoop.arrivedPackets = receivedBy .seeder (s, a) := by
  cases h with
  | @seeder a _ hown =>
    cases a with
    | packetArrives item =>
      cases item with
      | ok pkt => cases hown
      | error e => rfl
    | _ => rfl
  | registered hresult =>
    rw [seederEvents, signals_registered hresult]
    split_ifs <;> rfl
  | @submit r => cases r <;> rfl
  | @read r pkt _ _ hpkt =>
    rw [seederEvents, signals_read hpkt]
    cases r with
    | leecher => rfl
    | seeder => simp [receivedBy, hpkt, Signal.seeder, SeederLoop.arrivedPackets]
  | _ => rfl

/-! ### What arrives -/

/-- The request that is queued for the leecher in a step, as it is to be sent. -/
def queuedRequests (p : TurnTransfer × Action) : List TurnPacket :=
  (leecherEvents p).flatMap LeecherLoop.queuedRequests

/-- The piece that the leecher hands on in a step. -/
def handedPieces (p : TurnTransfer × Action) : List Message :=
  (leecherEvents p).flatMap LeecherLoop.sentPieces

/-- The request that the seeder takes in a step. -/
def takenRequests (p : TurnTransfer × Action) : List TurnPacket :=
  (seederEvents p).flatMap SeederLoop.takenPackets

/-- Nobody is gone, and no stream. -/
structure Connected (s : TurnTransfer) : Prop where
  receivers : ∀ r : Role, ¬ s.relay.Closed r.number
  leecher : s.leecher.outboundClosed = false
  seeder : s.seeder.outboundClosed = false

/-- The requests between the leecher's queue and the seeder's next round, the oldest first. -/
def requestsOnTheWay (s : TurnTransfer) : List TurnPacket :=
  s.seeder.pendingPackets ++ s.relay.line .seeder 1 0 ++
    (s.leecher.outbound.queue ++ s.leecher.pendingRequests)

/-- The pieces between the seeder's rounds and the leecher's reassembly, the oldest first. -/
def piecesOnTheWay (s : TurnTransfer) : List Message :=
  s.leecher.pendingPieces ++ (s.relay.line .leecher 0 1).filterMap pieceMessage ++
    s.seeder.pendingReplies.filterMap pieceMessage

/-- The pieces with which the seeder answers requests that all come in. -/
def answeredPieces (env : Env) (fileMap : FileMap) (id : String) (σ : Store)
    (requests : List TurnPacket) : List Message :=
  (SeederLoop.sessionReplies env fileMap id σ requests).filterMap pieceMessage

/-- Nothing but the seeder's rounds changes what it shares. -/
def KeepsFolder : Action → Prop
  | .seeder a => SeederLoop.KeepsFolder a
  | _         => True

lemma keepsFolder_events (hrun : Run (step env id) (init id fileMap σ) tr s)
    (hfolder : ∀ p ∈ tr, KeepsFolder p.2) :
    ∀ q ∈ tr.flatMap seederEvents, SeederLoop.KeepsFolder q.2 := by
  intro q hq
  obtain ⟨p, hp, hq⟩ := List.mem_flatMap.mp hq
  obtain ⟨-, u, -, hstep⟩ := hrun.step_of_mem hp
  have h := transferStep_of_eq_some hstep
  have hkeeps := hfolder p hp
  obtain ⟨s', a⟩ := p
  cases a with
  | seeder a =>
    obtain rfl := List.mem_singleton.mp hq
    exact hkeeps
  | _ =>
    obtain ⟨x, -, rfl⟩ := List.mem_map.mp hq
    cases x <;> trivial

/-- What the steps of a run hand over is what its parts see. -/
lemma flatMap_events {α β : Type} {events : TurnTransfer × Action → List α} {f : α → List β}
    {g : TurnTransfer × Action → List β} (hrun : Run (step env id) (init id fileMap σ) tr s)
    (h : ∀ tr s a t, Run (step env id) (init id fileMap σ) tr s → TransferStep env id s a t →
      (events (s, a)).flatMap f = g (s, a)) :
    (tr.flatMap events).flatMap f = tr.flatMap g := by
  rw [List.flatMap_assoc]
  refine List.flatMap_congr fun p hp => ?_
  obtain ⟨tr₁, t, hrun₁, hstep⟩ := hrun.step_of_mem hp
  exact h tr₁ p.1 p.2 t hrun₁ (transferStep_of_eq_some hstep)

/-- The requests are taken by the seeder in the order in which they are queued. -/
lemma requests_taken (hrun : Run (step env id) (init id fileMap σ) tr s) :
    ∃ later, tr.flatMap queuedRequests = tr.flatMap takenRequests ++ later ∧
      (s.Connected → later = s.requestsOnTheWay) := by
  obtain ⟨rest₁, hqueued, hrest₁⟩ := LeecherLoop.requests_in_order (leecher_run hrun)
    (leecher_takes hrun)
  obtain ⟨rest₂, hrelayed, hrest₂⟩ := TurnService.private_in_order (relay_run hrun)
    (allowed_run hrun).1 .seeder
  have hleaving : (tr.flatMap leecherEvents).flatMap LeecherLoop.leavingRequests =
      (tr.flatMap (relayEvents id)).flatMap (TurnService.submittedOn .seeder 1) :=
    (flatMap_events hrun fun _ _ _ _ _ h => leecher_leaving h).trans
      (flatMap_events hrun fun _ _ _ _ hrun h => relay_submitted hrun h .leecher).symm
  have harrived : (tr.flatMap (relayEvents id)).flatMap (TurnService.readBy 0) =
      (tr.flatMap seederEvents).flatMap SeederLoop.arrivedPackets :=
    (flatMap_events hrun fun _ _ _ _ _ h => relay_read h .seeder).trans
      (flatMap_events hrun fun _ _ _ _ _ h => seeder_arrived h).symm
  have htaken : (tr.flatMap seederEvents).flatMap SeederLoop.arrivedPackets =
      tr.flatMap takenRequests ++ s.seeder.pendingPackets := by
    have h := SeederLoop.packets_in_order (seeder_run hrun)
    rw [List.flatMap_assoc (g := SeederLoop.takenPackets)] at h
    exact h
  refine ⟨s.seeder.pendingPackets ++ rest₂ ++ rest₁, ?_, fun hs => ?_⟩
  · calc tr.flatMap queuedRequests
        = (tr.flatMap leecherEvents).flatMap LeecherLoop.queuedRequests :=
          List.flatMap_assoc.symm
      _ = (tr.flatMap (relayEvents id)).flatMap (TurnService.submittedOn .seeder 1) ++ rest₁ := by
          rw [hqueued, hleaving]
      _ = (tr.flatMap (relayEvents id)).flatMap (TurnService.readBy 0) ++ rest₂ ++ rest₁ :=
          congrArg (· ++ rest₁) hrelayed
      _ = tr.flatMap takenRequests ++ (s.seeder.pendingPackets ++ rest₂ ++ rest₁) := by
          rw [harrived, htaken, List.append_assoc, List.append_assoc, List.append_assoc]
  · rw [hrest₁ hs.leecher, hrest₂ (hs.receivers .seeder)]
    rfl

/-- The pieces are handed on by the leecher in the order in which the seeder reads them. -/
lemma pieces_handed (hrun : Run (step env id) (init id fileMap σ) tr s)
    (hfolder : ∀ p ∈ tr, KeepsFolder p.2) :
    ∃ later, answeredPieces env fileMap id σ (tr.flatMap takenRequests) =
        tr.flatMap handedPieces ++ later ∧ (s.Connected → later = s.piecesOnTheWay) := by
  obtain ⟨rest₁, hmade, hrest₁⟩ := SeederLoop.replies_in_order (seeder_run hrun) (seeder_takes hrun)
  obtain ⟨rest₂, hrelayed, hrest₂⟩ := TurnService.private_in_order (relay_run hrun)
    (allowed_run hrun).1 .leecher
  have hanswers : SeederLoop.sessionReplies env fileMap id σ (tr.flatMap takenRequests) =
      (tr.flatMap seederEvents).flatMap (SeederLoop.madeReplies env) := by
    have h := (SeederLoop.answering_run (seeder_run hrun) (keepsFolder_events hrun hfolder)).replies
    rw [List.flatMap_assoc (g := SeederLoop.takenPackets)] at h
    exact h.symm
  have hleaving : (tr.flatMap seederEvents).flatMap SeederLoop.leavingReplies =
      (tr.flatMap (relayEvents id)).flatMap (TurnService.submittedOn .leecher 0) :=
    (flatMap_events hrun fun _ _ _ _ _ h => seeder_leaving h).trans
      (flatMap_events hrun fun _ _ _ _ hrun h => relay_submitted hrun h .seeder).symm
  have harrived : ((tr.flatMap (relayEvents id)).flatMap (TurnService.readBy 1)).filterMap
      pieceMessage = (tr.flatMap leecherEvents).flatMap LeecherLoop.arrivedPieces := by
    have hread : (tr.flatMap (relayEvents id)).flatMap (TurnService.readBy 1) =
        tr.flatMap (receivedBy .leecher) :=
      flatMap_events hrun fun _ _ _ _ _ h => relay_read h .leecher
    rw [hread, List.filterMap_flatMap]
    exact (flatMap_events hrun fun _ _ _ _ _ h => leecher_arrived h).symm
  have hhanded : (tr.flatMap leecherEvents).flatMap LeecherLoop.arrivedPieces =
      tr.flatMap handedPieces ++ s.leecher.pendingPieces := by
    have h := (LeecherLoop.passes_on (leecher_run hrun)).1
    rw [List.flatMap_assoc (g := LeecherLoop.sentPieces)] at h
    exact h
  refine ⟨s.leecher.pendingPieces ++ rest₂.filterMap pieceMessage ++ rest₁.filterMap pieceMessage,
    ?_, fun hs => ?_⟩
  · calc answeredPieces env fileMap id σ (tr.flatMap takenRequests)
        = ((tr.flatMap seederEvents).flatMap (SeederLoop.madeReplies env)).filterMap
            pieceMessage := by rw [answeredPieces, hanswers]
      _ = ((tr.flatMap (relayEvents id)).flatMap (TurnService.submittedOn .leecher 0) ++
            rest₁).filterMap pieceMessage := by
          rw [← hleaving]
          exact congrArg (List.filterMap pieceMessage) hmade
      _ = ((tr.flatMap (relayEvents id)).flatMap (TurnService.readBy 1) ++ rest₂ ++
            rest₁).filterMap pieceMessage :=
          congrArg (fun l => (l ++ rest₁).filterMap pieceMessage) hrelayed
      _ = tr.flatMap handedPieces ++ (s.leecher.pendingPieces ++
            rest₂.filterMap pieceMessage ++ rest₁.filterMap pieceMessage) := by
          rw [List.filterMap_append, List.filterMap_append, harrived, hhanded, List.append_assoc,
            List.append_assoc, List.append_assoc]
  · rw [hrest₁ hs.seeder, hrest₂ (hs.receivers .leecher)]
    rfl

/-! ### At rest -/

/-- Other clients open streams for sessions only with which they have registered. -/
def OpensRegistered (s : TurnTransfer) : Action → Prop
  | .relay a => TurnService.OpensRegistered s.relay a
  | _        => True

/-- The steps that the relay, the loops and the readers of what they send take of themselves. -/
def Action.Works : Action → Prop
  | .relay (.read _)       => True
  | .relay a               => a.Works
  | .leecher .selectInbound | .leecher .selectRequest | .leecher .send => True
  | .leecher .replyTaken   => True
  | .seeder .round | .seeder .send => True
  | .openStream _ | .submit _ | .read _ => True
  | _                      => False

/-- Nothing is left to do. -/
def AtRest (env : Env) (id : String) (s : TurnTransfer) : Prop :=
  ∀ a : Action, a.Works → s.step env id a = none

/-- Both parties are in their loops, and their streams have not ended. -/
structure Running (s : TurnTransfer) : Prop where
  inLoop : ∀ r, s.inLoop r = true
  serving : s.seeder.place ≠ .ended
  leecherInbound : s.leecher.inboundEnded = false
  seederInbound : s.seeder.inboundEnded = false
  streams : ∀ (r : Role) stream, s.relay.streams r.number = some stream → stream.closing = none

lemma sound_run (hrun : Run (step env id) (init id fileMap σ) tr s)
    (hopens : ∀ p ∈ tr, OpensRegistered p.1 p.2) : s.relay.Sound := by
  refine (relay_run hrun).invariant (P := TurnService.OpensRegistered)
    (fun _ _ _ hs ha h => hs.step (TurnService.turnStep_of_eq_some h) ha) (fun q hq => ?_)
    TurnService.sound_default
  have hallowed := (allowed_run hrun).1 q hq
  obtain ⟨⟨u, a⟩, hp, hq⟩ := List.mem_flatMap.mp hq
  have hopen := hopens (u, a) hp
  cases a with
  | relay a =>
    obtain rfl := List.mem_singleton.mp hq
    exact hopen
  | leecher | seeder | registered => cases hq
  | register | read =>
    obtain rfl := List.mem_singleton.mp hq
    trivial
  | openStream r =>
    obtain rfl := List.mem_singleton.mp hq
    obtain ⟨-, -, hopens⟩ | ⟨hle, -⟩ := hallowed
    · exact hopens
    · exact absurd hle (Nat.not_le.mpr r.number_lt)
  | submit =>
    obtain ⟨pkt, -, rfl⟩ := List.mem_map.mp hq
    trivial

/-- A channel that holds a packet yields one. -/
lemma recv_ne_none {c : Channel TurnPacket outboundCapacity} {pkt : TurnPacket}
    (h : c.queue.head? = some pkt) : c.recv? ≠ none := by
  intro hnone
  rw [Channel.recv?_eq_none.mp hnone] at h
  cases h

lemma signal_taken_ne_none {p : TurnPacket} (hp : s.outgoing r = some p) :
    s.signal env .outboundTaken r ≠ none := by
  cases r with
  | leecher =>
    have hrecv := recv_ne_none ((outgoing_eq_some hp).1 rfl).2
    simpa [signal, Signal.leecher, LeecherLoop.step] using hrecv
  | seeder =>
    have hrecv := recv_ne_none ((outgoing_eq_some hp).2 rfl).2
    simpa [signal, Signal.seeder, SeederLoop.step] using hrecv

lemma signal_arrives_ne_none (hleecher : s.leecher.inboundEnded = false)
    (hseeder : s.seeder.inboundEnded = false) (pkt : TurnPacket) :
    s.signal env (.arrives pkt) r ≠ none := by
  cases r with
  | leecher => simp [signal, Signal.leecher, LeecherLoop.step, hleecher]
  | seeder => simp [signal, Signal.seeder, SeederLoop.step, hseeder]

section Rest

variable (hrun : Run (step env id) (init id fileMap σ) tr s) (hs : s.Running) (hc : s.Connected)
  (hrest : s.AtRest env id)

include hs hrest in
/-- A party at rest has opened its stream. -/
lemma exists_stream (r : Role) : ∃ stream, s.relay.streams r.number = some stream := by
  have hopen := hrest (.openStream r) trivial
  cases hstream : s.relay.streams r.number with
  | some stream => exact ⟨stream, rfl⟩
  | none =>
    simp [step, serve, hs.inLoop r, TurnService.step, TurnService.openStream, hstream,
      sendSession_partyHeaders] at hopen

include hrun hs hrest in
/-- What a party sends has been submitted. -/
lemma outgoing_eq_none (r : Role) : s.outgoing r = none := by
  cases hpkt : s.outgoing r with
  | none => rfl
  | some pkt =>
    obtain ⟨stream, hstream⟩ := exists_stream hs hrest r
    have hsession := TurnService.own_stream (relay_run hrun) (allowed_run hrun).1 hstream
    have hsubmit := hrest (.submit r) trivial
    have hclosing := hs.streams r stream hstream
    simp only [step, hpkt, Option.bind_some, serve, TurnService.step, TurnService.submit, hstream,
      hsession, hclosing, Option.isSome_some, Option.isNone_none, and_self, if_true,
      Option.map_some] at hsubmit
    refine absurd hsubmit (signal_taken_ne_none (p := pkt) ?_)
    cases r <;> exact hpkt

include hrun hs hc hrest in
/-- What has come in for a party has been read. -/
lemma channelOf_eq_nil (r : Role) : s.relay.channelOf r.number = [] := by
  cases hchannel : s.relay.channelOf r.number with
  | nil => rfl
  | cons pkt queue =>
    obtain ⟨call, hcall, -, hstate⟩ := (allowed_run hrun).2 r (hs.inLoop r)
    have hread := hrest (.read r) trivial
    have hopen : call.isOpen = true := by
      by_contra hclosed
      exact hc.receivers r ⟨call, hcall, Bool.eq_false_iff.mpr hclosed⟩
    rw [TurnService.channelOf_eq hcall] at hchannel
    obtain ⟨channel, hrecv, -⟩ := Channel.exists_recv? hchannel
    simp only [step, TurnService.channelOf_eq hcall, hchannel, List.head?_cons, Option.bind_some,
      serve, TurnService.step, TurnService.read, hcall, hopen, hstate, hrecv,
      Option.map_some] at hread
    refine absurd hread (signal_arrives_ne_none ?_ ?_ pkt)
    · exact hs.leecherInbound
    · exact hs.seederInbound

include hrest in
lemma relay_atRest : s.relay.AtRest := by
  intro a ha
  have hworks : (Action.relay a).Works := by
    cases a with
    | read => trivial
    | _ => exact ha
  have hforeign : a.isForeign id = true := by
    cases a with
    | register | read | openStream | submit => exact ha.elim
    | _ => rfl
  have hstep := hrest (.relay a) hworks
  simp only [step, hforeign, if_true] at hstep
  exact Option.map_eq_none_iff.mp hstep

include hrun hs hc hrest in
lemma relay_hasRoom : s.relay.HasRoom := by
  intro k call hcall hopen hstate hfull
  have hnil : call.channel.queue = [] := by
    rcases Nat.lt_or_ge k 2 with hlt | hle
    · obtain ⟨r, rfl⟩ : ∃ r : Role, k = r.number := by
        rcases Nat.le_one_iff_eq_zero_or_eq_one.mp (Nat.le_of_lt_succ hlt) with rfl | rfl
        · exact ⟨.seeder, rfl⟩
        · exact ⟨.leecher, rfl⟩
      rw [← TurnService.channelOf_eq hcall]
      exact channelOf_eq_nil hrun hs hc hrest r
    · have hread := hrest (.relay (.read k)) trivial
      cases hrecv : call.channel.recv? with
      | none => exact Channel.recv?_eq_none.mp hrecv
      | some x =>
        simp [step, serve, TurnService.Action.isForeign, hle, TurnService.step, TurnService.read,
          hcall, hopen, hstate, hrecv] at hread
  rw [Channel.Full, hnil] at hfull
  cases hfull

include hrun hs hc hrest in
/-- Nothing is left on the lines of the relay. -/
lemma line_eq_nil (hopens : ∀ p ∈ tr, OpensRegistered p.1 p.2) (r : Role) :
    s.relay.line r r.other.number r.number = [] := by
  obtain ⟨stream, hstream⟩ := exists_stream hs hrest r.other
  have hpending := (sound_run hrun hopens).pending_eq_nil (relay_atRest hrest)
    (relay_hasRoom hrun hs hc hrest) hstream
  rw [TurnService.line, channelOf_eq_nil hrun hs hc hrest r, TurnService.pendingFor_eq hstream,
    hpending]
  rfl

include hrun hs hc hrest in
/-- The leecher has sent its requests and handed on its pieces. -/
lemma leecher_done : s.leecher.outbound.queue = [] ∧ s.leecher.pendingRequests = [] ∧
    s.leecher.pendingPieces = [] := by
  have houtbound : s.leecher.outbound.queue = [] := by
    have hnone := outgoing_eq_none hrun hs hrest .leecher
    simpa [outgoing, hc.leecher] using hnone
  have hstep : ∀ a : LeecherLoop.Action, a.isOwn = true → (Action.leecher a).Works →
      s.leecher.step a = none := by
    intro a hown hworks
    have hstep := hrest (.leecher a) hworks
    simp only [step, hown, if_true] at hstep
    exact Option.map_eq_none_iff.mp hstep
  exact ⟨houtbound, LeecherLoop.done (hs.inLoop .leecher) houtbound
    (hstep .selectInbound rfl trivial) (hstep .selectRequest rfl trivial)
    (hstep .send rfl trivial) (hstep .replyTaken rfl trivial)⟩

include hrun hs hc hrest in
/-- The seeder has taken its requests and sent its replies. -/
lemma seeder_done : s.seeder.pendingPackets = [] ∧ s.seeder.pendingReplies = [] := by
  have houtbound : s.seeder.outbound.queue = [] := by
    have hnone := outgoing_eq_none hrun hs hrest .seeder
    simpa [outgoing, hc.seeder] using hnone
  have hstep : ∀ a : SeederLoop.Action, a.isOwn = true → (Action.seeder a).Works →
      s.seeder.step env a = none := by
    intro a hown hworks
    have hstep := hrest (.seeder a) hworks
    simp only [step, hown, if_true] at hstep
    exact Option.map_eq_none_iff.mp hstep
  exact SeederLoop.done (hs.inLoop .seeder) hs.serving houtbound (hstep .round rfl trivial)
    (hstep .send rfl trivial)

include hrun hs hc hrest in
lemma nothing_on_the_way (hopens : ∀ p ∈ tr, OpensRegistered p.1 p.2) :
    s.requestsOnTheWay = [] ∧ s.piecesOnTheWay = [] := by
  obtain ⟨houtbound, hrequests, hpieces⟩ := leecher_done hrun hs hc hrest
  obtain ⟨hpackets, hreplies⟩ := seeder_done hrun hs hc hrest
  have hline₁ : s.relay.line .seeder 1 0 = [] := line_eq_nil hrun hs hc hrest hopens .seeder
  have hline₂ : s.relay.line .leecher 0 1 = [] := line_eq_nil hrun hs hc hrest hopens .leecher
  constructor
  · rw [requestsOnTheWay, hpackets, hline₁, houtbound, hrequests]
    rfl
  · rw [piecesOnTheWay, hpieces, hline₂, hreplies]
    rfl

end Rest

/-! ### The transfer -/

/-- The piece that is asked for in a step. -/
def askedFor (p : TurnTransfer × Action) : List PieceRequest :=
  match p.2 with
  | .leecher (.requestQueued (.request seeder index begin length hash)) =>
    [⟨seeder, index, begin, length, hash⟩]
  | _ => []

lemma queuedRequests_eq (hrun : Run (step env id) (init id fileMap σ) tr s)
    (h : TransferStep env id s a t) :
    queuedRequests (s, a) = (askedFor (s, a)).map (·.packet id) := by
  have hid := LeecherLoop.sessionId_run (leecher_run hrun)
  cases h with
  | @leecher a _ hown =>
    cases a with
    | requestQueued msg =>
      cases msg with
      | request =>
        simp [queuedRequests, leecherEvents, LeecherLoop.queuedRequests, requestPacket, askedFor,
          PieceRequest.packet, hid]
      | _ => rfl
    | _ => rfl
  | registered hresult =>
    rw [queuedRequests, leecherEvents, signals_registered hresult]
    split_ifs <;> rfl
  | @submit r => cases r <;> rfl
  | read hpkt =>
    rw [queuedRequests, leecherEvents, signals_read hpkt]
    split_ifs <;> rfl
  | _ => rfl

lemma turnAnswers_eq (requests : List PieceRequest) :
    (turnAnswers env fileMap id σ requests).filterMap (fun answer => answer) =
      answeredPieces env fileMap id σ (requests.map (·.packet id)) := by
  rw [turnAnswers, answeredPieces, SeederLoop.sessionReplies, List.map_map, List.filterMap_map,
    List.filterMap_filterMap]
  refine List.filterMap_congr fun answer _ => ?_
  cases answer <;> rfl

/-- The requests that are taken by the seeder are the first ones that the leecher was asked for. -/
lemma taken_of_asked (hrun : Run (step env id) (init id fileMap σ) tr s) :
    ∃ taken later, tr.flatMap askedFor = taken ++ later ∧
      tr.flatMap takenRequests = taken.map (·.packet id) ∧
      (s.Connected → later.map (·.packet id) = s.requestsOnTheWay) := by
  obtain ⟨later, heq, hlater⟩ := requests_taken hrun
  have hqueued : tr.flatMap queuedRequests = (tr.flatMap askedFor).map (·.packet id) := by
    rw [List.map_flatMap]
    refine List.flatMap_congr fun p hp => ?_
    obtain ⟨tr₁, t, hrun₁, hstep⟩ := hrun.step_of_mem hp
    exact queuedRequests_eq hrun₁ (transferStep_of_eq_some hstep)
  rw [hqueued] at heq
  obtain ⟨taken, rest, hasked, htaken, hrest⟩ := List.map_eq_append_iff.mp heq
  exact ⟨taken, rest, hasked, htaken.symm, fun hs => hrest.trans (hlater hs)⟩

/-- Both parties register and open their streams. -/
def opening : List Action :=
  [.register .seeder, .register .leecher, .relay .acquire, .relay .acquire, .relay (.arrive 1),
    .relay (.arrive 0), .relay (.pass 0), .relay (.pass 1), .registered .leecher,
    .registered .seeder, .openStream .seeder, .openStream .leecher]

/-- Three pieces of a file are asked for. -/
def threeAsked (digest : Digest) (i j k : UInt32) : List Action :=
  [i, j, k].map fun index => .leecher (.requestQueued (.request 0 index 0 65536 digest))

/-- The next request gets to the relay. -/
def requestSent : List Action :=
  [.leecher .selectRequest, .leecher .send, .submit .leecher, .relay (.next 1)]

/-- The request is relayed, the piece is read, relayed and handed on. -/
def replyReceived : List Action :=
  [.relay .acquire, .relay (.put 1), .read .seeder, .seeder .round, .seeder .send,
    .submit .seeder, .relay (.next 0), .relay .acquire, .relay (.put 0), .read .leecher,
    .leecher .selectInbound, .leecher .send, .leecher .replyTaken]

/-- A file of three letters, in pieces of two. -/
def wordHash : InfoHash := ⟨"w", 3, 2, [⟨Digest.zero.val⟩, ⟨Digest.zero.val⟩]⟩

/-- The word `abc` is shared. -/
def wordFiles : FileMap := AList.insert Digest.zero wordHash ∅

def wordStore : Store := AList.insert (filePath "w") [97, 98, 99] ∅

/-- In these steps the folder stays as it is, and no other client opens a stream. -/
def Calm (as : List Action) : Prop := ∀ a ∈ as, KeepsFolder a ∧ ∀ s, OpensRegistered s a

lemma calm_append {as bs : List Action} : Calm (as ++ bs) ↔ Calm as ∧ Calm bs :=
  List.forall_mem_append

lemma calm_opening : Calm opening := by
  simp [Calm, opening, KeepsFolder, OpensRegistered, TurnService.OpensRegistered]

lemma calm_threeAsked (digest : Digest) (i j k : UInt32) : Calm (threeAsked digest i j k) := by
  simp [Calm, threeAsked, KeepsFolder, OpensRegistered]

lemma calm_requestSent : Calm requestSent := by
  simp [Calm, requestSent, KeepsFolder, OpensRegistered, TurnService.OpensRegistered]

lemma calm_replyReceived : Calm replyReceived := by
  simp [Calm, replyReceived, KeepsFolder, SeederLoop.KeepsFolder, OpensRegistered,
    TurnService.OpensRegistered]

/-- The second piece, the first and once more the second are asked for, and the relay is cut off
from the seeder while the last request is on its way. -/
def droppedActions : List Action :=
  opening ++ threeAsked Digest.zero 1 0 1 ++ (requestSent ++ replyReceived) ++
    (requestSent ++ replyReceived) ++ requestSent ++ [.relay (.dropReceiver 0)]

/-- Where nothing is left to do, every request has been answered. -/
lemma answered_of_atRest (hrun : Run (step env id) (init id fileMap σ) tr s)
    (hfolder : ∀ p ∈ tr, KeepsFolder p.2) (hopens : ∀ p ∈ tr, OpensRegistered p.1 p.2)
    (hs : s.Running) (hc : s.Connected) (hrest : s.AtRest env id) :
    tr.flatMap handedPieces =
      answeredPieces env fileMap id σ ((tr.flatMap askedFor).map (·.packet id)) := by
  obtain ⟨hrequests, hpieces⟩ := nothing_on_the_way hrun hs hc hrest hopens
  obtain ⟨taken, asked, hasked, htaken, hlater⟩ := taken_of_asked hrun
  obtain ⟨answered, hanswered, hlater'⟩ := pieces_handed hrun hfolder
  have hnil : asked = [] := List.map_eq_nil_iff.mp ((hlater hc).trans hrequests)
  rw [hlater' hc, hpieces, List.append_nil] at hanswered
  rw [hasked, hnil, List.append_nil, ← htaken, hanswered]

/-- While the seeder's loop is not left, each request that it takes is answered. -/
lemma taken_answered (hrun : Run (step env id) (init id fileMap σ) tr s)
    (hfolder : ∀ p ∈ tr, KeepsFolder p.2) (hserving : s.seeder.place ≠ .ended)
    {requests : List PieceRequest}
    (htaken : tr.flatMap takenRequests = requests.map (·.packet id)) :
    ∃ pieces : List Message, turnAnswers env fileMap id σ requests = pieces.map some := by
  have hdisk := (SeederLoop.answering_run (seeder_run hrun)
    (keepsFolder_events hrun hfolder)).disk hserving
  have hpackets : (tr.flatMap seederEvents).flatMap SeederLoop.takenPackets =
      requests.map (·.packet id) := (List.flatMap_assoc ..).trans htaken
  rw [hpackets] at hdisk
  exact SeederLoop.exists_answers (by rw [hdisk]; rfl)

/-- A transfer over TURN is complete when nothing is left to do. While the relay's other clients
open their streams for sessions with which they have registered, and read what they receive, nothing
that is asked for gets stuck: each request is answered, and the answers are what is handed on. -/
theorem transfer_completes (env : Env) (id : String) (fileMap : FileMap) (σ : Store)
    {tr : List (TurnTransfer × Action)} {s : TurnTransfer}
    (hrun : Run (step env id) (init id fileMap σ) tr s) (hfolder : ∀ p ∈ tr, KeepsFolder p.2)
    (hopens : ∀ p ∈ tr, OpensRegistered p.1 p.2) (hs : s.Running) (hc : s.Connected)
    (hrest : s.AtRest env id) :
    turnAnswers env fileMap id σ (tr.flatMap askedFor) = (tr.flatMap handedPieces).map some := by
  obtain ⟨taken, asked, hasked, htaken, hlater⟩ := taken_of_asked hrun
  have hnil : asked = [] :=
    List.map_eq_nil_iff.mp ((hlater hc).trans (nothing_on_the_way hrun hs hc hrest hopens).1)
  rw [hnil, List.append_nil] at hasked
  -- there are no requests but those taken, and no answer is missing
  obtain ⟨pieces, hpieces⟩ := taken_answered hrun hfolder hs.serving (hasked ▸ htaken)
  rw [answered_of_atRest hrun hfolder hopens hs hc hrest, ← turnAnswers_eq, hpieces,
    List.filterMap_map]
  exact congrArg (List.map some) List.filterMap_some.symm

/-- The letter `a` is shared. -/
def letterFiles : FileMap := AList.insert letterDigest ⟨"a", 1, 65536, [⟨paddedDigest.val⟩]⟩ ∅

/-- The letter is asked for three times, read, relayed and handed on. -/
def letterActions : List Action :=
  opening ++ threeAsked letterDigest 0 0 0 ++ (requestSent ++ replyReceived) ++
    (requestSent ++ replyReceived) ++ (requestSent ++ replyReceived)

lemma exists_letter : ∃ s, exec (step letterEnv "ab") (init "ab" letterFiles letterStore)
    letterActions = some s ∧ s.Running ∧ s.Connected ∧
      s.AtRest letterEnv "ab" := by
  refine ⟨_, by rfl, ⟨fun r => ?_, ?_, rfl, rfl, fun r stream hstream => ?_⟩,
    ⟨fun r hr => ?_, rfl, rfl⟩, fun a ha => ?_⟩
  · cases r <;> rfl
  · exact SeedingAt.noConfusion
  · cases r <;> cases hstream <;> rfl
  · obtain ⟨call, hcall, hclosed⟩ := hr
    cases r <;> cases hcall <;> cases hclosed
  · cases a with
    | relay a =>
      cases a with
      | acquire => rfl
      | arrive k | pass k | read k | next k | put k => rcases k with _ | _ | k <;> rfl
      | _ => exact ha.elim
    | leecher a =>
      cases a with
      | selectInbound | selectRequest | send | replyTaken => rfl
      | _ => exact ha.elim
    | seeder a =>
      cases a with
      | round | send => rfl
      | _ => exact ha.elim
    | openStream r | submit r | read r => cases r <;> rfl
    | _ => exact ha.elim

lemma exists_letter_run : ∃ tr s,
    Run (step letterEnv "ab") (init "ab" letterFiles letterStore) tr s ∧
      (∀ p ∈ tr, KeepsFolder p.2) ∧ (∀ p ∈ tr, OpensRegistered p.1 p.2) ∧ s.Running ∧
      s.Connected ∧ s.AtRest letterEnv "ab" ∧
      tr.flatMap askedFor = List.replicate 3 ⟨0, 0, 0, 65536, letterDigest⟩ := by
  obtain ⟨s, hexec, hs, hc, hrest⟩ := exists_letter
  obtain ⟨tr, hrun, hmap⟩ := run_of_exec hexec
  have hasked : tr.flatMap askedFor = List.replicate 3 ⟨0, 0, 0, 65536, letterDigest⟩ := by
    have h : tr.flatMap askedFor = (tr.map Prod.snd).flatMap fun a => askedFor (s, a) := by
      rw [List.flatMap_map]
      rfl
    rw [h, hmap]
    rfl
  have hcalm : Calm letterActions := by
    simp only [letterActions, calm_append]
    exact ⟨⟨⟨⟨calm_opening, calm_threeAsked _ _ _ _⟩, calm_requestSent, calm_replyReceived⟩,
      calm_requestSent, calm_replyReceived⟩, calm_requestSent, calm_replyReceived⟩
  have hfolder : ∀ p ∈ tr, KeepsFolder p.2 :=
    forall_of_map hmap (P := fun _ a => KeepsFolder a) fun a ha _ => (hcalm a ha).1
  have hopens : ∀ p ∈ tr, OpensRegistered p.1 p.2 := forall_of_map hmap fun a ha => (hcalm a ha).2
  exact ⟨tr, s, hrun, hfolder, hopens, hs, hc, hrest, hasked⟩

theorem transfer_completes_letter : ∃ tr s,
    Run (step letterEnv "ab") (init "ab" letterFiles letterStore) tr s ∧
      tr.flatMap askedFor = List.replicate 3 ⟨0, 0, 0, 65536, letterDigest⟩ ∧
      tr.flatMap handedPieces = List.replicate 3 (.piece 0 [97]) := by
  obtain ⟨tr, s, hrun, hfolder, hopens, hs, hc, hrest, hasked⟩ := exists_letter_run
  have hanswers := transfer_completes letterEnv "ab" letterFiles letterStore hrun hfolder hopens hs
    hc hrest
  refine ⟨tr, s, hrun, hasked, ?_⟩
  rw [hasked] at hanswers
  exact (Option.some_injective _).list_map hanswers.symm

end TurnTransfer

end BearTorrent
