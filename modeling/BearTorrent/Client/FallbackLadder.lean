import BearTorrent.Lib.Transition
import BearTorrent.Server.Basic

/-!
# The way to TURN

A pair of peers tries a connection over the LAN, then a hole punch and a connection across the NAT,
and then TURN. Each side goes down on its own: some of its waits have a timeout, and some errors
make it return.
-/

namespace BearTorrent

open Transition

/-- What comes of an awaited call; `silence` ends the wait only where the code sets a timeout. -/
inductive Outcome where
  | success
  | error
  | silence
  deriving DecidableEq

/-- The two ways to a QUIC connection. -/
inductive Transport where
  | lan
  | nat
  deriving DecidableEq

/-! ### The seeder -/

/-- What comes of the calls of `seeder_connection`. -/
structure SeederOutcomes where
  createQuicServer : Transport → Outcome
  accept : Transport → Outcome
  handshake : Transport → Outcome
  holePunchTrigger : Outcome
  holePunch : Outcome
  register : Outcome

/-- Where `seeder_connection` is. It has `returned` without registering for TURN. -/
inductive SeederAt where
  | creatingServer (T : Transport)
  | accepting (T : Transport)
  | handshaking (T : Transport)
  | awaitingTrigger
  | punching
  | registering
  | atBarrier
  | seeding
  | returned
  deriving DecidableEq

/-- The LAN is tried when the peers have the same public address. -/
def seederStart (selfAddr peerId : PeerId) : SeederAt :=
  if selfAddr.ipaddr = peerId.ipaddr then .creatingServer .lan else .awaitingTrigger

/-- What follows a failed connection. -/
def Transport.seederNext : Transport → SeederAt
  | .lan => .awaitingTrigger
  | .nat => .registering

/-- The next step of `seeder_connection`; `none` where it waits or has ended. -/
def SeederAt.next (o : SeederOutcomes) : SeederAt → Option SeederAt
  | .creatingServer T =>
    match o.createQuicServer T with
    | .success => some (.accepting T)
    | .error   => some .returned
    | .silence => none
  -- `accept` in `quic_listener` stands outside the timeout.
  | .accepting T      =>
    match o.accept T with
    | .success => some (.handshaking T)
    | .error   => some T.seederNext
    | .silence => none
  | .handshaking T    =>
    match o.handshake T with
    | .success           => some .returned
    | .error | .silence  => some T.seederNext
  -- An error of the server counts as a trigger.
  | .awaitingTrigger  =>
    match o.holePunchTrigger with
    | .success | .error => some .punching
    | .silence          => some .registering
  | .punching         =>
    match o.holePunch with
    | .success          => some (.creatingServer .nat)
    | .error | .silence => some .registering
  | .registering      =>
    match o.register with
    | .success => some .atBarrier
    | .error   => some .returned
    | .silence => none
  | .atBarrier        => none
  | .seeding          => none
  | .returned         => none

/-- The seeder waits for the transport, and no timeout ends the wait. -/
def SeederAt.WaitsOn (T : Transport) (x : SeederAt) : Prop :=
  x = .creatingServer T ∨ x = .accepting T

/-! ### The requester -/

/-- What comes of the calls of `requester_connection`. -/
structure RequesterOutcomes where
  sendFileRequest : Outcome
  createQuicClient : Transport → Outcome
  connect : Transport → Outcome
  initPunch : Outcome
  holePunch : Outcome
  register : Outcome

/-- Where `requester_connection` is. -/
inductive RequesterAt where
  | requesting
  | creatingClient (T : Transport)
  | connecting (T : Transport)
  | initiatingPunch
  | punching
  | registering
  | atBarrier
  | leeching
  | returned
  deriving DecidableEq

/-- What follows a failed connection. -/
def Transport.requesterNext : Transport → RequesterAt
  | .lan => .initiatingPunch
  | .nat => .registering

/-- The next step of `requester_connection`; `none` where it waits or has ended. -/
def RequesterAt.next (selfAddr peerId : PeerId) (o : RequesterOutcomes) :
    RequesterAt → Option RequesterAt
  | .requesting       =>
    match o.sendFileRequest with
    | .success =>
      some (if selfAddr.ipaddr = peerId.ipaddr then .creatingClient .lan else .initiatingPunch)
    | .error   => some .returned
    | .silence => none
  | .creatingClient T =>
    match o.createQuicClient T with
    | .success => some (.connecting T)
    | .error   => some .returned
    | .silence => none
  | .connecting T     =>
    match o.connect T with
    | .success          => some .returned
    | .error | .silence => some T.requesterNext
  | .initiatingPunch  =>
    match o.initPunch with
    | .success => some .punching
    | .error   => some .registering
    | .silence => none
  | .punching         =>
    match o.holePunch with
    | .success          => some (.creatingClient .nat)
    | .error | .silence => some .registering
  | .registering      =>
    match o.register with
    | .success => some .atBarrier
    | .error   => some .returned
    | .silence => none
  | .atBarrier        => none
  | .leeching         => none
  | .returned         => none

/-- The requester is past the transport. -/
def RequesterAt.GaveUp : Transport → RequesterAt → Prop
  | .lan, x => x ∈ [.initiatingPunch, .punching, .creatingClient .nat, .connecting .nat,
      .registering, .atBarrier, .leeching]
  | .nat, x => x ∈ [.registering, .atBarrier, .leeching]

/-! ### Both -/

/-- A pair of peers, and what comes of the calls on each side. -/
structure Meeting where
  seeder : PeerId
  requester : PeerId
  seederOutcomes : SeederOutcomes
  requesterOutcomes : RequesterOutcomes

/-- Where the two peers are. -/
@[ext]
structure Ladders where
  seeder : SeederAt
  requester : RequesterAt
  deriving DecidableEq

namespace Meeting

inductive Action where
  | seeder
  | requester
  /-- The barrier of the session opens. -/
  | release
  deriving DecidableEq

def start (m : Meeting) : Ladders := ⟨seederStart m.seeder m.requester, .requesting⟩

def step (m : Meeting) (s : Ladders) : Action → Option Ladders
  | .seeder    => (s.seeder.next m.seederOutcomes).map fun x => { s with seeder := x }
  | .requester =>
    (s.requester.next m.requester m.seeder m.requesterOutcomes).map fun x =>
      { s with requester := x }
  | .release   =>
    if s.seeder = .atBarrier ∧ s.requester = .atBarrier then some ⟨.seeding, .leeching⟩ else none

end Meeting

/-- The requester waits for a seeder that has returned, or that waits for a transport the requester
has given up. -/
def Ladders.Stranded (s : Ladders) : Prop :=
  s.requester = .atBarrier ∧
    (s.seeder = .returned ∨ ∃ T, s.seeder.WaitsOn T ∧ s.requester.GaveUp T)

namespace Meeting

/-- The peers have the same public address. -/
def SameNat (m : Meeting) : Prop := m.seeder.ipaddr = m.requester.ipaddr

/-- The requester connects to the server of the seeder's, and the connection fails. -/
def ConnectFails (m : Meeting) (T : Transport) : Prop :=
  m.requesterOutcomes.createQuicClient T = .success ∧ m.requesterOutcomes.connect T ≠ .success

/-- The requester finds no transport, and registers for TURN. -/
structure RequesterFallsBack (m : Meeting) : Prop where
  sent : m.requesterOutcomes.sendFileRequest = .success
  lan : m.SameNat → m.ConnectFails .lan
  nat : m.requesterOutcomes.initPunch = .error ∨ m.requesterOutcomes.initPunch = .success ∧
    (m.requesterOutcomes.holePunch = .success → m.ConnectFails .nat)
  registered : m.requesterOutcomes.register = .success

/-- The seeder goes to TURN without listening for a connection. -/
structure SeederFallsStraightBack (m : Meeting) : Prop where
  lan : ¬ m.SameNat
  nat : m.seederOutcomes.holePunchTrigger = .silence ∨ m.seederOutcomes.holePunch ≠ .success
  registered : m.seederOutcomes.register ≠ .error

variable {m : Meeting} {s t : Ladders} {a : Action}

/-! ### The requester alone -/

/-- What came of the calls that the requester has behind it. -/
structure RequesterPast (m : Meeting) (x : RequesterAt) : Prop where
  sent : x ≠ .requesting → x ≠ .returned → m.requesterOutcomes.sendFileRequest = .success
  client : ∀ T, x = .connecting T → m.requesterOutcomes.createQuicClient T = .success
  lan : x.GaveUp .lan → m.SameNat → m.ConnectFails .lan
  initPunch : x ∈ [.punching, .creatingClient .nat, .connecting .nat] →
    m.requesterOutcomes.initPunch = .success
  nat : x.GaveUp .nat → m.requesterOutcomes.initPunch = .error ∨
    m.requesterOutcomes.initPunch = .success ∧
      (m.requesterOutcomes.holePunch = .success → m.ConnectFails .nat)
  registered : x = .atBarrier → m.requesterOutcomes.register = .success

lemma requesterPast_start : m.RequesterPast m.start.requester where
  sent h := absurd rfl h
  client _ h := by cases h
  lan h := by simp [RequesterAt.GaveUp, start] at h
  initPunch h := by simp [start] at h
  nat h := by simp [RequesterAt.GaveUp, start] at h
  registered h := by cases h

/-- The steps of the requester. -/
inductive RequesterStep (m : Meeting) : RequesterAt → RequesterAt → Prop
  | lan (hsent : m.requesterOutcomes.sendFileRequest = .success) :
    RequesterStep m .requesting (.creatingClient .lan)
  | punch (hsent : m.requesterOutcomes.sendFileRequest = .success) (hlan : ¬ m.SameNat) :
    RequesterStep m .requesting .initiatingPunch
  | connect {T : Transport} (hclient : m.requesterOutcomes.createQuicClient T = .success) :
    RequesterStep m (.creatingClient T) (.connecting T)
  | fail {T : Transport} (hconnect : m.requesterOutcomes.connect T ≠ .success) :
    RequesterStep m (.connecting T) T.requesterNext
  | punched (hpunch : m.requesterOutcomes.initPunch = .success) :
    RequesterStep m .initiatingPunch .punching
  | unpunched (hpunch : m.requesterOutcomes.initPunch = .error) :
    RequesterStep m .initiatingPunch .registering
  | socket : RequesterStep m .punching (.creatingClient .nat)
  | noSocket (hsocket : m.requesterOutcomes.holePunch ≠ .success) :
    RequesterStep m .punching .registering
  | register (hregister : m.requesterOutcomes.register = .success) :
    RequesterStep m .registering .atBarrier
  | giveUp {x : RequesterAt} : RequesterStep m x .returned

lemma requesterStep_of_next {x y : RequesterAt}
    (h : x.next m.requester m.seeder m.requesterOutcomes = some y) : m.RequesterStep x y := by
  cases x with
  | requesting =>
    simp only [RequesterAt.next] at h
    split at h <;> cases h
    · split_ifs with hip
      · exact .lan ‹_›
      · exact .punch ‹_› fun hsame => hip hsame.symm
    · exact .giveUp
  | creatingClient T =>
    simp only [RequesterAt.next] at h
    split at h <;> cases h
    · exact .connect ‹_›
    · exact .giveUp
  | connecting T =>
    cases hconnect : m.requesterOutcomes.connect T with
    | success =>
      simp only [RequesterAt.next, hconnect, Option.some.injEq] at h
      exact h ▸ .giveUp
    | error =>
      simp only [RequesterAt.next, hconnect, Option.some.injEq] at h
      exact h ▸ .fail (by simp [hconnect])
    | silence =>
      simp only [RequesterAt.next, hconnect, Option.some.injEq] at h
      exact h ▸ .fail (by simp [hconnect])
  | initiatingPunch =>
    simp only [RequesterAt.next] at h
    split at h <;> cases h
    · exact .punched ‹_›
    · exact .unpunched ‹_›
  | punching =>
    cases hsocket : m.requesterOutcomes.holePunch with
    | success =>
      simp only [RequesterAt.next, hsocket, Option.some.injEq] at h
      exact h ▸ .socket
    | error =>
      simp only [RequesterAt.next, hsocket, Option.some.injEq] at h
      exact h ▸ .noSocket (by simp [hsocket])
    | silence =>
      simp only [RequesterAt.next, hsocket, Option.some.injEq] at h
      exact h ▸ .noSocket (by simp [hsocket])
  | registering =>
    simp only [RequesterAt.next] at h
    split at h <;> cases h
    · exact .register ‹_›
    · exact .giveUp
  | atBarrier => cases h
  | leeching  => cases h
  | returned  => cases h

/-- Past a connection that failed. -/
lemma RequesterPast.fail {T : Transport} (hx : m.RequesterPast (.connecting T))
    (hconnect : m.requesterOutcomes.connect T ≠ .success) :
    m.RequesterPast T.requesterNext := by
  have hfails : m.ConnectFails T := ⟨hx.client T rfl, hconnect⟩
  have hsent := hx.sent (by simp) (by simp)
  cases T with
  | lan => exact ⟨fun _ _ => hsent, by simp [Transport.requesterNext], fun _ _ => hfails,
      by simp [Transport.requesterNext], by simp [Transport.requesterNext, RequesterAt.GaveUp],
      by simp [Transport.requesterNext]⟩
  | nat =>
    have hlan := hx.lan (by simp [RequesterAt.GaveUp])
    have hpunch := hx.initPunch (by simp)
    exact ⟨fun _ _ => hsent, by simp [Transport.requesterNext], fun _ => hlan,
      by simp [Transport.requesterNext], fun _ => .inr ⟨hpunch, fun _ => hfails⟩,
      by simp [Transport.requesterNext]⟩

lemma RequesterPast.next {x y : RequesterAt} (hx : m.RequesterPast x)
    (h : x.next m.requester m.seeder m.requesterOutcomes = some y) : m.RequesterPast y := by
  cases requesterStep_of_next h with
  | lan hsent =>
    exact ⟨fun _ _ => hsent, by simp, by simp [RequesterAt.GaveUp], by simp,
      by simp [RequesterAt.GaveUp], by simp⟩
  | punch hsent hlan =>
    exact ⟨fun _ _ => hsent, by simp, fun _ hip => absurd hip hlan, by simp,
      by simp [RequesterAt.GaveUp], by simp⟩
  | @connect T hclient =>
    have hsent := hx.sent (by simp) (by simp)
    refine ⟨fun _ _ => hsent, fun T' hT => ?_, fun hgave => hx.lan ?_, fun hmem => hx.initPunch ?_,
      by simp [RequesterAt.GaveUp], by simp⟩
    · cases hT
      exact hclient
    · simpa [RequesterAt.GaveUp] using hgave
    · simpa using hmem
  | fail hconnect => exact hx.fail hconnect
  | punched hpunch =>
    have hsent := hx.sent (by simp) (by simp)
    have hlan := hx.lan (by simp [RequesterAt.GaveUp])
    exact ⟨fun _ _ => hsent, by simp, fun _ => hlan, fun _ => hpunch,
      by simp [RequesterAt.GaveUp], by simp⟩
  | unpunched hpunch =>
    have hsent := hx.sent (by simp) (by simp)
    have hlan := hx.lan (by simp [RequesterAt.GaveUp])
    exact ⟨fun _ _ => hsent, by simp, fun _ => hlan, by simp, fun _ => .inl hpunch, by simp⟩
  | socket =>
    have hsent := hx.sent (by simp) (by simp)
    have hlan := hx.lan (by simp [RequesterAt.GaveUp])
    have hpunch := hx.initPunch (by simp)
    exact ⟨fun _ _ => hsent, by simp, fun _ => hlan, fun _ => hpunch,
      by simp [RequesterAt.GaveUp], by simp⟩
  | noSocket hsocket =>
    have hsent := hx.sent (by simp) (by simp)
    have hlan := hx.lan (by simp [RequesterAt.GaveUp])
    have hpunch := hx.initPunch (by simp)
    exact ⟨fun _ _ => hsent, by simp, fun _ => hlan, by simp,
      fun _ => .inr ⟨hpunch, fun h => absurd h hsocket⟩, by simp⟩
  | register hregister =>
    have hsent := hx.sent (by simp) (by simp)
    have hlan := hx.lan (by simp [RequesterAt.GaveUp])
    have hnat := hx.nat (by simp [RequesterAt.GaveUp])
    exact ⟨fun _ _ => hsent, by simp, fun _ => hlan, by simp, fun _ => hnat, fun _ => hregister⟩
  | giveUp =>
    exact ⟨fun _ h => absurd rfl h, by simp, by simp [RequesterAt.GaveUp], by simp,
      by simp [RequesterAt.GaveUp], by simp⟩

/-- A step of the requester. -/
lemma requester_step {x : SeederAt} {y z : RequesterAt}
    (h : y.next m.requester m.seeder m.requesterOutcomes = some z) :
    Reaches m.step (fun _ => True) ⟨x, y⟩ ⟨x, z⟩ :=
  .single (a := .requester) (by simp [step, h]) trivial

/-- From where it punches or begins to, the requester gets past the NAT when nothing connects. -/
lemma requester_past_nat (x : SeederAt) (h : m.RequesterFallsBack) :
    Reaches m.step (fun _ => True) ⟨x, .initiatingPunch⟩ ⟨x, .registering⟩ := by
  rcases h.nat with hpunch | ⟨hpunch, hconnect⟩
  · exact requester_step (by simp [RequesterAt.next, hpunch])
  · refine (requester_step (z := .punching) (by simp [RequesterAt.next, hpunch])).trans ?_
    by_cases hsocket : m.requesterOutcomes.holePunch = .success
    · obtain ⟨hclient, hfails⟩ := hconnect hsocket
      refine (requester_step (z := .creatingClient .nat) ?_).trans ?_
      · simp [RequesterAt.next, hsocket]
      refine (requester_step (z := .connecting .nat) ?_).trans (requester_step ?_)
      · simp [RequesterAt.next, hclient]
      · simp only [RequesterAt.next]
        split <;> simp_all [Transport.requesterNext]
    · apply requester_step
      simp only [RequesterAt.next]
      split <;> simp_all

/-- The requester gets to the barrier, wherever the seeder is. -/
lemma requester_reaches (x : SeederAt) (h : m.RequesterFallsBack) :
    Reaches m.step (fun _ => True) ⟨x, .requesting⟩ ⟨x, .atBarrier⟩ := by
  have hpunch : Reaches m.step (fun _ => True) ⟨x, .requesting⟩ ⟨x, .initiatingPunch⟩ := by
    by_cases hip : m.SameNat
    · obtain ⟨hclient, hfails⟩ := h.lan hip
      refine (requester_step (z := .creatingClient .lan) ?_).trans ?_
      · simp [RequesterAt.next, h.sent, Eq.symm hip]
      refine (requester_step (z := .connecting .lan) ?_).trans (requester_step ?_)
      · simp [RequesterAt.next, hclient]
      · simp only [RequesterAt.next]
        split <;> simp_all [Transport.requesterNext]
    · have hip : ¬ m.requester.ipaddr = m.seeder.ipaddr := fun h => hip h.symm
      exact requester_step (by simp [RequesterAt.next, h.sent, hip])
  refine (hpunch.trans (requester_past_nat x h)).trans (requester_step ?_)
  simp [RequesterAt.next, h.registered]

/-! ### The seeder alone -/

/-- A seeder that goes to TURN without listening is on its way there. -/
def SeederPast (m : Meeting) (x : SeederAt) : Prop :=
  x = .awaitingTrigger ∨ (x = .punching ∧ m.seederOutcomes.holePunchTrigger ≠ .silence) ∨
    x = .registering ∨ x = .atBarrier ∨ x = .seeding

lemma SeederPast.next {x y : SeederAt} (h : m.SeederFallsStraightBack) (hx : m.SeederPast x)
    (hy : x.next m.seederOutcomes = some y) : m.SeederPast y := by
  obtain rfl | ⟨rfl, htrigger⟩ | rfl | rfl | rfl := hx
  · simp only [SeederAt.next] at hy
    split at hy <;> cases hy <;> simp_all [SeederPast]
  · have hpunch := h.nat.resolve_left htrigger
    simp only [SeederAt.next] at hy
    split at hy <;> cases hy <;> simp_all [SeederPast]
  · have hregistered := h.registered
    simp only [SeederAt.next] at hy
    split at hy <;> cases hy <;> simp_all [SeederPast]
  · cases hy
  · cases hy

/-- A step of the seeder. -/
lemma seeder_step {x y : SeederAt} {z : RequesterAt} (h : x.next m.seederOutcomes = some y) :
    Reaches m.step (fun _ => True) ⟨x, z⟩ ⟨y, z⟩ :=
  .single (a := .seeder) (by simp [step, h]) trivial

/-- Any other seeder gets to a place where it returns or waits for a transport. -/
lemma seeder_reaches (h : ¬ m.SeederFallsStraightBack) :
    ∃ x, Reaches m.step (fun _ => True) m.start ⟨x, .requesting⟩ ∧
      (x = .returned ∨ ∃ T, x.WaitsOn T) := by
  by_cases hlan : m.SameNat
  · refine ⟨.creatingServer .lan, ?_, .inr ⟨.lan, .inl rfl⟩⟩
    have : m.start = ⟨.creatingServer .lan, .requesting⟩ := by
      simp [start, seederStart, show m.seeder.ipaddr = m.requester.ipaddr from hlan]
    rw [this]
    exact .refl _
  have hstart : m.start = ⟨.awaitingTrigger, .requesting⟩ := by
    simp [start, seederStart, show ¬ m.seeder.ipaddr = m.requester.ipaddr from hlan]
  rw [hstart]
  by_cases htrigger : m.seederOutcomes.holePunchTrigger = .silence
  · have hregister : m.seederOutcomes.register = .error := by
      by_contra hne
      exact h ⟨hlan, .inl htrigger, hne⟩
    refine ⟨.returned, ?_, .inl rfl⟩
    refine (seeder_step (y := .registering) ?_).trans (seeder_step ?_)
    · simp [SeederAt.next, htrigger]
    · simp [SeederAt.next, hregister]
  have hpunching : Reaches m.step (fun _ => True) ⟨.awaitingTrigger, .requesting⟩
      ⟨.punching, .requesting⟩ := by
    apply seeder_step
    simp only [SeederAt.next]
    split <;> simp_all
  by_cases hpunch : m.seederOutcomes.holePunch = .success
  · refine ⟨.creatingServer .nat, hpunching.trans (seeder_step ?_), .inr ⟨.nat, .inl rfl⟩⟩
    simp [SeederAt.next, hpunch]
  · have hregister : m.seederOutcomes.register = .error := by
      by_contra hne
      exact h ⟨hlan, .inr hpunch, hne⟩
    refine ⟨.returned, hpunching.trans ?_, .inl rfl⟩
    refine (seeder_step (y := .registering) ?_).trans (seeder_step ?_)
    · simp only [SeederAt.next]
      split <;> simp_all
    · simp [SeederAt.next, hregister]

/-! ### Together -/

/-- A step moves one peer, or opens the barrier for both. -/
lemma step_cases (h : m.step s a = some t) :
    (∃ x, s.seeder.next m.seederOutcomes = some x ∧ t = { s with seeder := x }) ∨
    (∃ x, s.requester.next m.requester m.seeder m.requesterOutcomes = some x ∧
      t = { s with requester := x }) ∨
    (s.seeder = .atBarrier ∧ s.requester = .atBarrier ∧ t = ⟨.seeding, .leeching⟩) := by
  cases a with
  | seeder =>
    obtain ⟨x, hx, rfl⟩ := Option.map_eq_some_iff.mp h
    exact .inl ⟨x, hx, rfl⟩
  | requester =>
    obtain ⟨x, hx, rfl⟩ := Option.map_eq_some_iff.mp h
    exact .inr (.inl ⟨x, hx, rfl⟩)
  | release =>
    simp only [step] at h
    split_ifs at h with hs
    exact .inr (.inr ⟨hs.1, hs.2, (Option.some.inj h).symm⟩)

lemma requesterPast_step (hs : m.RequesterPast s.requester) (h : m.step s a = some t) :
    m.RequesterPast t.requester := by
  obtain ⟨x, -, rfl⟩ | ⟨x, hx, rfl⟩ | ⟨-, hbarrier, rfl⟩ := step_cases h
  · exact hs
  · exact hs.next hx
  · obtain ⟨hsent, -, hlan, -, hnat, -⟩ := hs
    constructor <;> simp_all [RequesterAt.GaveUp]

lemma seederPast_step (hm : m.SeederFallsStraightBack) (hs : m.SeederPast s.seeder)
    (h : m.step s a = some t) : m.SeederPast t.seeder := by
  obtain ⟨x, hx, rfl⟩ | ⟨x, -, rfl⟩ | ⟨-, -, rfl⟩ := step_cases h
  · exact hs.next hm hx
  · exact hs
  · exact .inr (.inr (.inr (.inr rfl)))

/-- Both peers reach TURN together, whatever the timing, exactly when the requester never waits
there or the seeder goes there without listening for a connection. -/
theorem reach_turn_together_iff (m : Meeting) :
    (∀ tr s, Run m.step m.start tr s → ¬ s.Stranded) ↔
      ¬ m.RequesterFallsBack ∨ m.SeederFallsStraightBack := by
  constructor
  · intro h
    by_contra hm
    obtain ⟨hrequester, hseeder⟩ := not_or.mp hm
    obtain ⟨x, hx, hplace⟩ := seeder_reaches hseeder
    obtain ⟨tr, hrun, -⟩ := hx.trans (requester_reaches x (not_not.mp hrequester))
    refine h tr _ hrun ⟨rfl, hplace.imp_right ?_⟩
    rintro ⟨T, hT⟩
    exact ⟨T, hT, by cases T <;> simp [RequesterAt.GaveUp]⟩
  · rintro (hm | hm) tr s hrun ⟨hbarrier, hseeder⟩
    · have hpast : m.RequesterPast s.requester :=
        hrun.preserve (I := fun s => m.RequesterPast s.requester)
          (fun _ _ _ => requesterPast_step) requesterPast_start
      rw [hbarrier] at hpast
      apply hm
      exact ⟨hpast.sent (by simp) (by simp), hpast.lan (by simp [RequesterAt.GaveUp]),
        hpast.nat (by simp [RequesterAt.GaveUp]), hpast.registered rfl⟩
    · have hstart : m.SeederPast m.start.seeder := by
        simp [SeederPast, start, seederStart,
          show ¬ m.seeder.ipaddr = m.requester.ipaddr from hm.lan]
      have hpast : m.SeederPast s.seeder :=
        hrun.preserve (I := fun s => m.SeederPast s.seeder)
          (fun _ _ _ => seederPast_step hm) hstart
      obtain hreturned | ⟨T, hT, -⟩ := hseeder
      · simp [SeederPast, hreturned] at hpast
      · rcases hT with hT | hT <;> simp [SeederPast, hT] at hpast

/-- Two peers behind one public address whose packets do not get through the LAN: the seeder waits
in `accept`, and so is not there for `init_punch`. -/
def silentLan : Meeting where
  seeder := ⟨1, 1, 1, 1⟩
  requester := ⟨1, 2, 2, 2⟩
  seederOutcomes := ⟨fun _ => .success, fun _ => .silence, fun _ => .silence, .silence, .error,
    .success⟩
  requesterOutcomes := ⟨.success, fun _ => .success, fun _ => .silence, .error, .error, .success⟩

theorem requester_stranded : ¬ ∀ (m : Meeting) tr s, Run m.step m.start tr s → ¬ s.Stranded := by
  intro h
  have hexec : exec silentLan.step silentLan.start
      [.seeder, .requester, .requester, .requester, .requester, .requester]
      = some ⟨.accepting .lan, .atBarrier⟩ := by decide
  obtain ⟨tr, hrun, -⟩ := run_of_exec hexec
  exact h silentLan tr _ hrun ⟨rfl, .inr ⟨.lan, .inr rfl, by simp [RequesterAt.GaveUp]⟩⟩

end Meeting

end BearTorrent
