import BearTorrent.Server.Delisting

/-!
# The hole punch trigger

Calls of `await_hole_punch_trigger` and `init_punch` in any order, together with the requests of the
tracker. A call that waits holds the receiver of a watch channel; its sender is in
`init_hole_punch`, from where `init_punch` does not take it. The loop of `init_punch` never gets to
its `sleep`, so that the call is one step.
-/

namespace BearTorrent

open Function Transition ConnectionService

/-- How far a call of `await_hole_punch_trigger` has come. -/
inductive WaitState where
  | waiting
  /-- a value is sent, and not seen yet -/
  | notified
  | released
  /-- the sender was dropped before it sent a value -/
  | closed
  /-- the caller has gone away -/
  | cancelled
  deriving DecidableEq

structure Wait where
  key : PeerId
  state : WaitState
  deriving DecidableEq

/-- The receiver still exists. -/
def Wait.listens (w : Wait) : Bool := w.state = .waiting ∨ w.state = .notified

/-- A value arrives at the receiver. -/
def Wait.notify (w : Wait) : Wait := if w.listens then { w with state := .notified } else w

/-- A call of `init_punch`, and its reply once it has returned. -/
structure Punch where
  key : PeerId
  reply : Option (Except Failure Unit)

/-- The service with the calls around `init_hole_punch`. The sender of a call that waits is known by
the number of the call. -/
structure HolePunch where
  service : ConnectionService
  waits : ℕ → Option Wait
  punches : ℕ → Option Punch
  /-- milliseconds since the start -/
  clock : ℕ

namespace HolePunch

def init : HolePunch := ⟨.default, fun _ => none, fun _ => none, 0⟩

inductive Action where
  | request (r : ServerRequest)
  /-- `await_hole_punch_trigger` registers its watch -/
  | await (i : ℕ) (p : PeerId)
  /-- its `changed` returns -/
  | changed (i : ℕ)
  | cancel (i : ℕ)
  /-- `init_punch` is called -/
  | punch (j : ℕ) (p : PeerId)
  /-- `init_punch` looks for the sender -/
  | look (j : ℕ)
  | tick

/-- The receiver of a sender still exists. -/
def alive (s : HolePunch) (tx : SenderId) : Bool := (s.waits tx).any Wait.listens

/-- The calls that wait, when a value is sent to the sender under a peer id. -/
def notify (s : HolePunch) (p : PeerId) (i : ℕ) : Option Wait :=
  if s.service.initHolePunch.lookup p = some i then (s.waits i).map Wait.notify else s.waits i

def setWait (s : HolePunch) (i : ℕ) (w : Wait) : HolePunch :=
  { s with waits := update s.waits i (some w) }

def setPunch (s : HolePunch) (j : ℕ) (x : Punch) : HolePunch :=
  { s with punches := update s.punches j (some x) }

/-- `changed` returns when there is a new value, and fails when the sender is gone. -/
def changed (s : HolePunch) (i : ℕ) : Option HolePunch :=
  match s.waits i with
  | none   => none
  | some w =>
    match w.state with
    | .notified => some (s.setWait i { w with state := .released })
    | .waiting  =>
      if s.service.initHolePunch.lookup w.key = some i then none
      else some (s.setWait i { w with state := .closed })
    | _         => none

def step (s : HolePunch) : Action → Option HolePunch
  | .request r => (s.service.step r).map fun service => { s with service }
  | .await i p =>
    match s.waits i with
    | some _ => none
    | none   =>
      let service := (s.service.run (awaitHolePunchTrigger p i)).2
      some { s.setWait i ⟨p, .waiting⟩ with service }
  | .changed i => s.changed i
  | .cancel i  =>
    match s.waits i with
    | some w => if w.listens then some (s.setWait i { w with state := .cancelled }) else none
    | none   => none
  | .punch j p =>
    match s.punches j with
    | some _ => none
    | none   => some (s.setPunch j ⟨p, none⟩)
  | .look j    =>
    match s.punches j with
    | some ⟨p, none⟩ =>
      let reply := (s.service.run (initPunch s.alive p attempts)).1
      some { s.setPunch j ⟨p, some reply⟩ with waits := s.notify p }
    | _              => none
  | .tick      => some { s with clock := s.clock + 1 }

/-! ### What a step can do -/

/-- The effects of the steps, with their guards. -/
inductive HolePunchStep (s : HolePunch) : Action → HolePunch → Prop
  | request {r : ServerRequest} {service : ConnectionService}
      (hr : s.service.step r = some service) :
      HolePunchStep s (.request r) { s with service }
  | await {i : ℕ} {p : PeerId} (hi : s.waits i = none) :
      HolePunchStep s (.await i p)
        { s.setWait i ⟨p, .waiting⟩ with
          service := s.service.insertSender p i .initHolePunch }
  | released {i : ℕ} {p : PeerId} (hi : s.waits i = some ⟨p, .notified⟩) :
      HolePunchStep s (.changed i) (s.setWait i ⟨p, .released⟩)
  | closed {i : ℕ} {p : PeerId} (hi : s.waits i = some ⟨p, .waiting⟩)
      (hgone : s.service.initHolePunch.lookup p ≠ some i) :
      HolePunchStep s (.changed i) (s.setWait i ⟨p, .closed⟩)
  | cancel {i : ℕ} {w : Wait} (hi : s.waits i = some w) :
      HolePunchStep s (.cancel i) (s.setWait i { w with state := .cancelled })
  | punch {j : ℕ} {p : PeerId} (hj : s.punches j = none) :
      HolePunchStep s (.punch j p) (s.setPunch j ⟨p, none⟩)
  | look {j : ℕ} {p : PeerId} {reply : Except Failure Unit} (hj : s.punches j = some ⟨p, none⟩)
      (hreply : reply = (s.service.run (initPunch s.alive p attempts)).1) :
      HolePunchStep s (.look j)
        { s.setPunch j ⟨p, some reply⟩ with waits := s.notify p }
  | tick : HolePunchStep s .tick { s with clock := s.clock + 1 }

variable {s t : HolePunch} {a : Action} {i j : ℕ} {p : PeerId}

/-- All that a step can do. -/
lemma holePunchStep_of_eq_some (h : s.step a = some t) : HolePunchStep s a t := by
  cases a with
  | request r =>
    obtain ⟨service, hr, rfl⟩ := Option.map_eq_some_iff.mp h
    exact .request hr
  | await i p =>
    simp only [step] at h
    split at h
    · cases h
    · rename_i hi
      cases h
      exact .await hi
  | changed i =>
    simp only [step, changed] at h
    split at h
    · cases h
    · rename_i w hi
      obtain ⟨p, state⟩ := w
      split at h
      · rename_i hstate
        cases h
        obtain rfl : state = .notified := hstate
        exact .released hi
      · rename_i hstate
        split_ifs at h with hgone
        cases h
        obtain rfl : state = .waiting := hstate
        exact .closed hi hgone
      · cases h
  | cancel i =>
    simp only [step] at h
    split at h
    · rename_i w hi
      split_ifs at h
      cases h
      exact .cancel hi
    · cases h
  | punch j p =>
    simp only [step] at h
    split at h
    · cases h
    · rename_i hj
      cases h
      exact .punch hj
  | look j =>
    simp only [step] at h
    split at h
    · rename_i p hj
      cases h
      exact .look hj rfl
    · cases h
  | tick =>
    cases h
    exact .tick

/-! ### Two calls that meet -/

/-- Every sender is the one of a call that has registered it. -/
def Placed (s : HolePunch) : Prop :=
  ∀ k r, s.service.initHolePunch.lookup k = some r → ∃ state, s.waits r = some ⟨k, state⟩

lemma waits_setWait {w : Wait} {k : ℕ} (hk : k ≠ i) : (s.setWait i w).waits k = s.waits k :=
  update_of_ne hk _ _

/-- What a step can do to one of the calls that wait. -/
inductive WaitStep (s : HolePunch) (a : Action) (i : ℕ) : Option Wait → Prop
  | keep : WaitStep s a i (s.waits i)
  | await {p : PeerId} (ha : a = .await i p) (hi : s.waits i = none) :
      WaitStep s a i (some ⟨p, .waiting⟩)
  | released {p : PeerId} (hi : s.waits i = some ⟨p, .notified⟩) :
      WaitStep s a i (some ⟨p, .released⟩)
  | closed {p : PeerId} (hi : s.waits i = some ⟨p, .waiting⟩)
      (hgone : s.service.initHolePunch.lookup p ≠ some i) :
      WaitStep s a i (some ⟨p, .closed⟩)
  | cancel {w : Wait} (ha : a = .cancel i) (hi : s.waits i = some w) :
      WaitStep s a i (some { w with state := .cancelled })
  | notify {k : ℕ} {p : PeerId} (ha : a = .look k) (hk : s.punches k = some ⟨p, none⟩)
      (hlookup : s.service.initHolePunch.lookup p = some i) :
      WaitStep s a i ((s.waits i).map Wait.notify)

/-- All that a step can do to a call. -/
lemma waitStep_of_eq_some (h : s.step a = some t) (i : ℕ) :
    ∃ w, t.waits i = w ∧ WaitStep s a i w := by
  have hset : ∀ {k w}, t.waits = (s.setWait k w).waits → (k = i → WaitStep s a i (some w)) →
      ∃ w, t.waits i = w ∧ WaitStep s a i w := by
    intro k w ht hw
    by_cases hk : i = k
    · subst hk
      exact ⟨_, (congrFun ht i).trans (update_self _ _ _), hw rfl⟩
    · exact ⟨_, (congrFun ht i).trans (waits_setWait hk), .keep⟩
  cases holePunchStep_of_eq_some h with
  | await hi => exact hset rfl fun hk => .await (hk ▸ rfl) (hk ▸ hi)
  | released hi => exact hset rfl fun hk => .released (hk ▸ hi)
  | closed hi hgone => exact hset rfl fun hk => .closed (hk ▸ hi) (hk ▸ hgone)
  | cancel hi => exact hset rfl fun hk => .cancel (hk ▸ rfl) (hk ▸ hi)
  | @look k p reply hk hreply =>
    refine ⟨s.notify p i, rfl, ?_⟩
    rw [notify]
    split_ifs with hlookup
    · exact .notify rfl hk hlookup
    · exact .keep
  | _ => exact ⟨_, rfl, .keep⟩

/-- A call stays, with its key. -/
lemma waits_step {k : PeerId} (h : s.step a = some t) (hi : ∃ state, s.waits i = some ⟨k, state⟩) :
    ∃ state, t.waits i = some ⟨k, state⟩ := by
  obtain ⟨state, hi⟩ := hi
  obtain ⟨w, hw, hstep⟩ := waitStep_of_eq_some h i
  rw [hw]
  cases hstep with
  | keep => exact ⟨state, hi⟩
  | await _ hnone => exact absurd (hnone.symm.trans hi) (by simp)
  | released hi' =>
    obtain ⟨rfl, -⟩ := Wait.mk.inj (Option.some.inj (hi'.symm.trans hi))
    exact ⟨_, rfl⟩
  | closed hi' _ =>
    obtain ⟨rfl, -⟩ := Wait.mk.inj (Option.some.inj (hi'.symm.trans hi))
    exact ⟨_, rfl⟩
  | cancel _ hi' =>
    obtain rfl := Option.some.inj (hi'.symm.trans hi)
    exact ⟨_, rfl⟩
  | notify _ _ _ =>
    rw [hi, Option.map_some, Wait.notify]
    split_ifs
    · exact ⟨_, rfl⟩
    · exact ⟨_, rfl⟩

lemma Placed.step (hs : s.Placed) (h : s.step a = some t) : t.Placed := by
  intro k r hr
  have hold : s.service.initHolePunch.lookup k = some r → ∃ state, t.waits r = some ⟨k, state⟩ :=
    fun hlookup => waits_step h (hs k r hlookup)
  cases holePunchStep_of_eq_some h with
  | request hrequest =>
    rcases lookup_senders_step hrequest .initHolePunch k with heq | ⟨hnone, -⟩
    · exact hold (heq.symm.trans hr)
    · exact absurd (hnone.symm.trans hr) (by simp)
  | @await i p hi =>
    by_cases hk : k = p
    · subst hk
      obtain rfl : i = r := Option.some.inj ((AList.lookup_insert _).symm.trans hr)
      exact ⟨.waiting, update_self _ _ _⟩
    · exact hold ((AList.lookup_insert_ne hk).symm.trans hr)
  | _ => exact hold hr

lemma placed_run {tr : List (HolePunch × Action)} (hrun : Run step init tr s) : s.Placed :=
  hrun.preserve (fun _ _ _ hs h => hs.step h) fun k r hr => by cases hr

/-- Among the calls on the peer id `p` there is only call `i` that waits and call `j` that punches;
the first is not cancelled, and its sender not removed from outside. -/
def Undisturbed (i j : ℕ) (p : PeerId) (s : HolePunch) : Action → Prop
  | .await k q                  => k = i ↔ q = p
  | .punch k q                  => k = j ↔ q = p
  | .cancel k                   => k ≠ i
  | .request (.delistClient c)  => s.service.peerIdOf c ≠ some p
  | _                           => True

/-- A call of `init_punch` that has returned stays so. -/
lemma punches_step {reply : Except Failure Unit} (h : s.step a = some t)
    (hj : s.punches j = some ⟨p, some reply⟩) : t.punches j = some ⟨p, some reply⟩ := by
  have hset : ∀ {k x}, s.punches k ≠ some ⟨p, some reply⟩ →
      (s.setPunch k x).punches j = some ⟨p, some reply⟩ := by
    intro k x hk
    have hjk : j ≠ k := by
      rintro rfl
      exact hk hj
    exact (update_of_ne hjk _ _).trans hj
  cases holePunchStep_of_eq_some h with
  | punch hk => exact hset (by simp [hk])
  | look hk hreply => exact hset (by simp [hk])
  | _ => exact hj

/-- No call of `init_punch` on the peer id is about to look, but possibly call `j`. -/
def OnlyPunch (j : ℕ) (p : PeerId) (s : HolePunch) : Prop :=
  ∀ k, s.punches k = some ⟨p, none⟩ → k = j

lemma OnlyPunch.step (hs : s.OnlyPunch j p) (ha : s.Undisturbed i j p a) (h : s.step a = some t) :
    t.OnlyPunch j p := by
  intro k hk
  cases holePunchStep_of_eq_some h with
  | @punch l q hl =>
    by_cases hkl : k = l
    · subst hkl
      obtain rfl : q = p := by simpa [setPunch] using hk
      exact ha.mpr rfl
    · exact hs k ((update_of_ne hkl _ _).symm.trans hk)
  | @look l q reply hl hreply =>
    by_cases hkl : k = l
    · subst hkl
      simp [setPunch] at hk
    · exact hs k ((update_of_ne hkl _ _).symm.trans hk)
  | _ => exact hs k hk

/-- The call has registered its watch and waits. -/
structure Registered (i : ℕ) (p : PeerId) (s : HolePunch) : Prop where
  sender : s.service.initHolePunch.lookup p = some i
  waits : s.waits i = some ⟨p, .waiting⟩

/-- A call waits until it is punched. -/
lemma Registered.step (hs : s.Registered i p) (honly : s.OnlyPunch j p)
    (ha : s.Undisturbed i j p a) (hlook : a ≠ .look j) (hplaced : s.Placed)
    (h : s.step a = some t) : t.Registered i p := by
  obtain ⟨hsender, hwaits⟩ := hs
  constructor
  · cases holePunchStep_of_eq_some h with
    | @request r service hr =>
      rcases lookup_senders_step hr .initHolePunch p with heq | ⟨-, c, rfl, hc⟩
      · exact heq.trans hsender
      · exact absurd hc ha
    | @await k q hk =>
      have hpq : p ≠ q := by
        rintro rfl
        obtain rfl := ha.mpr rfl
        exact absurd (hk.symm.trans hwaits) (by simp)
      exact (AList.lookup_insert_ne hpq).trans hsender
    | _ => exact hsender
  · obtain ⟨w, hw, hstep⟩ := waitStep_of_eq_some h i
    rw [hw]
    cases hstep with
    | keep => exact hwaits
    | await _ hi => exact absurd (hi.symm.trans hwaits) (by simp)
    | released hi => exact absurd (hi.symm.trans hwaits) (by simp)
    | closed hi hgone =>
      obtain ⟨rfl, -⟩ := Wait.mk.inj (Option.some.inj (hi.symm.trans hwaits))
      exact absurd hsender hgone
    | cancel hcancel _ =>
      subst hcancel
      exact absurd rfl ha
    | @notify k q hk hpunch hlookup =>
      -- the key of the sender is that of the call, and only `j` may punch there
      obtain ⟨state, hstate⟩ := hplaced q i hlookup
      obtain ⟨rfl, -⟩ := Wait.mk.inj (Option.some.inj (hstate.symm.trans hwaits))
      obtain rfl := honly k hpunch
      exact absurd hk hlook

/-- `init_punch` has returned `Ok`, and the call that waits has its value. -/
structure Met (i j : ℕ) (p : PeerId) (s : HolePunch) : Prop where
  reply : s.punches j = some ⟨p, some (.ok ())⟩
  waits : s.waits i = some ⟨p, .notified⟩ ∨ s.waits i = some ⟨p, .released⟩

/-- A value that has arrived is not lost. -/
lemma Met.step (hs : s.Met i j p) (ha : s.Undisturbed i j p a) (h : s.step a = some t) :
    t.Met i j p := by
  refine ⟨punches_step h hs.reply, ?_⟩
  have hwaits := hs.waits
  obtain ⟨w, hw, hstep⟩ := waitStep_of_eq_some h i
  rw [hw]
  cases hstep with
  | keep => exact hwaits
  | await _ hi => simp [hi] at hwaits
  | released hi =>
    right
    simpa [hi] using hwaits
  | closed hi _ => simp [hi] at hwaits
  | cancel hcancel _ =>
    subst hcancel
    exact absurd rfl ha
  | notify _ _ _ =>
    rcases hwaits with hwaits | hwaits
    · exact .inl (by simp [hwaits, Wait.notify, Wait.listens])
    · exact .inr (by simp [hwaits, Wait.notify, Wait.listens])

/-- `init_punch` has returned, and the call that waits has not registered before. -/
structure Missed (i j : ℕ) (p : PeerId) (s : HolePunch) : Prop where
  reply : ∃ reply, s.punches j = some ⟨p, some reply⟩
  waits : s.waits i = none ∨ s.waits i = some ⟨p, .waiting⟩ ∨ s.waits i = some ⟨p, .closed⟩

/-- No value arrives after `init_punch` has returned. -/
lemma Missed.step (hs : s.Missed i j p) (hplaced : s.Placed) (honly : s.OnlyPunch j p)
    (ha : s.Undisturbed i j p a) (h : s.step a = some t) : t.Missed i j p := by
  obtain ⟨⟨reply, hreply⟩, hwaits⟩ := hs
  refine ⟨⟨reply, punches_step h hreply⟩, ?_⟩
  obtain ⟨w, hw, hstep⟩ := waitStep_of_eq_some h i
  rw [hw]
  cases hstep with
  | keep => exact hwaits
  | @await q hawait _ =>
    subst hawait
    obtain rfl : q = p := ha.mp rfl
    exact .inr (.inl rfl)
  | released hi => simp [hi] at hwaits
  | closed hi _ =>
    right
    right
    simpa [hi] using hwaits
  | cancel hcancel _ =>
    subst hcancel
    exact absurd rfl ha
  | @notify k q _ hk hlookup =>
    obtain ⟨state, hstate⟩ := hplaced q i hlookup
    obtain rfl : q = p := by
      rcases hwaits with hnone | hwaits | hwaits
      · exact absurd (hstate.symm.trans hnone) (by simp)
      · exact (Wait.mk.inj (Option.some.inj (hstate.symm.trans hwaits))).1
      · exact (Wait.mk.inj (Option.some.inj (hstate.symm.trans hwaits))).1
    obtain rfl := honly k hk
    exact absurd (hk.symm.trans hreply) (by simp)

/-- A look at the sender of a call that waits. -/
lemma Registered.look (hs : s.Registered i p) (hj : s.punches j = some ⟨p, none⟩)
    (h : s.step (.look j) = some t) : t.Met i j p := by
  cases holePunchStep_of_eq_some h with
  | @look _ q reply hj' hreply =>
    obtain rfl : q = p := by simpa using hj'.symm.trans hj
    have halive : s.alive i = true := by simp [alive, hs.waits, Wait.listens]
    have hok : reply = .ok () := by
      rw [hreply, run_initPunch, hs.sender]
      simp [sendTo, halive]
    constructor
    · rw [hok]
      exact update_self _ _ _
    · left
      change s.notify q i = _
      simp [notify, hs.sender, hs.waits, Wait.notify, Wait.listens]

/-- A look before the watch is registered. -/
lemma missed_of_look (hi : s.waits i = none) (hj : s.punches j = some ⟨p, none⟩)
    (h : s.step (.look j) = some t) : t.Missed i j p := by
  cases holePunchStep_of_eq_some h with
  | @look _ q reply hj' hreply =>
    obtain rfl : q = p := by simpa using hj'.symm.trans hj
    refine ⟨⟨reply, update_self _ _ _⟩, .inl ?_⟩
    change s.notify q i = none
    simp [notify, hi]

lemma registered_of_await (h : s.step (.await i p) = some t) : t.Registered i p := by
  cases holePunchStep_of_eq_some h with
  | await hi => exact ⟨AList.lookup_insert _, update_self _ _ _⟩

/-- A call whose `changed` has returned has nothing left to do. -/
lemma settled_of_changed (h : s.step (.changed i) = some t) : t.step (.changed i) = none := by
  cases holePunchStep_of_eq_some h with
  | released hi => simp [step, changed, setWait]
  | closed hi hgone => simp [step, changed, setWait]

/-- A call of `init_punch` that is about to look has not looked before. -/
lemma not_looked {tr : List (HolePunch × Action)} {s₀ : HolePunch} (hrun : Run step s₀ tr s)
    (hj : s.punches j = some ⟨p, none⟩) : ∀ q ∈ tr, q.2 ≠ .look j := by
  rintro ⟨u, a⟩ hq rfl
  obtain ⟨tr₁, tr₂, rfl, -⟩ := hrun.of_mem hq
  obtain ⟨v, -, hlook, hrest⟩ := hrun.split_cons
  cases holePunchStep_of_eq_some hlook with
  | @look _ q reply hk hreply =>
    have hreturned := hrest.preserve (I := fun s => s.punches j = some ⟨q, some reply⟩)
      (fun _ _ _ hs h => punches_step h hs) (update_self _ _ _)
    exact absurd (hreturned.symm.trans hj) (by simp)

/-- A call that registers its watch later does not exist yet. -/
lemma waits_of_await {tr : List (HolePunch × Action)} (hrun : Run step s tr t)
    (hawait : ∃ q ∈ tr, q.2 = .await i p) : s.waits i = none := by
  obtain ⟨⟨u, a⟩, hq, rfl⟩ := hawait
  obtain ⟨tr₁, tr₂, rfl, hu⟩ := hrun.of_mem hq
  obtain ⟨v, -, hstep, -⟩ := hrun.split_cons
  by_contra hi
  obtain ⟨⟨k, state⟩, hi⟩ := Option.ne_none_iff_exists'.mp hi
  obtain ⟨state', hi'⟩ := hu.preserve (I := fun s => ∃ state, s.waits i = some ⟨k, state⟩)
    (fun _ _ _ hs h => waits_step h hs) ⟨state, hi⟩
  cases holePunchStep_of_eq_some hstep with
  | await hnone => exact absurd (hnone.symm.trans hi') (by simp)

/-- Among the calls on a peer id, one call waits, and one calls `init_punch`. Once `changed` has
returned or is stuck, which it can always get to, `init_punch` has returned `Ok` and the call that
waits is released if and only if it had registered its watch before the first look. -/
theorem punch_meets_iff {tr₀ tr₁ tr₂ : List (HolePunch × Action)} {s₀ : HolePunch}
    (hstart : Run step init tr₀ s₀) (hrun : Run step s₀ (tr₁ ++ (s, .look j) :: tr₂) t)
    (honly : s₀.OnlyPunch j p) (hpunch : s.punches j = some ⟨p, none⟩)
    (hundisturbed : ∀ q ∈ tr₁ ++ tr₂, q.1.Undisturbed i j p q.2)
    (hawait : ∃ q ∈ tr₁ ++ tr₂, q.2 = .await i p) :
    (∃ u, Reaches step (· = .changed i) t u ∧ u.step (.changed i) = none) ∧
      (t.step (.changed i) = none →
        (t.punches j = some ⟨p, some (.ok ())⟩ ∧ t.waits i = some ⟨p, .released⟩ ↔
          ∃ q ∈ tr₁, q.2 = .await i p)) := by
  constructor
  · cases ht : t.step (.changed i) with
    | none => exact ⟨t, .refl t, ht⟩
    | some u => exact ⟨u, .single ht rfl, settled_of_changed ht⟩
  intro hsettled
  obtain ⟨u, hs, hlook, htail⟩ := hrun.split_cons
  have hbefore : ∀ q ∈ tr₁, q.1.Undisturbed i j p q.2 := fun q hq =>
    hundisturbed q (List.mem_append_left _ hq)
  have hafter : ∀ q ∈ tr₂, q.1.Undisturbed i j p q.2 := fun q hq =>
    hundisturbed q (List.mem_append_right _ hq)
  have honly_of : ∀ {tr v}, Run step s₀ tr v → (∀ q ∈ tr, q.1.Undisturbed i j p q.2) →
      v.OnlyPunch j p := fun hv htr =>
    hv.invariant (I := OnlyPunch j p) (fun _ _ _ hv ha h => hv.step ha h) htr honly
  by_cases hearly : ∃ q ∈ tr₁, q.2 = .await i p
  · refine iff_of_true ?_ hearly
    have hnotlooked := not_looked hs hpunch
    obtain ⟨⟨v, a⟩, hq, rfl⟩ := hearly
    obtain ⟨tr, tr', rfl, -⟩ := hs.of_mem hq
    obtain ⟨w, hv, hw, hs'⟩ := hs.split_cons
    have honly_w : w.OnlyPunch j p := honly_of (hv.snoc hw) fun q hq =>
      hbefore q (by simpa [or_assoc] using Or.inl (List.mem_append.mp hq))
    have hregistered : s.Registered i p ∧ s.Placed ∧ s.OnlyPunch j p :=
      hs'.invariant (P := fun s a => s.Undisturbed i j p a ∧ a ≠ .look j)
        (I := fun s => s.Registered i p ∧ s.Placed ∧ s.OnlyPunch j p)
        (fun _ _ _ hx ha h => ⟨hx.1.step hx.2.2 ha.1 ha.2 hx.2.1 h, hx.2.1.step h,
          hx.2.2.step ha.1 h⟩)
        (fun q hq => ⟨hbefore q (by simp [hq]), hnotlooked q (by simp [hq])⟩)
        ⟨registered_of_await hw, placed_run (hstart.append (hv.snoc hw)), honly_w⟩
    have hmet : t.Met i j p := htail.invariant (I := Met i j p)
      (fun _ _ _ hx ha h => hx.step ha h) hafter (hregistered.1.look hpunch hlook)
    refine ⟨hmet.reply, hmet.waits.resolve_left fun hnotified => ?_⟩
    simp [step, changed, hnotified] at hsettled
  · refine iff_of_false ?_ hearly
    have hnone : s.waits i = none := by
      obtain ⟨q, hq, ha⟩ := hawait
      have hlate : q ∈ tr₂ := (List.mem_append.mp hq).resolve_left fun hq => hearly ⟨q, hq, ha⟩
      exact waits_of_await ((Run.single hlook).append htail)
        ⟨q, List.mem_append_right _ hlate, ha⟩
    have hmissed : t.Missed i j p ∧ t.Placed ∧ t.OnlyPunch j p :=
      htail.invariant (I := fun s => s.Missed i j p ∧ s.Placed ∧ s.OnlyPunch j p)
        (fun _ _ _ hx ha h => ⟨hx.1.step hx.2.1 hx.2.2 ha h, hx.2.1.step h, hx.2.2.step ha h⟩)
        hafter ⟨missed_of_look hnone hpunch hlook,
          (placed_run (hstart.append hs)).step hlook,
          (honly_of hs hbefore).step (i := i) (a := .look j) trivial hlook⟩
    rintro ⟨-, hreleased⟩
    have hwaits := hmissed.1.waits
    simp [hreleased] at hwaits

def seederId : PeerId := ⟨1, 1, 1, 1⟩

lemma onlyPunch_init : init.OnlyPunch j p := fun k hk => by cases hk

theorem punch_meets_early : ∃ tr t, Run step init tr t ∧ tr.map Prod.snd =
      [.await 0 seederId, .punch 0 seederId, .look 0, .changed 0] ∧
    t.punches 0 = some ⟨seederId, some (.ok ())⟩ ∧ t.waits 0 = some ⟨seederId, .released⟩ := by
  obtain ⟨u, v, s, t, hu, hv, hs, ht, hpunch, hsettled⟩ : ∃ u v s t,
      init.step (.await 0 seederId) = some u ∧ u.step (.punch 0 seederId) = some v ∧
      v.step (.look 0) = some s ∧ s.step (.changed 0) = some t ∧
      v.punches 0 = some ⟨seederId, none⟩ ∧ t.step (.changed 0) = none :=
    ⟨_, _, _, _, rfl, rfl, rfl, rfl, rfl, rfl⟩
  have hrun : Run step init ([(init, .await 0 seederId), (u, .punch 0 seederId)] ++
      (v, .look 0) :: [(s, .changed 0)]) t := by
    simpa using (((Run.single hu).snoc hv).snoc hs).snoc ht
  have hmeets := (punch_meets_iff (.nil init) hrun onlyPunch_init hpunch
    (by simp [Undisturbed]) ⟨(init, .await 0 seederId), by simp, rfl⟩).2 hsettled
  exact ⟨_, t, hrun, rfl, hmeets.mpr ⟨(init, .await 0 seederId), by simp, rfl⟩⟩

/-- A seeder that registers its watch a millisecond after the first look is not woken, although
five looks 250 milliseconds apart would find it. -/
theorem late_watch_missed : ¬ ∀ (i j : ℕ) (p : PeerId) (tr₀ tr₁ tr₂ : List (HolePunch × Action))
    (s₀ s t : HolePunch), Run step init tr₀ s₀ → Run step s₀ (tr₁ ++ (s, .look j) :: tr₂) t →
    s₀.OnlyPunch j p → s.punches j = some ⟨p, none⟩ →
    (∀ q ∈ tr₁ ++ tr₂, q.1.Undisturbed i j p q.2) →
    (∃ q ∈ tr₁ ++ tr₂, q.2 = .await i p ∧ q.1.clock < s.clock + (attempts - 1) * 250) →
    t.step (.changed i) = none →
      t.punches j = some ⟨p, some (.ok ())⟩ ∧ t.waits i = some ⟨p, .released⟩ := by
  intro h
  obtain ⟨s, u, v, t, hs, hu, hv, ht, hpunch, hclock, hclock', hsettled, hwaits⟩ : ∃ s u v t,
      init.step (.punch 0 seederId) = some s ∧ s.step (.look 0) = some u ∧
      u.step .tick = some v ∧ v.step (.await 0 seederId) = some t ∧
      s.punches 0 = some ⟨seederId, none⟩ ∧ s.clock = 0 ∧ v.clock = 1 ∧
      t.step (.changed 0) = none ∧ t.waits 0 = some ⟨seederId, .waiting⟩ :=
    ⟨_, _, _, _, rfl, rfl, rfl, rfl, rfl, rfl, rfl, rfl, rfl⟩
  have hrun : Run step init ([(init, .punch 0 seederId)] ++
      (s, .look 0) :: [(u, .tick), (v, .await 0 seederId)]) t := by
    simpa using (((Run.single hs).snoc hu).snoc hv).snoc ht
  have hreleased := (h 0 0 seederId [] _ _ init s t (.nil init) hrun onlyPunch_init hpunch
    (by simp [Undisturbed]) ⟨(v, .await 0 seederId), by simp, rfl, by simp [hclock, hclock']⟩
    hsettled).2
  simp [hwaits] at hreleased

end HolePunch

end BearTorrent
