import BearTorrent.Client.Pipeline.InitialRequests

/-!
# Dividing by the number of connections

`send_requests` takes a remainder by the number of connections for every piece and for every message
of the resend channel. The number is zero from the start when no peer shares the file, and it
becomes zero when `reassemble_loop` counts down the last connection. The latter does no harm if and
only if `send_requests` has nothing to count by then.
-/

namespace BearTorrent.Pipeline

variable (cfg : Config)

/-- The divisor of the remainder that the next step of `send_requests` takes, if it takes one. -/
def divisor? (s : Pipeline) : Option ℕ :=
  match s.sender with
  | .requesting m i => if i < cfg.infoHash.pieces.length then some m else none
  | .counting _ _   => some s.assembler.numConnections
  | _               => none

/-- `send_requests` will not get to count the connections, when none is left. It does not while a
piece remains to be asked for first, since that lookup misses. -/
def Settled (s : Pipeline) : Prop :=
  match s.sender with
  | .starting               => cfg.infoHash.pieces = [] ∧ s.resends.queue = []
  | .requesting _ i         => i < cfg.infoHash.pieces.length ∨ s.resends.queue = []
  | .sendingRequest _ _ _ _ => False
  | .waiting _              => s.resends.queue = []
  | .counting _ _           => False
  | .resending _ _ _        => True
  | .sendingResend _ _ _    => False
  | .ended _                => True

/-- The step does not count down the last connection before `send_requests` is settled. -/
def CountsDownSafely (s : Pipeline) (a : Action) : Prop :=
  a = .reassemble → ∀ badTx msg, s.reassembler = .decrementing badTx msg →
    s.assembler.numConnections = 1 → s.Settled cfg

/-- No connection is left, and nothing will be queued for `send_requests` any more. -/
structure Drained (s : Pipeline) : Prop where
  settled : s.Settled cfg
  noTxs : s.assembler.requestTxs = []
  quiet : (∃ msg, s.reassembler = .checking msg) ∨ (∃ result, s.reassembler = .ended result) ∨
    cfg.numConnections = 0 ∧ s.reassembler = .receiving ∧ s.replies.queue = []

/-- `send_requests` has read a number of connections to divide by, or nothing is to be divided. -/
structure Countable (s : Pipeline) : Prop where
  registered : Registered cfg s
  drained : s.assembler.numConnections = 0 → s.Drained cfg
  count : ∀ m, s.sender.count = some m → m = 0 → cfg.infoHash.pieces = []

variable {cfg} {s t : Pipeline}

/-- A remainder by zero panics. -/
lemma step_of_divisor?_zero (h : s.divisor? cfg = some 0) :
    s.step cfg .send = some { s with sender := .ended (.error .panic) } := by
  unfold divisor? at h
  cases hst : s.sender with
  | requesting m i =>
    simp only [hst] at h
    split_ifs at h with hi
    obtain rfl := Option.some.inj h
    simp [Pipeline.step, Pipeline.stepSender, hst, hi, initialRequest]
  | counting i msg =>
    simp only [hst, Option.some.injEq] at h
    simp [Pipeline.step, Pipeline.stepSender, hst, h]
  | _ => simp [hst] at h

lemma Countable.divisor?_ne_zero (hs : Countable cfg s) : s.divisor? cfg ≠ some 0 := by
  intro h
  unfold divisor? at h
  cases hst : s.sender with
  | requesting m i =>
    simp only [hst] at h
    split_ifs at h with hi
    have hnil := hs.count m (by rw [hst]; rfl) (Option.some.inj h)
    simp [hnil] at hi
  | counting i msg =>
    simp only [hst, Option.some.injEq] at h
    have hsettled := (hs.drained h).settled
    simp [Settled, hst] at hsettled
  | _ => simp [hst] at h

/-! ### The steps -/

lemma Drained.stepSender (hd : s.Drained cfg) (hzero : s.assembler.numConnections = 0)
    (h : SenderStep cfg s t) : t.Drained cfg := by
  have hsettled := hd.settled
  have hnotx : ∀ {position : ℕ} {c : ConnId}, s.assembler.requestTxs[position]? ≠ some c := by
    simp [hd.noTxs]
  cases h with
  | start hst =>
    simp only [Settled, hst] at hsettled
    exact ⟨.inr hsettled.2, hd.noTxs, hd.quiet⟩
  | miss => exact ⟨trivial, hd.noTxs, hd.quiet⟩
  | fail => exact ⟨trivial, hd.noTxs, hd.quiet⟩
  | look _ _ _ hc => exact absurd hc hnotx
  | send hst => simp [Settled, hst] at hsettled
  | listen hst hi =>
    simp only [Settled, hst] at hsettled
    exact ⟨hsettled.resolve_left (Nat.not_lt.mpr hi), hd.noTxs, hd.quiet⟩
  | recv hst hq => simp [Settled, hst, hq] at hsettled
  | finish => exact ⟨trivial, hd.noTxs, hd.quiet⟩
  | skip _ hm => exact absurd hzero hm
  | count _ hm => exact absurd hzero hm
  | lookAgain _ hc => exact absurd hc hnotx
  | sendAgain hst => simp [Settled, hst] at hsettled

lemma Countable.stepSender (hs : Countable cfg s) (h : SenderStep cfg s t) : Countable cfg t := by
  have hassembler : t.assembler = s.assembler := by cases h <;> rfl
  refine ⟨hs.registered.stepSender h, fun hzero => ?_, fun m hm hzero => ?_⟩
  · rw [hassembler] at hzero
    exact (hs.drained hzero).stepSender hzero h
  · cases h with
    | start hst =>
      obtain rfl := Option.some.inj hm
      have hsettled := (hs.drained hzero).settled
      simp only [Settled, hst] at hsettled
      exact hsettled.1
    | look hst => exact hs.count m (by rw [hst]; exact hm) hzero
    | send hst => exact hs.count m (by rw [hst]; exact hm) hzero
    | count hst hne =>
      obtain rfl := Option.some.inj hm
      exact absurd hzero hne
    | _ => cases hm

lemma Drained.stepReassembler (hd : s.Drained cfg) (hzero : s.assembler.numConnections = 0)
    (h : ReassemblerStep cfg s t) : t.Drained cfg := by
  have hquiet := hd.quiet
  cases h with
  | piece hst hq => simp [hst, hq] at hquiet
  | cancel hst hq => simp [hst, hq] at hquiet
  | wrong hst hq => simp [hst, hq] at hquiet
  | resendClosed hst => simp [hst] at hquiet
  | resend hst => simp [hst] at hquiet
  | removePanic hst => simp [hst] at hquiet
  | remove hst => simp [hst] at hquiet
  | decrementPanic hst => simp [hst] at hquiet
  | decrement hst => simp [hst] at hquiet
  | retrieveFailed => exact ⟨hd.settled, hd.noTxs, .inr (.inl ⟨_, rfl⟩)⟩
  | check _ hm => exact absurd hzero hm
  | complete hst => simp [hst] at hquiet
  | build hst => simp [hst] at hquiet

/-- When no connection is counted, none is left. -/
lemma Registered.noTxs (hs : Registered cfg s) (hzero : s.assembler.numConnections = 0) :
    s.assembler.requestTxs = [] := by
  rcases hs.txs with ⟨-, hlen⟩ | ⟨-, hnil⟩
  · have hle := hs.le_count
    exact List.eq_nil_of_length_eq_zero (by omega)
  · exact hnil

lemma Countable.stepReassembler (hs : Countable cfg s) (hsafe : s.CountsDownSafely cfg .reassemble)
    (h : ReassemblerStep cfg s t) : Countable cfg t := by
  have hreg := hs.registered.stepReassembler h
  have hsender : t.sender = s.sender := by cases h <;> rfl
  refine ⟨hreg, fun hzero => ?_, fun m hm => hs.count m (hsender ▸ hm)⟩
  have hstep := h
  cases h with
  | @decrement badTx msg n hst hlock hn =>
    have hpos : 1 ≤ s.assembler.numConnections := by
      by_contra hlt
      have hquiet := (hs.drained (by omega)).quiet
      simp [hst] at hquiet
    rw [subUsize_of_le cfg.env hpos] at hn
    have hone : s.assembler.numConnections = 1 := by
      have hn := Except.ok.inj hn
      simp only at hzero
      omega
    exact ⟨hsafe rfl badTx msg hst hone, hreg.noTxs hzero, .inl ⟨msg, rfl⟩⟩
  | _ => exact (hs.drained hzero).stepReassembler hzero hstep

lemma Countable.stepConnection {c : ConnId} {act : ConnectionAction} (hs : Countable cfg s)
    (hc : c < cfg.numConnections) (h : ConnectionStep s c act t) : Countable cfg t := by
  have hreg := hs.registered.stepConnection h
  rw [h.frame] at hreg ⊢
  refine ⟨hreg, fun hzero => ?_, hs.count⟩
  have hd := hs.drained hzero
  refine ⟨hd.settled, hd.noTxs, ?_⟩
  rcases hd.quiet with hquiet | hquiet | ⟨hnone, -⟩
  · exact .inl hquiet
  · exact .inr (.inl hquiet)
  · rw [hnone] at hc
    exact absurd hc (Nat.not_lt_zero c)

lemma Countable.step {a : Action} (hs : Countable cfg s) (hsafe : s.CountsDownSafely cfg a)
    (h : s.step cfg a = some t) : Countable cfg t := by
  cases steps_of_eq_some h with
  | send h => exact hs.stepSender h
  | reassemble h => exact hs.stepReassembler hsafe h
  | connection hc _ h => exact hs.stepConnection hc h

lemma countable_init (cfg : Config) (σ : Store)
    (hstart : cfg.numConnections = 0 → cfg.infoHash.pieces = []) : Countable cfg (init cfg σ) where
  registered := registered_init cfg σ
  drained hzero :=
    ⟨⟨hstart hzero, rfl⟩, (registered_init cfg σ).noTxs hzero, .inr (.inr ⟨hzero, rfl, rfl⟩)⟩
  count m hm := by cases hm

/-! ### Division by zero -/

/-- A message in the resend channel is counted next. -/
lemma reaches_zero_of_waiting {i : ℕ} (hzero : s.assembler.numConnections = 0)
    (hst : s.sender = .waiting i) (hq : s.resends.queue ≠ []) :
    ∃ tr t, Transition.Run (Pipeline.step cfg) s tr t ∧ t.divisor? cfg = some 0 := by
  obtain ⟨msg, queue, hq⟩ := List.exists_cons_of_ne_nil hq
  obtain ⟨resends, hrecv, -⟩ := Channel.exists_recv? hq
  have hstep : s.step cfg .send = some { s with resends, sender := .counting i msg } := by
    simp [Pipeline.step, Pipeline.stepSender, hst, hrecv]
  refine ⟨_, _, .single hstep, ?_⟩
  simp [divisor?, hzero]

/-- Unless it is settled, `send_requests` gets to divide by zero. -/
lemma reaches_zero_of_not_settled (hzero : s.assembler.numConnections = 0)
    (hsettled : ¬ s.Settled cfg) (hlock : s.sender.readLocked = false)
    (hpieces : cfg.infoHash.pieces ≠ []) :
    ∃ tr t, Transition.Run (Pipeline.step cfg) s tr t ∧ t.divisor? cfg = some 0 := by
  unfold Settled at hsettled
  cases hst : s.sender with
  | starting =>
    have hstep : s.step cfg .send
        = some { s with sender := .requesting s.assembler.numConnections 0 } := by
      simp [Pipeline.step, Pipeline.stepSender, hst]
    refine ⟨_, _, .single hstep, ?_⟩
    simp [divisor?, hzero, List.length_pos_iff.mpr hpieces]
  | requesting m i =>
    simp only [hst, not_or] at hsettled
    obtain ⟨hi, hq⟩ := hsettled
    have hstep : s.step cfg .send = some { s with sender := .waiting 0 } := by
      simp [Pipeline.step, Pipeline.stepSender, hst, hi]
    have hwaiting : ∃ tr t, Transition.Run (Pipeline.step cfg) { s with sender := .waiting 0 } tr t ∧
        t.divisor? cfg = some 0 := reaches_zero_of_waiting hzero rfl hq
    obtain ⟨tr, t, hrun, ht⟩ := hwaiting
    exact ⟨_, t, (Transition.Run.single hstep).append hrun, ht⟩
  | waiting i =>
    simp only [hst] at hsettled
    exact reaches_zero_of_waiting hzero hst hsettled
  | counting i msg => exact ⟨[], s, .nil s, by simp [divisor?, hst, hzero]⟩
  | sendingRequest => simp [hst, SenderState.readLocked] at hlock
  | sendingResend => simp [hst, SenderState.readLocked] at hlock
  | resending => simp [hst] at hsettled
  | ended => simp [hst] at hsettled

/-- The last connection is counted down. -/
lemma step_decrement_last {badTx : ConnId} {msg : Message}
    (hst : s.reassembler = .decrementing badTx msg) (hone : s.assembler.numConnections = 1)
    (h : s.step cfg .reassemble = some t) :
    s.sender.readLocked = false ∧ t.assembler.numConnections = 0 ∧ t.sender = s.sender ∧
      t.resends = s.resends := by
  simp only [Pipeline.step, stepReassembler, hst] at h
  split_ifs at h with hlock
  simp only [FileAssembler.decrementConnections, hone, subUsize_of_le cfg.env le_rfl] at h
  obtain rfl := Option.some.inj h
  exact ⟨Bool.eq_false_iff.mpr hlock, rfl, rfl, rfl⟩

/-- When some peer shares the file, or the file has no pieces, no remainder by zero is taken in a
run that counts down the last connection only when `send_requests` is settled. Without peers
`send_requests` begins with such a remainder, and from every step of a run that counts down the
last connection earlier the run can go on to one. -/
theorem divisors_ne_zero (env : Env) (h : InfoHash) (peerList : List PeerId) (σ : Store) :
    ((peerList ≠ [] ∨ h.pieces = []) → ∀ tr s,
        Transition.Run (Pipeline.step (fileRequest env h peerList))
          (init (fileRequest env h peerList) σ) tr s →
        (∀ p ∈ tr, CountsDownSafely (fileRequest env h peerList) p.1 p.2) →
        s.divisor? (fileRequest env h peerList) ≠ some 0) ∧
      (peerList = [] → h.pieces ≠ [] → ∃ tr s,
        Transition.Run (Pipeline.step (fileRequest env h peerList))
          (init (fileRequest env h peerList) σ) tr s ∧
        s.divisor? (fileRequest env h peerList) = some 0) ∧
      ∀ tr s t,
        Transition.Run (Pipeline.step (fileRequest env h peerList))
          (init (fileRequest env h peerList) σ) tr s →
        s.step (fileRequest env h peerList) .reassemble = some t →
        ¬ CountsDownSafely (fileRequest env h peerList) s .reassemble →
        ∃ tr' u, Transition.Run (Pipeline.step (fileRequest env h peerList)) t tr' u ∧
          u.divisor? (fileRequest env h peerList) = some 0 := by
  refine ⟨fun hstart tr s hrun hsafe => ?_, fun hpeers hpieces => ?_,
    fun tr s t hrun hstep hunsafe => ?_⟩
  · have hinit : (fileRequest env h peerList).numConnections = 0 → h.pieces = [] := fun hzero => by
      rcases hstart with hpeers | hpieces
      · rcases Nat.min_eq_zero_iff.mp hzero with hzero | hzero
        · exact absurd (List.eq_nil_of_length_eq_zero hzero) hpeers
        · exact List.eq_nil_of_length_eq_zero hzero
      · exact hpieces
    have hcountable : Countable (fileRequest env h peerList) s :=
      hrun.invariant (fun s a t hs hsafe hstep => hs.step hsafe hstep) hsafe
        (countable_init _ σ hinit)
    exact hcountable.divisor?_ne_zero
  · have hzero : (init (fileRequest env h peerList) σ).assembler.numConnections = 0 := by
      rw [hpeers]
      exact Nat.zero_min _
    refine reaches_zero_of_not_settled hzero ?_ rfl hpieces
    exact fun hsettled => hpieces hsettled.1
  · simp only [CountsDownSafely, forall_const, not_forall] at hunsafe
    obtain ⟨badTx, msg, hst, hone, hsettled⟩ := hunsafe
    obtain ⟨hlock, hzero, hsender, hresends⟩ := step_decrement_last hst hone hstep
    have hpieces : h.pieces ≠ [] := fun hnil => by
      have hle := (registered_run hrun).count_le
      have hcount : (fileRequest env h peerList).numConnections = 0 := by
        simp [fileRequest, hnil]
      omega
    refine reaches_zero_of_not_settled hzero ?_ (by rw [hsender]; exact hlock) hpieces
    simpa only [Settled, hsender, hresends] using hsettled

/-- `CountsDownSafely`, where the last connection goes while `send_requests` waits for a message. -/
def countsDownSafely (s : Pipeline) (a : Action) : Bool :=
  match a, s.reassembler, s.sender with
  | .reassemble, .decrementing _ _, .waiting _ =>
    s.assembler.numConnections ≠ 1 ∨ s.resends.queue = []
  | .reassemble, .decrementing _ _, _          => s.assembler.numConnections ≠ 1
  | _, _, _                                    => true

lemma countsDownSafely_of_eq_true {a : Action} (h : s.countsDownSafely a = true) :
    s.CountsDownSafely cfg a := by
  rintro rfl badTx msg hst hone
  cases hsender : s.sender with
  | waiting i => simpa [countsDownSafely, Settled, hst, hsender, hone] using h
  | _ => simp [countsDownSafely, hst, hsender, hone] at h

/-- The first connection refuses a piece, and is removed. -/
def oneRemoved : List Action :=
  [.send, .send, .send, .send, .send, .send, .send, .send,
    .connection 0 .take, .connection 0 .refuse,
    .reassemble, .reassemble, .reassemble, .reassemble, .reassemble, .send]

/-- The other pieces come in, the other connection refuses the piece as well, and is removed. -/
def otherRemoved : List Action :=
  [.send, .send, .send, .connection 1 .take, .connection 1 (.answer (.piece 1 [0])),
    .connection 0 .take, .connection 0 (.answer (.piece 2 [0])), .reassemble, .reassemble,
    .connection 1 .take, .connection 1 .refuse, .reassemble, .reassemble, .reassemble,
    .reassemble]

/-- A remainder by one is taken after the first removal, and none after the second one. -/
theorem divisors_ne_zero_removed : ∃ tr s t,
    Transition.walk (Pipeline.step pairRequest) countsDownSafely (init pairRequest ∅) oneRemoved =
      some s ∧
    s.removals = [0] ∧ s.divisor? pairRequest = some 1 ∧
    Transition.Run (Pipeline.step pairRequest) (init pairRequest ∅) tr t ∧
    (∀ p ∈ tr, CountsDownSafely pairRequest p.1 p.2) ∧ t.removals = [0, 0] ∧
    t.reassembler = .ended (.error failedToRetrieve) ∧ t.divisor? pairRequest ≠ some 0 := by
  obtain ⟨s, t, hs, ht, hremoved, hdivisor, hremoved', hended⟩ : ∃ s t,
      Transition.walk (Pipeline.step pairRequest) countsDownSafely (init pairRequest ∅) oneRemoved =
        some s ∧
      Transition.walk (Pipeline.step pairRequest) countsDownSafely (init pairRequest ∅)
        (oneRemoved ++ otherRemoved) = some t ∧
      s.removals = [0] ∧ s.divisor? pairRequest = some 1 ∧ t.removals = [0, 0] ∧
      t.reassembler = .ended (.error failedToRetrieve) :=
    ⟨_, _, rfl, rfl, rfl, rfl, rfl, rfl⟩
  obtain ⟨tr, hrun, hall⟩ := Transition.run_of_walk ht
  have hsafe : ∀ p ∈ tr, CountsDownSafely pairRequest p.1 p.2 :=
    fun p hp => countsDownSafely_of_eq_true (hall p hp)
  exact ⟨tr, s, t, hs, hremoved, hdivisor, hrun, hsafe, hremoved', hended,
    (divisors_ne_zero _ _ _ ∅).1 (.inl (List.cons_ne_nil _ _)) tr t hrun hsafe⟩

/-- The request of a file that no peer shares. -/
def unsharedRequest : Config :=
  fileRequest ⟨fun _ => Digest.zero, true⟩ (unitConfig 1 0).infoHash []

/-- All pieces are asked for. The first connection refuses both of its requests: the first `Cancel`
removes it, the second one the other connection, while the piece of the first is in the resend
channel. -/
def bothRemoved : List Action :=
  [.send, .send, .send, .send, .send, .send, .send, .send,
    .connection 0 .take, .connection 0 .refuse, .connection 0 .take, .connection 0 .refuse,
    .reassemble, .reassemble, .reassemble, .reassemble, .reassemble,
    .reassemble, .reassemble, .reassemble, .send]

/-- Both ways to a remainder by zero: `send_requests` panics. -/
theorem remainder_by_zero :
    (∃ tr s t, Transition.Run (Pipeline.step unsharedRequest) (init unsharedRequest ∅) tr s ∧
      s.divisor? unsharedRequest = some 0 ∧ s.step unsharedRequest .send = some t ∧
      t.sender = .ended (.error .panic)) ∧
    ∃ tr s t, Transition.Run (Pipeline.step pairRequest) (init pairRequest ∅) tr s ∧
      s.divisor? pairRequest = some 0 ∧ s.step pairRequest .send = some t ∧
      t.sender = .ended (.error .panic) := by
  constructor
  · obtain ⟨s, hs, hzero⟩ : ∃ s,
        Transition.exec (Pipeline.step unsharedRequest) (init unsharedRequest ∅) [.send] = some s ∧
          s.divisor? unsharedRequest = some 0 := ⟨_, rfl, rfl⟩
    obtain ⟨tr, hrun, -⟩ := Transition.run_of_exec hs
    exact ⟨tr, s, _, hrun, hzero, step_of_divisor?_zero hzero, rfl⟩
  · obtain ⟨s, hs, hzero⟩ : ∃ s,
        Transition.exec (Pipeline.step pairRequest) (init pairRequest ∅) bothRemoved = some s ∧
          s.divisor? pairRequest = some 0 := ⟨_, rfl, rfl⟩
    obtain ⟨tr, hrun, -⟩ := Transition.run_of_exec hs
    exact ⟨tr, s, _, hrun, hzero, step_of_divisor?_zero hzero, rfl⟩

end BearTorrent.Pipeline
