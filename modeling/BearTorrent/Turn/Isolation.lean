import BearTorrent.Turn.Sessions

/-!
# Isolation of sessions

A stream keeps its read lock of all sessions while it waits for room in a channel. While one waits,
no `register` call gets the write lock, for whichever session, and a stream gets a read lock only
before a `register` call has asked for the write lock.
-/

namespace BearTorrent

open Function Transition

namespace TurnService

variable {s t : TurnService} {i : RegisterId} {j k : StreamId} {pkt : TurnPacket}
  {tx : RegisterId}

/-! ### The queue of the lock -/

/-- Where a stream stands. -/
def streamState (s : TurnService) (j : StreamId) : Option SendState := (s.streams j).map (·.state)

/-- Where a `register` call stands. -/
def callState (s : TurnService) (i : RegisterId) : Option RegisterState :=
  (s.registers i).map (·.state)

/-- The queue holds the calls that wait for the lock, each once, and a stream that waits for room
holds the lock. -/
structure Queued (s : TurnService) : Prop where
  reader : ∀ j pkt tx, s.streamState j = some (.forwarding pkt tx) → j ∈ s.readers
  read : ∀ j, .read j ∈ s.queue ↔ ∃ pkt, s.streamState j = some (.locking pkt)
  write : ∀ i, .write i ∈ s.queue → s.callState i = some .locking
  nodup : s.queue.Nodup

lemma queued_default : Queued default := by
  constructor
  · intro j pkt tx hj
    cases hj
  · intro j
    constructor
    · intro hj
      cases hj
    · rintro ⟨pkt, hj⟩
      cases hj
  · intro i hi
    cases hi
  · exact List.nodup_nil

lemma streamState_update {stream : SendCall} (h : t.streams = update s.streams j (some stream)) :
    t.streamState k = if k = j then some stream.state else s.streamState k := by
  rw [streamState, h, update_apply]
  split_ifs <;> rfl

lemma callState_update {call : RegisterCall} {m : RegisterId}
    (h : t.registers = update s.registers i (some call)) :
    t.callState m = if m = i then some call.state else s.callState m := by
  rw [callState, h, update_apply]
  split_ifs <;> rfl

/-- A stream that keeps its state. -/
lemma streamState_update_same {stream stream' : SendCall}
    (h : t.streams = update s.streams j (some stream')) (hj : s.streams j = some stream)
    (hstate : stream'.state = stream.state) : t.streamState k = s.streamState k := by
  rw [streamState_update h]
  split_ifs with hkj
  · rw [hkj, streamState, hj, hstate]
    rfl
  · rfl

/-- A call that keeps its state. -/
lemma callState_update_same {call call' : RegisterCall} {m : RegisterId}
    (h : t.registers = update s.registers i (some call')) (hi : s.registers i = some call)
    (hstate : call'.state = call.state) : t.callState m = s.callState m := by
  rw [callState_update h]
  split_ifs with hmi
  · rw [hmi, callState, hi, hstate]
    rfl
  · rfl

/-- A call that does not wait for the lock goes on, and those that wait for it still do. -/
lemma locking_of_update {call call' : RegisterCall} {m : RegisterId}
    (h : t.registers = update s.registers i (some call')) (hi : s.registers i = some call)
    (hstate : call.state ≠ .locking) (hm : s.callState m = some .locking) :
    t.callState m = some .locking := by
  rw [callState_update h, if_neg, hm]
  rintro rfl
  rw [callState, hi] at hm
  exact hstate (Option.some.inj hm)

/-- A stream that does not wait for the lock. -/
lemma streamState_ne_locking {stream : SendCall} (hj : s.streams j = some stream)
    (hstate : ∀ pkt, stream.state ≠ .locking pkt) (pkt : TurnPacket) :
    s.streamState j ≠ some (.locking pkt) := by
  intro h
  rw [streamState, hj] at h
  exact hstate pkt (Option.some.inj h)

/-- A new waiter goes to the end of the queue. -/
lemma Queued.nodup_append (hs : Queued s) {w : Waiter} (hw : w ∉ s.queue) :
    (s.queue ++ [w]).Nodup := by
  refine List.nodup_append.mpr ⟨hs.nodup, List.nodup_singleton w, ?_⟩
  intro v hv v' hv' heq
  rw [List.mem_singleton] at hv'
  exact hw (hv' ▸ heq ▸ hv)

/-- A step that leaves the lock and the streams alone, and no call that waits for the lock. -/
lemma Queued.congr (hs : Queued s) (hreaders : t.readers = s.readers) (hqueue : t.queue = s.queue)
    (hstreams : ∀ j, t.streamState j = s.streamState j)
    (hcalls : ∀ i, s.callState i = some .locking → t.callState i = some .locking) : Queued t := by
  constructor
  · intro j pkt tx hj
    rw [hreaders]
    exact hs.reader j pkt tx (hstreams j ▸ hj)
  · intro j
    rw [hqueue, hstreams]
    exact hs.read j
  · intro i hi
    exact hcalls i (hs.write i (hqueue ▸ hi))
  · rw [hqueue]
    exact hs.nodup

/-- A stream goes on to a state in which it neither waits for the lock nor has it. -/
lemma Queued.setStream (hs : Queued s) {stream : SendCall}
    (hstreams : t.streams = update s.streams j (some stream)) (hcalls : t.registers = s.registers)
    (hold : ∀ pkt, s.streamState j ≠ some (.locking pkt))
    (hfree : ∀ pkt, stream.state ≠ .locking pkt)
    (hdone : ∀ pkt tx, stream.state ≠ .forwarding pkt tx)
    (hreaders : ∀ k, k ≠ j → k ∈ s.readers → k ∈ t.readers) (hqueue : t.queue = s.queue) :
    Queued t := by
  have hstate : ∀ k, t.streamState k = if k = j then some stream.state else s.streamState k :=
    fun k => streamState_update hstreams
  constructor
  · intro k pkt tx hk
    rw [hstate] at hk
    split_ifs at hk with hkj
    · exact absurd (Option.some.inj hk) (hdone pkt tx)
    · exact hreaders k hkj (hs.reader k pkt tx hk)
  · intro k
    rw [hqueue, hs.read, hstate]
    split_ifs with hkj
    · subst hkj
      constructor
      · rintro ⟨pkt, hk⟩
        exact absurd hk (hold pkt)
      · rintro ⟨pkt, hk⟩
        exact absurd (Option.some.inj hk) (hfree pkt)
    · rfl
  · intro i hi
    rw [callState, hcalls]
    exact hs.write i (hqueue ▸ hi)
  · rw [hqueue]
    exact hs.nodup

/-- The first waiter is served: a stream that reads. -/
lemma Queued.serveRead (hs : Queued s) {stream : SendCall} {queue : List Waiter}
    (hhead : s.queue = .read j :: queue) (hqueue : t.queue = queue)
    (hstreams : t.streams = update s.streams j (some stream)) (hcalls : t.registers = s.registers)
    (hfree : ∀ pkt, stream.state ≠ .locking pkt)
    (hreader : ∀ pkt tx, stream.state = .forwarding pkt tx → j ∈ t.readers)
    (hreaders : ∀ k ∈ s.readers, k ∈ t.readers) : Queued t := by
  have hstate : ∀ k, t.streamState k = if k = j then some stream.state else s.streamState k :=
    fun k => streamState_update hstreams
  have hnodup := hs.nodup
  rw [hhead, List.nodup_cons] at hnodup
  constructor
  · intro k pkt tx hk
    rw [hstate] at hk
    split_ifs at hk with hkj
    · subst hkj
      exact hreader pkt tx (Option.some.inj hk)
    · exact hreaders k (hs.reader k pkt tx hk)
  · intro k
    rw [hqueue, hstate]
    split_ifs with hkj
    · subst hkj
      constructor
      · intro hk
        exact absurd hk hnodup.1
      · rintro ⟨pkt, hk⟩
        exact absurd (Option.some.inj hk) (hfree pkt)
    · rw [← hs.read k, hhead]
      simp [hkj]
  · intro i hi
    rw [callState, hcalls]
    exact hs.write i (by rw [hhead]; exact List.mem_cons_of_mem _ (hqueue ▸ hi))
  · rw [hqueue]
    exact hnodup.2

/-- The first waiter is served: a call that registers. -/
lemma Queued.serveWrite (hs : Queued s) {call : RegisterCall} {queue : List Waiter}
    (hhead : s.queue = .write i :: queue) (hqueue : t.queue = queue)
    (hregisters : t.registers = update s.registers i (some call))
    (hstreams : t.streams = s.streams) (hreaders : t.readers = s.readers) : Queued t := by
  have hstate : ∀ k, t.streamState k = s.streamState k := fun k => by
    rw [streamState, hstreams]
    rfl
  have hnodup := hs.nodup
  rw [hhead, List.nodup_cons] at hnodup
  constructor
  · intro k pkt tx hk
    rw [hreaders]
    exact hs.reader k pkt tx (hstate k ▸ hk)
  · intro k
    rw [hqueue, hstate, ← hs.read k, hhead]
    simp
  · intro m hm
    rw [hqueue] at hm
    have hmi : m ≠ i := by
      rintro rfl
      exact hnodup.1 hm
    rw [callState_update hregisters, if_neg hmi]
    exact hs.write m (by rw [hhead]; exact List.mem_cons_of_mem _ hm)
  · rw [hqueue]
    exact hnodup.2

/-- Every step keeps the queue. -/
lemma Queued.step {a : Action} (hs : Queued s) (h : TurnStep s a t) : Queued t := by
  cases h with
  | @register i req hi =>
    have hcall : ∀ m, m ≠ i → (s.setRegister i (.new req)).callState m = s.callState m :=
      fun m hm => by rw [callState_update rfl, if_neg hm]
    have hnone : Waiter.write i ∉ s.queue := by
      intro hmem
      have := hs.write i hmem
      rw [callState, hi] at this
      cases this
    constructor
    · exact hs.reader
    · intro j
      rw [List.mem_append, List.mem_singleton]
      exact (or_iff_left (by simp)).trans (hs.read j)
    · intro m hm
      by_cases hmi : m = i
      · subst hmi
        exact callState_update (s := s) rfl |>.trans (if_pos rfl)
      · refine (hcall m hmi).trans (hs.write m ?_)
        simpa [hmi] using hm
    · exact hs.nodup_append hnone
  | fill hqueue => exact hs.serveWrite hqueue rfl rfl rfl rfl
  | reject hqueue => exact hs.serveWrite hqueue rfl rfl rfl rfl
  | forward hqueue =>
    exact hs.serveRead hqueue rfl rfl rfl (by simp) (fun _ _ _ => by simp)
      fun k hk => List.mem_append_left _ hk
  | skip hqueue =>
    exact hs.serveRead hqueue rfl rfl rfl (by simp [SendCall.finish])
      (by simp [SendCall.finish]) fun k hk => hk
  | @arrive i call session hi hopen hstate =>
    exact hs.congr rfl rfl (fun _ => rfl) fun m hm =>
      locking_of_update (s := s) rfl hi (by rw [hstate]; simp) hm
  | @pass i call session generation hi hopen hstate =>
    exact hs.congr rfl rfl (fun _ => rfl) fun m hm =>
      locking_of_update (s := s) rfl hi (by rw [hstate]; simp) hm
  | @read i call pkt channel hi =>
    exact hs.congr rfl rfl (fun _ => rfl) fun m hm =>
      (callState_update_same (s := s) rfl hi (by rfl)).trans hm
  | @dropReceiver i call hi =>
    constructor
    · exact hs.reader
    · intro j
      exact (List.mem_erase_of_ne (by simp)).trans (hs.read j)
    · intro m hm
      exact (callState_update_same (s := s) rfl hi (by rfl)).trans
        (hs.write m (List.mem_of_mem_erase hm))
    · exact hs.nodup.erase _
  | @accept j md sessionId hj =>
    refine hs.setStream rfl rfl (fun pkt hpkt => ?_) (by simp [SendCall.new])
      (by simp [SendCall.new]) (fun _ _ hk => hk) rfl
    rw [streamState, hj] at hpkt
    cases hpkt
  | @refuse j md error hj =>
    refine hs.setStream rfl rfl (fun pkt hpkt => ?_) (by simp [SendCall.new])
      (by simp [SendCall.new]) (fun _ _ hk => hk) rfl
    rw [streamState, hj] at hpkt
    cases hpkt
  | @submit j stream pkt hj =>
    exact hs.congr rfl rfl (fun k => streamState_update_same (s := s) rfl hj (by rfl)) fun _ hm => hm
  | @close j stream closing hj =>
    exact hs.congr rfl rfl (fun k => streamState_update_same (s := s) rfl hj (by rfl)) fun _ hm => hm
  | @next j stream pkt inbound hj hstate =>
    have hnone : Waiter.read j ∉ s.queue := by
      intro hmem
      obtain ⟨pkt', hpkt'⟩ := (hs.read j).mp hmem
      exact streamState_ne_locking hj (by simp [hstate]) pkt' hpkt'
    have hnew : ∀ k, TurnService.streamState
        { s.setStream j { stream with state := .locking pkt, inbound } with
          queue := s.queue ++ [.read j] } k
          = if k = j then some (.locking pkt) else s.streamState k := by
      intro k
      rw [streamState_update (s := s) rfl]
    constructor
    · intro k pkt' tx hk
      rw [hnew] at hk
      split_ifs at hk
      · cases hk
      · exact hs.reader k pkt' tx hk
    · intro k
      rw [hnew, List.mem_append, List.mem_singleton, hs.read k]
      by_cases hkj : k = j
      · subst hkj
        simp
      · simp [hkj]
    · intro m hm
      refine hs.write m ?_
      simpa using hm
    · exact hs.nodup_append hnone
  | @finish j stream closing hj hstate =>
    exact hs.setStream rfl rfl (streamState_ne_locking hj (by simp [hstate])) (by simp) (by simp)
      (fun _ _ hk => hk) rfl
  | @put j stream pkt tx call channel hj hstate htx =>
    have hput : Queued { s.setStream j (stream.finish pkt) with readers := s.readers.erase j } := by
      exact hs.setStream rfl rfl (streamState_ne_locking hj (by simp [hstate]))
        (by simp [SendCall.finish]) (by simp [SendCall.finish])
        (fun k hkj hk => (List.mem_erase_of_ne hkj).mpr hk) rfl
    exact hput.congr rfl rfl (fun _ => rfl) fun m hm =>
      (callState_update_same (s := s) rfl htx (by rfl)).trans hm
  | @putDropped j stream pkt tx call hj hstate =>
    exact hs.setStream rfl rfl (streamState_ne_locking hj (by simp [hstate]))
      (by simp [SendCall.finish]) (by simp [SendCall.finish])
      (fun k hkj hk => (List.mem_erase_of_ne hkj).mpr hk) rfl

lemma queued_run {tr : List (TurnService × Action)} (hrun : Run step default tr s) : Queued s :=
  hrun.preserve (fun _ _ _ hs h => hs.step (turnStep_of_eq_some h)) queued_default

/-! ### A stream that waits for room -/

/-- The actions that are not of the receiver of the call `tx`: it takes no packet and is not
dropped. -/
def Action.LeavesReceiver (tx : RegisterId) (a : Action) : Prop :=
  a ≠ .read tx ∧ a ≠ .dropReceiver tx

/-- The stream `j` has the lock and waits for room in the channel of a call of session `id`. -/
structure Waits (s : TurnService) (j : StreamId) (pkt : TurnPacket) (tx : RegisterId)
    (id : String) : Prop where
  forwarding : s.streamState j = some (.forwarding pkt tx)
  full : ∃ call, s.registers tx = some call ∧ call.session = id ∧ call.isOpen = true ∧
    call.channel.Full

/-- The call has not got the lock: it waits for it, or has not been made. -/
def Unregistered (s : TurnService) (i : RegisterId) : Prop :=
  s.callState i = none ∨ s.callState i = some .locking

/-- The `register` call `i` has asked for the lock, and before the stream `j`. -/
def AsksBefore (s : TurnService) (i : RegisterId) (j : StreamId) : Prop :=
  ∃ ahead behind, s.queue = ahead ++ .write i :: behind ∧ .read j ∉ ahead

end TurnService

/-- The packet that a stream has to forward next. -/
def SendCall.upcoming (stream : SendCall) : Option TurnPacket :=
  match stream.state with
  | .reading     => stream.inbound.head?
  | .locking pkt => some pkt
  | _            => none

namespace TurnService

variable {id : String}

lemma Waits.readers_ne_nil (hw : Waits s j pkt tx id) (hs : Queued s) : s.readers ≠ [] := by
  intro hnil
  have hj := hs.reader j pkt tx hw.forwarding
  rw [hnil] at hj
  cases hj

/-- A stream that waits for room goes on with `put` only. -/
lemma forwarding_of_step {a : Action} (h : TurnStep s a t) (ha : a ≠ .put j)
    (hj : s.streamState j = some (.forwarding pkt tx)) :
    t.streamState j = some (.forwarding pkt tx) := by
  have hmove : ∀ {k stream stream'}, s.streams k = some stream →
      t.streams = update s.streams k (some stream') →
      (∀ pkt tx, stream.state = .forwarding pkt tx → stream'.state = .forwarding pkt tx) →
        t.streamState j = some (.forwarding pkt tx) := by
    intro k stream stream' hk ht hstate
    rw [streamState_update ht]
    split_ifs with hjk
    · subst hjk
      rw [streamState, hk] at hj
      rw [hstate pkt tx (Option.some.inj hj)]
    · exact hj
  have hnew : ∀ {k stream'}, s.streams k = none → t.streams = update s.streams k (some stream') →
      t.streamState j = some (.forwarding pkt tx) := by
    intro k stream' hk ht
    rw [streamState_update ht, if_neg]
    · exact hj
    · rintro rfl
      rw [streamState, hk] at hj
      cases hj
  cases h with
  | forward hqueue hk hstate => exact hmove hk rfl fun _ _ hk' => by cases hstate.symm.trans hk'
  | skip hqueue hk hstate => exact hmove hk rfl fun _ _ hk' => by cases hstate.symm.trans hk'
  | accept hk => exact hnew hk rfl
  | refuse hk => exact hnew hk rfl
  | submit hk => exact hmove hk rfl fun _ _ hk' => hk'
  | close hk => exact hmove hk rfl fun _ _ hk' => hk'
  | next hk hstate => exact hmove hk rfl fun _ _ hk' => by cases hstate.symm.trans hk'
  | finish hk hstate => exact hmove hk rfl fun _ _ hk' => by cases hstate.symm.trans hk'
  | @put k stream pkt' tx' call channel hk hstate htx =>
    rw [streamState_update rfl, if_neg]
    · exact hj
    · rintro rfl
      exact ha rfl
  | @putDropped k =>
    rw [streamState_update rfl, if_neg]
    · exact hj
    · rintro rfl
      exact ha rfl
  | _ => exact hj

/-- There is no room in a full channel. -/
lemma not_full_of_send {c d : Channel TurnPacket turnCapacity}
    (h : d.queue = c.queue ++ [pkt]) : ¬ c.Full := by
  intro hfull
  have hbounded := d.bounded
  rw [h, List.length_append, hfull] at hbounded
  exact Nat.not_succ_le_self _ hbounded

/-- A full channel stays full, and its call open, until the receiver takes a packet or is
dropped. -/
lemma full_of_step {a : Action} {call : RegisterCall} (h : TurnStep s a t)
    (ha : a.LeavesReceiver tx) (htx : s.registers tx = some call) (hopen : call.isOpen = true)
    (hfull : call.channel.Full) :
    ∃ call', t.registers tx = some call' ∧ call'.session = call.session ∧ call'.isOpen = true ∧
      call'.channel.Full := by
  have hmove : ∀ {i c c'}, s.registers i = some c → t.registers = update s.registers i (some c') →
      (i = tx → c'.session = c.session ∧ c'.isOpen = c.isOpen ∧ c'.channel = c.channel) →
        ∃ call', t.registers tx = some call' ∧ call'.session = call.session ∧
          call'.isOpen = true ∧ call'.channel.Full := by
    intro i c c' hi ht hkeep
    by_cases hix : i = tx
    · obtain ⟨hsession, hisOpen, hchannel⟩ := hkeep hix
      subst hix
      obtain rfl := Option.some.inj (htx.symm.trans hi)
      exact ⟨c', by rw [ht, update_self], hsession, hisOpen.trans hopen, hchannel ▸ hfull⟩
    · exact ⟨call, by rw [ht, update_of_ne (Ne.symm hix), htx], rfl, hopen, hfull⟩
  cases h with
  | @register i req hi =>
    refine ⟨call, ?_, rfl, hopen, hfull⟩
    change update s.registers i _ tx = _
    rw [update_of_ne, htx]
    rintro rfl
    rw [hi] at htx
    cases htx
  | fill hqueue hi => exact hmove hi rfl fun _ => ⟨rfl, rfl, rfl⟩
  | reject hqueue hi => exact hmove hi rfl fun _ => ⟨rfl, rfl, rfl⟩
  | arrive hi => exact hmove hi rfl fun _ => ⟨rfl, rfl, rfl⟩
  | pass hi => exact hmove hi rfl fun _ => ⟨rfl, rfl, rfl⟩
  | read hi => exact hmove hi rfl fun hix => absurd (by rw [hix]) ha.1
  | dropReceiver hi => exact hmove hi rfl fun hix => absurd (by rw [hix]) ha.2
  | @put j stream pkt tx' c channel hj hstate hi hc hqueue =>
    refine hmove hi rfl fun hix => ?_
    subst hix
    obtain rfl := Option.some.inj (htx.symm.trans hi)
    exact absurd hfull (not_full_of_send hqueue)
  | _ => exact ⟨call, htx, rfl, hopen, hfull⟩

/-- A stream that waits for room goes on waiting until the receiver takes a packet or is
dropped. -/
lemma Waits.step {a : Action} (hw : Waits s j pkt tx id) (h : TurnStep s a t)
    (ha : a.LeavesReceiver tx) : Waits t j pkt tx id := by
  obtain ⟨hforwarding, call, htx, hid, hopen, hfull⟩ := hw
  constructor
  · refine forwarding_of_step h ?_ hforwarding
    rintro rfl
    cases h with
    | @put _ stream pkt' tx' c channel hj hstate hi hc hqueue =>
      rw [streamState, hj] at hforwarding
      cases hstate.symm.trans (Option.some.inj hforwarding)
      obtain rfl := Option.some.inj (htx.symm.trans hi)
      exact absurd hfull (not_full_of_send hqueue)
    | @putDropped _ stream pkt' tx' c hj hstate hi hc =>
      rw [streamState, hj] at hforwarding
      cases hstate.symm.trans (Option.some.inj hforwarding)
      obtain rfl := Option.some.inj (htx.symm.trans hi)
      rw [hopen] at hc
      cases hc
  · obtain ⟨call', htx', hsession, hrest⟩ := full_of_step h ha htx hopen hfull
    exact ⟨call', htx', hsession.trans hid, hrest⟩

/-- While a stream waits for room, no call gets the lock for writing. -/
lemma Unregistered.step {a : Action} (hi : Unregistered s i) (hreaders : s.readers ≠ [])
    (h : TurnStep s a t) : Unregistered t i := by
  have hmove : ∀ {k c c'}, s.registers k = some c → t.registers = update s.registers k (some c') →
      (c.state = .locking → c'.state = .locking) → Unregistered t i := by
    intro k c c' hk ht hstate
    rw [Unregistered, callState_update ht]
    split_ifs with hik
    · subst hik
      rw [Unregistered, callState, hk] at hi
      obtain hi | hi := hi
      · cases hi
      · exact .inr (congrArg some (hstate (Option.some.inj hi)))
    · exact hi
  cases h with
  | @register k req hk =>
    rw [Unregistered, callState_update rfl]
    split_ifs with hik
    · exact .inr rfl
    · exact hi
  | fill _ _ _ hnil => exact absurd hnil hreaders
  | reject _ _ _ hnil => exact absurd hnil hreaders
  | arrive hk _ hstate => exact hmove hk rfl fun hk' => by cases hstate.symm.trans hk'
  | pass hk _ hstate => exact hmove hk rfl fun hk' => by cases hstate.symm.trans hk'
  | read hk => exact hmove hk rfl fun hk' => hk'
  | dropReceiver hk => exact hmove hk rfl fun hk' => hk'
  | put _ _ hk => exact hmove hk rfl fun hk' => hk'
  | _ => exact hi

/-- While a stream waits for room, a call that has not got the lock does not get it. -/
lemma unregistered_run (hs : Queued s) (hw : Waits s j pkt tx id) (hi : Unregistered s i)
    (h : Reaches step (·.LeavesReceiver tx) s t) : Unregistered t i := by
  obtain ⟨tr, hrun, hok⟩ := h
  refine (hrun.invariant (P := fun _ a => a.LeavesReceiver tx)
    (I := fun s => Queued s ∧ Waits s j pkt tx id ∧ Unregistered s i) ?_ hok ⟨hs, hw, hi⟩).2.2
  rintro s a t ⟨hs, hw, hi⟩ ha hstep
  have h := turnStep_of_eq_some hstep
  exact ⟨hs.step h, hw.step h ha, hi.step (hw.readers_ne_nil hs) h⟩

/-! ### A stream behind a `register` call -/

/-- The head of the queue is not a stream that a call asks before. -/
lemma AsksBefore.head_ne (hi : AsksBefore s i k) {queue : List Waiter} :
    s.queue ≠ .read k :: queue := by
  obtain ⟨ahead, behind, hqueue, hk⟩ := hi
  rw [hqueue]
  cases ahead with
  | nil => simp
  | cons w ahead =>
    rw [List.cons_append]
    rintro h
    exact hk (List.mem_cons.mpr (.inl (List.cons.inj h).1.symm))

/-- Asking later does not matter. -/
lemma AsksBefore.append (hi : AsksBefore s i k) {w : Waiter} (h : t.queue = s.queue ++ [w]) :
    AsksBefore t i k := by
  obtain ⟨ahead, behind, hqueue, hk⟩ := hi
  exact ⟨ahead, behind ++ [w], by rw [h, hqueue]; simp, hk⟩

/-- A stream that asks for the lock is behind all who wait. -/
lemma AsksBefore.of_append (hi : AsksBefore t i k) (h : t.queue = s.queue ++ [.read j]) :
    AsksBefore s i k := by
  obtain ⟨ahead, behind, hqueue, hk⟩ := hi
  rw [h] at hqueue
  obtain rfl | ⟨behind, w, rfl⟩ := List.eq_nil_or_concat' behind
  · cases (List.append_inj' hqueue rfl).2
  · refine ⟨ahead, behind, ?_, hk⟩
    rw [← List.cons_append, ← List.append_assoc] at hqueue
    exact (List.append_inj' hqueue rfl).1

/-- A stream that gets the lock makes a call move up. -/
lemma AsksBefore.tail (hi : AsksBefore s i k) (h : s.queue = .read j :: t.queue) :
    AsksBefore t i k := by
  obtain ⟨ahead, behind, hqueue, hk⟩ := hi
  cases ahead with
  | nil =>
    rw [h] at hqueue
    cases (List.cons.inj hqueue).1
  | cons w ahead =>
    rw [h] at hqueue
    exact ⟨ahead, behind, (List.cons.inj hqueue).2, fun hmem => hk (List.mem_cons_of_mem _ hmem)⟩

/-- While a stream waits for room, a call keeps its place before another stream. -/
lemma AsksBefore.step {a : Action} (hi : AsksBefore s i k) (hreaders : s.readers ≠ [])
    (h : TurnStep s a t) (ha : a ≠ .dropReceiver i) : AsksBefore t i k := by
  cases h with
  | register => exact hi.append rfl
  | next => exact hi.append rfl
  | fill _ _ _ hnil => exact absurd hnil hreaders
  | reject _ _ _ hnil => exact absurd hnil hreaders
  | forward hqueue => exact hi.tail hqueue
  | skip hqueue => exact hi.tail hqueue
  | @dropReceiver m call hm =>
    obtain ⟨ahead, behind, hqueue, hk⟩ := hi
    have hmi : Waiter.write i ≠ .write m := by
      rintro h
      cases h
      exact ha rfl
    change ∃ ahead behind, s.queue.erase (.write m) = _ ∧ _
    rw [hqueue, List.erase_append]
    split_ifs with hmem
    · exact ⟨ahead.erase (.write m), behind, rfl, fun h => hk (List.mem_of_mem_erase h)⟩
    · exact ⟨ahead, behind.erase (.write m), by
        rw [List.erase_cons_tail (by simpa using hmi)], hk⟩
  | _ => exact hi

/-- The stream has handled these packets and forwards none. -/
def Halted (s : TurnService) (k : StreamId) (handled : List TurnPacket) : Prop :=
  ∃ stream, s.streams k = some stream ∧ stream.handled = handled ∧
    ∀ pkt tx, stream.state ≠ .forwarding pkt tx

/-- A stream that a call asks before forwards nothing. -/
lemma Halted.step {a : Action} {handled : List TurnPacket} (hk : Halted s k handled)
    (hi : AsksBefore s i k) (h : TurnStep s a t) : Halted t k handled := by
  obtain ⟨stream, hstream, hhandled, hstate⟩ := hk
  have hmove : ∀ {j c c'}, s.streams j = some c → t.streams = update s.streams j (some c') →
      (j = k → c'.handled = c.handled ∧ ∀ pkt tx, c.state ≠ .forwarding pkt tx →
        c'.state ≠ .forwarding pkt tx) → Halted t k handled := by
    intro j c c' hj ht hkeep
    by_cases hjk : j = k
    · obtain ⟨hhandled', hstate'⟩ := hkeep hjk
      subst hjk
      obtain rfl := Option.some.inj (hstream.symm.trans hj)
      exact ⟨c', by rw [ht, update_self], hhandled'.trans hhandled,
        fun pkt tx => hstate' pkt tx (hstate pkt tx)⟩
    · exact ⟨stream, by rw [ht, update_of_ne (Ne.symm hjk), hstream], hhandled, hstate⟩
  have hnew : ∀ {j c'}, s.streams j = none → t.streams = update s.streams j (some c') →
      Halted t k handled := by
    intro j c' hj ht
    refine ⟨stream, ?_, hhandled, hstate⟩
    rw [ht, update_of_ne, hstream]
    rintro rfl
    rw [hj] at hstream
    cases hstream
  have hforwarding : ∀ {j c pkt tx}, s.streams j = some c → c.state = .forwarding pkt tx →
      j ≠ k := by
    rintro j c pkt tx hj hc rfl
    obtain rfl := Option.some.inj (hstream.symm.trans hj)
    exact hstate pkt tx hc
  cases h with
  | forward hqueue hj =>
    refine hmove hj rfl ?_
    rintro rfl
    exact absurd hqueue hi.head_ne
  | skip hqueue hj =>
    refine hmove hj rfl ?_
    rintro rfl
    exact absurd hqueue hi.head_ne
  | accept hj => exact hnew hj rfl
  | refuse hj => exact hnew hj rfl
  | submit hj => exact hmove hj rfl fun _ => ⟨rfl, fun _ _ h => h⟩
  | close hj => exact hmove hj rfl fun _ => ⟨rfl, fun _ _ h => h⟩
  | next hj => exact hmove hj rfl fun _ => ⟨rfl, fun _ _ _ => by simp⟩
  | finish hj => exact hmove hj rfl fun _ => ⟨rfl, fun _ _ _ => by simp⟩
  | put hj hc => exact hmove hj rfl fun hjk => absurd hjk (hforwarding hj hc)
  | putDropped hj hc => exact hmove hj rfl fun hjk => absurd hjk (hforwarding hj hc)
  | _ => exact ⟨stream, hstream, hhandled, hstate⟩

/-- While a stream waits for room and no call is given up, a stream that a call asks before
forwards nothing. -/
lemma halted_run {handled : List TurnPacket} (hs : Queued s) (hw : Waits s j pkt tx id)
    (hi : AsksBefore s i k) (hk : Halted s k handled)
    (h : Reaches step (fun a => a.LeavesReceiver tx ∧ ∀ i, a ≠ .dropReceiver i) s t) :
    Halted t k handled := by
  obtain ⟨tr, hrun, hok⟩ := h
  refine (hrun.invariant
    (P := fun _ a => a.LeavesReceiver tx ∧ ∀ i, a ≠ .dropReceiver i)
    (I := fun s => Queued s ∧ Waits s j pkt tx id ∧ AsksBefore s i k ∧ Halted s k handled)
    ?_ hok ⟨hs, hw, hi, hk⟩).2.2.2
  rintro s a t ⟨hs, hw, hi, hk⟩ ⟨hreceiver, hdrop⟩ hstep
  have h := turnStep_of_eq_some hstep
  exact ⟨hs.step h, hw.step h hreceiver, hi.step (hw.readers_ne_nil hs) h (hdrop i), hk.step hi h⟩

/-! ### A stream behind streams only -/

/-- A stream goes through the lock: those before it get their locks first, and the channels stay as
they are. -/
lemma reaches_head (hs : Queued s) {ahead behind : List Waiter} {stream : SendCall}
    (hqueue : s.queue = ahead ++ .read k :: behind) (hahead : ∀ i, .write i ∉ ahead)
    (hk : s.streams k = some stream) :
    ∃ t, Reaches step (fun a => a.LeavesReceiver tx ∧ ∀ i, a ≠ .dropReceiver i) s t ∧
      t.queue = .read k :: behind ∧ t.streams k = some stream ∧ t.registers = s.registers ∧
      t.sessions = s.sessions := by
  induction ahead generalizing s with
  | nil => exact ⟨s, .refl s, hqueue, hk, rfl, rfl⟩
  | cons w ahead ih =>
    cases w with
    | write i => exact absurd List.mem_cons_self (hahead i)
    | read j =>
      obtain ⟨pkt, hj⟩ := (hs.read j).mp (by rw [hqueue]; exact List.mem_cons_self)
      obtain ⟨c, hc, hstate⟩ := Option.map_eq_some_iff.mp hj
      have hjk : k ≠ j := by
        rintro rfl
        have hnodup := hs.nodup
        rw [hqueue, List.cons_append, List.nodup_cons] at hnodup
        exact hnodup.1 (by simp)
      have hstep : s.step .acquire =
          some (({ s with queue := ahead ++ .read k :: behind } :
            TurnService).forward j c pkt) := by
        simp only [step, acquire, hqueue, List.cons_append, hc, hstate]
      obtain ⟨hqueue', hk', hregisters, hsessions⟩ :
          (({ s with queue := ahead ++ .read k :: behind } : TurnService).forward j c pkt).queue
              = ahead ++ .read k :: behind ∧
            (({ s with queue := ahead ++ .read k :: behind } : TurnService).forward j c pkt).streams
              k = some stream ∧
            (({ s with queue := ahead ++ .read k :: behind } : TurnService).forward j c
              pkt).registers = s.registers ∧
            (({ s with queue := ahead ++ .read k :: behind } : TurnService).forward j c
              pkt).sessions = s.sessions := by
        rw [forward]
        split
        · exact ⟨rfl, (update_of_ne hjk _ _).trans hk, rfl, rfl⟩
        · exact ⟨rfl, (update_of_ne hjk _ _).trans hk, rfl, rfl⟩
      obtain ⟨t, ht, hrest⟩ := ih (hs.step (turnStep_of_eq_some hstep)) hqueue'
        (fun i hi => hahead i (List.mem_cons_of_mem _ hi)) hk'
      rw [hregisters, hsessions] at hrest
      exact ⟨t, (Reaches.single hstep (by simp [Action.LeavesReceiver])).trans ht, hrest⟩

/-- A stream that has asked for the lock before all calls forwards its packet. -/
lemma reaches_handled (hs : Queued s) {stream : SendCall} {dst : RegisterId} {call : RegisterCall}
    (hi : ∀ i, ¬ AsksBefore s i k) (hk : s.streams k = some stream)
    (hstate : stream.state = .locking pkt)
    (htarget : (stream.session.bind s.sessions).bind (·.target pkt) = some dst)
    (hdst : s.registers dst = some call) (hroom : call.channel.queue.length < turnCapacity) :
    ∃ t stream', Reaches step (fun a => a.LeavesReceiver tx ∧ ∀ i, a ≠ .dropReceiver i) s t ∧
      t.streams k = some stream' ∧ stream'.handled = stream.handled ++ [pkt] := by
  have hmem : Waiter.read k ∈ s.queue :=
    (hs.read k).mpr ⟨pkt, by rw [streamState, hk, Option.map_some, hstate]⟩
  obtain ⟨ahead, behind, hqueue, hfirst⟩ := List.eq_append_cons_of_mem hmem
  have hahead : ∀ i, .write i ∉ ahead := by
    intro i hmem
    obtain ⟨front, back, rfl⟩ := List.append_of_mem hmem
    exact hi i ⟨front, back ++ .read k :: behind, by rw [hqueue]; simp,
      fun h => hfirst (List.mem_append_left _ h)⟩
  obtain ⟨t, ht, hqueue', hk', hregisters, hsessions⟩ := reaches_head hs hqueue hahead hk
  rw [← hsessions] at htarget
  -- the stream gets the lock
  have hacquire : t.step .acquire =
      some { t.setStream k { stream with state := .forwarding pkt dst } with
        queue := behind
        readers := t.readers ++ [k] } := by
    simp only [step, acquire, hqueue', hk', hstate, forward, htarget]
    rfl
  -- and puts its packet into the channel
  obtain ⟨channel, hsend, -⟩ := Channel.exists_send? pkt hroom
  have hput : ∃ u, step { t.setStream k { stream with state := .forwarding pkt dst } with
        queue := behind
        readers := t.readers ++ [k] } (.put k) = some u ∧
      u.streams k = some (stream.finish pkt) := by
    simp only [step, put, setStream, update_self, hregisters, hdst, hsend]
    split_ifs
    · exact ⟨_, rfl, update_self _ _ _⟩
    · exact ⟨_, rfl, update_self _ _ _⟩
  obtain ⟨u, hstep, hu⟩ := hput
  exact ⟨u, _, (ht.tail hacquire (by simp [Action.LeavesReceiver])).tail hstep
    (by simp [Action.LeavesReceiver]), hu, rfl⟩

/-! ### A full channel -/

/-- Two sessions whose parties are registered, with a stream each. -/
def openingActions : List Action :=
  [.register 0 ⟨"ab", true⟩, .register 1 ⟨"ab", false⟩, .register 2 ⟨"cd", true⟩,
    .register 3 ⟨"cd", false⟩, .acquire, .acquire, .acquire, .acquire, .arrive 0, .arrive 1,
    .arrive 2, .arrive 3, .pass 0, .pass 1, .pass 2, .pass 3,
    .openStream 0 (partyHeaders "ab" .seeder), .openStream 1 (partyHeaders "cd" .seeder)]

/-- A piece for the leecher of a session. -/
def somePiece (id : String) : TurnPacket := ⟨id, some (.piece [7] 0)⟩

/-- The lock is free, the streams `0` and `1` of the two sessions are idle, and the channel of the
leecher of the first one holds `n` packets. -/
structure Holds (s : TurnService) (n : ℕ) : Prop where
  stream : ∃ l, s.streams 0 = some ⟨some "ab", .reading, [], none, l, l⟩
  call : ∃ call, s.registers 1 = some call ∧ call.session = "ab" ∧ call.isOpen = true ∧
    call.channel.queue.length = n
  session : (s.sessions "ab").bind (·.target (somePiece "ab")) = some 1
  other : s.streams 1 = some (.new (some "cd") .reading)
  otherCall : ∃ call, s.registers 3 = some call ∧ call.channel.queue = []
  otherSession : (s.sessions "cd").bind (·.target (somePiece "cd")) = some 3
  fresh : s.registers 4 = none
  free : s.queue = [] ∧ s.readers = []

lemma holds_opening : ∃ s, exec step default openingActions = some s ∧ Holds s 0 :=
  ⟨_, rfl, ⟨_, rfl⟩, ⟨_, rfl, rfl, rfl, rfl⟩, rfl, rfl, ⟨_, rfl, rfl⟩, rfl, rfl,
    rfl, rfl⟩

/-- A packet is submitted and its stream gets the lock. -/
def pieceActions : List Action := [.submit 0 (somePiece "ab"), .next 0, .acquire]

/-- A packet is submitted and its stream gets the lock. -/
lemma exec_pieceActions {n : ℕ} (hs : Holds s n) :
    ∃ l, exec step s pieceActions = some
      { s with
        streams := update s.streams 0
          (some ⟨some "ab", .forwarding (somePiece "ab") 1, [], none, l ++ [somePiece "ab"], l⟩)
        queue := []
        readers := [0] } := by
  obtain ⟨l, hl⟩ := hs.stream
  refine ⟨l, ?_⟩
  simp [exec, pieceActions, step, submit, hl, setStream, next, acquire, hs.free, forward,
    hs.session]

/-- One more packet comes to the channel. -/
lemma Holds.put {n : ℕ} (hs : Holds s n) (hn : n < turnCapacity) :
    ∃ tr t, Run step s tr t ∧ Holds t (n + 1) := by
  obtain ⟨l, hexec⟩ := exec_pieceActions hs
  obtain ⟨tr, hrun, -⟩ := run_of_exec hexec
  obtain ⟨call, hcall, hsession, hopen, hlength⟩ := hs.call
  obtain ⟨channel, hsend, hchannel⟩ := Channel.exists_send? (somePiece "ab") (hlength ▸ hn)
  obtain ⟨call', hcall', hempty⟩ := hs.otherCall
  have hput : step
      { s with
        streams := update s.streams 0
          (some ⟨some "ab", .forwarding (somePiece "ab") 1, [], none, l ++ [somePiece "ab"], l⟩)
        queue := []
        readers := [0] } (.put 0) = some
      { s with
        registers := update s.registers 1
          (some { call with channel, put := call.put ++ [somePiece "ab"] })
        streams := update s.streams 0 (some ⟨some "ab", .reading, [], none, l ++ [somePiece "ab"],
          l ++ [somePiece "ab"]⟩)
        queue := []
        readers := [] } := by
    simp [step, TurnService.put, setStream, setRegister, hcall, hopen, hsend, SendCall.finish]
  refine ⟨_, _, hrun.snoc hput, ?_⟩
  constructor
  · exact ⟨l ++ [somePiece "ab"], rfl⟩
  · refine ⟨{ call with channel, put := call.put ++ [somePiece "ab"] }, rfl, hsession, hopen, ?_⟩
    change channel.queue.length = n + 1
    rw [hchannel, List.length_append, hlength]
    rfl
  · exact hs.session
  · exact hs.other
  · exact ⟨call', hcall', hempty⟩
  · exact hs.otherSession
  · exact hs.fresh
  · exact ⟨rfl, rfl⟩

/-- The channel of the leecher can be filled. -/
lemma exists_holds {n : ℕ} (hn : n ≤ turnCapacity) : ∃ tr s, Run step default tr s ∧ Holds s n := by
  induction n with
  | zero =>
    obtain ⟨s, hexec, hs⟩ := holds_opening
    obtain ⟨tr, hrun, -⟩ := run_of_exec hexec
    exact ⟨tr, s, hrun, hs⟩
  | succ n ih =>
    obtain ⟨tr, s, hrun, hs⟩ := ih (Nat.le_of_succ_le hn)
    obtain ⟨tr', t, hrun', ht⟩ := hs.put hn
    exact ⟨tr ++ tr', t, hrun.append hrun', ht⟩

/-- The next packet waits, while the other session is idle. -/
lemma exists_waits : ∃ tr s, Run step default tr s ∧ Waits s 0 (somePiece "ab") 1 "ab" ∧
    s.streams 1 = some (.new (some "cd") .reading) ∧
    (∃ call, s.registers 3 = some call ∧ call.channel.queue = []) ∧
    (s.sessions "cd").bind (·.target (somePiece "cd")) = some 3 ∧ s.registers 4 = none ∧
    s.queue = [] := by
  obtain ⟨tr, s, hrun, hs⟩ := exists_holds le_rfl
  obtain ⟨l, hexec⟩ := exec_pieceActions hs
  obtain ⟨tr', hrun', -⟩ := run_of_exec hexec
  obtain ⟨call, hcall, hsession, hopen, hlength⟩ := hs.call
  refine ⟨_, _, hrun.append hrun', ⟨?_, call, hcall, hsession, hopen, hlength⟩, hs.other,
    hs.otherCall, hs.otherSession, hs.fresh, rfl⟩
  rw [streamState_update rfl, if_pos rfl]

/-- A call for another session does not return while a packet waits for room in the full channel of
the leecher. -/
theorem register_waits_for_room : ∃ tr s t, Run step default tr s ∧
    Waits s 0 (somePiece "ab") 1 "ab" ∧ s.step (.register 4 ⟨"ef", true⟩) = some t ∧
    ∀ u, Reaches step (·.LeavesReceiver 1) t u →
      ∀ result, u.callState 4 ≠ some (.returned result) := by
  obtain ⟨tr, s, hrun, hw, -, -, -, hfresh, -⟩ := exists_waits
  have hstep : s.step (.register 4 ⟨"ef", true⟩) =
      some { s.setRegister 4 (.new ⟨"ef", true⟩) with queue := s.queue ++ [.write 4] } := by
    simp only [step, register, hfresh]
    rfl
  have h := turnStep_of_eq_some hstep
  refine ⟨tr, s, _, hrun, hw, hstep, fun u hu result hresult => ?_⟩
  have hunregistered : Unregistered u 4 :=
    unregistered_run ((queued_run hrun).step h) (hw.step h (by simp [Action.LeavesReceiver]))
      (.inr (callState_update rfl |>.trans (if_pos rfl))) hu
  rw [Unregistered, hresult] at hunregistered
  simp at hunregistered

/-- A stream waits for room in the full channel of a party of session `A`. Until this party takes a
packet or goes away, no call that has not got the lock yet registers, for whichever session. And a
stream of another session, whose own receiver has room, forwards its packet without any call being
given up if and only if no `register` call has asked for the lock before it. -/
theorem waiting_forward_blocks {tr : List (TurnService × Action)} (hrun : Run step default tr s)
    {A : String} (hw : Waits s j pkt tx A) :
    (∀ i, Unregistered s i → ∀ t, Reaches step (·.LeavesReceiver tx) s t → Unregistered t i) ∧
      ∀ B, B ≠ A → ∀ k stream pkt' dst call, s.streams k = some stream →
        stream.session = some B → stream.upcoming = some pkt' →
        (s.sessions B).bind (·.target pkt') = some dst → s.registers dst = some call →
        call.channel.queue.length < turnCapacity →
        ((∃ t stream', Reaches step (fun a => a.LeavesReceiver tx ∧ ∀ i, a ≠ .dropReceiver i) s t ∧
            t.streams k = some stream' ∧ stream'.handled = stream.handled ++ [pkt']) ↔
          ∀ i, ¬ AsksBefore s i k) := by
  have hs := queued_run hrun
  refine ⟨fun i hi t ht => unregistered_run hs hw hi ht, ?_⟩
  intro B _ k stream pkt' dst call hk hB hupcoming htarget hdst hroom
  constructor
  · rintro ⟨t, stream', ht, hk', hhandled⟩ i hi
    have hhalted : Halted s k stream.handled := by
      refine ⟨stream, hk, rfl, fun pkt tx hstate => ?_⟩
      rw [SendCall.upcoming, hstate] at hupcoming
      cases hupcoming
    obtain ⟨stream'', hk'', hhandled', -⟩ := halted_run hs hw hi hhalted ht
    obtain rfl := Option.some.inj (hk'.symm.trans hk'')
    rw [hhandled] at hhandled'
    simp at hhandled'
  · intro hi
    unfold SendCall.upcoming at hupcoming
    split at hupcoming
    · rename_i hstate
      obtain ⟨inbound, hinbound⟩ := List.head?_eq_some_iff.mp hupcoming
      -- the stream asks for the lock first
      have hstep : s.step (.next k) =
          some { s.setStream k { stream with state := .locking pkt', inbound } with
            queue := s.queue ++ [.read k] } := by
        simp only [step, next, hk, hstate, hinbound]
        rfl
      obtain ⟨t, stream', ht, hrest⟩ := reaches_handled (hs.step (turnStep_of_eq_some hstep))
        (fun i hi' => hi i (.of_append hi' rfl)) (update_self k _ s.streams) rfl
        (by rw [hB]; exact htarget) hdst hroom
      exact ⟨t, stream', (Reaches.single hstep (by simp [Action.LeavesReceiver])).trans ht, hrest⟩
    · rename_i hstate
      obtain rfl := Option.some.inj hupcoming
      exact reaches_handled hs hi hk hstate (by rw [hB]; exact htarget) hdst hroom
    · cases hupcoming

theorem waiting_forward_blocks_idle : ∃ tr s t, Run step default tr s ∧
    Waits s 0 (somePiece "ab") 1 "ab" ∧ s.step (.submit 1 (somePiece "cd")) = some t ∧
    (∀ u, Reaches step (·.LeavesReceiver 1) t u → Unregistered u 4) ∧
    ∃ u stream, Reaches step (fun a => a.LeavesReceiver 1 ∧ ∀ i, a ≠ .dropReceiver i) t u ∧
      u.streams 1 = some stream ∧ stream.handled = [somePiece "cd"] := by
  obtain ⟨tr, s, hrun, hw, hstream, ⟨call, hcall, hempty⟩, hsession, hfresh, hqueue⟩ := exists_waits
  have hstep : s.step (.submit 1 (somePiece "cd")) =
      some (s.setStream 1 ⟨some "cd", .reading, [somePiece "cd"], none, [somePiece "cd"], []⟩) := by
    simp only [step, submit, hstream]
    rfl
  have h := waiting_forward_blocks (hrun.snoc hstep)
    (hw.step (turnStep_of_eq_some hstep) (by simp [Action.LeavesReceiver]))
  refine ⟨tr, s, _, hrun, hw, hstep, h.1 4 (.inl ?_), (h.2 "cd" (by decide) 1
    ⟨some "cd", .reading, [somePiece "cd"], none, [somePiece "cd"], []⟩ (somePiece "cd") 3 call
    rfl rfl rfl hsession hcall ?_).mpr ?_⟩
  · change (s.registers 4).map _ = none
    rw [hfresh]
    rfl
  · rw [hempty]
    decide
  · rintro i ⟨ahead, behind, hi, -⟩
    change s.queue = _ at hi
    rw [hqueue] at hi
    simp at hi

end TurnService

end BearTorrent
