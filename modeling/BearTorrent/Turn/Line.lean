import BearTorrent.Turn.Registration
import BearTorrent.Turn.Relay

/-!
# The line to a party of a session

The packets for one party that are submitted on one stream, on their way to the channel of that
party. Nothing is lost, doubled or reordered on the way, whatever the relay does for the other
sessions: their streams may be opened without registration and their receivers may go.
-/

namespace BearTorrent

open Function Transition

/-- The number of the calls that a party of a private session makes. -/
def Role.number : Role → ℕ
  | .seeder  => 0
  | .leecher => 1

lemma Role.number_lt (r : Role) : r.number < 2 := by cases r <;> decide

lemma Role.number_inj {r r' : Role} : r.number = r'.number ↔ r = r' := by
  cases r <;> cases r' <;> decide

namespace TurnService

variable {s t : TurnService} {i k : RegisterId} {j m : StreamId} {id : String} {r : Role}
  {call call' : RegisterCall} {stream stream' : SendCall}

/-- What waits in the channel of a call. -/
def channelOf (s : TurnService) (i : RegisterId) : List TurnPacket :=
  (s.registers i).elim [] (·.channel.queue)

/-- The packets for role `r` that stream `j` is not done with. -/
def pendingFor (s : TurnService) (r : Role) (j : StreamId) : List TurnPacket :=
  (s.streams j).elim [] fun stream => stream.pending.filter (·.receiver = some r)

/-- The packets for role `r` between stream `j` and the receiver of call `i`. -/
def line (s : TurnService) (r : Role) (j : StreamId) (i : RegisterId) : List TurnPacket :=
  s.channelOf i ++ s.pendingFor r j

/-- The receiver of call `i` is gone. -/
def Closed (s : TurnService) (i : RegisterId) : Prop :=
  ∃ call, s.registers i = some call ∧ call.isOpen = false

/-- The packet for role `r` that a step submits on stream `j`. -/
def submittedOn (r : Role) (j : StreamId) (p : TurnService × Action) : List TurnPacket :=
  match p.2 with
  | .submit k pkt => if k = j ∧ pkt.receiver = some r then [pkt] else []
  | _             => []

/-- The packet that the client of call `i` takes in a step. -/
def readBy (i : RegisterId) (p : TurnService × Action) : List TurnPacket :=
  match p.2 with
  | .read k => if k = i then (p.1.channelOf k).head?.toList else []
  | _       => []

lemma submittedOn_submit (pkt : TurnPacket) : submittedOn r j (s, .submit m pkt) =
    if m = j ∧ pkt.receiver = some r then [pkt] else [] := rfl

lemma readBy_read : readBy i (s, .read k) =
    if k = i then (s.channelOf k).head?.toList else [] := rfl

lemma channelOf_eq (hi : s.registers i = some call) : s.channelOf i = call.channel.queue := by
  rw [channelOf, hi]
  rfl

lemma pendingFor_eq (hj : s.streams j = some stream) :
    s.pendingFor r j = stream.pending.filter (·.receiver = some r) := by
  rw [pendingFor, hj]
  rfl

lemma channelOf_update (h : t.registers = update s.registers k (some call')) :
    t.channelOf i = if i = k then call'.channel.queue else s.channelOf i := by
  rw [channelOf, h, update_apply]
  split_ifs <;> rfl

lemma pendingFor_update (h : t.streams = update s.streams m (some stream')) :
    t.pendingFor r j = if j = m then stream'.pending.filter (·.receiver = some r)
      else s.pendingFor r j := by
  rw [pendingFor, h, update_apply]
  split_ifs <;> rfl

/-- A call that leaves its channel as it is. -/
lemma channelOf_update_same (h : t.registers = update s.registers k (some call'))
    (hk : s.registers k = some call) (hqueue : call'.channel.queue = call.channel.queue) :
    t.channelOf i = s.channelOf i := by
  rw [channelOf_update h]
  split_ifs with hik
  · rw [hik, channelOf_eq hk, hqueue]
  · rfl

/-- A stream that keeps the packets it is not done with. -/
lemma pendingFor_update_same (h : t.streams = update s.streams m (some stream'))
    (hm : s.streams m = some stream) (hpending : stream'.pending = stream.pending) :
    t.pendingFor r j = s.pendingFor r j := by
  rw [pendingFor_update h]
  split_ifs with hjm
  · rw [hjm, pendingFor_eq hm, hpending]
  · rfl

/-- A stream is done with the packet at hand. -/
lemma pendingFor_finish {pkt : TurnPacket} (hm : s.streams m = some stream)
    (hhand : stream.state.hand = [pkt]) :
    s.pendingFor r m = (if pkt.receiver = some r then [pkt] else []) ++
      (stream.finish pkt).pending.filter (·.receiver = some r) := by
  have hpending : (stream.finish pkt).pending = stream.inbound := rfl
  rw [pendingFor_eq hm, hpending, SendCall.pending, hhand]
  split_ifs with hr
  · simp [hr]
  · simp [hr]

/-! ### Addresses -/

/-- A packet is forwarded to the slot that it is for, in the session of its stream. -/
def Addressed (s : TurnService) : Prop :=
  ∀ j stream pkt tx, s.streams j = some stream → stream.state = .forwarding pkt tx →
    ∃ id r, stream.session = some id ∧ pkt.receiver = some r ∧
      (s.sessionOf id).slot r = some tx

lemma Addressed.step {a : Action} (hs : Addressed s) (h : TurnStep s a t) : Addressed t := by
  intro j stream pkt tx hj hstate
  have hupdate : ∀ {m stream'}, t.streams = update s.streams m (some stream') →
      (stream'.state = .forwarding pkt tx → ∃ id r, stream'.session = some id ∧
        pkt.receiver = some r ∧ (s.sessionOf id).slot r = some tx) →
      ∃ id r, stream.session = some id ∧ pkt.receiver = some r ∧
        (s.sessionOf id).slot r = some tx := by
    intro m stream' hstreams hstream'
    rw [hstreams, update_eq_some] at hj
    rcases hj with ⟨rfl, rfl⟩ | ⟨-, hj⟩
    · exact hstream' hstate
    · exact hs j stream pkt tx hj hstate
  have hold : ∃ id r, stream.session = some id ∧ pkt.receiver = some r ∧
      (s.sessionOf id).slot r = some tx := by
    cases h with
    | @forward m stream' pkt' tx' queue hqueue hm hlocking htarget =>
      refine hupdate rfl fun hstate' => ?_
      cases hstate'
      exact target_eq_some htarget
    | skip => exact hupdate rfl fun hstate' => by cases hstate'
    | accept => exact hupdate rfl fun hstate' => by cases hstate'
    | refuse => exact hupdate rfl fun hstate' => by cases hstate'
    | @submit m stream' _ hm => exact hupdate rfl fun hstate' => hs m stream' pkt tx hm hstate'
    | @close m stream' _ hm => exact hupdate rfl fun hstate' => hs m stream' pkt tx hm hstate'
    | next => exact hupdate rfl fun hstate' => by cases hstate'
    | finish => exact hupdate rfl fun hstate' => by cases hstate'
    | put => exact hupdate rfl fun hstate' => by cases hstate'
    | putDropped => exact hupdate rfl fun hstate' => by cases hstate'
    | _ => exact hs j stream pkt tx hj hstate
  obtain ⟨id, r, hid, hr, hslot⟩ := hold
  exact ⟨id, r, hid, hr, slot_of_step h hslot⟩

/-! ### The line -/

/-- What a step may do when stream `j` is to be the only one of session `id` with packets for role
`r`, whose receiver is that of call `i`. Everything is allowed on other sessions. -/
def Keeps (id : String) (r : Role) (j : StreamId) (i : RegisterId) (s : TurnService) :
    Action → Prop
  | .register k req  => k = i →
      (RegisterCall.new req).session = id ∧ (RegisterCall.new req).role = r
  | .openStream m md => m = j → sendSession md = .ok id ∧ (s.sessionOf id).slot r = some i
  | .submit m pkt    => m ≠ j → pkt.receiver = some r →
      ∀ stream, s.streams m = some stream → stream.session ≠ some id
  | _                => True

/-- Stream `j` and call `i` are the ends of the line for role `r` of session `id`. -/
structure Lined (id : String) (r : Role) (j : StreamId) (i : RegisterId) (s : TurnService) :
    Prop where
  registered : Registered s
  addressed : Addressed s
  own : ∀ stream, s.streams j = some stream →
    stream.session = some id ∧ (s.sessionOf id).slot r = some i
  others : ∀ m stream, m ≠ j → s.streams m = some stream → stream.session = some id →
    s.pendingFor r m = []
  call : ∀ call, s.registers i = some call → call.session = id ∧ call.role = r

lemma lined_default : Lined id r j i default := by
  constructor
  · exact registered_default
  · intro j stream pkt tx hj
    cases hj
  · intro stream hj
    cases hj
  · intro m stream _ hm
    cases hm
  · intro call hi
    cases hi

namespace Lined

lemma call_step {a : Action} (hs : Lined id r j i s) (h : TurnStep s a t)
    (hkeeps : Keeps id r j i s a) (c : RegisterCall) (hc : t.registers i = some c) :
    c.session = id ∧ c.role = r := by
  have hupdate : ∀ {k c'}, t.registers = update s.registers k (some c') →
      (k = i → c'.session = id ∧ c'.role = r) → c.session = id ∧ c.role = r := by
    intro k c' ht hnew
    rw [ht, update_eq_some] at hc
    rcases hc with ⟨hik, rfl⟩ | ⟨-, hc⟩
    · exact hnew hik.symm
    · exact hs.call c hc
  have hkept : ∀ {k c₀ c'}, t.registers = update s.registers k (some c') →
      s.registers k = some c₀ → c'.session = c₀.session → c'.role = c₀.role →
      c.session = id ∧ c.role = r := by
    intro k c₀ c' ht hk hsession hrole
    refine hupdate ht fun hki => ?_
    rw [hsession, hrole]
    exact hs.call c₀ (hki ▸ hk)
  cases h with
  | register => exact hupdate rfl hkeeps
  | fill hqueue hk => exact hkept rfl hk rfl rfl
  | reject hqueue hk => exact hkept rfl hk rfl rfl
  | arrive hk => exact hkept rfl hk rfl rfl
  | pass hk => exact hkept rfl hk rfl rfl
  | read hk => exact hkept rfl hk rfl rfl
  | dropReceiver hk => exact hkept rfl hk rfl rfl
  | put hm hstate hk => exact hkept rfl hk rfl rfl
  | _ => exact hs.call c hc

/-- The stream at the end of the line stays one of its session. -/
lemma own_step {a : Action} (hs : Lined id r j i s) (h : TurnStep s a t)
    (hkeeps : Keeps id r j i s a) (st : SendCall) (hst : t.streams j = some st) :
    st.session = some id ∧ (t.sessionOf id).slot r = some i := by
  have hupdate : ∀ {m st'}, t.streams = update s.streams m (some st') →
      (m = j → st'.session = some id ∧ (s.sessionOf id).slot r = some i) →
      st.session = some id ∧ (s.sessionOf id).slot r = some i := by
    intro m st' ht hown
    rw [ht, update_eq_some] at hst
    rcases hst with ⟨hjm, rfl⟩ | ⟨-, hst⟩
    · exact hown hjm.symm
    · exact hs.own st hst
  have hkept : ∀ {m st₀ st'}, t.streams = update s.streams m (some st') →
      s.streams m = some st₀ → st'.session = st₀.session →
      st.session = some id ∧ (s.sessionOf id).slot r = some i := by
    intro m st₀ st' ht hm hsession
    refine hupdate ht fun hmj => ?_
    rw [hsession]
    exact hs.own st₀ (hmj ▸ hm)
  have hold : st.session = some id ∧ (s.sessionOf id).slot r = some i := by
    cases h with
    | forward hqueue hm => exact hkept rfl hm rfl
    | skip hqueue hm => exact hkept rfl hm rfl
    | accept hm hmd =>
      refine hupdate rfl fun hmj => ?_
      obtain ⟨hid, hslot⟩ := hkeeps hmj
      rw [hmd] at hid
      cases hid
      exact ⟨rfl, hslot⟩
    | refuse hm hmd =>
      refine hupdate rfl fun hmj => ?_
      rw [(hkeeps hmj).1] at hmd
      cases hmd
    | submit hm => exact hkept rfl hm rfl
    | close hm => exact hkept rfl hm rfl
    | next hm => exact hkept rfl hm rfl
    | finish hm => exact hkept rfl hm rfl
    | put hm => exact hkept rfl hm rfl
    | putDropped hm => exact hkept rfl hm rfl
    | _ => exact hs.own st hst
  exact ⟨hold.1, slot_of_step h hold.2⟩

/-- The other streams of the session get no packets for the role. -/
lemma others_step {a : Action} (hs : Lined id r j i s) (h : TurnStep s a t)
    (hkeeps : Keeps id r j i s a) (m : StreamId) (st : SendCall) (hmj : m ≠ j)
    (hst : t.streams m = some st) (hid : st.session = some id) : t.pendingFor r m = [] := by
  have hupdate : ∀ {n st'}, t.streams = update s.streams n (some st') →
      (m = n → st = st' → st'.pending.filter (·.receiver = some r) = []) →
      t.pendingFor r m = [] := by
    intro n st' ht hnil
    rw [pendingFor_update ht]
    rw [ht, update_eq_some] at hst
    rcases hst with ⟨rfl, rfl⟩ | ⟨hmn, hst⟩
    · rw [if_pos rfl, hnil rfl rfl]
    · rw [if_neg hmn, hs.others m st hmj hst hid]
  have hkept : ∀ {n st₀ st'}, t.streams = update s.streams n (some st') →
      s.streams n = some st₀ → st'.session = st₀.session →
      (∀ pkt ∈ st'.pending, pkt ∈ st₀.pending) → t.pendingFor r m = [] := by
    intro n st₀ st' ht hn hsession hsub
    refine hupdate ht fun hmn hstate => ?_
    subst hmn hstate
    have hnil := hs.others m st₀ hmj hn (hsession ▸ hid)
    rw [pendingFor_eq hn, List.filter_eq_nil_iff] at hnil
    exact List.filter_eq_nil_iff.mpr fun pkt hpkt => hnil pkt (hsub pkt hpkt)
  cases h with
  | forward hqueue hn hstate =>
    exact hkept rfl hn rfl fun pkt hpkt => by simpa [SendCall.pending, SendState.hand, hstate]
      using hpkt
  | skip hqueue hn hstate =>
    exact hkept rfl hn rfl fun pkt hpkt => List.mem_append_right _ hpkt
  | accept => exact hupdate rfl fun _ _ => rfl
  | refuse => exact hupdate rfl fun _ _ => rfl
  | @submit n st₀ pkt hn =>
    refine hupdate rfl fun hmn hst' => ?_
    subst hmn hst'
    have hnil := hs.others m st₀ hmj hn hid
    rw [pendingFor_eq hn] at hnil
    have hpkt : pkt.receiver ≠ some r := fun hr => hkeeps hmj hr st₀ hn hid
    change (st₀.state.hand ++ (st₀.inbound ++ [pkt])).filter _ = []
    rw [← List.append_assoc, List.filter_append]
    change st₀.pending.filter _ ++ _ = []
    rw [hnil]
    simp [hpkt]
  | close hn => exact hkept rfl hn rfl fun pkt hpkt => hpkt
  | next hn hstate hinbound =>
    exact hkept rfl hn rfl fun pkt hpkt => by
      simpa [SendCall.pending, SendState.hand, hstate, hinbound] using hpkt
  | finish hn hstate =>
    exact hkept rfl hn rfl fun pkt hpkt => List.mem_append_right _ hpkt
  | put hn => exact hkept rfl hn rfl fun pkt hpkt => List.mem_append_right _ hpkt
  | putDropped hn => exact hkept rfl hn rfl fun pkt hpkt => List.mem_append_right _ hpkt
  | _ => exact hs.others m st hmj hst hid

lemma step {a : Action} (hs : Lined id r j i s) (h : TurnStep s a t)
    (hkeeps : Keeps id r j i s a) : Lined id r j i t :=
  ⟨hs.registered.step h, hs.addressed.step h, hs.own_step h hkeeps, hs.others_step h hkeeps,
    hs.call_step h hkeeps⟩

/-- A packet from the end of the line goes to the other end. -/
lemma target_eq (hs : Lined id r j i s) {pkt : TurnPacket} {tx : RegisterId}
    (hj : s.streams j = some stream) (hstate : stream.state = .forwarding pkt tx)
    (hr : pkt.receiver = some r) : tx = i := by
  obtain ⟨id', r', hid', hr', hslot'⟩ := hs.addressed j stream pkt tx hj hstate
  obtain ⟨hid, hslot⟩ := hs.own stream hj
  obtain rfl : id = id' := Option.some.inj (hid.symm.trans hid')
  obtain rfl : r = r' := Option.some.inj (hr.symm.trans hr')
  exact Option.some.inj (hslot'.symm.trans hslot)

/-- Nothing else is put into the channel at the other end. -/
lemma source_eq (hs : Lined id r j i s) {pkt : TurnPacket}
    (hm : s.streams m = some stream) (hstate : stream.state = .forwarding pkt i) :
    m = j ∧ pkt.receiver = some r := by
  obtain ⟨id', r', hid', hr', hslot⟩ := hs.addressed m stream pkt i hm hstate
  obtain ⟨call, hi, hsession, hrole, -⟩ := hs.registered.owner id' r' i hslot
  obtain ⟨hid, hr⟩ := hs.call call hi
  obtain rfl : id = id' := hid.symm.trans hsession
  obtain rfl : r = r' := hr.symm.trans hrole
  refine ⟨?_, hr'⟩
  by_contra hmj
  have hnil := hs.others m stream hmj hm hid'
  rw [pendingFor_eq hm, List.filter_eq_nil_iff] at hnil
  refine hnil pkt ?_ (decide_eq_true hr')
  rw [SendCall.pending, hstate]
  exact List.mem_append_left _ (List.mem_singleton_self pkt)

/-- A packet from the end of the line has a receiver. -/
lemma target_ne_none (hs : Lined id r j i s) {pkt : TurnPacket} (hj : s.streams j = some stream)
    (hr : pkt.receiver = some r) :
    (stream.session.bind s.sessions).bind (·.target pkt) ≠ none := by
  obtain ⟨hid, hslot⟩ := hs.own stream hj
  rw [hid, Option.bind_some]
  cases hsession : s.sessions id with
  | none =>
    rw [sessionOf, hsession] at hslot
    cases r <;> cases hslot
  | some session =>
    rw [sessionOf_eq hsession] at hslot
    rw [Option.bind_some, Session.target, hr, Option.bind_some, hslot]
    exact Option.some_ne_none i

/-- What a step takes from the line and adds to it, while the receiver is there. -/
lemma line_step {a : Action} (hs : Lined id r j i s) (h : TurnStep s a t) (hopen : ¬ s.Closed i) :
    s.line r j i ++ submittedOn r j (s, a) = readBy i (s, a) ++ t.line r j i := by
  have hchannel : ∀ {k c c'}, t.registers = update s.registers k (some c') →
      s.registers k = some c → c'.channel.queue = c.channel.queue →
      t.channelOf i = s.channelOf i := fun ht hk hqueue => channelOf_update_same ht hk hqueue
  have hpending : ∀ {m st st'}, t.streams = update s.streams m (some st') →
      s.streams m = some st → st'.pending = st.pending →
      t.pendingFor r j = s.pendingFor r j := fun ht hm hp => pendingFor_update_same ht hm hp
  -- a step that leaves both ends alone
  have hrest : t.channelOf i = s.channelOf i → t.pendingFor r j = s.pendingFor r j →
      submittedOn r j (s, a) = [] → readBy i (s, a) = [] →
      s.line r j i ++ submittedOn r j (s, a) = readBy i (s, a) ++ t.line r j i := by
    intro hc hp hsubmitted hread
    rw [hsubmitted, hread, line, line, hc, hp, List.append_nil, List.nil_append]
  cases h with
  | @register k req hk =>
    refine hrest ?_ rfl rfl rfl
    rw [channelOf_update (s := s) rfl]
    split_ifs with hik
    · rw [hik, channelOf, hk]
      rfl
    · rfl
  | fill hqueue hk => exact hrest (hchannel rfl hk rfl) rfl rfl rfl
  | reject hqueue hk => exact hrest (hchannel rfl hk rfl) rfl rfl rfl
  | arrive hk => exact hrest (hchannel rfl hk rfl) rfl rfl rfl
  | pass hk => exact hrest (hchannel rfl hk rfl) rfl rfl rfl
  | dropReceiver hk => exact hrest (hchannel rfl hk rfl) rfl rfl rfl
  | @read k call pkt channel hk _ hstate hqueue =>
    by_cases hki : k = i
    · subst hki
      have hc : s.channelOf k = pkt :: channel.queue := by rw [channelOf_eq hk, hqueue]
      have hc' : TurnService.channelOf
          (s.setRegister k { call with channel, taken := call.taken ++ [pkt] }) k
            = channel.queue := (channelOf_update (s := s) rfl).trans (if_pos rfl)
      have hread : readBy k (s, .read k) = [pkt] := by
        rw [readBy_read, if_pos rfl, hc]
        rfl
      rw [hread, line, line, hc, hc']
      exact List.append_nil _
    · refine hrest ?_ rfl rfl (if_neg hki)
      rw [channelOf_update (s := s) rfl, if_neg (Ne.symm hki)]
  | forward hqueue hm hstate =>
    exact hrest rfl (hpending rfl hm (by rw [SendCall.pending, SendCall.pending, hstate]; rfl)) rfl
      rfl
  | @skip m stream pkt queue hqueue hm hstate htarget =>
    refine hrest rfl ?_ rfl rfl
    rw [pendingFor_update (s := s) rfl]
    split_ifs with hjm
    · subst hjm
      have hr : pkt.receiver ≠ some r := fun hr => hs.target_ne_none hm hr htarget
      rw [pendingFor_finish hm (by rw [hstate]; rfl), if_neg hr]
      rfl
    · rfl
  | @accept m md sessionId hm =>
    refine hrest rfl ?_ rfl rfl
    rw [pendingFor_update (s := s) rfl]
    split_ifs with hjm
    · rw [hjm, pendingFor, hm]
      rfl
    · rfl
  | @refuse m md error hm =>
    refine hrest rfl ?_ rfl rfl
    rw [pendingFor_update (s := s) rfl]
    split_ifs with hjm
    · rw [hjm, pendingFor, hm]
      rfl
    · rfl
  | @submit m stream pkt hm =>
    have hp : s.pendingFor r j ++ submittedOn r j (s, .submit m pkt) =
        TurnService.pendingFor (s.setStream m { stream with
          inbound := stream.inbound ++ [pkt]
          submitted := stream.submitted ++ [pkt] }) r j := by
      rw [pendingFor_update (t := s.setStream m _) (s := s) rfl, submittedOn_submit]
      by_cases hmj : m = j
      · subst hmj
        rw [if_pos rfl, pendingFor_eq hm]
        change _ = (stream.state.hand ++ (stream.inbound ++ [pkt])).filter _
        rw [← List.append_assoc, List.filter_append]
        by_cases hr : pkt.receiver = some r
        · simp [hr, SendCall.pending]
        · simp [hr, SendCall.pending]
      · rw [if_neg (Ne.symm hmj), if_neg fun h => hmj h.1, List.append_nil]
    rw [line, line, List.append_assoc, hp]
    rfl
  | close hm => exact hrest rfl (hpending rfl hm rfl) rfl rfl
  | next hm hstate hinbound =>
    exact hrest rfl (hpending rfl hm
      (by rw [SendCall.pending, SendCall.pending, hstate, hinbound]; rfl)) rfl rfl
  | finish hm hstate =>
    exact hrest rfl (hpending rfl hm
      (by rw [SendCall.pending, SendCall.pending, hstate]; rfl)) rfl rfl
  | @put m stream pkt tx call channel hm hstate htx _ hqueue =>
    by_cases hnew : m = j ∧ pkt.receiver = some r
    · obtain ⟨rfl, hr⟩ := hnew
      obtain rfl := hs.target_eq hm hstate hr
      have hp := pendingFor_finish (r := r) hm (by rw [hstate]; rfl)
      rw [if_pos hr] at hp
      have hsubmitted : submittedOn r m (s, .put m) = [] := rfl
      have hread : readBy tx (s, .put m) = [] := rfl
      rw [hsubmitted, hread, List.append_nil, List.nil_append, line, line, hp, channelOf_eq htx,
        channelOf_update (s := { s.setStream m (stream.finish pkt) with
          readers := s.readers.erase m }) rfl, if_pos rfl, hqueue,
        pendingFor_update (s := s) rfl, if_pos rfl, List.append_assoc]
    · have hne : i ≠ tx := by
        rintro rfl
        exact hnew (hs.source_eq hm hstate)
      refine hrest ?_ ?_ rfl rfl
      · rw [channelOf_update (s := { s.setStream m (stream.finish pkt) with
          readers := s.readers.erase m }) rfl, if_neg hne]
        rfl
      · rw [pendingFor_update (s := s) rfl]
        split_ifs with hjm
        · subst hjm
          have hr : pkt.receiver ≠ some r := fun hr => hnew ⟨rfl, hr⟩
          rw [pendingFor_finish hm (by rw [hstate]; rfl), if_neg hr]
          rfl
        · rfl
  | @putDropped m stream pkt tx call hm hstate htx hclosed =>
    refine hrest rfl ?_ rfl rfl
    rw [pendingFor_update (s := s) rfl]
    split_ifs with hjm
    · subst hjm
      -- the receiver of the line is there
      have hr : pkt.receiver ≠ some r := by
        intro hr
        obtain rfl := hs.target_eq hm hstate hr
        exact hopen ⟨call, htx, hclosed⟩
      rw [pendingFor_finish hm (by rw [hstate]; rfl), if_neg hr]
      rfl
    · rfl

end Lined

/-- A receiver that is gone does not come back, and takes no packet. -/
lemma Closed.step {a : Action} (hs : s.Closed i) (h : TurnStep s a t) :
    t.Closed i ∧ readBy i (s, a) = [] := by
  obtain ⟨c, hi, hclosed⟩ := hs
  obtain ⟨c', hi', hcontinues⟩ := call_of_step h hi
  refine ⟨⟨c', hi', hcontinues.closed hclosed⟩, ?_⟩
  cases h with
  | @read k call _ _ hk hopen =>
    refine if_neg ?_
    rintro rfl
    rw [Option.some.inj (hi.symm.trans hk), hopen] at hclosed
    cases hclosed
  | _ => rfl

/-- What is submitted at one end of the line is taken at the other end in the same order, or is
still on its way. Nothing is taken any more when the receiver is gone. -/
lemma line_in_order (id : String) {tr : List (TurnService × Action)} (hrun : Run step default tr s)
    (hkeeps : ∀ p ∈ tr, Keeps id r j i p.1 p.2) :
    ∃ rest, tr.flatMap (submittedOn r j) = tr.flatMap (readBy i) ++ rest ∧
      (¬ s.Closed i → rest = s.line r j i) :=
  hrun.flow_until (P := Keeps id r j i) (I := Lined id r j i) (S := fun s => s.Closed i)
    (fun _ _ _ hs hP h => hs.step (turnStep_of_eq_some h) hP)
    (fun _ _ _ hs _ hopen h => hs.line_step (turnStep_of_eq_some h) hopen)
    (fun _ _ _ _ _ hclosed h => hclosed.step (turnStep_of_eq_some h)) hkeeps lined_default

/-- A call that has returned stays so. -/
lemma returned_of_step {a : Action} {result : Except Failure Unit} (h : TurnStep s a t)
    (hi : s.registers i = some call) (hreturned : call.state = .returned result) :
    ∃ c, t.registers i = some c ∧ c.session = call.session ∧ c.state = .returned result := by
  have hset : ∀ {k c₀ c'}, t.registers = update s.registers k (some c') →
      s.registers k = some c₀ → c'.session = c₀.session →
      (c₀.state = .returned result → c'.state = .returned result) →
      ∃ c, t.registers i = some c ∧ c.session = call.session ∧ c.state = .returned result := by
    intro k c₀ c' ht hk hsession hstate
    by_cases hik : i = k
    · subst hik
      obtain rfl := Option.some.inj (hk.symm.trans hi)
      exact ⟨c', by rw [ht, update_self], hsession, hstate hreturned⟩
    · exact ⟨call, by rw [ht, update_of_ne hik, hi], rfl, hreturned⟩
  cases h with
  | @register k req hk =>
    have hik : i ≠ k := by
      rintro rfl
      cases hk.symm.trans hi
    exact ⟨call, (update_of_ne hik _ _).trans hi, rfl, hreturned⟩
  | fill hqueue hk hstate => exact hset rfl hk rfl fun h => by rw [hstate] at h; cases h
  | reject hqueue hk hstate => exact hset rfl hk rfl fun h => by rw [hstate] at h; cases h
  | arrive hk hopen hstate => exact hset rfl hk rfl fun h => by rw [hstate] at h; cases h
  | pass hk hopen hstate => exact hset rfl hk rfl fun h => by rw [hstate] at h; cases h
  | read hk => exact hset rfl hk rfl fun h => h
  | dropReceiver hk => exact hset rfl hk rfl fun h => h
  | put hm hstate hk => exact hset rfl hk rfl fun h => h
  | _ => exact ⟨call, hi, rfl, hreturned⟩

/-! ### Private sessions -/

/-- The calls of a session are those of its two parties. -/
structure Private (id : String) (s : TurnService) : Prop where
  calls : ∀ k call, s.registers k = some call →
    (call.session = id ∧ k = call.role.number) ∨ (call.session ≠ id ∧ 2 ≤ k)
  streams : ∀ m stream, s.streams m = some stream → stream.session = some id → m < 2

/-- The calls by which a session stays private: a party opens its stream when its session is
complete, and submits on it what is for the other party. Other clients use other sessions. -/
def Allowed (id : String) (s : TurnService) : Action → Prop
  | .register k req  =>
    (req.sessionId = id ∧ k = (RegisterCall.new req).role.number) ∨ (req.sessionId ≠ id ∧ 2 ≤ k)
  | .openStream m md =>
    (m < 2 ∧ sendSession md = .ok id ∧ OpensRegistered s (.openStream m md)) ∨
      (2 ≤ m ∧ md "x-session-id" ≠ some id)
  | .submit m pkt    => (∃ r : Role, m = r.number ∧ pkt.receiver = some r.other) ∨ 2 ≤ m
  | _                => True

lemma private_default : Private id default := by
  constructor
  · intro k call hk
    cases hk
  · intro m stream hm
    cases hm

namespace Private

lemma calls_step {a : Action} (hs : Private id s) (h : TurnStep s a t) (hallowed : Allowed id s a)
    (k : RegisterId) (c : RegisterCall) (hk : t.registers k = some c) :
    (c.session = id ∧ k = c.role.number) ∨ (c.session ≠ id ∧ 2 ≤ k) := by
  have hkept : ∀ {m c₀ c'}, t.registers = update s.registers m (some c') →
      s.registers m = some c₀ → c'.session = c₀.session → c'.role = c₀.role →
      (c.session = id ∧ k = c.role.number) ∨ (c.session ≠ id ∧ 2 ≤ k) := by
    intro m c₀ c' ht hm hsession hrole
    rw [ht, update_eq_some] at hk
    rcases hk with ⟨rfl, rfl⟩ | ⟨-, hk⟩
    · rw [hsession, hrole]
      exact hs.calls k c₀ hm
    · exact hs.calls k c hk
  cases h with
  | register hm =>
    rcases update_eq_some.mp hk with ⟨rfl, rfl⟩ | ⟨-, hk⟩
    · exact hallowed
    · exact hs.calls k c hk
  | fill hqueue hm => exact hkept rfl hm rfl rfl
  | reject hqueue hm => exact hkept rfl hm rfl rfl
  | arrive hm => exact hkept rfl hm rfl rfl
  | pass hm => exact hkept rfl hm rfl rfl
  | read hm => exact hkept rfl hm rfl rfl
  | dropReceiver hm => exact hkept rfl hm rfl rfl
  | put hj hstate hm => exact hkept rfl hm rfl rfl
  | _ => exact hs.calls k c hk

lemma streams_step {a : Action} (hs : Private id s) (h : TurnStep s a t)
    (hallowed : Allowed id s a) (m : StreamId) (st : SendCall) (hm : t.streams m = some st)
    (hid : st.session = some id) : m < 2 := by
  have hkept : ∀ {n st₀ st'}, t.streams = update s.streams n (some st') →
      s.streams n = some st₀ → st'.session = st₀.session → m < 2 := by
    intro n st₀ st' ht hn hsession
    rw [ht, update_eq_some] at hm
    rcases hm with ⟨rfl, rfl⟩ | ⟨-, hm⟩
    · exact hs.streams m st₀ hn (hsession ▸ hid)
    · exact hs.streams m st hm hid
  cases h with
  | forward hqueue hn => exact hkept rfl hn rfl
  | skip hqueue hn => exact hkept rfl hn rfl
  | @accept n md sessionId hn hmd =>
    rcases update_eq_some.mp hm with ⟨rfl, rfl⟩ | ⟨-, hm⟩
    · obtain ⟨hlt, -⟩ | ⟨-, hne⟩ := hallowed
      · exact hlt
      · obtain rfl : sessionId = id := Option.some.inj hid
        exact absurd (header_of_sendSession hmd) hne
    · exact hs.streams m st hm hid
  | @refuse n md error hn hmd =>
    rcases update_eq_some.mp hm with ⟨rfl, rfl⟩ | ⟨-, hm⟩
    · cases hid
    · exact hs.streams m st hm hid
  | submit hn => exact hkept rfl hn rfl
  | close hn => exact hkept rfl hn rfl
  | next hn => exact hkept rfl hn rfl
  | finish hn => exact hkept rfl hn rfl
  | put hn => exact hkept rfl hn rfl
  | putDropped hn => exact hkept rfl hn rfl
  | _ => exact hs.streams m st hm hid

lemma step {a : Action} (hs : Private id s) (h : TurnStep s a t) (hallowed : Allowed id s a) :
    Private id t :=
  ⟨hs.calls_step h hallowed, hs.streams_step h hallowed⟩

/-- The slots of a session that has been complete are those of its parties. -/
lemma slot_eq (hs : Private id s) (hreg : Registered s)
    (hpos : 0 < (s.sessionOf id).barrier.generation) (r : Role) :
    (s.sessionOf id).slot r = some r.number := by
  obtain ⟨k, hslot⟩ := Option.isSome_iff_exists.mp (hreg.released id hpos r)
  obtain ⟨call, hk, hsession, rfl, -⟩ := hreg.owner id r k hslot
  obtain ⟨-, rfl⟩ | ⟨hne, -⟩ := hs.calls k call hk
  · exact hslot
  · exact absurd hsession hne

/-- The lines between the parties of a private session. -/
lemma keeps {a : Action} (hs : Private id s) (hreg : Registered s) (hallowed : Allowed id s a)
    (r : Role) : Keeps id r r.other.number r.number s a := by
  cases a with
  | register k req =>
    intro hk
    obtain ⟨hid, hk'⟩ | ⟨-, hle⟩ := hallowed
    · exact ⟨hid, Role.number_inj.mp (hk'.symm.trans hk)⟩
    · exact absurd hle (Nat.not_le.mpr (hk ▸ r.number_lt))
  | openStream m md =>
    intro hm
    obtain ⟨-, hid, hopens⟩ | ⟨hle, -⟩ := hallowed
    · obtain ⟨i, call, hi, rfl, hreturned⟩ := hopens id (header_of_sendSession hid)
      exact ⟨hid, hs.slot_eq hreg (hreg.returned i call hi hreturned) r⟩
    · exact absurd hle (Nat.not_le.mpr (hm ▸ r.other.number_lt))
  | submit m pkt =>
    intro hm hr stream hstream hid
    obtain ⟨r', rfl, hr'⟩ | hle := hallowed
    · have hother : r'.other = r := Option.some.inj (hr'.symm.trans hr)
      subst hother
      refine hm ?_
      cases r' <;> rfl
    · exact absurd hle (Nat.not_le.mpr (hs.streams m stream hstream hid))
  | _ => trivial

end Private

lemma private_run {tr : List (TurnService × Action)} (hrun : Run step default tr s)
    (hallowed : ∀ p ∈ tr, Allowed id p.1 p.2) : Private id s :=
  hrun.invariant (P := Allowed id) (fun _ _ _ hs ha h => hs.step (turnStep_of_eq_some h) ha)
    hallowed private_default

lemma keeps_run {tr : List (TurnService × Action)} (hrun : Run step default tr s)
    (hallowed : ∀ p ∈ tr, Allowed id p.1 p.2) (r : Role) :
    ∀ p ∈ tr, Keeps id r r.other.number r.number p.1 p.2 := by
  intro p hp
  obtain ⟨tr₁, tr₂, rfl, hrun₁⟩ := hrun.of_mem hp
  have hprivate := private_run hrun₁ fun q hq => hallowed q (List.mem_append_left _ hq)
  exact hprivate.keeps (registered_run hrun₁) (hallowed p hp) r

/-- A party's stream is one of its session. -/
lemma own_stream {tr : List (TurnService × Action)} (hrun : Run step default tr s)
    (hallowed : ∀ p ∈ tr, Allowed id p.1 p.2) {r : Role}
    (hstream : s.streams r.number = some stream) : stream.session = some id := by
  have hlined : Lined id r.other r.other.other.number r.other.number s :=
    hrun.invariant (fun _ _ _ hs ha h => hs.step (turnStep_of_eq_some h) ha)
      (keeps_run hrun hallowed r.other) lined_default
  refine (hlined.own stream ?_).1
  cases r <;> exact hstream

/-- The packets for a party of a private session come out of its channel in the order in which the
other party submits them. -/
lemma private_in_order {tr : List (TurnService × Action)} (hrun : Run step default tr s)
    (hallowed : ∀ p ∈ tr, Allowed id p.1 p.2) (r : Role) :
    ∃ rest, tr.flatMap (submittedOn r r.other.number) = tr.flatMap (readBy r.number) ++ rest ∧
      (¬ s.Closed r.number → rest = s.line r r.other.number r.number) :=
  line_in_order id hrun (keeps_run hrun hallowed r)

end TurnService

end BearTorrent
