import BearTorrent.Lib.Interleaving
import BearTorrent.Turn.Sessions

/-!
# The relay delivers every packet once

When streams are opened only after a call of their session has returned, both slots of the session
are filled before its first packet, and stay filled by the same calls. What is put into a
receiver's channel is then an interleaving of what the streams of the session have handled for it.
-/

namespace BearTorrent

open Function Transition

/-- The packet a call is working on. -/
def SendState.hand : SendState → List TurnPacket
  | .locking pkt      => [pkt]
  | .forwarding pkt _ => [pkt]
  | _                 => []

namespace SendCall

/-- The packets that a call is not done with. -/
def pending (stream : SendCall) : List TurnPacket := stream.state.hand ++ stream.inbound

/-- Of `packets`, those for the receiver with role `r`, if the stream belongs to session `id`. -/
def packetsFor (stream : SendCall) (packets : List TurnPacket) (id : String) (r : Role) :
    List TurnPacket :=
  if stream.session = some id then packets.filter (·.receiver = some r) else []

lemma packetsFor_concat (stream : SendCall) (packets : List TurnPacket) (pkt : TurnPacket)
    (id : String) (r : Role) :
    stream.packetsFor (packets ++ [pkt]) id r = stream.packetsFor packets id r ++
      if stream.session = some id ∧ pkt.receiver = some r then [pkt] else [] := by
  unfold packetsFor
  by_cases hid : stream.session = some id
  · by_cases hr : pkt.receiver = some r
    · simp [hid, hr]
    · simp [hid, hr]
  · simp [hid]

end SendCall

namespace TurnService

variable {s t : TurnService} {i : RegisterId} {j : StreamId} {call : RegisterCall}
  {stream stream' : SendCall} {id : String} {r : Role}

/-- What a stream has handled for the receiver with role `r` of session `id`. -/
def handledFor (s : TurnService) (id : String) (r : Role) (j : StreamId) : List TurnPacket :=
  match s.streams j with
  | some stream => stream.packetsFor stream.handled id r
  | none        => []

/-- What was submitted on a stream for the receiver with role `r` of session `id`. -/
def submittedFor (s : TurnService) (id : String) (r : Role) (j : StreamId) : List TurnPacket :=
  match s.streams j with
  | some stream => stream.packetsFor stream.submitted id r
  | none        => []

lemma handledFor_update (h : t.streams = update s.streams j (some stream')) (k : StreamId) :
    t.handledFor id r k =
      if k = j then stream'.packetsFor stream'.handled id r else s.handledFor id r k := by
  rw [handledFor, handledFor, h]
  split_ifs with hk
  · subst hk
    rw [update_self]
  · rw [update_of_ne hk]

/-! ### One stream -/

/-- A stream is accepted only by a session whose barrier has released calls, forwards to the
receiver of its packet, and keeps the packets it is not done with. -/
structure StreamOk (s : TurnService) (stream : SendCall) : Prop where
  accepted : ∀ id, stream.session = some id → 0 < (s.sessionOf id).barrier.generation
  target : ∀ pkt tx, stream.state = .forwarding pkt tx →
    ∃ id r, stream.session = some id ∧ pkt.receiver = some r ∧
      (s.sessionOf id).slot r = some tx
  submitted : stream.submitted = stream.handled ++ stream.pending
  ended : ∀ result, stream.state = .ended result →
    stream.inbound = [] ∧ (stream.session = none ∨ stream.closing.isSome = true)

lemma StreamOk.mono {a : Action} (hs : StreamOk s stream) (h : TurnStep s a t) :
    StreamOk t stream := by
  refine ⟨fun id hid => generation_pos_of_step h (hs.accepted id hid), fun pkt tx hstate => ?_,
    hs.submitted, hs.ended⟩
  obtain ⟨id, r, hid, hr, hslot⟩ := hs.target pkt tx hstate
  exact ⟨id, r, hid, hr, slot_of_step h hslot⟩

/-- The call is done with the packet at hand. -/
lemma StreamOk.finish (hs : StreamOk s stream) {pkt : TurnPacket}
    (hhand : stream.state.hand = [pkt]) : StreamOk s (stream.finish pkt) := by
  refine ⟨hs.accepted, fun _ _ hstate => (by cases hstate), ?_, fun _ hstate => by cases hstate⟩
  have hsubmitted := hs.submitted
  rw [SendCall.pending, hhand] at hsubmitted
  change stream.submitted = stream.handled ++ [pkt] ++ stream.inbound
  rw [hsubmitted, List.append_assoc]

/-- A stream is opened for a session only after a call of the session has returned its stream. -/
def OpensRegistered (s : TurnService) : Action → Prop
  | .openStream _ md => ∀ id, md "x-session-id" = some id →
    ∃ i call, s.registers i = some call ∧ call.session = id ∧ call.state = .returned (.ok ())
  | _ => True

lemma header_of_sendSession {md : MetadataMap} (h : sendSession md = .ok id) :
    md "x-session-id" = some id := by
  simp only [sendSession, extractHeader] at h
  split at h
  · rename_i value hvalue
    split at h
    · cases h
      exact hvalue
    · cases h
  · cases h

/-- Every stream stays in order. -/
lemma StreamOk.step {a : Action} (hreg : Registered s)
    (hs : ∀ j stream, s.streams j = some stream → StreamOk s stream) (h : TurnStep s a t)
    (hopens : OpensRegistered s a) (j : StreamId) (stream : SendCall)
    (hj : t.streams j = some stream) : StreamOk t stream := by
  -- the streams that a step does not touch
  have hother : ∀ {k stream}, s.streams k = some stream → StreamOk t stream :=
    fun hk => (hs _ _ hk).mono h
  have hupdate : ∀ {k stream'}, t.streams = update s.streams k (some stream') →
      StreamOk t stream' → StreamOk t stream := by
    intro k stream' ht hok
    rw [ht, update_eq_some] at hj
    rcases hj with ⟨rfl, rfl⟩ | ⟨-, hj⟩
    · exact hok
    · exact hother hj
  cases h with
  | @forward k stream' pkt tx queue hqueue hk hstate htarget =>
    have hok := hs k stream' hk
    refine hupdate rfl ⟨hok.accepted, fun pkt' tx' hforward => ?_, ?_,
      fun _ hstate' => by cases hstate'⟩
    · obtain ⟨rfl, rfl⟩ : pkt = pkt' ∧ tx = tx' := by simpa using hforward
      exact target_eq_some htarget
    · have hsubmitted := hok.submitted
      rw [SendCall.pending, hstate] at hsubmitted
      exact hsubmitted
  | skip hqueue hk hstate => exact hupdate rfl ((hother hk).finish (by rw [hstate]; rfl))
  | @accept k md sessionId hk hmd =>
    refine hupdate rfl ⟨fun id hid => ?_, fun _ _ hstate => (by cases hstate), rfl,
      fun _ hstate => by cases hstate⟩
    obtain rfl : sessionId = id := Option.some.inj hid
    obtain ⟨i, call, hi, rfl, hreturned⟩ := hopens _ (header_of_sendSession hmd)
    exact hreg.returned i call hi hreturned
  | refuse hk hmd =>
    exact hupdate rfl ⟨fun _ hid => (by cases hid), fun _ _ hstate => (by cases hstate), rfl,
      fun _ _ => ⟨rfl, .inl rfl⟩⟩
  | @submit k stream' pkt hk hsession hclosing =>
    have hok := hs k stream' hk
    refine hupdate rfl ⟨hok.accepted, hok.target, ?_, fun result hstate => ?_⟩
    · change stream'.submitted ++ [pkt] =
        stream'.handled ++ (stream'.state.hand ++ (stream'.inbound ++ [pkt]))
      rw [hok.submitted, SendCall.pending, List.append_assoc, List.append_assoc]
    · -- a call ends only after its stream is closed
      rcases (hok.ended result hstate).2 with hnone | hsome
      · rw [hnone] at hsession
        cases hsession
      · rw [hclosing] at hsome
        cases hsome
  | @close k stream' closing hk hclosing =>
    have hok := hs k stream' hk
    exact hupdate rfl ⟨hok.accepted, hok.target, hok.submitted,
      fun result hstate => ⟨(hok.ended result hstate).1, .inr rfl⟩⟩
  | @next k stream' pkt inbound hk hstate hinbound =>
    have hok := hs k stream' hk
    refine hupdate rfl ⟨hok.accepted, fun _ _ hstate' => (by cases hstate'), ?_,
      fun _ hstate' => by cases hstate'⟩
    have hsubmitted := hok.submitted
    rw [SendCall.pending, hstate, hinbound] at hsubmitted
    exact hsubmitted
  | @finish k stream' closing hk hstate hinbound hclosing =>
    have hok := hs k stream' hk
    refine hupdate rfl ⟨hok.accepted, fun _ _ hstate' => (by cases hstate'), ?_,
      fun _ _ => ⟨hinbound, .inr (by rw [hclosing]; rfl)⟩⟩
    have hsubmitted := hok.submitted
    rw [SendCall.pending, hstate] at hsubmitted
    exact hsubmitted
  | put hk hstate => exact hupdate rfl ((hother hk).finish (by rw [hstate]; rfl))
  | putDropped hk hstate => exact hupdate rfl ((hother hk).finish (by rw [hstate]; rfl))
  | _ => exact hother hj

/-! ### One receiver -/

/-- A receiver takes what was put into its channel, in order; nothing is put into the channel of a
call that has no slot. -/
structure ReceiverOk (call : RegisterCall) : Prop where
  isOpen : call.isOpen = true
  taken : call.put = call.taken ++ call.channel.queue
  unslotted : call.state = .locking → call.put = []

lemma ReceiverOk.step {a : Action} (hs : ∀ i call, s.registers i = some call → ReceiverOk call)
    (hreg : Registered s)
    (hstreams : ∀ j stream, s.streams j = some stream → StreamOk s stream)
    (h : TurnStep s a t) (hkept : ∀ i, a ≠ .dropReceiver i) (i : RegisterId)
    (call : RegisterCall) (hi : t.registers i = some call) : ReceiverOk call := by
  have hupdate : ∀ {k call'}, t.registers = update s.registers k (some call') →
      ReceiverOk call' → ReceiverOk call := by
    intro k call' ht hok
    rw [ht, update_eq_some] at hi
    rcases hi with ⟨rfl, rfl⟩ | ⟨-, hi⟩
    · exact hok
    · exact hs i call hi
  cases h with
  | register hk => exact hupdate rfl ⟨rfl, rfl, fun _ => rfl⟩
  | fill hqueue hk =>
    have hok := hs _ _ hk
    exact hupdate rfl ⟨hok.isOpen, hok.taken, fun hstate => by cases hstate⟩
  | reject hqueue hk =>
    have hok := hs _ _ hk
    exact hupdate rfl ⟨hok.isOpen, hok.taken, fun hstate => by cases hstate⟩
  | arrive hk =>
    have hok := hs _ _ hk
    exact hupdate rfl ⟨hok.isOpen, hok.taken, fun hstate => by cases hstate⟩
  | pass hk =>
    have hok := hs _ _ hk
    exact hupdate rfl ⟨hok.isOpen, hok.taken, fun hstate => by cases hstate⟩
  | @read k call' pkt channel hk hopen hstate hqueue =>
    have hok := hs k call' hk
    refine hupdate rfl ⟨hok.isOpen, ?_, fun hlocking => ?_⟩
    · change call'.put = call'.taken ++ [pkt] ++ channel.queue
      rw [hok.taken, hqueue, List.append_assoc]
      rfl
    · cases hstate.symm.trans hlocking
  | dropReceiver => exact absurd rfl (hkept _)
  | @put k stream pkt tx call' channel hk hstate htx hopen hqueue =>
    have hok := hs tx call' htx
    refine hupdate rfl ⟨hok.isOpen, ?_, fun hlocking => ?_⟩
    · change call'.put ++ [pkt] = call'.taken ++ channel.queue
      rw [hok.taken, hqueue, List.append_assoc]
    · -- the channel is that of a slot
      obtain ⟨id, r, -, -, hslot⟩ := (hstreams k stream hk).target pkt tx hstate
      have hholds := hreg.holdsSlot hslot htx
      rw [show call'.state = .locking from hlocking] at hholds
      cases hholds
  | _ => exact hs i call hi

/-! ### Delivery -/

/-- What was put into the channel of a slot is an interleaving of what the streams have handled for
it. -/
def Delivered (s : TurnService) : Prop :=
  ∀ id r i call, (s.sessionOf id).slot r = some i → s.registers i = some call →
    Interleaving call.put (s.handledFor id r)

lemma handledFor_eq (hj : s.streams j = some stream) :
    s.handledFor id r j = stream.packetsFor stream.handled id r := by
  rw [handledFor, hj]

/-- Nothing is handled for a receiver by a step that finishes no packet for it. -/
lemma handledFor_congr (ht : t.streams = update s.streams j (some stream'))
    (hj : s.handledFor id r j = stream'.packetsFor stream'.handled id r) (k : StreamId) :
    t.handledFor id r k = s.handledFor id r k := by
  rw [handledFor_update ht]
  split_ifs with hk
  · rw [hk, hj]
  · rfl

/-- Nothing is handled by a step that leaves the handled packets of its stream. -/
lemma handledFor_frame (ht : t.streams = update s.streams j (some stream'))
    (hj : s.streams j = some stream) (hsession : stream'.session = stream.session)
    (hhandled : stream'.handled = stream.handled) (k : StreamId) :
    t.handledFor id r k = s.handledFor id r k := by
  refine handledFor_congr ht ?_ k
  rw [handledFor_eq hj, SendCall.packetsFor, SendCall.packetsFor, hsession, hhandled]

/-- Before both slots of a session are filled, nothing is handled for it. -/
lemma handledFor_eq_nil (hreg : Registered s)
    (hstreams : ∀ j stream, s.streams j = some stream → StreamOk s stream)
    (hempty : (s.sessionOf id).slot r = none) (r' : Role) (j : StreamId) :
    s.handledFor id r' j = [] := by
  rw [handledFor]
  split
  · rename_i stream hj
    rw [SendCall.packetsFor]
    split_ifs with hid
    · have hslot := hreg.released id ((hstreams j stream hj).accepted id hid) r
      rw [hempty] at hslot
      cases hslot
    · rfl
  · rfl

lemma Delivered.step {a : Action} (hs : Delivered s) (hreg : Registered s)
    (hstreams : ∀ j stream, s.streams j = some stream → StreamOk s stream)
    (hreceivers : ∀ i call, s.registers i = some call → ReceiverOk call)
    (h : TurnStep s a t) (hkept : ∀ i, a ≠ .dropReceiver i) : Delivered t := by
  intro id r i call hslot hi
  -- a call with a slot whose channel is as before
  have hold : ∀ {k call'}, (s.sessionOf id).slot r = some i →
      t.registers = update s.registers k (some call') →
      (∀ c, s.registers k = some c → c.put = call'.put) →
        Interleaving call.put (s.handledFor id r) := by
    intro k call' hslot' ht hput
    obtain ⟨c, hc, -⟩ := hreg.owner id r i hslot'
    rw [ht, update_eq_some] at hi
    rcases hi with ⟨rfl, rfl⟩ | ⟨-, hi⟩
    · rw [← hput c hc]
      exact hs id r i c hslot' hc
    · exact hs id r i call hslot' hi
  have hsame : ∀ {k c call'}, s.registers k = some c → c.put = call'.put →
      ∀ c', s.registers k = some c' → c'.put = RegisterCall.put call' := by
    intro k c call' hk hput c' hk'
    rw [Option.some.inj (hk'.symm.trans hk), hput]
  cases h with
  | @register k req hk =>
    exact hold hslot rfl fun c hc => by rw [hk] at hc; cases hc
  | @fill k call' queue session hqueue hk hstate hreaders hadd =>
    obtain ⟨hempty, hfilled, hother, -⟩ := Session.of_add_eq_ok hadd
    rw [sessionOf_update rfl] at hslot
    by_cases hnew : id = call'.session ∧ r = call'.role
    · obtain ⟨rfl, rfl⟩ := hnew
      rw [if_pos rfl, hfilled] at hslot
      obtain rfl := Option.some.inj hslot
      obtain ⟨-, rfl⟩ | ⟨hne, -⟩ := update_eq_some.mp hi
      · rw [show ({ call' with state := .filled } : RegisterCall).put = [] from
          (hreceivers k call' hk).unslotted hstate]
        exact .nil fun j => handledFor_eq_nil hreg hstreams hempty call'.role j
      · exact absurd rfl hne
    · have hslot' : (s.sessionOf id).slot r = some i := by
        split_ifs at hslot with hid
        · subst hid
          rw [hother r fun hr => hnew ⟨rfl, hr⟩] at hslot
          exact hslot
        · exact hslot
      exact hold hslot' rfl (hsame hk rfl)
  | reject hqueue hk => exact hold hslot rfl (hsame hk rfl)
  | @arrive k call' session hk hopen hstate hsession =>
    refine hold ?_ rfl (hsame hk rfl)
    rw [sessionOf_update rfl] at hslot
    split_ifs at hslot with hid
    · rw [hid, sessionOf_eq hsession]
      cases r <;> exact hslot
    · exact hslot
  | pass hk => exact hold hslot rfl (hsame hk rfl)
  | read hk => exact hold hslot rfl (hsame hk rfl)
  | dropReceiver => exact absurd rfl (hkept _)
  | forward hqueue hj =>
    exact (hs id r i call hslot hi).congr (handledFor_frame rfl hj rfl rfl)
  | @skip j stream pkt queue hqueue hj hstate htarget =>
    refine (hs id r i call hslot hi).congr (handledFor_congr rfl ?_)
    rw [handledFor_eq hj]
    change _ = stream.packetsFor (stream.handled ++ [pkt]) id r
    rw [SendCall.packetsFor_concat, if_neg, List.append_nil]
    -- the slot of the receiver is filled
    rintro ⟨hid, hr⟩
    have hsome := hreg.released id ((hstreams j stream hj).accepted id hid) r
    rw [hid] at htarget
    cases hsession : s.sessions id with
    | none =>
      rw [sessionOf, hsession] at hsome
      cases r <;> cases hsome
    | some session =>
      rw [sessionOf_eq hsession] at hsome
      simp [hsession, Session.target, hr] at htarget
      rw [htarget] at hsome
      cases hsome
  | accept hj =>
    refine (hs id r i call hslot hi).congr (handledFor_congr rfl ?_)
    simp [handledFor, hj, SendCall.new, SendCall.packetsFor]
  | refuse hj =>
    refine (hs id r i call hslot hi).congr (handledFor_congr rfl ?_)
    simp [handledFor, hj, SendCall.new, SendCall.packetsFor]
  | submit hj =>
    exact (hs id r i call hslot hi).congr (handledFor_frame rfl hj rfl rfl)
  | close hj =>
    exact (hs id r i call hslot hi).congr (handledFor_frame rfl hj rfl rfl)
  | next hj =>
    exact (hs id r i call hslot hi).congr (handledFor_frame rfl hj rfl rfl)
  | finish hj =>
    exact (hs id r i call hslot hi).congr (handledFor_frame rfl hj rfl rfl)
  | @put j stream pkt tx call' channel hj hstate htx hopen hqueue =>
    obtain ⟨id', r', hid', hr', hslot'⟩ := (hstreams j stream hj).target pkt tx hstate
    by_cases hnew : id = id' ∧ r = r'
    · obtain ⟨rfl, rfl⟩ := hnew
      obtain rfl : tx = i := Option.some.inj (hslot'.symm.trans hslot)
      obtain ⟨-, rfl⟩ | ⟨hne, -⟩ := update_eq_some.mp hi
      · refine (hs id r tx call' hslot htx).snoc j pkt ?_ fun k hk => ?_
        · rw [handledFor_update rfl, if_pos rfl, handledFor_eq hj]
          change stream.packetsFor (stream.handled ++ [pkt]) id r = _
          rw [SendCall.packetsFor_concat, if_pos ⟨hid', hr'⟩]
        · rw [handledFor_update rfl, if_neg hk]
      · exact absurd rfl hne
    · -- the channel of another receiver
      obtain ⟨c, hc, hsession, hrole, -⟩ := hreg.owner id r i hslot
      obtain ⟨c', hc', hsession', hrole', -⟩ := hreg.owner id' r' tx hslot'
      have hne : i ≠ tx := by
        rintro rfl
        obtain rfl := Option.some.inj (hc.symm.trans hc')
        exact hnew ⟨hsession.symm.trans hsession', hrole.symm.trans hrole'⟩
      obtain ⟨heq, -⟩ | ⟨-, hi⟩ := update_eq_some.mp hi
      · exact absurd heq hne
      · refine (hs id r i call hslot hi).congr (handledFor_congr rfl ?_)
        rw [handledFor_eq hj]
        change _ = stream.packetsFor (stream.handled ++ [pkt]) id r
        rw [SendCall.packetsFor_concat, if_neg, List.append_nil]
        rintro ⟨hid, hr⟩
        exact hnew ⟨Option.some.inj (hid.symm.trans hid'), Option.some.inj (hr.symm.trans hr')⟩
  | putDropped hj hstate htx hclosed =>
    rw [(hreceivers _ _ htx).isOpen] at hclosed
    cases hclosed

/-- Under the conditions of a run, the relay is in order. -/
lemma inOrder_run {tr : List (TurnService × Action)} (hrun : Run step default tr s)
    (hopened : ∀ p ∈ tr, OpensRegistered p.1 p.2)
    (hkept : ∀ p ∈ tr, ∀ i, p.2 ≠ .dropReceiver i) :
    Registered s ∧ (∀ j stream, s.streams j = some stream → StreamOk s stream) ∧
      (∀ i call, s.registers i = some call → ReceiverOk call) ∧ Delivered s := by
  refine hrun.invariant (P := fun s a => OpensRegistered s a ∧ ∀ i, a ≠ .dropReceiver i)
    (I := fun s => Registered s ∧ (∀ j stream, s.streams j = some stream → StreamOk s stream) ∧
      (∀ i call, s.registers i = some call → ReceiverOk call) ∧ Delivered s)
    ?_ (fun p hp => ⟨hopened p hp, hkept p hp⟩)
    ⟨registered_default, fun j stream hj => (by cases hj), fun i call hi => (by cases hi),
      fun id r i call hslot hi => by cases hi⟩
  rintro s a t ⟨hreg, hstreams, hreceivers, hdelivered⟩ ⟨hopens, hdrop⟩ ha
  have h := turnStep_of_eq_some ha
  exact ⟨hreg.step h, StreamOk.step hreg hstreams h hopens,
    ReceiverOk.step hreceivers hreg hstreams h hdrop,
    hdelivered.step hreg hstreams hreceivers h hdrop⟩

/-- No stream is opened for a session before a call of that session has returned its receiver
stream, and no receiver stream is dropped. Then a stream of a session finds both slots filled, and
its packets are handled in the order of their submission, those not handled yet being pending. What
is put into the channel of a slot, and taken from it in this order, is an interleaving of the
packets for its role that the streams of the session have handled, and of all that were submitted
when no packet is pending. -/
theorem relay_delivers {tr : List (TurnService × Action)} (hrun : Run step default tr s)
    (hopened : ∀ p ∈ tr, OpensRegistered p.1 p.2)
    (hkept : ∀ p ∈ tr, ∀ i, p.2 ≠ .dropReceiver i) (id : String) :
    (∀ j stream, s.streams j = some stream → stream.session = some id →
        (∀ r, ((s.sessionOf id).slot r).isSome = true) ∧
          stream.submitted = stream.handled ++ stream.pending ∧
          ∀ result, stream.state = .ended result → stream.pending = []) ∧
      ∀ r i call, (s.sessionOf id).slot r = some i → s.registers i = some call →
        call.put = call.taken ++ call.channel.queue ∧
          Interleaving call.put (s.handledFor id r) ∧
          ((∀ j stream, s.streams j = some stream → stream.session = some id →
              stream.pending = []) →
            Interleaving call.put (s.submittedFor id r)) := by
  obtain ⟨hreg, hstreams, hreceivers, hdelivered⟩ := inOrder_run hrun hopened hkept
  refine ⟨fun j stream hj hid => ?_, fun r i call hslot hi => ?_⟩
  · have hok := hstreams j stream hj
    refine ⟨hreg.released id (hok.accepted id hid), hok.submitted, fun result hstate => ?_⟩
    rw [SendCall.pending, hstate, (hok.ended result hstate).1]
    rfl
  · refine ⟨(hreceivers i call hi).taken, hdelivered id r i call hslot hi, fun hdone => ?_⟩
    refine (hdelivered id r i call hslot hi).congr fun j => ?_
    rw [handledFor, submittedFor]
    split
    · rename_i stream hj
      unfold SendCall.packetsFor
      split_ifs with hid
      · rw [(hstreams j stream hj).submitted, hdone j stream hj hid, List.append_nil]
      · rfl
    · rfl

/-- The calls of two sessions register, in turns, and return. -/
def registerActions : List Action :=
  [.register 0 ⟨"ab", true⟩, .register 1 ⟨"cd", false⟩, .register 2 ⟨"ab", false⟩,
    .register 3 ⟨"cd", true⟩, .acquire, .acquire, .acquire, .acquire, .arrive 2, .arrive 3,
    .arrive 0, .pass 2, .arrive 1, .pass 1, .pass 3, .pass 0]

/-- A piece with the payload `v`. -/
def letterPiece (id : String) (v : UInt8) : TurnPacket := ⟨id, some (.piece [v] 0)⟩

/-- A request for a session. -/
def someRequest (id : String) : TurnPacket := ⟨id, some (.request [1] 0)⟩

/-- Two streams of one session and a stream of another one take turns. -/
def relayActions : List Action :=
  [.openStream 0 (partyHeaders "ab" .seeder), .openStream 1 (partyHeaders "cd" .seeder),
    .openStream 2 (partyHeaders "ab" .leecher), .submit 0 (letterPiece "ab" 97),
    .submit 1 (letterPiece "cd" 120), .submit 2 (letterPiece "ab" 98),
    .submit 0 (letterPiece "ab" 99), .next 2, .next 1, .next 0, .acquire, .acquire, .put 1,
    .acquire, .put 0, .submit 2 (someRequest "ab"), .read 2, .next 0, .put 2, .next 2, .acquire,
    .acquire, .put 2, .submit 1 (letterPiece "cd" 121), .next 1, .put 0, .acquire, .put 1,
    .close 1 .done, .next 1, .read 2, .read 1]

/-- `OpensRegistered` and no dropped receiver, for calls with numbers below 4. -/
def keepsOrder (s : TurnService) : Action → Bool
  | .openStream _ md => (List.range 4).any fun i => (s.registers i).any fun call =>
    md "x-session-id" = some call.session ∧ call.state = .returned (.ok ())
  | .dropReceiver _  => false
  | _                => true

lemma opensRegistered_of_keepsOrder {a : Action} (h : s.keepsOrder a = true) :
    OpensRegistered s a ∧ ∀ i, a ≠ .dropReceiver i := by
  cases a with
  | openStream j md =>
    refine ⟨fun id hid => ?_, fun _ => Action.noConfusion⟩
    obtain ⟨i, -, hi⟩ := List.any_eq_true.mp h
    obtain ⟨call, hcall, hok⟩ := (Option.any_eq_true _ _).mp hi
    obtain ⟨hsession, hstate⟩ := of_decide_eq_true hok
    exact ⟨i, call, hcall, Option.some.inj (hsession.symm.trans hid), hstate⟩
  | dropReceiver i => cases h
  | _ => exact ⟨trivial, fun _ => Action.noConfusion⟩

theorem relay_delivers_streams : ∃ tr s ab cd, Run step default tr s ∧
    (s.sessionOf "ab").slot .leecher = some 2 ∧ s.registers 2 = some ab ∧
    (s.sessionOf "cd").slot .leecher = some 1 ∧ s.registers 1 = some cd ∧
    ab.put = [97, 98, 99].map (letterPiece "ab") ∧ cd.put = [120, 121].map (letterPiece "cd") ∧
    Interleaving ab.put (s.submittedFor "ab" .leecher) ∧
    Interleaving cd.put (s.submittedFor "cd" .leecher) := by
  obtain ⟨s, ab, cd, hwalk, hslot, hslot', hab, hcd, hput, hput', hpending⟩ : ∃ s ab cd,
      walk step keepsOrder default (registerActions ++ relayActions) = some s ∧
      (s.sessionOf "ab").slot .leecher = some 2 ∧ (s.sessionOf "cd").slot .leecher = some 1 ∧
      s.registers 2 = some ab ∧ s.registers 1 = some cd ∧
      ab.put = [97, 98, 99].map (letterPiece "ab") ∧ cd.put = [120, 121].map (letterPiece "cd") ∧
      ∀ j stream, s.streams j = some stream → stream.pending = [] := by
    refine ⟨_, _, _, rfl, rfl, rfl, rfl, rfl, rfl, rfl, fun j stream hj => ?_⟩
    rcases j with _ | _ | _ | j <;> cases hj <;> rfl
  obtain ⟨tr, hrun, hok⟩ := run_of_walk hwalk
  have hdelivers := relay_delivers hrun
    (fun p hp => (opensRegistered_of_keepsOrder (hok p hp)).1)
    fun p hp => (opensRegistered_of_keepsOrder (hok p hp)).2
  exact ⟨tr, s, ab, cd, hrun, hslot, hab, hslot', hcd, hput, hput',
    ((hdelivers "ab").2 _ 2 ab hslot hab).2.2 fun j stream hj _ => hpending j stream hj,
    ((hdelivers "cd").2 _ 1 cd hslot' hcd).2.2 fun j stream hj _ => hpending j stream hj⟩

end TurnService

end BearTorrent
