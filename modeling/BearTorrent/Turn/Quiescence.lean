import BearTorrent.Turn.Isolation
import BearTorrent.Turn.Registration
import BearTorrent.Turn.Relay

/-!
# The relay at rest

The lock of the sessions is never stuck: whoever holds it waits for room in a channel, and is the
one who gives it back. When streams are opened by registered clients only and the receivers have
room, the relay comes to rest only when every stream is done with what was submitted on it.
-/

namespace BearTorrent

open Function Transition

namespace TurnService

variable {s t : TurnService} {i : RegisterId} {j k : StreamId} {stream stream' : SendCall}
  {call : RegisterCall} {id : String} {r : Role}

/-- The steps that the service takes for its calls. -/
def Action.Works : Action → Prop
  | .acquire | .arrive _ | .pass _ | .next _ | .put _ => True
  | _                                                 => False

/-- The service has nothing to do for its calls. -/
def AtRest (s : TurnService) : Prop := ∀ a : Action, a.Works → s.step a = none

/-- A receiver that is read has room in its channel. -/
def HasRoom (s : TurnService) : Prop :=
  ∀ i call, s.registers i = some call → call.isOpen = true → call.state = .returned (.ok ()) →
    ¬ call.channel.Full

/-! ### The readers -/

/-- Those who hold the lock are forwarding a packet. -/
structure Held (s : TurnService) : Prop where
  forwarding : ∀ j ∈ s.readers, ∃ pkt tx, s.streamState j = some (.forwarding pkt tx)
  nodup : s.readers.Nodup

lemma held_default : Held default := ⟨fun _ hj => (by cases hj), List.nodup_nil⟩

namespace Held

/-- A step that leaves the readers and those who forward. -/
lemma congr (hs : Held s) (hreaders : t.readers = s.readers)
    (hstreams : ∀ j pkt tx, s.streamState j = some (.forwarding pkt tx) →
      t.streamState j = some (.forwarding pkt tx)) : Held t := by
  refine ⟨fun j hj => ?_, hreaders ▸ hs.nodup⟩
  obtain ⟨pkt, tx, hstate⟩ := hs.forwarding j (hreaders ▸ hj)
  exact ⟨pkt, tx, hstreams j pkt tx hstate⟩

/-- A stream that does not forward may go on. -/
lemma setStream (hs : Held s) (hreaders : t.readers = s.readers)
    (hstreams : t.streams = update s.streams j (some stream))
    (hfree : ∀ pkt tx, s.streamState j ≠ some (.forwarding pkt tx)) : Held t := by
  refine hs.congr hreaders fun k pkt tx hk => ?_
  rw [streamState_update hstreams, if_neg, hk]
  rintro rfl
  exact hfree pkt tx hk

/-- A stream gives the lock back. -/
lemma release (hs : Held s) (hreaders : t.readers = s.readers.erase j)
    (hstreams : t.streams = update s.streams j (some stream)) : Held t := by
  refine ⟨fun k hk => ?_, hreaders ▸ hs.nodup.erase j⟩
  rw [hreaders, hs.nodup.mem_erase_iff] at hk
  obtain ⟨pkt, tx, hstate⟩ := hs.forwarding k hk.2
  exact ⟨pkt, tx, by rw [streamState_update hstreams, if_neg hk.1, hstate]⟩

lemma step {a : Action} (hs : Held s) (h : TurnStep s a t) : Held t := by
  have hfree : ∀ {j stream}, s.streams j = some stream →
      (∀ pkt tx, stream.state ≠ .forwarding pkt tx) →
      ∀ pkt tx, s.streamState j ≠ some (.forwarding pkt tx) := by
    intro j stream hj hstate pkt tx hforward
    rw [streamState, hj] at hforward
    exact hstate pkt tx (Option.some.inj hforward)
  have hnew : ∀ {j}, s.streams j = none →
      ∀ pkt tx, s.streamState j ≠ some (.forwarding pkt tx) := by
    intro j hj pkt tx hforward
    rw [streamState, hj] at hforward
    cases hforward
  cases h with
  | @forward j stream pkt tx queue hqueue hj hstate =>
    have hj' := hfree hj (by rw [hstate]; simp)
    refine ⟨fun k hk => ?_, List.nodup_append.mpr ⟨hs.nodup, List.nodup_singleton j, ?_⟩⟩
    · rw [streamState_update (s := s) rfl]
      split_ifs with hkj
      · exact ⟨pkt, tx, rfl⟩
      · refine hs.forwarding k ?_
        simpa [hkj] using hk
    · intro k hk k' hk' hkk'
      obtain rfl := List.mem_singleton.mp hk'
      subst hkk'
      obtain ⟨pkt', tx', hforward⟩ := hs.forwarding k hk
      exact hj' pkt' tx' hforward
  | skip hqueue hj hstate => exact hs.setStream rfl rfl (hfree hj (by rw [hstate]; simp))
  | accept hj => exact hs.setStream rfl rfl (hnew hj)
  | refuse hj => exact hs.setStream rfl rfl (hnew hj)
  | submit hj =>
    exact hs.congr rfl fun k pkt tx hk => (streamState_update_same (s := s) rfl hj (by rfl)).trans hk
  | close hj =>
    exact hs.congr rfl fun k pkt tx hk => (streamState_update_same (s := s) rfl hj (by rfl)).trans hk
  | next hj hstate => exact hs.setStream rfl rfl (hfree hj (by rw [hstate]; simp))
  | finish hj hstate => exact hs.setStream rfl rfl (hfree hj (by rw [hstate]; simp))
  | put => exact hs.release rfl rfl
  | putDropped => exact hs.release rfl rfl
  | _ => exact hs.congr rfl fun _ _ _ hk => hk

end Held

/-! ### The barrier -/

/-- The calls at a barrier have arrived there before it opened. -/
def Behind (s : TurnService) : Prop :=
  ∀ i call generation, s.registers i = some call → call.state = .atBarrier generation →
    generation = 0

lemma Behind.step {a : Action} (hs : Behind s) (hreg : Registered s) (htogether : Together s)
    (h : TurnStep s a t) : Behind t := by
  intro k c g hk hstate
  have hupdate : ∀ {m c'}, t.registers = update s.registers m (some c') →
      (c'.state = .atBarrier g → g = 0) → g = 0 := by
    intro m c' ht hc'
    rw [ht, update_eq_some] at hk
    rcases hk with ⟨rfl, rfl⟩ | ⟨-, hk⟩
    · exact hc' hstate
    · exact hs k c g hk hstate
  cases h with
  | register => exact hupdate rfl fun h => by cases h
  | fill => exact hupdate rfl fun h => by cases h
  | reject => exact hupdate rfl fun h => by cases h
  | @arrive m c' session hm hopen hfilled hsession =>
    refine hupdate rfl fun h => ?_
    cases h
    have hslot := hreg.occupied m c' hm (by rw [hfilled]; rfl)
    by_contra hpos
    refine htogether c'.session c'.role m c' ?_ hslot hm hfilled
    rw [sessionOf_eq hsession]
    exact Nat.pos_of_ne_zero hpos
  | pass => exact hupdate rfl fun h => by cases h
  | @read m c' _ _ hm => exact hupdate rfl fun h => hs m c' g hm h
  | @dropReceiver m c' hm => exact hupdate rfl fun h => hs m c' g hm h
  | @put _ _ _ m c' _ _ _ hm => exact hupdate rfl fun h => hs m c' g hm h
  | _ => exact hs k c g hk hstate

/-! ### At rest -/

/-- The state of the service when streams are opened by registered clients only. -/
structure Sound (s : TurnService) : Prop where
  registered : Registered s
  together : Together s
  behind : Behind s
  queued : Queued s
  held : Held s
  streams : ∀ j stream, s.streams j = some stream → StreamOk s stream

lemma sound_default : Sound default := by
  refine ⟨registered_default, together_default, fun i call g hi => ?_, queued_default, held_default,
    fun j stream hj => ?_⟩
  · cases hi
  · cases hj

lemma Sound.step {a : Action} (hs : Sound s) (h : TurnStep s a t) (hopens : OpensRegistered s a) :
    Sound t :=
  ⟨hs.registered.step h, hs.together.step hs.registered h,
    hs.behind.step hs.registered hs.together h, hs.queued.step h, hs.held.step h,
    StreamOk.step hs.registered hs.streams h hopens⟩

namespace Sound

/-- The session of an accepted stream is there. -/
lemma exists_session (hslot : (s.sessionOf id).slot r = some i) :
    ∃ session, s.sessions id = some session := by
  cases hsession : s.sessions id with
  | none =>
    rw [sessionOf, hsession] at hslot
    cases r <;> cases hslot
  | some session => exact ⟨session, rfl⟩

/-- A packet that is being forwarded is put into its channel, or the receiver goes on to its
stream. -/
lemma not_forwarding (hs : Sound s) (hrest : s.AtRest) (hroom : s.HasRoom)
    (hj : s.streams j = some stream) (pkt : TurnPacket) (tx : RegisterId) :
    stream.state ≠ .forwarding pkt tx := by
  intro hstate
  have hput : s.put j = none := hrest (.put j) trivial
  obtain ⟨id, r, hid, hr, hslot⟩ := (hs.streams j stream hj).target pkt tx hstate
  obtain ⟨call, htx, rfl, rfl, hholds⟩ := hs.registered.owner id r tx hslot
  have hpos := (hs.streams j stream hj).accepted _ hid
  simp only [put, hj, hstate, htx] at hput
  split_ifs at hput with hopen
  have hfull := Channel.send?_eq_none.mp (Option.map_eq_none_iff.mp hput)
  cases hcall : call.state with
  | locking =>
    rw [hcall] at hholds
    cases hholds
  | filled => exact hs.together _ _ tx call hpos hslot htx hcall
  | atBarrier generation =>
    obtain ⟨session, hsession⟩ := exists_session hslot
    rw [sessionOf_eq hsession] at hpos
    have hpass : s.pass tx = none := hrest (.pass tx) trivial
    simp [pass, htx, hopen, hcall, hsession, hs.behind tx call generation htx hcall, hpos] at hpass
  | returned result =>
    cases result with
    | error e =>
      rw [hcall] at hholds
      cases hholds
    | ok u => exact hroom tx call htx hopen hcall hfull

/-- The lock is free, and nobody waits for it. -/
lemma queue_eq_nil (hs : Sound s) (hrest : s.AtRest) (hroom : s.HasRoom) : s.queue = [] := by
  have hreaders : s.readers = [] := by
    refine List.eq_nil_iff_forall_not_mem.mpr fun j hj => ?_
    obtain ⟨pkt, tx, hstate⟩ := hs.held.forwarding j hj
    obtain ⟨stream, hstream, hforward⟩ := Option.map_eq_some_iff.mp hstate
    exact hs.not_forwarding hrest hroom hstream pkt tx hforward
  have hacquire : s.acquire = none := hrest .acquire trivial
  cases hqueue : s.queue with
  | nil => rfl
  | cons w queue =>
    have hmem : w ∈ s.queue := by
      rw [hqueue]
      exact List.mem_cons_self ..
    cases w with
    | read j =>
      obtain ⟨pkt, hstate⟩ := (hs.queued.read j).mp hmem
      obtain ⟨stream, hstream, hlocking⟩ := Option.map_eq_some_iff.mp hstate
      simp [acquire, hqueue, hstream, hlocking] at hacquire
    | write i =>
      obtain ⟨call, hcall, hlocking⟩ := Option.map_eq_some_iff.mp (hs.queued.write i hmem)
      simp [acquire, hqueue, hcall, hlocking, hreaders] at hacquire

/-- At rest, every stream is done with what was submitted on it. -/
lemma pending_eq_nil (hs : Sound s) (hrest : s.AtRest) (hroom : s.HasRoom)
    (hj : s.streams j = some stream) : stream.pending = [] := by
  cases hstate : stream.state with
  | reading =>
    have hnext : s.next j = none := hrest (.next j) trivial
    cases hinbound : stream.inbound with
    | nil =>
      rw [SendCall.pending, hstate, hinbound]
      rfl
    | cons pkt inbound => simp [next, hj, hstate, hinbound] at hnext
  | locking pkt =>
    have hlocking : s.streamState j = some (.locking pkt) := by
      rw [streamState, hj, ← hstate]
      rfl
    have hmem : .read j ∈ s.queue := (hs.queued.read j).mpr ⟨pkt, hlocking⟩
    rw [hs.queue_eq_nil hrest hroom] at hmem
    cases hmem
  | forwarding pkt tx => exact absurd hstate (hs.not_forwarding hrest hroom hj pkt tx)
  | ended result =>
    rw [SendCall.pending, hstate, ((hs.streams j stream hj).ended result hstate).1]
    rfl

end Sound

end TurnService

end BearTorrent
