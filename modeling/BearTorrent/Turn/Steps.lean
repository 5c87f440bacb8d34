import BearTorrent.Turn.Basic

/-!
# What a step of the relay can do
-/

namespace BearTorrent

open Function

/-- The effects of the steps, with their guards. -/
inductive TurnStep (s : TurnService) : TurnService.Action → TurnService → Prop
  | register {i : RegisterId} {req : RegisterRequest} (hi : s.registers i = none) :
      TurnStep s (.register i req)
        { s.setRegister i (.new req) with queue := s.queue ++ [.write i] }
  | fill {i : RegisterId} {call : RegisterCall} {queue : List Waiter} {session : Session}
      (hqueue : s.queue = .write i :: queue) (hi : s.registers i = some call)
      (hstate : call.state = .locking) (hreaders : s.readers = [])
      (hadd : ((s.sessions call.session).getD .new).add i call.role = .ok session) :
      TurnStep s .acquire
        { s.setRegister i { call with state := .filled } with
          queue
          sessions := update s.sessions call.session (some session) }
  | reject {i : RegisterId} {call : RegisterCall} {queue : List Waiter} {error : Failure}
      (hqueue : s.queue = .write i :: queue) (hi : s.registers i = some call)
      (hstate : call.state = .locking) (hreaders : s.readers = [])
      (hadd : ((s.sessions call.session).getD .new).add i call.role = .error error) :
      TurnStep s .acquire
        { s.setRegister i { call with state := .returned (.error error) } with queue }
  | forward {j : StreamId} {stream : SendCall} {pkt : TurnPacket} {tx : RegisterId}
      {queue : List Waiter} (hqueue : s.queue = .read j :: queue)
      (hj : s.streams j = some stream) (hstate : stream.state = .locking pkt)
      (htarget : (stream.session.bind s.sessions).bind (·.target pkt) = some tx) :
      TurnStep s .acquire
        { s.setStream j { stream with state := .forwarding pkt tx } with
          queue
          readers := s.readers ++ [j] }
  | skip {j : StreamId} {stream : SendCall} {pkt : TurnPacket} {queue : List Waiter}
      (hqueue : s.queue = .read j :: queue) (hj : s.streams j = some stream)
      (hstate : stream.state = .locking pkt)
      (htarget : (stream.session.bind s.sessions).bind (·.target pkt) = none) :
      TurnStep s .acquire { s.setStream j (stream.finish pkt) with queue }
  | arrive {i : RegisterId} {call : RegisterCall} {session : Session}
      (hi : s.registers i = some call) (hopen : call.isOpen = true)
      (hstate : call.state = .filled) (hsession : s.sessions call.session = some session) :
      TurnStep s (.arrive i)
        { s.setRegister i { call with state := .atBarrier session.barrier.generation } with
          sessions := update s.sessions call.session
            (some { session with barrier := session.barrier.arrive }) }
  | pass {i : RegisterId} {call : RegisterCall} {session : Session} {generation : ℕ}
      (hi : s.registers i = some call) (hopen : call.isOpen = true)
      (hstate : call.state = .atBarrier generation)
      (hsession : s.sessions call.session = some session)
      (hlt : generation < session.barrier.generation) :
      TurnStep s (.pass i) (s.setRegister i { call with state := .returned (.ok ()) })
  | read {i : RegisterId} {call : RegisterCall} {pkt : TurnPacket}
      {channel : Channel TurnPacket turnCapacity} (hi : s.registers i = some call)
      (hopen : call.isOpen = true) (hstate : call.state = .returned (.ok ()))
      (hqueue : call.channel.queue = pkt :: channel.queue) :
      TurnStep s (.read i)
        (s.setRegister i { call with channel, taken := call.taken ++ [pkt] })
  | dropReceiver {i : RegisterId} {call : RegisterCall} (hi : s.registers i = some call) :
      TurnStep s (.dropReceiver i)
        { s.setRegister i { call with isOpen := false } with
          queue := s.queue.erase (.write i) }
  | accept {j : StreamId} {md : MetadataMap} {sessionId : String} (hj : s.streams j = none)
      (hmd : sendSession md = .ok sessionId) :
      TurnStep s (.openStream j md) (s.setStream j (.new (some sessionId) .reading))
  | refuse {j : StreamId} {md : MetadataMap} {error : Failure} (hj : s.streams j = none)
      (hmd : sendSession md = .error error) :
      TurnStep s (.openStream j md) (s.setStream j (.new none (.ended (.error error))))
  | submit {j : StreamId} {stream : SendCall} {pkt : TurnPacket} (hj : s.streams j = some stream)
      (hsession : stream.session.isSome = true) (hclosing : stream.closing = none) :
      TurnStep s (.submit j pkt)
        (s.setStream j { stream with
          inbound := stream.inbound ++ [pkt]
          submitted := stream.submitted ++ [pkt] })
  | close {j : StreamId} {stream : SendCall} {closing : Closing}
      (hj : s.streams j = some stream) (hclosing : stream.closing = none) :
      TurnStep s (.close j closing) (s.setStream j { stream with closing := some closing })
  | next {j : StreamId} {stream : SendCall} {pkt : TurnPacket} {inbound : List TurnPacket}
      (hj : s.streams j = some stream) (hstate : stream.state = .reading)
      (hinbound : stream.inbound = pkt :: inbound) :
      TurnStep s (.next j)
        { s.setStream j { stream with state := .locking pkt, inbound } with
          queue := s.queue ++ [.read j] }
  | finish {j : StreamId} {stream : SendCall} {closing : Closing}
      (hj : s.streams j = some stream) (hstate : stream.state = .reading)
      (hinbound : stream.inbound = []) (hclosing : stream.closing = some closing) :
      TurnStep s (.next j)
        (s.setStream j { stream with state := .ended (TurnService.sendResult closing) })
  | put {j : StreamId} {stream : SendCall} {pkt : TurnPacket} {tx : RegisterId}
      {call : RegisterCall} {channel : Channel TurnPacket turnCapacity}
      (hj : s.streams j = some stream) (hstate : stream.state = .forwarding pkt tx)
      (htx : s.registers tx = some call) (hopen : call.isOpen = true)
      (hqueue : channel.queue = call.channel.queue ++ [pkt]) :
      TurnStep s (.put j)
        (({ s.setStream j (stream.finish pkt) with
          readers := s.readers.erase j } : TurnService).setRegister tx
            { call with channel, put := call.put ++ [pkt] })
  | putDropped {j : StreamId} {stream : SendCall} {pkt : TurnPacket} {tx : RegisterId}
      {call : RegisterCall} (hj : s.streams j = some stream)
      (hstate : stream.state = .forwarding pkt tx) (htx : s.registers tx = some call)
      (hopen : call.isOpen = false) :
      TurnStep s (.put j)
        { s.setStream j (stream.finish pkt) with readers := s.readers.erase j }

namespace TurnService

variable {s t : TurnService}

lemma turnStep_of_acquire (h : s.acquire = some t) : TurnStep s .acquire t := by
  unfold acquire at h
  split at h
  · cases h
  · rename_i j queue hqueue
    split at h
    · cases h
    · rename_i stream hj
      split at h
      · rename_i pkt hstate
        cases h
        rw [forward]
        split
        · rename_i tx htarget
          exact .forward hqueue hj hstate htarget
        · rename_i htarget
          exact .skip hqueue hj hstate htarget
      · cases h
  · rename_i i queue hqueue
    split at h
    · cases h
    · rename_i call hi
      split at h
      · rename_i hstate
        split_ifs at h with hreaders
        cases h
        rw [fillSlot]
        dsimp only
        split
        · rename_i session hadd
          exact .fill hqueue hi hstate hreaders hadd
        · rename_i error hadd
          exact .reject hqueue hi hstate hreaders hadd
      · cases h

lemma turnStep_of_put {j : StreamId} (h : s.put j = some t) : TurnStep s (.put j) t := by
  unfold put at h
  split at h
  · cases h
  · rename_i stream hj
    split at h
    · rename_i pkt tx hstate
      split at h
      · cases h
      · rename_i call htx
        dsimp only at h
        split_ifs at h with hopen
        · obtain ⟨channel, hsend, rfl⟩ := Option.map_eq_some_iff.mp h
          exact .put hj hstate htx hopen (Channel.send?_eq_some.mp hsend).2
        · cases h
          exact .putDropped hj hstate htx (by simpa using hopen)
    · cases h

/-- All that a step can do. -/
lemma turnStep_of_eq_some {a : Action} (h : s.step a = some t) : TurnStep s a t := by
  cases a with
  | register i req =>
    simp only [step, register] at h
    split at h
    · cases h
    · rename_i hi
      cases h
      exact .register hi
  | acquire => exact turnStep_of_acquire h
  | arrive i =>
    simp only [step, arrive] at h
    split at h
    · cases h
    · rename_i call hi
      split at h
      · rename_i session hopen hstate hsession
        cases h
        exact .arrive hi hopen hstate hsession
      · cases h
  | pass i =>
    simp only [step, pass] at h
    split at h
    · cases h
    · rename_i call hi
      split at h
      · rename_i generation session hopen hstate hsession
        split_ifs at h with hlt
        cases h
        exact .pass hi hopen hstate hsession hlt
      · cases h
  | read i =>
    simp only [step, TurnService.read] at h
    split at h
    · cases h
    · rename_i call hi
      split at h
      · rename_i pkt channel hopen hstate hrecv
        cases h
        exact .read hi hopen hstate (Channel.recv?_eq_some.mp hrecv)
      · cases h
  | dropReceiver i =>
    obtain ⟨call, hi, rfl⟩ := Option.map_eq_some_iff.mp h
    exact .dropReceiver hi
  | openStream j md =>
    simp only [step, openStream] at h
    split at h
    · cases h
    · rename_i hj
      split at h
      · rename_i sessionId hmd
        cases h
        exact .accept hj hmd
      · rename_i error hmd
        cases h
        exact .refuse hj hmd
  | submit j pkt =>
    simp only [step, submit] at h
    split at h
    · cases h
    · rename_i stream hj
      split_ifs at h with hok
      cases h
      exact .submit hj hok.1 (Option.isNone_iff_eq_none.mp hok.2)
  | close j closing =>
    simp only [step, close] at h
    split at h
    · cases h
    · rename_i stream hj
      split_ifs at h with hok
      cases h
      exact .close hj (Option.isNone_iff_eq_none.mp hok)
  | next j =>
    simp only [step, next] at h
    split at h
    · cases h
    · rename_i stream hj
      split at h
      · rename_i pkt inbound hstate hinbound
        cases h
        exact .next hj hstate hinbound
      · rename_i closing hstate hinbound hclosing
        cases h
        exact .finish hj hstate hinbound hclosing
      · cases h
  | put j => exact turnStep_of_put h

end TurnService

end BearTorrent
