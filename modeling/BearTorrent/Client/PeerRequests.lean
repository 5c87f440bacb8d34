import BearTorrent.Client.PieceExchange

/-!
# Requests over QUIC

`recv_data` takes the requests that are meant for one connection, asks the peer for each on a stream
of its own, and passes on what comes back. A request whose stream does not open is answered with a
`Cancel`. What goes wrong on an open stream is only logged, or ends the task together with the
requests that are still queued.
-/

namespace BearTorrent

/-- A stream that opens: whether the request is written and the stream finished, and the bytes that
the peer sends before it finishes the stream, if nothing breaks it off. -/
structure Exchange where
  written : Bool
  reply : Option Bytes
  deriving DecidableEq

/-- What ends the task, or is logged by it. -/
def writeError : Fault := .err "sending stopped by peer"
def readError : Fault := .err "read error"
def lengthNotFound : Fault := .err "length not found"
def joinError : Fault := .err "task panicked"

/-- The task that reads the reply. The sum that is the limit of `read_to_end` is printed first. -/
def readReply (env : Env) (length : UInt32) : Option Bytes → Except Fault Message
  | some buf => recvData env length buf
  | none     => do
    let _ ← addU32 env length 9
    throw readError

/-- Handle a message of the channel: what is sent to `reassemble_loop`, and how the loop goes on.
Without a stream there is no connection any more. -/
def handleRequest (env : Env) (stream : Option Exchange) (msg : Message) :
    List Message × Except Fault Unit :=
  match stream with
  | none   => (msg.toCancel.toList, .ok ())
  | some x =>
    match msg with
    | .request _ _ _ length _ =>
      let res := readReply env length x.reply
      let sent := res.toOption.toList
      -- The reader goes on by itself when the request cannot be written.
      if x.written = false then (sent, .error writeError)
      else
        match res with
        | .error .panic => (sent, .error joinError)
        | _             => (sent, .ok ())
    | _ => ([], .error lengthNotFound)

/-- The loop over the messages of the channel, until it is closed. The connection opens the given
streams, one for each message, and is lost after them. Returns what is sent to `reassemble_loop` for
each message that is taken. -/
def recvDataLoop (env : Env) :
    List Exchange → List Message → List (List Message) × Except Fault Unit
  | _, []                => ([], .ok ())
  | streams, msg :: msgs =>
    match handleRequest env streams.head? msg with
    | (sent, .error fault) => ([sent], .error fault)
    | (sent, .ok ())       =>
      let (rest, result) := recvDataLoop env streams.tail msgs
      (sent :: rest, result)

/-- What is sent for the `i`-th message, nothing when the loop does not get to it. -/
def answers (env : Env) (streams : List Exchange) (msgs : List Message) (i : ℕ) : List Message :=
  (recvDataLoop env streams msgs).1.getD i []

section Loop

variable {env : Env} {streams : List Exchange} {msgs : List Message}

/-- A message is handled when the loop goes on after every message before it. -/
lemma answers_of_forall {i : ℕ} {msg : Message} (hi : msgs[i]? = some msg)
    (hok : ∀ k < i, ∀ msg', msgs[k]? = some msg' →
      (handleRequest env streams[k]? msg').2 = .ok ()) :
    answers env streams msgs i = (handleRequest env streams[i]? msg).1 := by
  induction msgs generalizing streams i with
  | nil => cases hi
  | cons m ms ih =>
    rw [answers, recvDataLoop]
    cases i with
    | zero =>
      obtain rfl := Option.some.inj hi
      rw [← List.head?_eq_getElem?]
      rcases handleRequest env streams.head? m with ⟨sent, ⟨_⟩ | ⟨_⟩⟩ <;> rfl
    | succ i =>
      have hfirst := hok 0 (Nat.succ_pos i) m rfl
      rw [← List.head?_eq_getElem?] at hfirst
      rcases hhead : handleRequest env streams.head? m with ⟨sent, ⟨fault⟩ | ⟨⟨⟩⟩⟩
      · rw [hhead] at hfirst
        cases hfirst
      · have hrest : answers env streams.tail ms i
            = (handleRequest env streams.tail[i]? msg).1 := by
          refine ih hi fun k hk msg' hmsg' => ?_
          rw [List.getElem?_tail]
          exact hok (k + 1) (Nat.succ_lt_succ hk) msg' hmsg'
        rw [List.getElem?_tail] at hrest
        exact hrest

/-- Nothing is sent for a message behind one that ends the loop. -/
lemma answers_of_error {k i : ℕ} {msg : Message} {fault : Fault} (hk : msgs[k]? = some msg)
    (hfault : (handleRequest env streams[k]? msg).2 = .error fault) (hlt : k < i) :
    answers env streams msgs i = [] := by
  induction msgs generalizing streams k i with
  | nil => cases hk
  | cons m ms ih =>
    obtain ⟨i, rfl⟩ := Nat.exists_eq_succ_of_ne_zero (Nat.ne_of_gt (Nat.zero_lt_of_lt hlt))
    rw [answers, recvDataLoop]
    rcases hhead : handleRequest env streams.head? m with ⟨sent, ⟨fault'⟩ | ⟨⟨⟩⟩⟩
    · rfl
    · cases k with
      | zero =>
        obtain rfl := Option.some.inj hk
        rw [← List.head?_eq_getElem?, hhead] at hfault
        cases hfault
      | succ k =>
        rw [← List.getElem?_tail] at hfault
        exact ih hk hfault (Nat.lt_of_succ_lt_succ hlt)

end Loop

/-! ### Requests -/

/-- A message is a request. -/
def Message.IsRequest : Message → Prop
  | .request _ _ _ _ _ => True
  | _                  => False

/-- A message answers a request: a piece that the peer has sent, or a `Cancel` for its index. -/
def IsAnswer (stream : Option Exchange) (request : Message) : Message → Prop
  | .piece index payload => ∃ x buf, stream = some x ∧ x.reply = some buf ∧
      Message.decode buf = .ok (some (.piece index payload))
  | .cancel _ index _ _ => index = request.index
  | .request _ _ _ _ _ => False

/-- The connection fails on a request: there is none any more, the request cannot be written, or no
reply can be read and decoded. -/
def StreamFails (env : Env) : Option Exchange → Message → Prop
  | some x, .request _ _ _ length _ =>
    x.written = false ∨ ∃ fault, readReply env length x.reply = .error fault
  | _, _ => True

/-- Every request has one answer, and after a failure it is the `Cancel` of the request. -/
structure AnswersAll (env : Env) (streams : List Exchange) (requests : List Message) : Prop where
  once : ∀ i request, requests[i]? = some request →
    ∃ m, answers env streams requests i = [m] ∧ IsAnswer streams[i]? request m
  cancelled : ∀ i j request request', i < j → requests[i]? = some request →
    requests[j]? = some request' → StreamFails env streams[i]? request →
    answers env streams requests j = request'.toCancel.toList

/-- The peer's reply to a request is read, fits in its limit, and decodes to a `Piece` or to a
`Cancel` for the index that is asked for. -/
def RepliesTo (env : Env) (x : Exchange) : Message → Prop
  | .request _ index _ length _ =>
    (env.overflowChecks = true → length.toNat + 9 < 2 ^ 32) ∧
      ∃ buf m, x.reply = some buf ∧ buf.length ≤ length.toNat + 9 ∧
        Message.decode buf = .ok (some m) ∧
        ((∃ index' payload, m = .piece index' payload) ∨
          ∃ seeder begin length', m = .cancel seeder index begin length')
  | _ => False

/-- The peer replies to every request whose stream opens, and only the last request may not be
written. -/
structure StreamsSuffice (env : Env) (streams : List Exchange) (requests : List Message) :
    Prop where
  replies : ∀ (i : ℕ) x request, streams[i]? = some x → requests[i]? = some request →
    RepliesTo env x request
  written : ∀ (i : ℕ) x, streams[i]? = some x → x.written = false → requests.length ≤ i + 1

lemma recvData_eq_ok {env : Env} {length : UInt32} {buf : Bytes} {m : Message} :
    recvData env length buf = .ok m ↔
      (env.overflowChecks = true → length.toNat + 9 < 2 ^ 32) ∧ buf.length ≤ length.toNat + 9 ∧
        Message.decode buf = .ok (some m) := by
  constructor
  · intro h
    obtain ⟨sum, hsum, h⟩ := except_bind_eq_ok.mp h
    split_ifs at h with hlong
    · cases h
    obtain ⟨msg, hdecode, h⟩ := except_bind_eq_ok.mp h
    cases msg with
    | none => cases h
    | some msg =>
      obtain rfl := Except.ok.inj h
      refine ⟨fun hchecks => ?_, Nat.not_lt.mp hlong, hdecode⟩
      by_contra hover
      rw [addU32, if_pos ⟨hchecks, Nat.not_lt.mp hover⟩] at hsum
      cases hsum
  · rintro ⟨hfits, hlen, hdecode⟩
    have hsum : addU32 env length 9 = .ok (length + 9) :=
      if_neg fun hover => absurd (hfits hover.1) (Nat.not_lt.mpr hover.2)
    rw [recvData, hsum]
    simp only [bind, Except.bind]
    rw [if_neg (Nat.not_lt.mpr hlen), hdecode]
    rfl

lemma readReply_eq_ok {env : Env} {length : UInt32} {reply : Option Bytes} {m : Message} :
    readReply env length reply = .ok m ↔
      (env.overflowChecks = true → length.toNat + 9 < 2 ^ 32) ∧
        ∃ buf, reply = some buf ∧ buf.length ≤ length.toNat + 9 ∧
          Message.decode buf = .ok (some m) := by
  cases reply with
  | none =>
    constructor
    · intro h
      obtain ⟨sum, -, h⟩ := except_bind_eq_ok.mp h
      cases h
    · rintro ⟨-, buf, hbuf, -⟩
      cases hbuf
  | some buf =>
    rw [readReply, recvData_eq_ok]
    simp only [Option.some.injEq, exists_eq_left']

section Request

variable {env : Env} {x : Exchange} {request : Message}

/-- The loop goes on after a request that is written and whose reply is read. -/
lemma handleRequest_of_repliesTo (h : RepliesTo env x request) :
    ∃ m, (handleRequest env (some x) request).1 = [m] ∧ IsAnswer (some x) request m ∧
      ¬ (x.written = true ∧ StreamFails env (some x) request) ∧
      (x.written = true → (handleRequest env (some x) request).2 = .ok ()) := by
  cases request with
  | request seeder index begin length hash =>
    obtain ⟨hfits, buf, m, hreply, hlen, hdecode, hm⟩ := h
    have hread : readReply env length x.reply = .ok m :=
      readReply_eq_ok.mpr ⟨hfits, buf, hreply, hlen, hdecode⟩
    refine ⟨m, ?_, ?_, ?_, ?_⟩
    · rw [handleRequest, hread]
      simp only [Except.toOption, Option.toList]
      split_ifs <;> rfl
    · rcases hm with ⟨index', payload, rfl⟩ | ⟨seeder', begin', length', rfl⟩
      · exact ⟨x, buf, rfl, hreply, hdecode⟩
      · rfl
    · rintro ⟨hwritten, hfails | ⟨fault, hfails⟩⟩
      · rw [hwritten] at hfails
        cases hfails
      · rw [hread] at hfails
        cases hfails
    · intro hwritten
      rw [handleRequest, hread]
      simp [hwritten]
  | piece index payload => exact h.elim
  | cancel seeder index begin length => exact h.elim

/-- The reply that is passed on for a request. -/
lemma repliesTo_of_answer (hreq : request.IsRequest) {m : Message}
    (hsent : (handleRequest env (some x) request).1 = [m])
    (hanswer : IsAnswer (some x) request m) : RepliesTo env x request := by
  cases request with
  | request seeder index begin length hash =>
    have hlist : (readReply env length x.reply).toOption.toList = [m] := by
      rw [← hsent, handleRequest]
      split_ifs
      · rfl
      · rcases readReply env length x.reply with (_ | _) | _ <;> rfl
    have hread : readReply env length x.reply = .ok m := by
      cases hres : readReply env length x.reply with
      | error fault => simp [hres, Except.toOption] at hlist
      | ok m' =>
        rw [hres] at hlist
        rw [List.singleton_inj.mp hlist]
    obtain ⟨hfits, buf, hreply, hlen, hdecode⟩ := readReply_eq_ok.mp hread
    refine ⟨hfits, buf, m, hreply, hlen, hdecode, ?_⟩
    cases m with
    | piece index' payload => exact .inl ⟨index', payload, rfl⟩
    | cancel seeder' index' begin' length' =>
      obtain rfl : index' = index := hanswer
      exact .inr ⟨seeder', begin', length', rfl⟩
    | request => exact hanswer.elim
  | piece index payload => exact hreq.elim
  | cancel seeder index begin length => exact hreq.elim

/-- A request that is not written ends the loop. -/
lemma handleRequest_not_written (hreq : request.IsRequest) (hwritten : x.written = false) :
    (handleRequest env (some x) request).2 = .error writeError := by
  cases request with
  | request seeder index begin length hash => simp [handleRequest, hwritten]
  | piece index payload => exact hreq.elim
  | cancel seeder index begin length => exact hreq.elim

end Request

section Requests

variable {env : Env} {streams : List Exchange} {requests : List Message}

/-- A message that is sent for a request is what the handling of the request sends. -/
lemma answers_of_ne_nil {i : ℕ} {request : Message} (hi : requests[i]? = some request)
    (hne : answers env streams requests i ≠ []) :
    answers env streams requests i = (handleRequest env streams[i]? request).1 := by
  refine answers_of_forall hi fun k hk msg hmsg => ?_
  cases hres : (handleRequest env streams[k]? msg).2 with
  | error fault => exact absurd (answers_of_error hmsg hres hk) hne
  | ok => rfl

/-- The loop gets to every request when the streams suffice. -/
lemma StreamsSuffice.answers_eq (h : StreamsSuffice env streams requests) {i : ℕ}
    {request : Message} (hi : requests[i]? = some request) :
    answers env streams requests i = (handleRequest env streams[i]? request).1 := by
  refine answers_of_forall hi fun k hk msg hmsg => ?_
  cases hx : streams[k]? with
  | none => rfl
  | some x =>
    have hlen := (List.getElem?_eq_some_iff.mp hi).1
    have hwritten : x.written = true := by
      by_contra hfalse
      have := h.written k x hx (Bool.eq_false_iff.mpr hfalse)
      omega
    obtain ⟨-, -, -, -, hok⟩ := handleRequest_of_repliesTo (h.replies k x msg hx hmsg)
    exact hok hwritten

lemma StreamsSuffice.answersAll (hreq : ∀ request ∈ requests, request.IsRequest)
    (h : StreamsSuffice env streams requests) : AnswersAll env streams requests := by
  constructor
  · intro i request hi
    rw [h.answers_eq hi]
    cases hx : streams[i]? with
    | none =>
      have hrequest := hreq request (List.mem_of_getElem? hi)
      cases request with
      | request seeder index begin length hash => exact ⟨_, rfl, rfl⟩
      | piece index payload => exact hrequest.elim
      | cancel seeder index begin length => exact hrequest.elim
    | some x =>
      obtain ⟨m, hsent, hanswer, -, -⟩ := handleRequest_of_repliesTo (h.replies i x request hx hi)
      exact ⟨m, hsent, hanswer⟩
  · intro i j request request' hij hi hj hfails
    cases hx : streams[i]? with
    | none =>
      have hnone : streams[j]? = none :=
        List.getElem?_eq_none ((List.getElem?_eq_none_iff.mp hx).trans hij.le)
      rw [h.answers_eq hj, hnone]
      rfl
    | some x =>
      have hlen := (List.getElem?_eq_some_iff.mp hj).1
      have hwritten : x.written = true := by
        by_contra hfalse
        have := h.written i x hx (Bool.eq_false_iff.mpr hfalse)
        omega
      obtain ⟨-, -, -, hnot, -⟩ := handleRequest_of_repliesTo (h.replies i x request hx hi)
      rw [hx] at hfails
      exact absurd ⟨hwritten, hfails⟩ hnot

lemma AnswersAll.streamsSuffice (hreq : ∀ request ∈ requests, request.IsRequest)
    (h : AnswersAll env streams requests) : StreamsSuffice env streams requests := by
  constructor
  · intro i x request hx hi
    obtain ⟨m, hm, hanswer⟩ := h.once i request hi
    have hsent := answers_of_ne_nil hi (by rw [hm]; exact List.cons_ne_nil _ _)
    rw [hm, hx] at hsent
    rw [hx] at hanswer
    exact repliesTo_of_answer (hreq request (List.mem_of_getElem? hi)) hsent.symm hanswer
  · intro i x hx hwritten
    by_contra hlt
    rw [Nat.not_le] at hlt
    have hlast : i < requests.length := Nat.lt_of_succ_lt hlt
    have hi : requests[i]? = some requests[i] := List.getElem?_eq_getElem hlast
    have hnext : requests[i + 1]? = some requests[i + 1] := List.getElem?_eq_getElem hlt
    have herror : (handleRequest env streams[i]? requests[i]).2 = .error writeError := by
      rw [hx]
      exact handleRequest_not_written (hreq _ (List.mem_of_getElem? hi)) hwritten
    obtain ⟨m, hm, -⟩ := h.once (i + 1) _ hnext
    rw [answers_of_error hi herror (Nat.lt_succ_self i)] at hm
    cases hm

/-- Every request is answered once, and with a `Cancel` after a failure, exactly when the peer
replies to every request whose stream opens and only the last request is not written. -/
theorem recvData_answers_iff (hreq : ∀ request ∈ requests, request.IsRequest) :
    AnswersAll env streams requests ↔ StreamsSuffice env streams requests :=
  ⟨fun h => h.streamsSuffice hreq, fun h => h.answersAll hreq⟩

end Requests

/-- The request for a piece of one byte. -/
def letterRequest : Message := .request 0 0 0 1 Digest.zero

/-- The peer sends the letter `a`. -/
theorem recvData_answers_iff_letter :
    AnswersAll letterEnv [⟨true, some [0, 0, 0, 6, 7, 0, 0, 0, 0, 97]⟩] [letterRequest] ↔
      StreamsSuffice letterEnv [⟨true, some [0, 0, 0, 6, 7, 0, 0, 0, 0, 97]⟩] [letterRequest] :=
  recvData_answers_iff fun request hmem => by
    rw [List.mem_singleton.mp hmem]
    trivial

/-- A request whose reply breaks off is not answered. Neither is one that cannot be written, nor
the request that is queued behind it. -/
theorem failed_stream_unanswered :
    recvDataLoop letterEnv [⟨true, none⟩] [letterRequest] = ([[]], .ok ()) ∧
      ¬ AnswersAll letterEnv [⟨true, none⟩] [letterRequest] ∧
      recvDataLoop letterEnv [⟨false, none⟩] [letterRequest, letterRequest]
        = ([[]], .error writeError) ∧
      ¬ AnswersAll letterEnv [⟨false, none⟩] [letterRequest, letterRequest] := by
  refine ⟨rfl, fun h => ?_, rfl, fun h => ?_⟩
  · obtain ⟨m, hm, -⟩ := h.once 0 letterRequest rfl
    cases hm
  · obtain ⟨m, hm, -⟩ := h.once 1 letterRequest rfl
    cases hm

end BearTorrent
