import BearTorrent.Client.HolePunch

/-!
# Answered punches

The peer can be reached from when its punch string is received. The send task looks at the token
after it has sent in its round, so that whether a datagram follows depends on where it is while the
read task goes from the punch string to the token.
-/

namespace BearTorrent

open Transition

/-- `send_to` is called. -/
def SocketCall.isSend : SocketCall → Bool
  | .sendTo _ _   => true
  | .recvFrom _ _ => false

namespace SendTaskAt

/-- The task has called `send_to` in its round `i`, and not looked at the token since. -/
def HasSent (i : ℕ) (x : SendTaskAt) : Prop := x = .awaitingSend i ∨ x = .checking i

/-- The task has called `send_to` in its round, and not looked at the token since. -/
def pending : SendTaskAt → Bool
  | .awaitingSend _ | .checking _                 => true
  | .sending _      | .sleeping _ | .finished _   => false

lemma pending_iff {x : SendTaskAt} : x.pending = true ↔ ∃ i, x.HasSent i := by
  cases x <;> simp [pending, HasSent]

end SendTaskAt

namespace HolePunchCall

variable {S : Type} {peerAddr : SocketAddr} {sock sock' : S} {s t : HolePunchCall S} {a : Action}
  {tr : List (HolePunchCall S × Action)} {p q : HolePunchCall S × Action} {i : ℕ}

/-- The punch string was sent to the peer after it was received. -/
def Answered (peerAddr : SocketAddr) (calls : List SocketCall) : Prop :=
  ∃ before src after, calls = before ++ .recvFrom punchString src :: after ∧
    .sendTo punchString peerAddr ∈ after

/-- The punch string is received in the step. -/
def Hears (p : HolePunchCall S × Action) : Prop :=
  ∃ src, p.2 = .received (.ok (punchString, src))

/-- The token is cancelled in the step. -/
def Cancels (p : HolePunchCall S × Action) : Prop := p.1.readTask = .matched ∧ p.2 = .readTask

/-- From the punch string to the cancelled token, the send task stays in a round in which it has
sent already. -/
def Overtaken (tr : List (HolePunchCall S × Action)) : Prop :=
  ∃ p ∈ tr, ∃ q ∈ tr, Hears p ∧ Cancels q ∧
    ∃ i, p.1.sendTask.HasSent i ∧ q.1.sendTask.HasSent i

/-! ### The datagrams -/

/-- The number of the datagrams sent. -/
def sends (calls : List SocketCall) : ℕ := calls.countP SocketCall.isSend

@[simp] lemma sends_append {calls calls' : List SocketCall} :
    sends (calls ++ calls') = sends calls + sends calls' := List.countP_append

@[simp] lemma sends_cons {c : SocketCall} {calls : List SocketCall} :
    sends (c :: calls) = sends calls + if c.isSend then 1 else 0 := List.countP_cons

@[simp] lemma sends_nil : sends [] = 0 := rfl

/-- The rounds count the datagrams, which are punch strings for the peer. -/
structure Numbered (peerAddr : SocketAddr) (s : HolePunchCall S) : Prop where
  sending : ∀ i, s.sendTask = .sending i → sends s.calls = i
  hasSent : ∀ i, s.sendTask.HasSent i → sends s.calls = i + 1
  sleeping : ∀ i, s.sendTask = .sleeping i → sends s.calls = i + 1
  punch : ∀ c ∈ s.calls, c.isSend = true → c = .sendTo punchString peerAddr

lemma numbered_init : (init sock).Numbered peerAddr where
  sending i h := by
    cases h
    rfl
  hasSent i h := by simp [SendTaskAt.HasSent, init] at h
  sleeping i h := by cases h
  punch c h := by simp [init] at h

lemma Numbered.step (hs : s.Numbered peerAddr) (h : Rule peerAddr s a t) : t.Numbered peerAddr := by
  obtain ⟨hsending, hsent, hsleeping, hpunch⟩ := hs
  cases h with
  | @send i hsend =>
    have hcount := hsending i hsend
    refine ⟨by simp, ?_, by simp, ?_⟩
    · simp [SendTaskAt.HasSent, SocketCall.isSend, hcount]
    · intro c hc hcall
      rcases List.mem_append.mp hc with hc | hc
      · exact hpunch c hc hcall
      · exact List.mem_singleton.mp hc
  | @sent i _ hsend =>
    have hcount := hsent i (.inl hsend)
    exact ⟨by simp, by simp [SendTaskAt.HasSent, hcount], by simp, hpunch⟩
  | @goOn i hsend _ =>
    have hcount := hsent i (.inr hsend)
    exact ⟨by simp, by simp [SendTaskAt.HasSent], by simp [hcount], hpunch⟩
  | @wake i hsend =>
    have hcount := hsleeping i hsend
    exact ⟨by simp [hcount], by simp [SendTaskAt.HasSent], by simp, hpunch⟩
  | stop | giveUp | abortSend =>
    exact ⟨by simp, by simp [SendTaskAt.HasSent], by simp, hpunch⟩
  | receive =>
    refine ⟨?_, ?_, ?_, ?_⟩
    · simpa [SocketCall.isSend] using hsending
    · simpa [SocketCall.isSend] using hsent
    · simpa [SocketCall.isSend] using hsleeping
    · intro c hc hcall
      rcases List.mem_append.mp hc with hc | hc
      · exact hpunch c hc hcall
      · rw [List.mem_singleton.mp hc] at hcall
        cases hcall
  | _ => exact ⟨hsending, hsent, hsleeping, hpunch⟩

lemma numbered_run (h : Run (step peerAddr) (init sock) tr s) : s.Numbered peerAddr :=
  h.preserve (I := fun s => s.Numbered peerAddr) (fun _ _ _ hs ha => hs.step (rule_of_step ha))
    numbered_init

/-! ### What only grows -/

/-- How far the send task has come: two for each datagram, and one less while it has not looked at
the token since the last of them. -/
def progress (s : HolePunchCall S) : ℕ := 2 * sends s.calls + if s.sendTask.pending then 0 else 1

/-- `t` comes after `s` in a run. -/
structure Later (s t : HolePunchCall S) : Prop where
  calls : s.calls <+: t.calls
  progress : s.progress ≤ t.progress
  cancelled : s.cancelled = true → t.cancelled = true

namespace Later

lemma refl (s : HolePunchCall S) : s.Later s := ⟨List.prefix_rfl, le_rfl, id⟩

lemma trans {s t u : HolePunchCall S} (h : s.Later t) (h' : t.Later u) : s.Later u :=
  ⟨h.calls.trans h'.calls, h.progress.trans h'.progress, h'.cancelled ∘ h.cancelled⟩

lemma of_rule (h : Rule peerAddr s a t) : s.Later t := by
  cases h with
  | send hsend =>
    refine ⟨List.prefix_append _ _, ?_, id⟩
    simp only [HolePunchCall.progress, hsend, SendTaskAt.pending, SocketCall.isSend, sends_append,
      sends_cons, sends_nil, Bool.false_eq_true, if_true, if_false]
    omega
  | sent hsend | goOn hsend _ | stop hsend _ | wake hsend | giveUp hsend =>
    refine ⟨List.prefix_rfl, ?_, id⟩
    simp [HolePunchCall.progress, hsend, SendTaskAt.pending]
  | abortSend =>
    refine ⟨List.prefix_rfl, ?_, id⟩
    simp only [HolePunchCall.progress, SendTaskAt.pending]
    split_ifs <;> simp_all
  | receive =>
    refine ⟨List.prefix_append _ _, ?_, id⟩
    simp [HolePunchCall.progress, SocketCall.isSend]
  | cancel => exact ⟨List.prefix_rfl, le_rfl, fun _ => rfl⟩
  | _ => exact ⟨List.prefix_rfl, le_rfl, id⟩

lemma of_step (h : step peerAddr s a = some t) : s.Later t := .of_rule (rule_of_step h)

lemma of_run {s₀ : HolePunchCall S} (h : Run (step peerAddr) s₀ tr s) : s₀.Later s :=
  h.preserve (I := fun s => s₀.Later s) (fun _ _ _ hs ha => hs.trans (.of_step ha)) (.refl s₀)

end Later

/-! ### The punch string and the token -/

/-- The trace has the steps behind what the read task has done. -/
structure Traced (tr : List (HolePunchCall S × Action)) (s : HolePunchCall S) : Prop where
  matched : s.readTask = .matched → ∃ p ∈ tr, Hears p
  cancelled : s.cancelled = true → ∃ q ∈ tr, Cancels q

/-- What the step itself adds to the trace. -/
lemma Traced.snoc (hs : Traced tr s) (hlistening : Listening s.readTask s.cancelled s.calls)
    (h : Rule peerAddr s a t) : Traced (tr ++ [(s, a)]) t := by
  have hlast : (s, a) ∈ tr ++ [(s, a)] := List.mem_append_right _ (List.mem_singleton_self _)
  have hmatched : s.readTask = .matched → ∃ p ∈ tr ++ [(s, a)], Hears p := fun hread =>
    (hs.matched hread).imp fun _ hp => ⟨List.mem_append_left _ hp.1, hp.2⟩
  have hcancelled : s.cancelled = true → ∃ q ∈ tr ++ [(s, a)], Cancels q := fun htoken =>
    (hs.cancelled htoken).imp fun _ hq => ⟨List.mem_append_left _ hq.1, hq.2⟩
  cases h with
  | cancel hread => exact ⟨by simp, fun _ => ⟨_, hlast, hread, rfl⟩⟩
  | @receive buf datagram src hread =>
    have hmatch : _ ↔ datagram = punchString :=
      recvInto_eq_punchString_iff (hlistening.buffer buf hread)
    refine ⟨fun hpunch => ⟨_, hlast, ?_⟩, hcancelled⟩
    exact ⟨_, by rw [hmatch.mp (by simpa using hpunch)]⟩
  | drop | finish | recvError | elapse | abortRead => exact ⟨by simp, hcancelled⟩
  | _ => exact ⟨hmatched, hcancelled⟩

lemma traced_run (h : Run (step peerAddr) (init sock) tr s) : Traced tr s := by
  induction h with
  | nil => exact ⟨by simp [init], by simp [init]⟩
  | snoc h ha ih => exact ih.snoc (sound_run h).listening (rule_of_step ha)

/-- What counts is what comes after the first punch string. -/
lemma answered_append_iff {before after : List SocketCall} {src : SocketAddr}
    (hbefore : ¬ Heard before) :
    Answered peerAddr (before ++ .recvFrom punchString src :: after) ↔
      .sendTo punchString peerAddr ∈ after := by
  constructor
  · rintro ⟨before', src', after', heq, hmem⟩
    obtain ⟨l, rfl, hl⟩ | ⟨l, rfl, hl⟩ := List.append_eq_append_iff.mp heq
    · cases l with
      | nil =>
        rw [(List.cons.inj hl).2]
        exact hmem
      | cons c l =>
        rw [(List.cons.inj hl).2]
        exact List.mem_append_right _ (List.mem_cons_of_mem _ hmem)
    · cases l with
      | nil =>
        rw [← (List.cons.inj hl).2]
        exact hmem
      | cons c l =>
        obtain ⟨rfl, -⟩ := List.cons.inj hl
        exact absurd ⟨src', by simp⟩ hbefore
  · exact fun hmem => ⟨before, src, after, rfl, hmem⟩

/-- The punch string is answered exactly when more datagrams have been sent in the end than at its
receipt. -/
lemma answered_iff_sends_lt (h : Run (step peerAddr) (init sock) tr s) (hp : p ∈ tr)
    (hhears : Hears p) : Answered peerAddr s.calls ↔ sends p.1.calls < sends s.calls := by
  obtain ⟨tr₁, tr₂, rfl, hbefore⟩ := h.of_mem hp
  obtain ⟨u, -, hu, hafter⟩ := h.split_cons
  obtain ⟨src, ha⟩ := hhears
  rw [ha] at hu
  obtain ⟨hunheard, hcalls⟩ : ¬ Heard p.1.calls ∧
      u.calls = p.1.calls ++ [.recvFrom punchString src] := by
    cases rule_of_step hu with
    | receive hread => exact ⟨(sound_run hbefore).listening.unheard _ hread, rfl⟩
  obtain ⟨after, hs⟩ := (Later.of_run hafter).calls
  rw [hcalls, ← List.append_cons] at hs
  rw [← hs, answered_append_iff hunheard]
  have hsends : sends p.1.calls < sends (p.1.calls ++ .recvFrom punchString src :: after) ↔
      0 < sends after := by
    simp [SocketCall.isSend]
  rw [hsends, sends, List.countP_pos_iff]
  constructor
  · exact fun hmem => ⟨_, hmem, rfl⟩
  · rintro ⟨c, hc, hsend⟩
    have hmem : c ∈ s.calls := by
      rw [← hs]
      exact List.mem_append_right _ (List.mem_cons_of_mem _ hc)
    exact (numbered_run h).punch c hmem hsend ▸ hc

/-! ### After the token is cancelled -/

/-- The send task sends no more: its next look ends it. -/
structure Stopping (n : ℕ) (s : HolePunchCall S) : Prop where
  cancelled : s.cancelled = true
  sends : sends s.calls = n
  last : s.sendTask.pending = true ∨ ∃ r, s.sendTask = .finished r

lemma Stopping.step {n : ℕ} (hs : s.Stopping n) (h : Rule peerAddr s a t) : t.Stopping n := by
  obtain ⟨htoken, hsends, hlast⟩ := hs
  cases h with
  | send hsend | wake hsend | giveUp hsend => simp [hsend, SendTaskAt.pending] at hlast
  | goOn _ hfalse => simp [htoken] at hfalse
  | sent => exact ⟨htoken, hsends, .inl rfl⟩
  | stop | abortSend => exact ⟨htoken, hsends, .inr ⟨_, rfl⟩⟩
  | cancel => exact ⟨rfl, hsends, hlast⟩
  | receive => exact ⟨htoken, by simpa [SocketCall.isSend] using hsends, hlast⟩
  | _ => exact ⟨htoken, hsends, hlast⟩

/-- The send task sends once more before it succeeds. -/
structure Owing (n : ℕ) (s : HolePunchCall S) : Prop where
  le : n ≤ sends s.calls
  next : n < sends s.calls ∨
    s.sendTask.pending = false ∧ s.sendTask ≠ .finished (.ok (.ok ()))

lemma Owing.step {n : ℕ} (hs : s.Owing n) (h : Rule peerAddr s a t) : t.Owing n := by
  obtain ⟨hle, hnext⟩ := hs
  have hgrows : n < sends s.calls → n < sends t.calls := fun hlt =>
    hlt.trans_le ((Later.of_rule h).calls.sublist.countP_le)
  have hle' : n ≤ sends t.calls := hle.trans ((Later.of_rule h).calls.sublist.countP_le)
  refine ⟨hle', hnext.elim (fun hlt => .inl (hgrows hlt)) ?_⟩
  rintro ⟨hpending, hrunning⟩
  cases h with
  | send => exact .inl (by simp [SocketCall.isSend]; omega)
  | sent hsend | stop hsend _ | goOn hsend _ => simp [hsend, SendTaskAt.pending] at hpending
  | wake | giveUp | abortSend => exact .inr ⟨rfl, by simp⟩
  | _ => exact .inr ⟨hpending, hrunning⟩

/-- What the send task still does, after the token was cancelled in a step of the run. -/
lemma sends_of_cancels (h : Run (step peerAddr) (init sock) tr s) (hq : q ∈ tr)
    (hcancels : Cancels q) (hsend : s.sendTask = .finished (.ok (.ok ()))) :
    (q.1.sendTask.pending = true → sends s.calls = sends q.1.calls) ∧
      (q.1.sendTask.pending = false → sends q.1.calls < sends s.calls) := by
  obtain ⟨tr₁, tr₂, rfl, hbefore⟩ := h.of_mem hq
  obtain ⟨u, -, hu, hafter⟩ := h.split_cons
  obtain ⟨hread, ha⟩ := hcancels
  rw [ha] at hu
  have hu : u = { q.1 with cancelled := true, readTask := .cancelled } := by
    simpa [HolePunchCall.step, stepReadTask, hread] using hu.symm
  constructor
  · intro hpending
    have hstopping : s.Stopping (sends q.1.calls) :=
      hafter.preserve (I := fun s => s.Stopping (sends q.1.calls))
        (fun _ _ _ hs ha => hs.step (rule_of_step ha)) (hu ▸ ⟨rfl, rfl, .inl hpending⟩)
    exact hstopping.sends
  · intro hpending
    have hsound := sound_run hbefore
    have hrunning : q.1.sendTask ≠ .finished (.ok (.ok ())) := fun hfinished =>
      hsound.listening.not_cancelled (.inr hread) (hsound.ordered.stopped hfinished)
    have howing : s.Owing (sends q.1.calls) :=
      hafter.preserve (I := fun s => s.Owing (sends q.1.calls))
        (fun _ _ _ hs ha => hs.step (rule_of_step ha)) (hu ▸ ⟨le_rfl, .inr ⟨hpending, hrunning⟩⟩)
    exact howing.next.resolve_right fun hs => hs.2 hsend

/-- The punch string is received before the token is cancelled. -/
lemma exists_hears_before (h : Run (step peerAddr) (init sock) tr s) (hq : q ∈ tr)
    (hcancels : Cancels q) : ∃ p ∈ tr, Hears p ∧ p.1.Later q.1 := by
  obtain ⟨tr₁, tr₂, rfl, hbefore⟩ := h.of_mem hq
  obtain ⟨p, hp, hhears⟩ := (traced_run hbefore).matched hcancels.1
  obtain ⟨tr₃, tr₄, rfl, -⟩ := hbefore.of_mem hp
  obtain ⟨u, -, hu, hafter⟩ := hbefore.split_cons
  exact ⟨p, by simp, hhears, (Later.of_step hu).trans (.of_run hafter)⟩

/-- A call that succeeds has sent to the peer after it received the punch string, exactly when the
send task did not stay in a round in which it had sent already. -/
theorem answered_iff (h : Run (step peerAddr) (init sock) tr s)
    (hok : s.caller = .returned (.ok sock')) :
    Answered peerAddr s.calls ↔ ¬ Overtaken tr := by
  have hpast : s.PastSend := by simp [PastSend, hok]
  have hsend := (sound_run h).ordered.past hpast
  have hnumbered : ∀ {p i}, p ∈ tr → p.1.sendTask.HasSent i → sends p.1.calls = i + 1 := by
    intro p i hp hsent
    obtain ⟨_, _, rfl, hbefore⟩ := h.of_mem hp
    exact (numbered_run hbefore).hasSent i hsent
  constructor
  · rintro hanswered ⟨p, hp, q, hq, hhears, hcancels, i, hpsent, hqsent⟩
    have hlt := (answered_iff_sends_lt h hp hhears).mp hanswered
    have hlast := (sends_of_cancels h hq hcancels hsend).1 (SendTaskAt.pending_iff.mpr ⟨i, hqsent⟩)
    rw [hlast, hnumbered hp hpsent, hnumbered hq hqsent] at hlt
    exact lt_irrefl _ hlt
  · intro hovertaken
    obtain ⟨q, hq, hcancels⟩ := (traced_run h).cancelled ((sound_run h).ordered.stopped hsend)
    obtain ⟨p, hp, hhears, hlater⟩ := exists_hears_before h hq hcancels
    rw [answered_iff_sends_lt h hp hhears]
    have hle : sends p.1.calls ≤ sends q.1.calls := hlater.calls.sublist.countP_le
    have hsends := sends_of_cancels h hq hcancels hsend
    cases hqpending : q.1.sendTask.pending with
    | false => exact hle.trans_lt (hsends.2 hqpending)
    | true =>
      rw [hsends.1 hqpending]
      refine hle.lt_of_ne fun heq => hovertaken ⟨p, hp, q, hq, hhears, hcancels, ?_⟩
      -- With the same datagrams behind it, the send task was in this round already.
      have hprogress := hlater.progress
      have hppending : p.1.sendTask.pending = true := by
        by_contra hpending
        simp only [progress, hqpending, hpending, heq, if_true, if_false] at hprogress
        omega
      obtain ⟨i, hqsent⟩ := SendTaskAt.pending_iff.mp hqpending
      obtain ⟨j, hpsent⟩ := SendTaskAt.pending_iff.mp hppending
      have hij : j + 1 = i + 1 := by
        rw [← hnumbered hp hpsent, ← hnumbered hq hqsent, heq]
      obtain rfl := Nat.succ.inj hij
      exact ⟨j, hpsent, hqsent⟩

theorem answered_iff_prompt : ∃ tr s, Run (step ⟨1, 1⟩) (init 7) tr s ∧
    s.caller = .returned (.ok 7) ∧ (Answered ⟨1, 1⟩ s.calls ↔ ¬ Overtaken tr) := by
  have hexec : (exec (step ⟨1, 1⟩) (init 7) promptPeer).map caller =
      some (.returned (.ok 7)) := by decide +kernel
  obtain ⟨s, hs, hcaller⟩ := Option.map_eq_some_iff.mp hexec
  obtain ⟨tr, hrun, -⟩ := run_of_exec hs
  exact ⟨tr, s, hrun, hcaller, answered_iff hrun hcaller⟩

/-- The punch string arrives while the first datagram is sent, and the token is cancelled before the
send task looks at it. -/
def overtaken : List Action :=
  [.sendTask, .received (.ok (punchString, ⟨1, 1⟩)), .readTask, .sent (.ok 12), .sendTask, .caller,
    .readTask, .readTask, .caller, .caller]

theorem peer_unanswered : ¬ ∀ (sock : ℕ) (peerAddr : SocketAddr) tr s sock',
    Run (step peerAddr) (init sock) tr s → s.caller = .returned (.ok sock') →
      Answered peerAddr s.calls := by
  intro h
  have hexec : (exec (step ⟨1, 1⟩) (init 7) overtaken).map (fun s => (s.caller, s.calls)) =
      some (.returned (.ok 7), [.sendTo punchString ⟨1, 1⟩, .recvFrom punchString ⟨1, 1⟩]) := by
    decide +kernel
  obtain ⟨s, hs, heq⟩ := Option.map_eq_some_iff.mp hexec
  obtain ⟨hcaller, hcalls⟩ := Prod.mk.inj heq
  obtain ⟨tr, hrun, -⟩ := run_of_exec hs
  have hanswered := h 7 ⟨1, 1⟩ tr s 7 hrun hcaller
  rw [hcalls] at hanswered
  have hunheard : ¬ Heard [.sendTo punchString ⟨1, 1⟩] := by simp [Heard]
  have hmem := (answered_append_iff hunheard).mp hanswered
  cases hmem

end HolePunchCall

end BearTorrent
