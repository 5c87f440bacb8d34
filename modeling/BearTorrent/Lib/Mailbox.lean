import BearTorrent.Lib.Channel
import BearTorrent.Lib.Transition
import Mathlib.Data.List.AList
import Mathlib.Logic.Function.Basic

/-!
# Mailboxes

Calls that meet through a map from keys to senders. A listening call creates a channel for one
message, puts its sender into the map, where it replaces an earlier one, and waits. A posting call
takes a sender out of the map, looking for it a limited number of times, and sends its message. A
listener fails when its sender is gone. Entries may also be removed from outside.
-/

namespace Mailbox

open Function

variable {κ α : Type*}

/-- How far a listening call has come. -/
inductive Receipt (α : Type*) where
  | waiting
  | received (a : α)
  | closed

/-- A listening call. `held` says that a posting call has taken its sender out of the map. -/
structure Listener (κ α : Type*) where
  key : κ
  channel : Channel α 1
  held : Bool
  state : Receipt α

/-- A listening call that starts. -/
def Listener.new (k : κ) : Listener κ α := ⟨k, .empty, false, .waiting⟩

/-- How far a posting call has come. The listener it has sent to is recorded for the proofs
only. -/
inductive PostState where
  /-- about to look for the sender for the `n`-th time -/
  | trying (n : ℕ)
  /-- waiting after the `n`-th look -/
  | sleeping (n : ℕ)
  /-- about to send -/
  | holding (r : ℕ)
  | sent (r : ℕ)
  /-- there was no sender -/
  | missing
  /-- the listener was gone -/
  | closed
  /-- there was nothing to send -/
  | panicked

/-- A posting call. -/
structure Post (κ α : Type*) where
  key : κ
  message : Option α
  state : PostState

/-- The calls. -/
structure Calls (κ α : Type*) where
  listeners : ℕ → Option (Listener κ α)
  posts : ℕ → Option (Post κ α)

/-- The map of senders, each standing for its listening call, and the calls. -/
structure Office (κ α : Type*) where
  slots : AList fun _ : κ => ℕ
  calls : Calls κ α

namespace Calls

def empty : Calls κ α := ⟨fun _ => none, fun _ => none⟩

/-- Replace a call. -/
def setListener (c : Calls κ α) (i : ℕ) (l : Listener κ α) : Calls κ α :=
  { c with listeners := update c.listeners i (some l) }

def setPost (c : Calls κ α) (i : ℕ) (p : Post κ α) : Calls κ α :=
  { c with posts := update c.posts i (some p) }

end Calls

variable [DecidableEq κ]

namespace Office

/-- Start to listen. -/
def listen (s : Office κ α) (i : ℕ) (k : κ) : Option (Office κ α) :=
  match s.calls.listeners i with
  | some _ => none
  | none   => some ⟨s.slots.insert k i, s.calls.setListener i (.new k)⟩

/-- Take the message, or fail when the channel is empty and its sender gone. -/
def receive (s : Office κ α) (i : ℕ) : Option (Office κ α) :=
  match s.calls.listeners i with
  | none   => none
  | some l =>
    match l.state, l.channel.recv? with
    | .waiting, some (a, channel) =>
      some { s with calls := s.calls.setListener i { l with channel, state := .received a } }
    | .waiting, none =>
      if s.slots.lookup l.key = some i ∨ l.held then none
      else some { s with calls := s.calls.setListener i { l with state := .closed } }
    | _, _ => none

/-- Start to post. -/
def post (s : Office κ α) (i : ℕ) (k : κ) (message : Option α) : Option (Office κ α) :=
  match s.calls.posts i with
  | some _ => none
  | none   => some { s with calls := s.calls.setPost i ⟨k, message, .trying 0⟩ }

/-- Look for a sender. -/
def attempt (s : Office κ α) (i : ℕ) : Option (Office κ α) :=
  match s.calls.posts i with
  | none   => none
  | some p =>
    match p.state with
    | .trying n =>
      match s.slots.lookup p.key with
      | some r =>
        match s.calls.listeners r with
        | none   => none
        | some l =>
          let calls := s.calls.setListener r { l with held := true }
          some ⟨s.slots.erase p.key, calls.setPost i { p with state := .holding r }⟩
      | none => some { s with calls := s.calls.setPost i { p with state := .sleeping n } }
    | _ => none

/-- Go on after a look, of which there are at most `limit`. -/
def wake (s : Office κ α) (limit i : ℕ) : Option (Office κ α) :=
  match s.calls.posts i with
  | none   => none
  | some p =>
    match p.state with
    | .sleeping n =>
      let state := if n + 1 < limit then .trying (n + 1) else .missing
      some { s with calls := s.calls.setPost i { p with state } }
    | _ => none

/-- Send the message, when there is room for it, and drop the sender. -/
def send (s : Office κ α) (i : ℕ) : Option (Office κ α) :=
  match s.calls.posts i with
  | none   => none
  | some p =>
    match p.state with
    | .holding r =>
      match s.calls.listeners r with
      | none   => none
      | some l =>
        match p.message, l.state with
        | none, _ =>
          let calls := s.calls.setListener r { l with held := false }
          some { s with calls := calls.setPost i { p with state := .panicked } }
        | some a, .waiting =>
          (l.channel.send? a).map fun channel =>
            let calls := s.calls.setListener r { l with channel, held := false }
            { s with calls := calls.setPost i { p with state := .sent r } }
        | some _, _ =>
          let calls := s.calls.setListener r { l with held := false }
          some { s with calls := calls.setPost i { p with state := .closed } }
    | _ => none

end Office

inductive Action (κ α : Type*) where
  | listen (i : ℕ) (k : κ)
  | receive (i : ℕ)
  | post (i : ℕ) (k : κ) (message : Option α)
  | attempt (i : ℕ)
  | wake (i : ℕ)
  | send (i : ℕ)

/-- One step of a call. -/
def Office.step (limit : ℕ) (s : Office κ α) : Action κ α → Option (Office κ α)
  | .listen i k       => s.listen i k
  | .receive i        => s.receive i
  | .post i k message => s.post i k message
  | .attempt i        => s.attempt i
  | .wake i           => s.wake limit i
  | .send i           => s.send i

/-! ### What a step can do -/

/-- The effects of the steps, with their guards. -/
inductive Effect (limit : ℕ) (s : Office κ α) : Action κ α → Office κ α → Prop
  | listen {i : ℕ} {k : κ} (hi : s.calls.listeners i = none) :
      Effect limit s (.listen i k) ⟨s.slots.insert k i, s.calls.setListener i (.new k)⟩
  | receive {i : ℕ} {l : Listener κ α} {a : α} {channel : Channel α 1}
      (hi : s.calls.listeners i = some l) (hstate : l.state = .waiting)
      (hqueue : l.channel.queue = a :: channel.queue) :
      Effect limit s (.receive i)
        { s with calls := s.calls.setListener i { l with channel, state := .received a } }
  | fail {i : ℕ} {l : Listener κ α} (hi : s.calls.listeners i = some l)
      (hstate : l.state = .waiting) (hqueue : l.channel.queue = [])
      (hslot : s.slots.lookup l.key ≠ some i) (hheld : l.held = false) :
      Effect limit s (.receive i)
        { s with calls := s.calls.setListener i { l with state := .closed } }
  | post {i : ℕ} {k : κ} {message : Option α} (hi : s.calls.posts i = none) :
      Effect limit s (.post i k message)
        { s with calls := s.calls.setPost i ⟨k, message, .trying 0⟩ }
  | found {i n r : ℕ} {p : Post κ α} {l : Listener κ α} (hi : s.calls.posts i = some p)
      (hstate : p.state = .trying n) (hslot : s.slots.lookup p.key = some r)
      (hr : s.calls.listeners r = some l) :
      Effect limit s (.attempt i)
        ⟨s.slots.erase p.key, (s.calls.setListener r { l with held := true }).setPost i
          { p with state := .holding r }⟩
  | missed {i n : ℕ} {p : Post κ α} (hi : s.calls.posts i = some p)
      (hstate : p.state = .trying n) (hslot : s.slots.lookup p.key = none) :
      Effect limit s (.attempt i)
        { s with calls := s.calls.setPost i { p with state := .sleeping n } }
  | again {i n : ℕ} {p : Post κ α} (hi : s.calls.posts i = some p)
      (hstate : p.state = .sleeping n) (hn : n + 1 < limit) :
      Effect limit s (.wake i)
        { s with calls := s.calls.setPost i { p with state := .trying (n + 1) } }
  | giveUp {i n : ℕ} {p : Post κ α} (hi : s.calls.posts i = some p)
      (hstate : p.state = .sleeping n) (hn : limit ≤ n + 1) :
      Effect limit s (.wake i)
        { s with calls := s.calls.setPost i { p with state := .missing } }
  | send {i r : ℕ} {p : Post κ α} {l : Listener κ α} {a : α} {channel : Channel α 1}
      (hi : s.calls.posts i = some p) (hstate : p.state = .holding r)
      (hr : s.calls.listeners r = some l) (hmessage : p.message = some a)
      (hwaiting : l.state = .waiting) (hqueue : channel.queue = l.channel.queue ++ [a]) :
      Effect limit s (.send i)
        { s with
          calls := (s.calls.setListener r { l with channel, held := false }).setPost i
            { p with state := .sent r } }
  | refused {i r : ℕ} {p : Post κ α} {l : Listener κ α} {a : α}
      (hi : s.calls.posts i = some p) (hstate : p.state = .holding r)
      (hr : s.calls.listeners r = some l) (hmessage : p.message = some a)
      (hwaiting : l.state ≠ .waiting) :
      Effect limit s (.send i)
        { s with
          calls := (s.calls.setListener r { l with held := false }).setPost i
            { p with state := .closed } }
  | panic {i r : ℕ} {p : Post κ α} {l : Listener κ α} (hi : s.calls.posts i = some p)
      (hstate : p.state = .holding r) (hr : s.calls.listeners r = some l)
      (hmessage : p.message = none) :
      Effect limit s (.send i)
        { s with
          calls := (s.calls.setListener r { l with held := false }).setPost i
            { p with state := .panicked } }

namespace Office

variable {limit : ℕ} {s t : Office κ α}

lemma effect_of_receive {i : ℕ} (h : s.receive i = some t) : Effect limit s (.receive i) t := by
  unfold receive at h
  split at h
  · cases h
  · rename_i l hi
    split at h
    · rename_i a channel hstate hrecv
      cases h
      exact .receive hi hstate (Channel.recv?_eq_some.mp hrecv)
    · rename_i hstate hrecv
      split_ifs at h with halive
      cases h
      rw [not_or, Bool.not_eq_true] at halive
      exact .fail hi hstate (Channel.recv?_eq_none.mp hrecv) halive.1 halive.2
    · cases h

lemma effect_of_attempt {i : ℕ} (h : s.attempt i = some t) : Effect limit s (.attempt i) t := by
  unfold attempt at h
  split at h
  · cases h
  · rename_i p hi
    split at h
    · rename_i n hstate
      split at h
      · rename_i r hslot
        split at h
        · cases h
        · rename_i l hr
          cases h
          exact .found hi hstate hslot hr
      · rename_i hslot
        cases h
        exact .missed hi hstate hslot
    · cases h

lemma effect_of_send {i : ℕ} (h : s.send i = some t) : Effect limit s (.send i) t := by
  unfold send at h
  split at h
  · cases h
  · rename_i p hi
    split at h
    · rename_i r hstate
      split at h
      · cases h
      · rename_i l hr
        split at h
        · rename_i hmessage
          cases h
          exact .panic hi hstate hr hmessage
        · rename_i a hmessage hwaiting
          obtain ⟨channel, hsend, rfl⟩ := Option.map_eq_some_iff.mp h
          exact .send hi hstate hr hmessage hwaiting (Channel.send?_eq_some.mp hsend).2
        · rename_i a hmessage hwaiting
          cases h
          exact .refused hi hstate hr hmessage hwaiting
    · cases h

/-- All that a step can do. -/
lemma effect_of_step {a : Action κ α} (h : s.step limit a = some t) : Effect limit s a t := by
  cases a with
  | listen i k =>
    simp only [step, listen] at h
    split at h
    · cases h
    · rename_i hi
      cases h
      exact .listen hi
  | receive i => exact effect_of_receive h
  | post i k message =>
    simp only [step, post] at h
    split at h
    · cases h
    · rename_i hi
      cases h
      exact .post hi
  | attempt i => exact effect_of_attempt h
  | wake i =>
    simp only [step, wake] at h
    split at h
    · cases h
    · rename_i p hi
      split at h
      · rename_i n hstate
        cases h
        by_cases hn : n + 1 < limit
        · simp only [hn, if_true]
          exact .again hi hstate hn
        · simp only [hn, if_false]
          exact .giveUp hi hstate (Nat.not_lt.mp hn)
      · cases h
  | send i => exact effect_of_send h

end Office

/-! ### Pairing -/

/-- The listener waits and nothing was sent to it. -/
def Listener.Empty (l : Listener κ α) : Prop := l.state = .waiting ∧ l.channel.queue = []

/-- The listener has received the message, or waits and finds it in its channel. -/
def Listener.Has (l : Listener κ α) (a : α) : Prop :=
  l.state = .received a ∨ l.state = .waiting ∧ l.channel.queue = [a]

/-- The listener whose sender the call has taken. -/
def Post.target (p : Post κ α) : Option ℕ :=
  match p.state with
  | .holding r => some r
  | .sent r    => some r
  | _          => none

omit [DecidableEq κ] in
lemma Listener.Has.not_empty {l : Listener κ α} {a : α} (h : l.Has a) : ¬ l.Empty := by
  rintro ⟨hstate, hqueue⟩
  rcases h with h | ⟨-, h⟩
  · rw [hstate] at h
    cases h
  · rw [hqueue] at h
    cases h

/-- Who has whose sender: the senders in the map and those taken are all different, and a message
is only with the listener whose sender was taken to send it. -/
structure Sound (s : Office κ α) : Prop where
  slot : ∀ k r, s.slots.lookup k = some r →
    ∃ l, s.calls.listeners r = some l ∧ l.key = k ∧ l.held = false ∧ l.Empty
  holding : ∀ i p r, s.calls.posts i = some p → p.state = .holding r →
    ∃ l, s.calls.listeners r = some l ∧ l.key = p.key ∧ l.held = true ∧ l.Empty
  sent : ∀ i p r, s.calls.posts i = some p → p.state = .sent r →
    ∃ l a, s.calls.listeners r = some l ∧ l.key = p.key ∧ p.message = some a ∧ l.Has a
  unique : ∀ i j p q r, s.calls.posts i = some p → s.calls.posts j = some q →
    p.target = some r → q.target = some r → i = j
  origin : ∀ r l a, s.calls.listeners r = some l → l.Has a →
    ∃ i p, s.calls.posts i = some p ∧ p.state = .sent r ∧ p.message = some a
  notClosed : ∀ i p, s.calls.posts i = some p → p.state ≠ .closed

namespace Sound

variable {limit : ℕ} {s t : Office κ α}

lemma empty : Sound (⟨∅, .empty⟩ : Office κ α) := by
  constructor
  · intro k r hr
    cases hr
  · intro i p r hi
    cases hi
  · intro i p r hi
    cases hi
  · intro i j p q r hi
    cases hi
  · intro r l a hr
    cases hr
  · intro i p hi
    cases hi

/-- Entries may be removed from the map. -/
lemma removed (hs : Sound s) {slots : AList fun _ : κ => ℕ}
    (hslots : ∀ k r, slots.lookup k = some r → s.slots.lookup k = some r) :
    Sound { s with slots } :=
  ⟨fun k r hr => hs.slot k r (hslots k r hr), hs.holding, hs.sent, hs.unique, hs.origin,
    hs.notClosed⟩

/-- A call whose sender was taken is not in the map. -/
lemma target_ne (hs : Sound s) {i r : ℕ} {p : Post κ α} {k : κ} (hi : s.calls.posts i = some p)
    (htarget : p.target = some r) : s.slots.lookup k ≠ some r := by
  intro hk
  obtain ⟨l, hl, -, hheld, hempty⟩ := hs.slot k r hk
  unfold Post.target at htarget
  split at htarget
  · rename_i hstate
    cases htarget
    obtain ⟨l', hl', -, hheld', -⟩ := hs.holding i p r hi hstate
    cases hl.symm.trans hl'
    rw [hheld] at hheld'
    cases hheld'
  · rename_i hstate
    cases htarget
    obtain ⟨l', a, hl', -, -, hhas⟩ := hs.sent i p r hi hstate
    cases hl.symm.trans hl'
    exact hhas.not_empty hempty
  · cases htarget

/-- A posting call that has taken no sender may change its state. -/
lemma setPost (hs : Sound s) {i : ℕ} {p' : Post κ α}
    (hold : ∀ p, s.calls.posts i = some p → p.target = none) (hnew : p'.target = none)
    (hclosed : p'.state ≠ .closed) : Sound { s with calls := s.calls.setPost i p' } := by
  have hpost : ∀ {j q}, (s.calls.setPost i p').posts j = some q →
      q = p' ∨ j ≠ i ∧ s.calls.posts j = some q := by
    intro j q hj
    simp only [Calls.setPost, update_apply] at hj
    split_ifs at hj with hji
    · exact .inl (Option.some.inj hj).symm
    · exact .inr ⟨hji, hj⟩
  constructor
  · exact hs.slot
  · intro j q r hj hstate
    rcases hpost hj with rfl | ⟨-, hj⟩
    · simp [Post.target, hstate] at hnew
    · exact hs.holding j q r hj hstate
  · intro j q r hj hstate
    rcases hpost hj with rfl | ⟨-, hj⟩
    · simp [Post.target, hstate] at hnew
    · exact hs.sent j q r hj hstate
  · intro j k q q' r hj hk hq hq'
    rcases hpost hj with rfl | ⟨-, hj⟩
    · cases hnew.symm.trans hq
    · rcases hpost hk with rfl | ⟨-, hk⟩
      · cases hnew.symm.trans hq'
      · exact hs.unique j k q q' r hj hk hq hq'
  · intro r l a hr hhas
    obtain ⟨j, q, hj, hsent, hmessage⟩ := hs.origin r l a hr hhas
    refine ⟨j, q, ?_, hsent, hmessage⟩
    have hji : j ≠ i := by
      rintro rfl
      have := hold q hj
      simp [Post.target, hsent] at this
    simp only [Calls.setPost, update_of_ne hji, hj]
  · intro j q hj
    rcases hpost hj with rfl | ⟨-, hj⟩
    · exact hclosed
    · exact hs.notClosed j q hj

/-- A listener may change its state as long as it has the same message and stays empty while its
sender is still there. -/
lemma setListener (hs : Sound s) {i : ℕ} {l l' : Listener κ α}
    (hi : s.calls.listeners i = some l) (hkey : l'.key = l.key) (hheld : l'.held = l.held)
    (hhas : ∀ a, l'.Has a ↔ l.Has a)
    (hempty : s.slots.lookup l.key = some i ∨ l.held = true → l.Empty → l'.Empty) :
    Sound { s with calls := s.calls.setListener i l' } := by
  have hlistener : ∀ {r m}, s.calls.listeners r = some m →
      r = i ∧ m = l ∧ (s.calls.setListener i l').listeners r = some l' ∨
        (s.calls.setListener i l').listeners r = some m := by
    intro r m hr
    simp only [Calls.setListener, update_apply]
    split_ifs with hri
    · subst hri
      exact .inl ⟨rfl, Option.some.inj (hr.symm.trans hi), rfl⟩
    · exact .inr hr
  constructor
  · intro k r hr
    obtain ⟨m, hm, hk, hfree, he⟩ := hs.slot k r hr
    rcases hlistener hm with ⟨rfl, rfl, hm'⟩ | hm'
    · exact ⟨l', hm', hkey.trans hk, hheld.trans hfree, hempty (.inl (hk ▸ hr)) he⟩
    · exact ⟨m, hm', hk, hfree, he⟩
  · intro j p r hj hstate
    obtain ⟨m, hm, hk, htaken, he⟩ := hs.holding j p r hj hstate
    rcases hlistener hm with ⟨rfl, rfl, hm'⟩ | hm'
    · exact ⟨l', hm', hkey.trans hk, hheld.trans htaken, hempty (.inr htaken) he⟩
    · exact ⟨m, hm', hk, htaken, he⟩
  · intro j p r hj hstate
    obtain ⟨m, a, hm, hk, hmessage, hma⟩ := hs.sent j p r hj hstate
    rcases hlistener hm with ⟨rfl, rfl, hm'⟩ | hm'
    · exact ⟨l', a, hm', hkey.trans hk, hmessage, (hhas a).mpr hma⟩
    · exact ⟨m, a, hm', hk, hmessage, hma⟩
  · exact hs.unique
  · intro r m a hr hma
    simp only [Calls.setListener, update_apply] at hr
    split_ifs at hr with hri
    · subst hri
      cases hr
      exact hs.origin r l a hi ((hhas a).mp hma)
    · exact hs.origin r m a hr hma
  · exact hs.notClosed

/-- A new listener replaces the sender under its key. -/
lemma listen (hs : Sound s) {i : ℕ} {k : κ} (hi : s.calls.listeners i = none) :
    Sound ⟨s.slots.insert k i, s.calls.setListener i (.new k)⟩ := by
  have hlistener : ∀ {r m}, s.calls.listeners r = some m →
      (s.calls.setListener i (.new k)).listeners r = some m := by
    intro r m hr
    have hri : r ≠ i := by
      rintro rfl
      cases hi.symm.trans hr
    simp only [Calls.setListener, update_of_ne hri, hr]
  constructor
  · intro k' r hr
    by_cases hk : k' = k
    · subst hk
      rw [AList.lookup_insert] at hr
      obtain rfl := Option.some.inj hr
      exact ⟨.new k', update_self .., rfl, rfl, rfl, rfl⟩
    · rw [AList.lookup_insert_ne hk] at hr
      obtain ⟨m, hm, hrest⟩ := hs.slot k' r hr
      exact ⟨m, hlistener hm, hrest⟩
  · intro j p r hj hstate
    obtain ⟨m, hm, hrest⟩ := hs.holding j p r hj hstate
    exact ⟨m, hlistener hm, hrest⟩
  · intro j p r hj hstate
    obtain ⟨m, a, hm, hrest⟩ := hs.sent j p r hj hstate
    exact ⟨m, a, hlistener hm, hrest⟩
  · exact hs.unique
  · intro r m a hr hma
    simp only [Calls.setListener, update_apply] at hr
    split_ifs at hr with hri
    · cases hr
      exact absurd ⟨rfl, rfl⟩ hma.not_empty
    · exact hs.origin r m a hr hma
  · exact hs.notClosed

/-- A posting call takes the sender under its key. -/
lemma take (hs : Sound s) {i r : ℕ} {p p' : Post κ α} {l : Listener κ α}
    (hi : s.calls.posts i = some p) (htarget : p.target = none)
    (hslot : s.slots.lookup p.key = some r) (hr : s.calls.listeners r = some l)
    (hkey : p'.key = p.key) (hstate' : p'.state = .holding r) :
    Sound ⟨s.slots.erase p.key, (s.calls.setListener r { l with held := true }).setPost i p'⟩ := by
  obtain ⟨l₀, hl₀, hlkey, -, hempty⟩ := hs.slot p.key r hslot
  cases hl₀.symm.trans hr
  have hpost : ∀ {j q}, update s.calls.posts i (some p') j = some q →
      j = i ∧ q = p' ∨ s.calls.posts j = some q := by
    intro j q hj
    rw [update_apply] at hj
    split_ifs at hj with hji
    · exact .inl ⟨hji, (Option.some.inj hj).symm⟩
    · exact .inr hj
  have hother : ∀ {k m}, k ≠ r → s.calls.listeners k = some m →
      update s.calls.listeners r (some { l with held := true }) k = some m := by
    intro k m hk hm
    rw [update_of_ne hk, hm]
  have hfree : ∀ {j q k}, s.calls.posts j = some q → q.target = some k → k ≠ r := by
    rintro j q k hj hk rfl
    exact hs.target_ne hj hk hslot
  constructor
  · intro k r' hr'
    have hk : k ≠ p.key := by
      rintro rfl
      rw [AList.lookup_erase] at hr'
      cases hr'
    rw [AList.lookup_erase_ne hk] at hr'
    obtain ⟨m, hm, hmkey, hrest⟩ := hs.slot k r' hr'
    refine ⟨m, hother ?_ hm, hmkey, hrest⟩
    rintro rfl
    cases hm.symm.trans hr
    exact hk (hmkey.symm.trans hlkey)
  · intro j q r' hj hstate
    rcases hpost hj with ⟨rfl, rfl⟩ | hj
    · cases hstate'.symm.trans hstate
      exact ⟨_, update_self .., hlkey.trans hkey.symm, rfl, hempty⟩
    · obtain ⟨m, hm, hrest⟩ := hs.holding j q r' hj hstate
      exact ⟨m, hother (hfree hj (by rw [Post.target, hstate])) hm, hrest⟩
  · intro j q r' hj hstate
    rcases hpost hj with ⟨rfl, rfl⟩ | hj
    · cases hstate'.symm.trans hstate
    · obtain ⟨m, a, hm, hrest⟩ := hs.sent j q r' hj hstate
      exact ⟨m, a, hother (hfree hj (by rw [Post.target, hstate])) hm, hrest⟩
  · have hp' : p'.target = some r := by rw [Post.target, hstate']
    intro j k q q' r' hj hk hq hq'
    rcases hpost hj with ⟨rfl, rfl⟩ | hj'
    · rcases hpost hk with ⟨rfl, rfl⟩ | hk'
      · rfl
      · exact absurd (Option.some.inj (hp'.symm.trans hq)).symm (hfree hk' hq')
    · rcases hpost hk with ⟨rfl, rfl⟩ | hk'
      · exact absurd (Option.some.inj (hp'.symm.trans hq')).symm (hfree hj' hq)
      · exact hs.unique j k q q' r' hj' hk' hq hq'
  · intro r' m a hm hma
    have hr' : r' ≠ r := by
      rintro rfl
      cases (update_self ..).symm.trans hm
      exact hma.not_empty hempty
    obtain ⟨j, q, hj, hsent, hmessage⟩ :=
      hs.origin r' m a ((update_of_ne hr' _ _).symm.trans hm) hma
    refine ⟨j, q, ?_, hsent, hmessage⟩
    have hji : j ≠ i := by
      rintro rfl
      cases hj.symm.trans hi
      simp [Post.target, hsent] at htarget
    simp only [Calls.setPost, update_of_ne hji, Calls.setListener, hj]
  · intro j q hj
    rcases hpost hj with ⟨rfl, rfl⟩ | hj
    · rw [hstate']
      simp
    · exact hs.notClosed j q hj

/-- A posting call lets go of its sender: it has sent its message, or has none. -/
lemma release (hs : Sound s) {i r : ℕ} {p p' : Post κ α} {l l' : Listener κ α}
    (hi : s.calls.posts i = some p) (hstate : p.state = .holding r)
    (hr : s.calls.listeners r = some l) (hlkey : l'.key = l.key) (hkey : p'.key = p.key)
    (htarget : ∀ k, p'.target = some k → p'.state = .sent r)
    (hsent : p'.state = .sent r → ∃ a, p'.message = some a ∧ l'.Has a)
    (hhas : ∀ a, l'.Has a → p'.state = .sent r ∧ p'.message = some a)
    (hclosed : p'.state ≠ .closed) :
    Sound { s with calls := (s.calls.setListener r l').setPost i p' } := by
  obtain ⟨l₀, hl₀, hl₀key, hheld, hempty⟩ := hs.holding i p r hi hstate
  cases hl₀.symm.trans hr
  have hp : p.target = some r := by rw [Post.target, hstate]
  have hpost : ∀ {j q}, update s.calls.posts i (some p') j = some q →
      j = i ∧ q = p' ∨ j ≠ i ∧ s.calls.posts j = some q := by
    intro j q hj
    rw [update_apply] at hj
    split_ifs at hj with hji
    · exact .inl ⟨hji, (Option.some.inj hj).symm⟩
    · exact .inr ⟨hji, hj⟩
  have hother : ∀ {k m}, k ≠ r → s.calls.listeners k = some m →
      update s.calls.listeners r (some l') k = some m := by
    intro k m hk hm
    rw [update_of_ne hk, hm]
  have hfree : ∀ {j q k}, j ≠ i → s.calls.posts j = some q → q.target = some k → k ≠ r := by
    rintro j q k hji hj hk rfl
    exact hji (hs.unique j i q p k hj hi hk hp)
  have hp' : ∀ {k}, p'.target = some k → k = r := by
    intro k hk
    have := htarget k hk
    rw [Post.target, this] at hk
    exact (Option.some.inj hk).symm
  constructor
  · intro k r' hr'
    obtain ⟨m, hm, hrest⟩ := hs.slot k r' hr'
    refine ⟨m, hother ?_ hm, hrest⟩
    rintro rfl
    exact hs.target_ne hi hp hr'
  · intro j q r' hj hq
    rcases hpost hj with ⟨rfl, rfl⟩ | ⟨hji, hj⟩
    · have := htarget r' (by rw [Post.target, hq])
      rw [hq] at this
      cases this
    · obtain ⟨m, hm, hrest⟩ := hs.holding j q r' hj hq
      exact ⟨m, hother (hfree hji hj (by rw [Post.target, hq])) hm, hrest⟩
  · intro j q r' hj hq
    rcases hpost hj with ⟨rfl, rfl⟩ | ⟨hji, hj⟩
    · obtain rfl := hp' (by rw [Post.target, hq])
      obtain ⟨a, hmessage, hla⟩ := hsent hq
      exact ⟨l', a, update_self .., hlkey.trans (hl₀key.trans hkey.symm), hmessage, hla⟩
    · obtain ⟨m, a, hm, hrest⟩ := hs.sent j q r' hj hq
      exact ⟨m, a, hother (hfree hji hj (by rw [Post.target, hq])) hm, hrest⟩
  · intro j k q q' r' hj hk hq hq'
    rcases hpost hj with ⟨rfl, rfl⟩ | ⟨hji, hj'⟩
    · rcases hpost hk with ⟨rfl, rfl⟩ | ⟨hki, hk'⟩
      · rfl
      · exact absurd (hp' hq) (hfree hki hk' hq')
    · rcases hpost hk with ⟨rfl, rfl⟩ | ⟨hki, hk'⟩
      · exact absurd (hp' hq') (hfree hji hj' hq)
      · exact hs.unique j k q q' r' hj' hk' hq hq'
  · intro r' m a hm hma
    by_cases hr' : r' = r
    · subst hr'
      cases (update_self ..).symm.trans hm
      obtain ⟨hst, hmessage⟩ := hhas a hma
      exact ⟨i, p', update_self .., hst, hmessage⟩
    · obtain ⟨j, q, hj, hq, hmessage⟩ :=
        hs.origin r' m a ((update_of_ne hr' _ _).symm.trans hm) hma
      refine ⟨j, q, ?_, hq, hmessage⟩
      have hji : j ≠ i := by
        rintro rfl
        cases hj.symm.trans hi
        cases hstate.symm.trans hq
      simp only [Calls.setPost, update_of_ne hji, Calls.setListener, hj]
  · intro j q hj
    rcases hpost hj with ⟨rfl, rfl⟩ | ⟨-, hj⟩
    · exact hclosed
    · exact hs.notClosed j q hj

/-- Every step preserves who has whose sender. -/
lemma step {a : Action κ α} (hs : Sound s) (h : Effect limit s a t) : Sound t := by
  cases h with
  | listen hi => exact hs.listen hi
  | @receive i l a channel hi hstate hqueue =>
    have hnil : channel.queue = [] := by
      have hbound := l.channel.bounded
      rw [hqueue] at hbound
      exact List.length_eq_zero_iff.mp (Nat.le_zero.mp (Nat.le_of_succ_le_succ hbound))
    refine hs.setListener hi rfl rfl (fun b => ?_) fun _ hempty => ?_
    · simp [Listener.Has, hstate, hqueue, hnil]
    · rw [hempty.2] at hqueue
      cases hqueue
  | fail hi hstate hqueue hslot hheld =>
    refine hs.setListener hi rfl rfl (fun b => ?_) fun halive => ?_
    · simp [Listener.Has, hstate, hqueue]
    · rcases halive with halive | halive
      · exact absurd halive hslot
      · rw [hheld] at halive
        cases halive
  | post hi => exact hs.setPost (fun p hp => by cases hi.symm.trans hp) rfl (by simp)
  | @found i n r p l hi hstate hslot hr =>
    exact hs.take hi (by rw [Post.target, hstate]) hslot hr rfl rfl
  | @missed i n p hi hstate =>
    refine hs.setPost (fun q hq => ?_) rfl (by simp)
    cases hi.symm.trans hq
    rw [Post.target, hstate]
  | @again i n p hi hstate =>
    refine hs.setPost (fun q hq => ?_) rfl (by simp)
    cases hi.symm.trans hq
    rw [Post.target, hstate]
  | @giveUp i n p hi hstate =>
    refine hs.setPost (fun q hq => ?_) rfl (by simp)
    cases hi.symm.trans hq
    rw [Post.target, hstate]
  | @send i r p l a channel hi hstate hr hmessage hwaiting hqueue =>
    obtain ⟨l₀, hl₀, -, -, hempty⟩ := hs.holding i p r hi hstate
    cases hl₀.symm.trans hr
    have hnew : channel.queue = [a] := by rw [hqueue, hempty.2]; rfl
    refine hs.release hi hstate hr rfl rfl (fun _ _ => rfl)
      (fun _ => ⟨a, hmessage, .inr ⟨hwaiting, hnew⟩⟩) (fun b hb => ⟨rfl, ?_⟩) (by simp)
    rcases hb with hb | ⟨-, hb⟩
    · cases hwaiting.symm.trans hb
    · cases hnew.symm.trans hb
      exact hmessage
  | @refused i r p l a hi hstate hr hmessage hwaiting =>
    obtain ⟨l₀, hl₀, -, -, hempty⟩ := hs.holding i p r hi hstate
    cases hl₀.symm.trans hr
    exact absurd hempty.1 hwaiting
  | @panic i r p l hi hstate hr hmessage =>
    obtain ⟨l₀, hl₀, -, -, hempty⟩ := hs.holding i p r hi hstate
    cases hl₀.symm.trans hr
    refine hs.release hi hstate hr rfl rfl (fun _ hk => by cases hk) (fun hsent => by cases hsent)
      (fun b hb => absurd hempty (Listener.Has.not_empty hb)) (by simp)

end Sound

/-! ### A posting call that is not interrupted -/

/-- A step of the posting call `i`. -/
def Action.Posts (i : ℕ) : Action κ α → Prop
  | .post j _ _ => j = i
  | .attempt j  => j = i
  | .wake j     => j = i
  | .send j     => j = i
  | _           => False

namespace Office

open Transition

variable {limit : ℕ} {s : Office κ α} {i : ℕ} {k : κ} {message : Option α}

/-- Nothing is removed under a key that has no sender. -/
lemma erase_eq_self {slots : AList fun _ : κ => ℕ} (h : slots.lookup k = none) :
    slots.erase k = slots :=
  AList.ext (List.kerase_of_notMem_keys (AList.lookup_eq_none.mp h))

/-- The office with the posting call in a state of its own. -/
def posting (s : Office κ α) (i : ℕ) (k : κ) (message : Option α) (state : PostState) :
    Office κ α :=
  { s with calls := s.calls.setPost i ⟨k, message, state⟩ }

omit [DecidableEq κ] in
lemma posts_posting (state : PostState) :
    (s.posting i k message state).calls.posts i = some ⟨k, message, state⟩ :=
  update_self _ _ _

omit [DecidableEq κ] in
lemma posting_posting (state state' : PostState) :
    (s.posting i k message state).posting i k message state' = s.posting i k message state' := by
  simp [posting, Calls.setPost]

/-- One step of the call. -/
lemma reaches_posting {t : Office κ α} {a : Action κ α} {state state' : PostState}
    (h : Reaches (step limit) (Action.Posts i) t (s.posting i k message state))
    (ha : (s.posting i k message state).step limit a =
      some ((s.posting i k message state).posting i k message state'))
    (hi : a.Posts i) : Reaches (step limit) (Action.Posts i) t (s.posting i k message state') := by
  rw [posting_posting] at ha
  exact h.tail ha hi

/-- A look that finds no sender, and the wait after it. -/
lemma reaches_look (hslot : s.slots.lookup k = none) {t : Office κ α} {n : ℕ}
    (h : Reaches (step limit) (Action.Posts i) t (s.posting i k message (.trying n))) :
    Reaches (step limit) (Action.Posts i) t
      (s.posting i k message (if n + 1 < limit then .trying (n + 1) else .missing)) := by
  have hslot' : (s.posting i k message (.trying n)).slots.lookup k = none := hslot
  have hsleep : Reaches (step limit) (Action.Posts i) t (s.posting i k message (.sleeping n)) := by
    refine reaches_posting h (a := .attempt i) ?_ rfl
    simp only [step, attempt, posts_posting, hslot']
    rfl
  refine reaches_posting hsleep (a := .wake i) ?_ rfl
  simp only [step, wake, posts_posting]
  rfl

/-- A call that finds no sender looks until it gives up. -/
lemma reaches_missing (hslot : s.slots.lookup k = none) {t : Office κ α} {n rest : ℕ}
    (hlimit : n + rest + 1 = limit)
    (h : Reaches (step limit) (Action.Posts i) t (s.posting i k message (.trying n))) :
    Reaches (step limit) (Action.Posts i) t (s.posting i k message .missing) := by
  induction rest generalizing n with
  | zero =>
    have hlook := reaches_look hslot h
    rwa [if_neg (by omega)] at hlook
  | succ rest ih =>
    have hlook := reaches_look hslot h
    rw [if_pos (by omega)] at hlook
    exact ih (by omega) hlook

/-- The state in which a posting call ends that is not interrupted. -/
def postedAlone (s : Office κ α) (k : κ) (message : Option α) : PostState :=
  match s.slots.lookup k, message with
  | none, _        => .missing
  | some _, none   => .panicked
  | some r, some _ => .sent r

/-- A posting call that is not interrupted takes the sender under its key, if there is one, and
sends its message, if there is one. -/
lemma reaches_post (hs : Sound s) (hi : s.calls.posts i = none) {limit : ℕ} (hlimit : 0 < limit)
    (k : κ) (message : Option α) :
    ∃ t, Reaches (step limit) (Action.Posts i) s t ∧ t.slots = s.slots.erase k ∧
      t.calls.posts i = some ⟨k, message, s.postedAlone k message⟩ := by
  have hpost : Reaches (step limit) (Action.Posts i) s (s.posting i k message (.trying 0)) := by
    refine .single (a := .post i k message) ?_ rfl
    simp only [step, post, hi]
    rfl
  cases hslot : s.slots.lookup k with
  | none =>
    have hend : s.postedAlone k message = .missing := by simp only [postedAlone, hslot]
    rw [hend]
    have hmissing := reaches_missing hslot (show 0 + (limit - 1) + 1 = limit by omega) hpost
    refine ⟨_, hmissing, ?_, posts_posting _⟩
    exact (erase_eq_self hslot).symm
  | some r =>
    obtain ⟨l, hr, -, -, hstate, hqueue⟩ := hs.slot k r hslot
    have hslot' : (s.posting i k message (.trying 0)).slots.lookup k = some r := hslot
    have hr' : (s.posting i k message (.trying 0)).calls.listeners r = some l := hr
    obtain ⟨u, hu, hslots, hposts, hlisteners⟩ : ∃ u,
        (s.posting i k message (.trying 0)).step limit (.attempt i) = some u ∧
        u.slots = s.slots.erase k ∧ u.calls.posts i = some ⟨k, message, .holding r⟩ ∧
        u.calls.listeners r = some { l with held := true } := by
      refine ⟨_, by simp only [step, attempt, posts_posting, hslot', hr']; rfl, rfl, ?_, ?_⟩
      · exact update_self _ _ _
      · exact update_self _ _ _
    have htaken := hpost.tail hu (rfl : Action.Posts i (.attempt i))
    cases message with
    | none =>
      have hend : s.postedAlone k (none : Option α) = .panicked := by simp only [postedAlone, hslot]
      have hpanic : u.step limit (.send i) = some { u with
          calls := (u.calls.setListener r { l with held := false }).setPost i
            ⟨k, none, .panicked⟩ } := by
        simp only [step, send, hposts, hlisteners]
      rw [hend]
      exact ⟨_, htaken.tail hpanic rfl, hslots, update_self _ _ _⟩
    | some a =>
      have hend : s.postedAlone k (some a) = .sent r := by simp only [postedAlone, hslot]
      obtain ⟨channel, hsend, -⟩ := Channel.exists_send? (c := l.channel) a (by simp [hqueue])
      have hsent : u.step limit (.send i) = some { u with
          calls := (u.calls.setListener r { l with channel, held := false }).setPost i
            ⟨k, some a, .sent r⟩ } := by
        simp only [step, send, hposts, hlisteners, hstate, hsend, Option.map_some]
      rw [hend]
      exact ⟨_, htaken.tail hsent rfl, hslots, update_self _ _ _⟩

end Office

end Mailbox
