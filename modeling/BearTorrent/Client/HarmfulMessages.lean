import BearTorrent.Client.Reassembly
import BearTorrent.Lib.Transition

/-!
# What one message does to a download

The fields of a message come from another client. `reassemble_loop` uses them as a position in
`request_txs`, as the number of a piece, as an offset into the file and as a position in the
status. Each use has a check of its own or none, and a check that fails ends the loop for all
connections.
-/

namespace BearTorrent

open Patch Transition

/-! ### Runs of a download -/

/-- A download and the number of connections that have subscribed to it. -/
structure JoinedDownload where
  state : DownloadState
  subscribed : ℕ

/-- What happens to a download: a connection subscribes, a message is delivered, while the channel
to `send_requests` is open or not, or the files are changed from elsewhere. -/
inductive JoinedAction where
  | subscribe
  | deliver (msg : Message) (resendOpen : Bool)
  | changeFiles (store : Store)

namespace JoinedDownload

/-- A download that `file_request` begins for `numConnections` connections. -/
def start (h : InfoHash) (numConnections : ℕ) (σ : Store) : JoinedDownload :=
  ⟨⟨σ, .running ⟨h, numConnections, []⟩⟩, 0⟩

/-- The loop that runs gets a sender of the next connection. -/
def subscribe (numConnections : ℕ) (s : JoinedDownload) : Option JoinedDownload :=
  match s.state.loop with
  | .running a =>
    if s.subscribed < numConnections then
      let a := { a with requestTxs := a.requestTxs ++ [s.subscribed] }
      some ⟨{ s.state with loop := .running a }, s.subscribed + 1⟩
    else none
  | _ => none

/-- One step of a download. -/
def step (env : Env) (h : InfoHash) (numConnections : ℕ) (s : JoinedDownload) :
    JoinedAction → Option JoinedDownload
  | .subscribe              => s.subscribe numConnections
  | .deliver msg resendOpen =>
    some { s with state := s.state.step env h (.deliver msg resendOpen) }
  | .changeFiles store      => some { s with state := { s.state with store } }

end JoinedDownload

variable {env : Env} {h : InfoHash} {σ : Store} {a : FileAssembler} {seeder index : UInt32}
  {piece : Bytes} {resendOpen : Bool}

/-- What the `Cancel` branch does when no more connections are registered than counted. -/
lemma cancelConnection_eq (hle : a.requestTxs.length ≤ a.numConnections) :
    cancelConnection env resendOpen a seeder =
      if seeder.toNat < a.requestTxs.length then
        if a.numConnections = 1 then .error failedToRetrieve
        else (sendResend resendOpen).map fun _ =>
          { a with
            requestTxs := a.requestTxs.eraseIdx seeder.toNat
            numConnections := a.numConnections - 1 }
      else .error .panic := by
  rw [cancelConnection, FileAssembler.removeRequestTx]
  split_ifs with hseeder hone
  · simp [FileAssembler.decrementConnections, subUsize, hone, bind, Except.bind]
    rfl
  · have hpos : 1 ≤ a.numConnections := by omega
    have hne : a.numConnections - 1 ≠ 0 := by omega
    simp only [FileAssembler.decrementConnections, subUsize_of_le env hpos, bind, Except.bind,
      pure, Except.pure, if_neg hne]
    cases sendResend resendOpen <;> rfl
  · rfl

/-- The loop after a round with this result. -/
def LoopState.after : Except Fault LoopState → LoopState
  | .ok loop     => loop
  | .error fault => .failed fault

/-- A message that is delivered to a running loop. -/
lemma step_deliver {D : DownloadState} (hloop : D.loop = .running a) (msg : Message) :
    (D.step env h (.deliver msg resendOpen)).loop
      = .after (runOn (reassembleMessage env resendOpen a msg) D.store).1 := by
  simp only [DownloadState.step, hloop]
  rcases runOn (reassembleMessage env resendOpen a msg) D.store with ⟨fault | loop, store⟩
  · rfl
  · rfl

lemma step_cancel {D : DownloadState} (hloop : D.loop = .running a)
    (hle : a.requestTxs.length ≤ a.numConnections) (begin length : UInt32) :
    (D.step env h (.deliver (.cancel seeder index begin length) resendOpen)).loop =
      if seeder.toNat < a.requestTxs.length then
        if a.numConnections = 1 then .failed failedToRetrieve
        else if resendOpen = true then .running
          { a with
            requestTxs := a.requestTxs.eraseIdx seeder.toNat
            numConnections := a.numConnections - 1 }
        else .failed sendError
      else .failed .panic := by
  rw [step_deliver hloop, reassembleMessage, runOn_bind, runOn_ofExcept, cancelConnection_eq hle]
  split_ifs with hseeder hone hopen
  · rfl
  · rw [hopen]
    rfl
  · rw [Bool.not_eq_true] at hopen
    rw [hopen]
    rfl
  · rfl

/-- A message that leaves the loop running removes at most one connection, and counts it. -/
lemma running_of_deliver {D : DownloadState} {a' : FileAssembler} {msg : Message}
    (hloop : D.loop = .running a) (hle : a.requestTxs.length ≤ a.numConnections)
    (hloop' : (D.step env h (.deliver msg resendOpen)).loop = .running a') :
    a' = a ∨ a'.requestTxs.length + 1 = a.requestTxs.length ∧
      a'.numConnections + 1 = a.numConnections := by
  cases msg with
  | request seeder index begin length hash =>
    rw [step_deliver hloop, reassembleMessage, runOn_throw] at hloop'
    cases hloop'
  | cancel seeder index begin length =>
    rw [step_cancel hloop hle] at hloop'
    split_ifs at hloop' with hseeder
    obtain rfl := LoopState.running.inj hloop'
    refine .inr ⟨?_, Nat.sub_add_cancel (by omega)⟩
    rw [List.length_eraseIdx_of_lt hseeder]
    exact Nat.sub_add_cancel (by omega)
  | piece index piece =>
    rw [step_deliver hloop, reassembleMessage, runOn_bind] at hloop'
    rcases hrun : runOn (receivePiece env a.fileHash index piece) D.store with ⟨fault | result, σ'⟩
    · rw [hrun] at hloop'
      cases hloop'
    · rw [hrun] at hloop'
      left
      cases result with
      | corrupted =>
        simp only [runOn_bind, runOn_ofExcept] at hloop'
        cases hresend : sendResend resendOpen with
        | error fault =>
          rw [hresend] at hloop'
          cases hloop'
        | ok u =>
          rw [hresend] at hloop'
          exact (LoopState.running.inj hloop').symm
      | written => exact (LoopState.running.inj hloop').symm
      | complete =>
        simp only [runOn_bind] at hloop'
        rcases hbuild : runOn (buildFile a.fileHash) σ' with ⟨fault | u, σ''⟩
        · rw [hbuild] at hloop'
          cases hloop'
        · rw [hbuild] at hloop'
          cases hloop'

/-- A running loop counts a connection for each that is registered or has yet to subscribe. -/
structure Counted (h : InfoHash) (numConnections : ℕ) (s : JoinedDownload) : Prop where
  subscribed : s.subscribed ≤ numConnections
  count : ∀ a, s.state.loop = .running a →
    a.requestTxs.length + numConnections ≤ a.numConnections + s.subscribed

lemma Counted.le {n : ℕ} {s : JoinedDownload} (hs : Counted h n s)
    (hloop : s.state.loop = .running a) : a.requestTxs.length ≤ a.numConnections := by
  have := hs.subscribed
  have := hs.count a hloop
  omega

lemma counted_start (h : InfoHash) (n : ℕ) (σ : Store) : Counted h n (.start h n σ) := by
  refine ⟨Nat.zero_le n, ?_⟩
  rintro a ha
  obtain rfl := LoopState.running.inj ha
  simp

lemma Counted.step {n : ℕ} {s t : JoinedDownload} {act : JoinedAction} (hs : Counted h n s)
    (hstep : s.step env h n act = some t) : Counted h n t := by
  cases act with
  | subscribe =>
    simp only [JoinedDownload.step, JoinedDownload.subscribe] at hstep
    split at hstep
    · rename_i a hloop
      split_ifs at hstep with hlt
      cases hstep
      refine ⟨hlt, ?_⟩
      rintro a' ha'
      obtain rfl := LoopState.running.inj ha'
      have := hs.count a hloop
      simp only [List.length_append, List.length_singleton]
      omega
    · cases hstep
  | deliver msg resendOpen =>
    cases hstep
    refine ⟨hs.subscribed, fun a' ha' => ?_⟩
    cases hloop : s.state.loop with
    | running a =>
      have := hs.count a hloop
      rcases running_of_deliver (h := h) hloop (hs.le hloop) ha' with rfl | ⟨htxs, hnum⟩
      · exact this
      · simp only
        omega
    | finished =>
      simp only [DownloadState.step, hloop] at ha'
      cases ha'
    | failed fault =>
      simp only [DownloadState.step, hloop] at ha'
      cases ha'
  | changeFiles store =>
    cases hstep
    exact ⟨hs.subscribed, hs.count⟩

lemma counted_run {n : ℕ} {s : JoinedDownload} {tr : List (JoinedDownload × JoinedAction)}
    (hrun : Run (JoinedDownload.step env h n) (.start h n σ) tr s) : Counted h n s :=
  hrun.preserve (fun _ _ _ hs hstep => hs.step hstep) (counted_start h n σ)

/-! ### Pieces that are written -/

/-- Every other piece is marked as written. -/
def OthersWritten (σ : Store) (h : InfoHash) (index : UInt32) : Prop :=
  ∀ j < ((download σ h.name).status h.pieces.length).length, j ≠ index.toNat →
    ((download σ h.name).status h.pieces.length)[j]? = some 1

/-- The offset of the piece does not overflow, the status has a byte for it, and if it is the last
one missing there is no finished file of that name. -/
structure Writable (env : Env) (σ : Store) (h : InfoHash) (index : UInt32) : Prop where
  offset : env.overflowChecks = true → index.toNat * h.pieceLength.toNat < 2 ^ 32
  position : index.toNat < ((download σ h.name).status h.pieces.length).length
  file : OthersWritten σ h index → (download σ h.name).file = none

lemma hasAllPieces_write_iff (offset : ℕ) (piece : Bytes)
    (hindex : index.toNat < ((download σ h.name).status h.pieces.length).length) :
    Status.hasAllPieces
        ⟨((download σ h.name).write h.pieces.length offset piece index.toNat).status
          h.pieces.length⟩ = true ↔ OthersWritten σ h index := by
  rw [OthersWritten]
  change Status.hasAllPieces
    ⟨patch 0 ((download σ h.name).status h.pieces.length) index.toNat [1]⟩ = true ↔ _
  generalize (download σ h.name).status h.pieces.length = status at hindex ⊢
  have hlen : (patch 0 status index.toNat [1]).length = status.length := by
    rw [length_patch _ _ _ (by simp), List.length_singleton]
    exact Nat.max_eq_left hindex
  have hempty : ¬ (patch 0 status index.toNat [1]).isEmpty = true := by
    rw [List.isEmpty_iff, ← List.length_eq_zero_iff, hlen]
    omega
  have hself : (patch 0 status index.toNat [1])[index.toNat]? = some 1 := by
    rw [getElem?_patch_of_mem 0 status le_rfl (by simp), Nat.sub_self]
    rfl
  have hother : ∀ j < status.length, j ≠ index.toNat →
      (patch 0 status index.toNat [1])[j]? = status[j]? := by
    intro j hj hne
    refine getElem?_patch_of_notMem 0 hj ?_
    rw [List.length_singleton]
    omega
  rw [Status.hasAllPieces, if_neg hempty, List.all_eq_true]
  constructor
  · intro hall j hj hne
    rw [← hother j hj hne, List.getElem?_eq_getElem (by rwa [hlen])]
    exact congrArg some (beq_iff_eq.mp (hall _ (List.getElem_mem _)))
  · intro hall b hb
    obtain ⟨j, hj, rfl⟩ := List.getElem_of_mem hb
    rw [beq_iff_eq, ← Option.some.injEq, ← List.getElem?_eq_getElem hj]
    by_cases hne : j = index.toNat
    · rw [hne, hself]
    · rw [hlen] at hj
      rw [hother j hj hne, hall j hj hne]

lemma mulU32_cases (env : Env) (x y : UInt32) :
    (∃ z, mulU32 env x y = .ok z ∧ (env.overflowChecks = true → x.toNat * y.toNat < 2 ^ 32)) ∨
      mulU32 env x y = .error .panic ∧ env.overflowChecks = true ∧ 2 ^ 32 ≤ x.toNat * y.toNat := by
  rw [mulU32]
  split_ifs with hover
  · exact .inr ⟨rfl, hover⟩
  · exact .inl ⟨_, rfl, fun henv => Nat.not_le.mp fun hle => hover ⟨henv, hle⟩⟩

/-- What becomes of the loop when a piece passes the check of its hash. -/
lemma step_accepted {D : DownloadState} (hloop : D.loop = .running a)
    (hacc : Accepted env a.fileHash index piece) :
    (Writable env D.store a.fileHash index → ∀ loop,
      (D.step env h (.deliver (.piece index piece) resendOpen)).loop = loop →
        OthersWritten D.store a.fileHash index ∧ loop = .finished ∨
          ¬ OthersWritten D.store a.fileHash index ∧ loop = .running a) ∧
      (¬ Writable env D.store a.fileHash index → ∃ fault,
        (D.step env h (.deliver (.piece index piece) resendOpen)).loop = .failed fault) := by
  rw [step_deliver hloop, reassembleMessage]
  rcases mulU32_cases env index a.fileHash.pieceLength with
    ⟨offset, hoff, hlt⟩ | ⟨hoff, henv, hover⟩
  · by_cases hindex : index.toNat <
        ((download D.store a.fileHash.name).status a.fileHash.pieces.length).length
    · obtain ⟨σ', hrun, hd⟩ := runOn_receivePiece_accepted env hindex hoff hacc
      have hcomplete : Status.hasAllPieces
          ⟨(download (initInfo σ' a.fileHash) a.fileHash.name).status a.fileHash.pieces.length⟩
            = true ↔ OthersWritten D.store a.fileHash index := by
        rw [← hasAllPieces_write_iff offset.toNat piece hindex, ← hd, download_initInfo]
        rfl
      have hfile : (download (initInfo σ' a.fileHash) a.fileHash.name).file
          = (download D.store a.fileHash.name).file := by
        rw [download_initInfo, hd]
        rfl
      rw [runOn_bind_ok hrun]
      by_cases hall : OthersWritten D.store a.fileHash index
      · have hc := hcomplete.mpr hall
        rw [if_pos (by rw [hd, hasAllPieces_write_iff offset.toNat piece hindex]; exact hall)]
        constructor
        · rintro hw loop rfl
          obtain ⟨σ'', hbuild, -⟩ := runOn_buildFile_ok a.fileHash (initInfo σ' a.fileHash) hc
            (hfile.trans (hw.file hall))
          simp only [runOn_bind_ok hbuild]
          exact .inl ⟨hall, rfl⟩
        · intro hw
          have hne : (download (initInfo σ' a.fileHash) a.fileHash.name).file ≠ none := fun hnone =>
            hw ⟨hlt, hindex, fun _ => hfile.symm.trans hnone⟩
          obtain ⟨fault, σ'', hbuild⟩ :=
            runOn_buildFile_exists a.fileHash (initInfo σ' a.fileHash) hc hne
          simp only [runOn_bind_error hbuild]
          exact ⟨fault, rfl⟩
      · rw [if_neg (by rw [hd, hasAllPieces_write_iff offset.toNat piece hindex]; exact hall)]
        constructor
        · rintro hw loop rfl
          exact .inr ⟨hall, rfl⟩
        · intro hw
          exact absurd ⟨hlt, hindex, fun h' => absurd h' hall⟩ hw
    · obtain ⟨σ', hrun⟩ := runOn_receivePiece_panic env hacc hoff (Nat.not_lt.mp hindex)
      rw [runOn_bind_error hrun]
      exact ⟨fun hw => absurd hw.position hindex, fun _ => ⟨.panic, rfl⟩⟩
  · rw [runOn_bind_error (runOn_receivePiece_overflow env hacc hoff)]
    exact ⟨fun hw => absurd (hw.offset henv) (Nat.not_lt.mpr hover), fun _ => ⟨.panic, rfl⟩⟩

/-! ### Harmless messages -/

/-- The loop can go on after the message: a `Cancel` names a registered connection, a piece of
exactly `piece_length` bytes has a recorded hash, one that passes is writable, and the channel to
`send_requests` is open when the piece is to be asked for again. -/
def Message.Harmless (env : Env) (σ : Store) (a : FileAssembler) (resendOpen : Bool) :
    Message → Prop
  | .request _ _ _ _ _ => False
  | .cancel seeder _ _ _ => seeder.toNat < a.requestTxs.length ∧ resendOpen = true
  | .piece index piece =>
    (piece.length = a.fileHash.pieceLength.toNat →
      ∃ digest : Digest, a.fileHash.pieces[index.toNat]? = some ⟨digest.val⟩) ∧
    (Corrupted env a.fileHash index piece → resendOpen = true) ∧
    (¬ Corrupted env a.fileHash index piece → Writable env σ a.fileHash index)

/-- The message is the last piece that is missing, with which the download ends. -/
def Message.Completes (env : Env) (σ : Store) (h : InfoHash) : Message → Prop
  | .piece index piece => ¬ Corrupted env h index piece ∧ OthersWritten σ h index
  | _                  => False

/-- The loop has ended with a fault. -/
def LoopState.Failed (loop : LoopState) : Prop := ∃ fault, loop = .failed fault

/-- The loop goes on with a registered connection. -/
def LoopState.Connected (loop : LoopState) : Prop :=
  ∃ a, loop = .running a ∧ 1 ≤ a.requestTxs.length

/-- The loop is as two conditions say: `H`, that it is not broken, and `C`, that it has ended. -/
def LoopState.Meets (loop : LoopState) (H C : Prop) : Prop :=
  (¬ loop.Failed ↔ H) ∧ (loop.Connected ↔ H ∧ ¬ C)

section Meets

variable {loop : LoopState} {a' : FileAssembler} {H C : Prop}

lemma meets_failed (hloop : loop.Failed) (hH : ¬ H) : loop.Meets H C := by
  obtain ⟨fault, rfl⟩ := hloop
  refine ⟨iff_of_false (fun h' => h' ⟨fault, rfl⟩) hH, iff_of_false ?_ fun h' => hH h'.1⟩
  rintro ⟨a, ha, -⟩
  cases ha

lemma meets_running (hloop : loop = .running a') (hone : 1 ≤ a'.requestTxs.length) (hH : H)
    (hC : ¬ C) : loop.Meets H C := by
  subst hloop
  refine ⟨iff_of_true ?_ hH, iff_of_true ⟨a', rfl, hone⟩ ⟨hH, hC⟩⟩
  rintro ⟨fault, hfault⟩
  cases hfault

lemma meets_finished (hloop : loop = .finished) (hH : H) (hC : C) : loop.Meets H C := by
  subst hloop
  refine ⟨iff_of_true ?_ hH, iff_of_false ?_ fun h' => h'.2 hC⟩
  · rintro ⟨fault, hfault⟩
    cases hfault
  · rintro ⟨a', ha', -⟩
    cases ha'

end Meets

section Round

variable {D : DownloadState} (hloop : D.loop = .running a) (htwo : 2 ≤ a.requestTxs.length)
include hloop htwo

lemma meets_cancel (hle : a.requestTxs.length ≤ a.numConnections) (begin length : UInt32)
    (resendOpen : Bool) :
    (D.step env h (.deliver (.cancel seeder index begin length) resendOpen)).loop.Meets
      ((Message.cancel seeder index begin length).Harmless env D.store a resendOpen)
      ((Message.cancel seeder index begin length).Completes env D.store a.fileHash) := by
  have hcancel : (D.step env h (.deliver (.cancel seeder index begin length)
      resendOpen)).loop = _ := step_cancel hloop hle begin length
  by_cases hseeder : seeder.toNat < a.requestTxs.length
  · rw [if_pos hseeder, if_neg (by omega)] at hcancel
    by_cases hopen : resendOpen = true
    · rw [if_pos hopen] at hcancel
      refine meets_running hcancel ?_ ⟨hseeder, hopen⟩ id
      simp only [List.length_eraseIdx_of_lt hseeder]
      omega
    · rw [if_neg hopen] at hcancel
      exact meets_failed ⟨_, hcancel⟩ fun h' => hopen h'.2
  · rw [if_neg hseeder] at hcancel
    exact meets_failed ⟨_, hcancel⟩ fun h' => hseeder h'.1

lemma meets_corrupted (hcorrupted : Corrupted env a.fileHash index piece) (resendOpen : Bool) :
    (D.step env h (.deliver (.piece index piece) resendOpen)).loop.Meets
      ((Message.piece index piece).Harmless env D.store a resendOpen)
      ((Message.piece index piece).Completes env D.store a.fileHash) := by
  obtain ⟨digest, hdigest, hfull, hne⟩ := id hcorrupted
  have hcheck := runOn_receivePiece_corrupted (σ := D.store) env hfull
    (expectedHash_eq_ok.mpr hdigest) hne
  have hresend : (D.step env h (.deliver (.piece index piece) resendOpen)).loop = _ :=
    step_deliver hloop _
  rw [reassembleMessage, runOn_bind_ok hcheck] at hresend
  cases resendOpen with
  | true =>
    refine meets_running hresend (by omega) ?_ fun h' => h'.1 hcorrupted
    exact ⟨fun _ => ⟨digest, hdigest⟩, fun _ => rfl, fun h' => absurd hcorrupted h'⟩
  | false => exact meets_failed ⟨_, hresend⟩ fun h' => by cases h'.2.1 hcorrupted

lemma meets_accepted (hacc : Accepted env a.fileHash index piece)
    (hcorrupted : ¬ Corrupted env a.fileHash index piece) (resendOpen : Bool) :
    (D.step env h (.deliver (.piece index piece) resendOpen)).loop.Meets
      ((Message.piece index piece).Harmless env D.store a resendOpen)
      ((Message.piece index piece).Completes env D.store a.fileHash) := by
  obtain ⟨hgood, hbad⟩ := step_accepted (h := h) hloop hacc
  by_cases hw : Writable env D.store a.fileHash index
  · have hharmless : (Message.piece index piece).Harmless env D.store a resendOpen :=
      ⟨fun hfull => ⟨_, expectedHash_eq_ok.mp (hacc hfull)⟩, fun h' => absurd h' hcorrupted,
        fun _ => hw⟩
    rcases hgood hw _ rfl with ⟨hall, hfinished⟩ | ⟨hall, hrunning⟩
    · exact meets_finished hfinished hharmless ⟨hcorrupted, hall⟩
    · exact meets_running hrunning (by omega) hharmless fun h' => hall h'.2
  · exact meets_failed (hbad hw) fun h' => hw (h'.2.2 hcorrupted)

omit htwo in
/-- A payload of the full length for which no hash is recorded. -/
lemma meets_unrecorded (hacc : ¬ Accepted env a.fileHash index piece)
    (hcorrupted : ¬ Corrupted env a.fileHash index piece) (resendOpen : Bool) :
    (D.step env h (.deliver (.piece index piece) resendOpen)).loop.Meets
      ((Message.piece index piece).Harmless env D.store a resendOpen)
      ((Message.piece index piece).Completes env D.store a.fileHash) := by
  obtain ⟨hfull, hne⟩ := Classical.not_imp.mp hacc
  cases hexpected : expectedHash a.fileHash index with
  | ok digest =>
    refine absurd ⟨digest, expectedHash_eq_ok.mp hexpected, hfull, ?_⟩ hcorrupted
    rintro rfl
    exact hne hexpected
  | error fault =>
    have hcheck := runOn_receivePiece_error (σ := D.store) env hfull hexpected
    refine meets_failed ⟨fault, ?_⟩ fun h' => ?_
    · rw [step_deliver hloop, reassembleMessage, runOn_bind_error hcheck]
      rfl
    · obtain ⟨digest, hdigest⟩ := h'.1 hfull
      cases hexpected.symm.trans (expectedHash_eq_ok.mpr hdigest)

end Round

/-- In every reachable state with two registered connections, a message does not break the loop if
and only if it is harmless, and the loop goes on with a registered connection if and only if the
message is harmless and does not complete the file. -/
theorem message_harmless_iff {n : ℕ} {s : JoinedDownload}
    {tr : List (JoinedDownload × JoinedAction)}
    (hrun : Run (JoinedDownload.step env h n) (.start h n σ) tr s)
    (hloop : s.state.loop = .running a) (htwo : 2 ≤ a.requestTxs.length) (msg : Message)
    (resendOpen : Bool) :
    (¬ (s.state.step env h (.deliver msg resendOpen)).loop.Failed ↔
      msg.Harmless env s.state.store a resendOpen) ∧
    ((s.state.step env h (.deliver msg resendOpen)).loop.Connected ↔
      msg.Harmless env s.state.store a resendOpen ∧
        ¬ msg.Completes env s.state.store a.fileHash) := by
  cases msg with
  | request seeder index begin length hash =>
    refine meets_failed ⟨wrongMessageType, ?_⟩ id
    rw [step_deliver hloop, reassembleMessage, runOn_throw]
    rfl
  | cancel seeder index begin length =>
    exact meets_cancel hloop htwo ((counted_run hrun).le hloop) begin length resendOpen
  | piece index piece =>
    by_cases hcorrupted : Corrupted env a.fileHash index piece
    · exact meets_corrupted hloop htwo hcorrupted resendOpen
    · by_cases hacc : Accepted env a.fileHash index piece
      · exact meets_accepted hloop htwo hacc hcorrupted resendOpen
      · exact meets_unrecorded hloop hacc hcorrupted resendOpen

/-! ### Two connections -/

/-- An info hash of one piece. -/
def onePiece : InfoHash := ⟨"x", 1, 65536, [⟨Digest.zero.val⟩]⟩

def onePieceEnv : Env := ⟨fun _ => Digest.zero, true⟩

/-- A `Cancel` of the second of two connections. -/
theorem message_harmless_iff_cancel :
    ∃ tr s a, Run (JoinedDownload.step onePieceEnv onePiece 2) (.start onePiece 2 ∅) tr s ∧
      s.state.loop = .running a ∧ a.requestTxs = [0, 1] ∧
      (¬ (s.state.step onePieceEnv onePiece (.deliver (.cancel 1 0 0 1) true)).loop.Failed ↔
        (Message.cancel 1 0 0 1).Harmless onePieceEnv s.state.store a true) := by
  obtain ⟨s, a, hs, hloop, htxs⟩ : ∃ s a,
      exec (JoinedDownload.step onePieceEnv onePiece 2) (.start onePiece 2 ∅)
        [.subscribe, .subscribe] = some s ∧
      s.state.loop = .running a ∧ a.requestTxs = [0, 1] := ⟨_, _, rfl, rfl, rfl⟩
  obtain ⟨tr, hrun, -⟩ := run_of_exec hs
  exact ⟨tr, s, a, hrun, hloop, htxs,
    (message_harmless_iff hrun hloop (by rw [htxs]; decide) (.cancel 1 0 0 1) true).1⟩

/-- A short payload for a piece that the file does not have ends a download with two connections,
and so does a `Cancel` with a position past the last of them. -/
theorem message_breaks_download :
    ∃ tr s a, Run (JoinedDownload.step onePieceEnv onePiece 2) (.start onePiece 2 ∅) tr s ∧
      s.state.loop = .running a ∧ a.requestTxs = [0, 1] ∧
      (s.state.step onePieceEnv onePiece (.deliver (.piece 7 []) true)).loop = .failed .panic ∧
      (s.state.step onePieceEnv onePiece (.deliver (.cancel 2 0 0 1) true)).loop
        = .failed .panic := by
  obtain ⟨s, hs, hrest⟩ : ∃ s,
      exec (JoinedDownload.step onePieceEnv onePiece 2) (.start onePiece 2 ∅)
        [.subscribe, .subscribe] = some s ∧ ∃ a,
      s.state.loop = .running a ∧ a.requestTxs = [0, 1] ∧
      (s.state.step onePieceEnv onePiece (.deliver (.piece 7 []) true)).loop = .failed .panic ∧
      (s.state.step onePieceEnv onePiece (.deliver (.cancel 2 0 0 1) true)).loop
        = .failed .panic := ⟨_, rfl, _, rfl, rfl, rfl, rfl⟩
  obtain ⟨tr, hrun, -⟩ := run_of_exec hs
  obtain ⟨a, ha⟩ := hrest
  exact ⟨tr, s, a, hrun, ha⟩

end BearTorrent
