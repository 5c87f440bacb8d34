import BearTorrent.Client.FileCalls
import BearTorrent.Lib.Transition
import Mathlib.Data.Finset.Insert

/-!
# When a download counts as complete

A history is a sequence of calls for one info hash, each of which may be stopped between two of its
effects. Next to the disk it keeps the indices of the pieces that were written to the current
`.part` file. The `.info` file is created empty and filled afterwards, and an empty status counts as
complete, so the completion can be trusted in the histories that leave no `.info` file half done.
-/

namespace BearTorrent

open Effects LexicalPath Transition Patch

/-- The disk, and the pieces that were written to the current `.part` file. -/
structure History where
  disk : Disk
  written : Finset ℕ

namespace History

/-- A call, and after how many effects the process is stopped, if it is. -/
structure Event where
  call : FileCall
  stop : Option ℕ

/-- The index of the piece that a call writes. -/
def index : FileCall → ℕ
  | .download (.writePiece _ index) => index.toNat
  | _ => 0

/-- The pieces in the `.part` file after an effect. A new one has none. -/
def noteWritten (name : String) (index : ℕ) (written : Finset ℕ) : Effect → Finset ℕ
  | .written p _ _ => if p = Slot.part.path name then insert index written else written
  | .created p | .removed p => if p = Slot.part.path name then ∅ else written
  | .renamed p q =>
    if p = Slot.part.path name ∨ q = Slot.part.path name then ∅ else written
  | .opened _ => written

/-- Perform an effect of a call that writes the piece `index`. -/
def perform (name : String) (index : ℕ) (s : History) (e : Effect) : History :=
  ⟨act e s.disk, noteWritten name index s.written e⟩

/-- The effects of a call until it ends or is stopped. -/
def executed (env : Env) (h : InfoHash) (d : Disk) (ev : Event) : List Effect :=
  match ev.stop with
  | none   => (runFrom (ev.call.run env h) d).2.2
  | some k => (runFrom (ev.call.run env h) d).2.2.take k

/-- One call. -/
def step (env : Env) (h : InfoHash) (s : History) (ev : Event) : Option History :=
  some ((executed env h s.disk ev).foldl (perform h.name (index ev.call)) s)

/-- Empty resource folders. -/
def init (cwd : Location) : History := ⟨⟨cwd, fun _ => none⟩, ∅⟩

/-- What the effects of a call have to see to, if they get that far. A `.info` file that is created
is filled or removed again, and when the `.part` file goes, a status that marks a piece goes with
it. -/
structure Careful (h : InfoHash) (d : Disk) (es : List Effect) : Prop where
  filled : .created (Slot.info.path h.name) ∈ es →
    .written (Slot.info.path h.name) 0 (List.replicate h.pieces.length 0) ∈ es ∨
      .removed (Slot.info.path h.name) ∈ es
  cleared : .renamed (Slot.part.path h.name) (Slot.file.path h.name) ∈ es ∨
      .removed (Slot.part.path h.name) ∈ es →
    .removed (Slot.info.path h.name) ∈ es ∨ ∀ status, d.slot h.name .info = some status →
      1 ∉ status

instance (h : InfoHash) (d : Disk) (es : List Effect) : Decidable (Careful h d es) :=
  decidable_of_iff
    ((.created (Slot.info.path h.name) ∈ es →
        .written (Slot.info.path h.name) 0 (List.replicate h.pieces.length 0) ∈ es ∨
          .removed (Slot.info.path h.name) ∈ es) ∧
      (.renamed (Slot.part.path h.name) (Slot.file.path h.name) ∈ es ∨
          .removed (Slot.part.path h.name) ∈ es →
        .removed (Slot.info.path h.name) ∈ es ∨
          ∀ status ∈ d.slot h.name .info, 1 ∉ status))
    ⟨fun hcareful => ⟨hcareful.1, hcareful.2⟩, fun hcareful => ⟨hcareful.1, hcareful.2⟩⟩

/-! ### The invariant -/

/-- Pieces are in a `.part` file, and a status byte `1` is that of a piece in it. -/
structure Sound (h : InfoHash) (s : History) : Prop where
  part : s.written.Nonempty → (s.disk.slot h.name .part).isSome
  length : ∀ status, s.disk.slot h.name .info = some status → status.length = h.pieces.length
  marked : ∀ status, s.disk.slot h.name .info = some status →
    ∀ i : ℕ, status[i]? = some 1 → i ∈ s.written

lemma sound_init (h : InfoHash) (cwd : Location) : Sound h (init cwd) where
  part := by rintro ⟨i, hi⟩; exact absurd hi (Finset.notMem_empty i)
  length := nofun
  marked := nofun

/-- In a sound history a complete status marks every piece. -/
lemma Sound.written_of_complete {h : InfoHash} {s : History} (hs : Sound h s)
    (hpos : 0 < h.pieces.length) (hc : s.disk.complete h = true) :
    ∀ i < h.pieces.length, i ∈ s.written := by
  intro i hi
  have hlen : (s.disk.status h).length = h.pieces.length := by
    rw [Disk.status]
    cases hinfo : s.disk.slot h.name .info with
    | none => simp
    | some status => exact hs.length status hinfo
  have hall : (s.disk.status h).all (· == 1) = true := by
    have hne : (s.disk.status h).isEmpty = false := by
      rw [List.isEmpty_eq_false_iff_exists_mem]
      exact ⟨_, List.getElem_mem (by omega : 0 < (s.disk.status h).length)⟩
    simpa [Disk.complete, Status.hasAllPieces, hne] using hc
  have hone : (s.disk.status h)[i]? = some 1 := by
    rw [List.getElem?_eq_getElem (by omega)]
    have := List.all_eq_true.mp hall _ (List.getElem_mem (by omega : i < (s.disk.status h).length))
    exact congrArg some (beq_iff_eq.mp this)
  unfold Disk.status at hone
  cases hinfo : s.disk.slot h.name .info with
  | none =>
    rw [hinfo, Option.getD_none, List.getElem?_replicate_of_lt hi] at hone
    exact absurd hone (by decide)
  | some status =>
    rw [hinfo] at hone
    exact hs.marked status hinfo i hone

/-! ### Single effects -/

section Effects

variable {h : InfoHash} {s : History} (i : ℕ)

@[simp] lemma perform_disk (name : String) (e : Effect) :
    (perform name i s e).disk = act e s.disk :=
  rfl

@[simp] lemma perform_written (name : String) (e : Effect) :
    (perform name i s e).written = noteWritten name i s.written e :=
  rfl

lemma foldl_disk (name : String) (es : List Effect) (s : History) :
    (es.foldl (perform name i) s).disk = after es s.disk := by
  induction es generalizing s with
  | nil => rfl
  | cons e es ih => exact ih _

lemma sound_of_empty (hwritten : s.written = ∅)
    (hinfo : ∀ status, s.disk.slot h.name .info = some status →
      status.length = h.pieces.length ∧ 1 ∉ status) : Sound h s where
  part := by rw [hwritten]; exact fun hne => absurd hne Finset.not_nonempty_empty
  length status hstatus := (hinfo status hstatus).1
  marked status hstatus i hi :=
    absurd (List.mem_of_getElem? hi) (hinfo status hstatus).2

/-- Without a `.part` file no piece is written. -/
lemma Sound.written_eq_empty (hs : Sound h s) (hpart : s.disk.slot h.name .part = none) :
    s.written = ∅ := by
  by_contra hne
  have hsome := hs.part (Finset.nonempty_iff_ne_empty.mpr hne)
  rw [hpart] at hsome
  exact absurd hsome (by decide)

/-- What matters is what is written and in the files of the cache. -/
lemma Sound.congr {s' : History} (hs : Sound h s) (hwritten : s'.written = s.written)
    (hpart : (s.disk.slot h.name .part).isSome → (s'.disk.slot h.name .part).isSome)
    (hinfo : s'.disk.slot h.name .info = s.disk.slot h.name .info) : Sound h s' where
  part hne := hpart (hs.part (hwritten ▸ hne))
  length := hinfo ▸ hs.length
  marked := by rw [hinfo, hwritten]; exact hs.marked

lemma Sound.created (hs : Sound h s) {t : Slot} (ht : t ≠ .info)
    (hnone : s.disk.slot h.name t = none) :
    Sound h (perform h.name i s (.created (t.path h.name))) := by
  refine hs.congr ?_ ?_ ?_
  · by_cases hp : t = .part
    · rw [hp] at hnone
      simp [noteWritten, hp, hs.written_eq_empty hnone]
    · simp [noteWritten, hp]
  · intro hpart
    rw [perform_disk, slot_created]
    split_ifs
    · rfl
    · exact hpart
  · simp [ht.symm]

lemma Sound.written_part (hs : Sound h s) (hpart : (s.disk.slot h.name .part).isSome)
    (offset : ℕ) (piece : Bytes) :
    Sound h (perform h.name i s (.written (Slot.part.path h.name) offset piece)) where
  part _ := by simpa using hpart
  length status hstatus := hs.length status (by simpa using hstatus)
  marked status hstatus j hj := by
    have := hs.marked status (by simpa using hstatus) j hj
    simp [noteWritten, this]

/-- The status byte of a written piece is set. -/
lemma Sound.written_info (hs : Sound h s) {status : Bytes}
    (hinfo : s.disk.slot h.name .info = some status) (hi : i < status.length)
    (hwritten : i ∈ s.written) :
    Sound h (perform h.name i s (.written (Slot.info.path h.name) i [1])) where
  part hne := by
    have := hs.part (by simpa [noteWritten] using hne)
    simpa using this
  length status' hstatus' := by
    have heq : patch 0 status i [1] = status' := by simpa [hinfo] using hstatus'
    rw [← heq, length_patch 0 status i (by simp), ← hs.length status hinfo]
    simp only [List.length_singleton]
    omega
  marked status' hstatus' j hj := by
    have heq : patch 0 status i [1] = status' := by simpa [hinfo] using hstatus'
    have hmem : j ∈ s.written := by
      by_cases hji : j = i
      · rw [hji]
        exact hwritten
      · have hlen : j < (patch 0 status i [1]).length := by
          rw [heq]
          exact (List.getElem?_eq_some_iff.mp hj).1
        rw [length_patch 0 status i (by simp)] at hlen
        simp only [List.length_singleton] at hlen
        rw [← heq, getElem?_patch_of_notMem 0 (by omega)
          (by simp only [List.length_singleton]; omega)] at hj
        exact hs.marked status hinfo j hj
    simpa [noteWritten] using hmem

/-- The `.part` file goes when no piece is marked. -/
lemma Sound.removed_part (hs : Sound h s)
    (hclear : ∀ status, s.disk.slot h.name .info = some status → 1 ∉ status) :
    Sound h (perform h.name i s (.removed (Slot.part.path h.name))) := by
  refine sound_of_empty (by simp [noteWritten]) fun status hstatus => ?_
  have hinfo : s.disk.slot h.name .info = some status := by simpa using hstatus
  exact ⟨hs.length status hinfo, hclear status hinfo⟩

lemma Sound.renamed_part (hs : Sound h s)
    (hclear : ∀ status, s.disk.slot h.name .info = some status → 1 ∉ status) :
    Sound h (perform h.name i s
      (.renamed (Slot.part.path h.name) (Slot.file.path h.name))) := by
  refine sound_of_empty (by simp [noteWritten]) fun status hstatus => ?_
  have hinfo : s.disk.slot h.name .info = some status := by simpa using hstatus
  exact ⟨hs.length status hinfo, hclear status hinfo⟩

/-- Removing another file changes nothing. -/
lemma Sound.removed (hs : Sound h s) {t : Slot} (hpart : t ≠ .part) (hinfo : t ≠ .info) :
    Sound h (perform h.name i s (.removed (t.path h.name))) :=
  hs.congr (by simp [noteWritten, hpart]) (by simp [hpart.symm]) (by simp [hinfo.symm])

/-- The status is filled with zeros. -/
lemma Sound.filled (hs : Sound h s) :
    Sound h (perform h.name i (perform h.name i s (.created (Slot.info.path h.name)))
      (.written (Slot.info.path h.name) 0 (List.replicate h.pieces.length 0))) where
  part hne := by
    have := hs.part (by simpa [noteWritten] using hne)
    simpa using this
  length status hstatus := by
    have heq : List.replicate h.pieces.length 0 = status := by simpa [patch_zero] using hstatus
    rw [← heq, List.length_replicate]
  marked status hstatus j hj := by
    have heq : List.replicate h.pieces.length 0 = status := by simpa [patch_zero] using hstatus
    have hmem := List.mem_of_getElem? hj
    rw [← heq] at hmem
    exact absurd (List.eq_of_mem_replicate hmem) (by decide)

end Effects

/-! ### Calls -/

section Calls

variable {h : InfoHash} {s : History} {d : Disk} {ok : List Effect → Prop} (i : ℕ)

lemma Sound.touch (hs : Sound h s) {t : Slot} (ht : t ≠ .info)
    (hd : s.disk.slot h.name t = d.slot h.name t) :
    Sound h ((d.touch h.name t).foldl (perform h.name i) s) := by
  rw [Disk.touch]
  cases hslot : d.slot h.name t with
  | none => exact hs.created i ht (hd.trans hslot)
  | some content => exact hs

lemma cuts_touch (hs : Sound h s) {t : Slot} (ht : t ≠ .info)
    (hd : s.disk.slot h.name t = d.slot h.name t) :
    Cuts (perform h.name i) ok (Sound h) s (d.touch h.name t) := by
  have htouch := hs.touch i ht hd
  rw [Disk.touch] at htouch ⊢
  cases hslot : d.slot h.name t with
  | none =>
    rw [hslot] at htouch
    exact .cons (fun _ => hs) (.nil fun _ => htouch)
  | some content => exact .nil fun _ => hs

lemma Sound.statusEffects (hs : Sound h s) :
    Sound h ((d.statusEffects h).foldl (perform h.name i) s) := by
  rw [Disk.statusEffects]
  split_ifs
  · exact hs
  · exact hs.filled i

/-- The status can be read safely unless it is stopped in between. -/
lemma cuts_statusEffects (hs : Sound h s)
    (hok : d.slot h.name .info = none → ¬ ok [.created (Slot.info.path h.name)]) :
    Cuts (perform h.name i) ok (Sound h) s (d.statusEffects h) := by
  have hstatus := hs.statusEffects (d := d) i
  rw [Disk.statusEffects] at hstatus ⊢
  cases hinfo : d.slot h.name .info with
  | none =>
    rw [hinfo] at hstatus
    exact .cons (fun _ => hs) (.cons (fun h => absurd h (hok hinfo)) (.nil fun _ => hstatus))
  | some content => exact .cons (fun _ => hs) (.nil fun _ => hs)

/-- Reading the status writes no piece. -/
lemma written_statusEffects :
    ((d.statusEffects h).foldl (perform h.name i) s).written = s.written := by
  rw [Disk.statusEffects]
  split_ifs <;> simp [noteWritten]

lemma not_careful_created {es : List Effect}
    (hcreated : .created (Slot.info.path h.name) ∈ es)
    (hwritten : .written (Slot.info.path h.name) 0 (List.replicate h.pieces.length 0) ∉ es)
    (hremoved : .removed (Slot.info.path h.name) ∉ es) : ¬ Careful h d es := fun hc =>
  (hc.filled hcreated).elim hwritten hremoved

lemma removed_notMem_statusEffects {p : String} : .removed p ∉ d.statusEffects h := by
  rw [Disk.statusEffects]
  split_ifs <;> simp

lemma renamed_notMem_statusEffects {p q : String} : .renamed p q ∉ d.statusEffects h := by
  rw [Disk.statusEffects]
  split_ifs <;> simp

/-- A status that is read marks nothing when the `.info` file does not. -/
lemma notMem_status (hclear : ∀ status, d.slot h.name .info = some status → 1 ∉ status) :
    1 ∉ d.status h := by
  rw [Disk.status]
  cases hinfo : d.slot h.name .info with
  | none => simp
  | some status => exact hclear status hinfo

/-- Every cut of `write_piece_to_part`. -/
lemma cuts_writePiece (env : Env) (hs : Sound h s) (piece : Bytes) (index : UInt32) :
    Cuts (perform h.name index.toNat) (Careful h s.disk) (Sound h) s
      (s.disk.writePiece env h piece index).2 := by
  rw [Disk.writePiece]
  cases hoff : mulU32 env index h.pieceLength with
  | error e => exact cuts_touch _ hs (by decide) rfl
  | ok offset =>
    generalize hs₁ : (s.disk.touch h.name .part).foldl (perform h.name index.toNat) s = s₁
    generalize hs₂ : perform h.name index.toNat s₁
      (.written (Slot.part.path h.name) offset.toNat piece) = s₂
    have hsound₁ : Sound h s₁ := hs₁ ▸ hs.touch _ (by decide) rfl
    have hpart₁ : (s₁.disk.slot h.name .part).isSome := by
      rw [← hs₁, foldl_disk]
      simp
    have hsound₂ : Sound h s₂ := hs₂ ▸ hsound₁.written_part _ hpart₁ _ _
    have hwritten₂ : index.toNat ∈ s₂.written := by
      rw [← hs₂]
      simp [noteWritten]
    have hinfo₂ : s₂.disk.slot h.name .info = s.disk.slot h.name .info := by
      rw [← hs₂, ← hs₁, perform_disk, foldl_disk]
      simp
    -- a stop that leaves the `.info` file empty is not allowed
    have hfill : s.disk.slot h.name .info = none → ¬ Careful h s.disk
        (s.disk.touch h.name .part ++ .written (Slot.part.path h.name) offset.toNat piece ::
          [.created (Slot.info.path h.name)]) := fun _ =>
      not_careful_created (by simp) (by simp) (by simp)
    split_ifs with hindex
    · refine .append (cuts_touch _ hs (by decide) rfl) ?_
      rw [hs₁]
      refine .cons (fun _ => hsound₁) ?_
      rw [hs₂]
      exact cuts_statusEffects _ hsound₂ hfill
    · generalize hs₃ : (s.disk.statusEffects h).foldl (perform h.name index.toNat) s₂ = s₃
      have hsound₃ : Sound h s₃ := hs₃ ▸ hsound₂.statusEffects _
      have hinfo₃ : s₃.disk.slot h.name .info = some (s.disk.status h) := by
        rw [← hs₃, foldl_disk, slot_statusEffects_of hinfo₂, if_pos rfl]
      have hwritten₃ : index.toNat ∈ s₃.written := by
        rw [← hs₃, written_statusEffects]
        exact hwritten₂
      have hsound₄ := hsound₃.written_info index.toNat hinfo₃ (Nat.not_le.mp hindex) hwritten₃
      refine .append (cuts_touch _ hs (by decide) rfl) ?_
      rw [hs₁]
      refine .cons (fun _ => hsound₁) ?_
      rw [hs₂]
      refine .append (cuts_statusEffects _ hsound₂ hfill) ?_
      rw [hs₃]
      exact .cons (fun _ => hsound₃) (.nil fun _ => hsound₄)

/-- Every cut of `build_file`. -/
lemma cuts_build (hs : Sound h s) :
    Cuts (perform h.name i) (Careful h s.disk) (Sound h) s (s.disk.build h).2 := by
  have hstatus : Cuts (perform h.name i) (Careful h s.disk) (Sound h) s
      (s.disk.statusEffects h) :=
    cuts_statusEffects i hs fun _ => not_careful_created (by simp) (by simp) (by simp)
  generalize hs₁ : (s.disk.statusEffects h).foldl (perform h.name i) s = s₁
  have hsound₁ : Sound h s₁ := hs₁ ▸ hs.statusEffects i
  have hpart₁ : s₁.disk.slot h.name .part = s.disk.slot h.name .part := by
    rw [← hs₁, foldl_disk]
    simp
  have htouch {ok : List Effect → Prop} :
      Cuts (perform h.name i) ok (Sound h) s₁ (s.disk.touch h.name .part) :=
    cuts_touch i hsound₁ (by decide) hpart₁
  rw [Disk.build]
  split_ifs with hcomplete hfile
  · refine .append hstatus ?_
    rw [hs₁]
    exact htouch
  · generalize hs₂ : (s.disk.touch h.name .part).foldl (perform h.name i) s₁ = s₂
    have hsound₂ : Sound h s₂ := hs₂ ▸ hsound₁.touch i (by decide) hpart₁
    have hinfo₂ : s₂.disk.slot h.name .info = some (s.disk.status h) := by
      rw [← hs₂, foldl_disk, slot_touch_of hpart₁, ← hs₁, foldl_disk]
      simp
    have hclear : Careful h s.disk (s.disk.statusEffects h ++ (s.disk.touch h.name .part ++
        [.renamed (Slot.part.path h.name) (Slot.file.path h.name)])) →
        ∀ status, s₂.disk.slot h.name .info = some status → 1 ∉ status := by
      intro hc status hstatus
      obtain rfl : s.disk.status h = status := Option.some.inj (hinfo₂.symm.trans hstatus)
      rcases hc.cleared (.inl (by simp)) with hremoved | hclear
      · simp [removed_notMem_statusEffects] at hremoved
      · exact notMem_status hclear
    have hbuilt : Sound h (perform h.name i (perform h.name i s₂
        (.renamed (Slot.part.path h.name) (Slot.file.path h.name)))
        (.removed (Slot.info.path h.name))) :=
      sound_of_empty (by simp [noteWritten]) (by simp)
    refine .append hstatus ?_
    rw [hs₁]
    refine .append htouch ?_
    rw [hs₂]
    exact .cons (fun _ => hsound₂) (.cons (fun hc => hsound₂.renamed_part i (hclear hc))
      (.nil fun _ => hbuilt))
  · exact hstatus

/-- A created `.info` file that is not seen to allows no cut. -/
lemma cuts_created {es : List Effect} (hs : Sound h s)
    (hwritten : .written (Slot.info.path h.name) 0 (List.replicate h.pieces.length 0) ∉ es)
    (hremoved : .removed (Slot.info.path h.name) ∉ es) :
    Cuts (perform h.name i) (Careful h d) (Sound h) s
      (.created (Slot.info.path h.name) :: es) := by
  refine .cons (fun _ => hs) fun t ht hok => ?_
  refine absurd hok (not_careful_created List.mem_cons_self ?_ ?_)
  · simpa using fun hmem => hwritten (ht.subset hmem)
  · simpa using fun hmem => hremoved (ht.subset hmem)

/-- Once everything is deleted nothing is written and nothing is marked. -/
lemma sound_deleted (s : History) :
    Sound h ([Effect.removed (Slot.file.path h.name), .removed (Slot.part.path h.name),
      .removed (Slot.cache.path h.name), .removed (Slot.info.path h.name)].foldl
        (perform h.name i) s) :=
  sound_of_empty (by simp [noteWritten]) (by simp)

/-- Every cut of `delete_file`. -/
lemma cuts_delete (hs : Sound h s) :
    Cuts (perform h.name i) (Careful h s.disk) (Sound h) s (s.disk.delete h.name) := by
  rw [Disk.delete]
  cases hinfo : s.disk.slot h.name .info with
  | none =>
    have htouch : s.disk.touch h.name .info = [.created (Slot.info.path h.name)] := by
      simp [Disk.touch, hinfo]
    rw [htouch]
    split_ifs
    · -- only the last removal sees to the `.info` file
      have hbody : Cuts (perform h.name i) (Careful h s.disk) (Sound h) s
          (.created (Slot.info.path h.name) :: (s.disk.touch h.name .part ++
            (s.disk.touch h.name .cache ++ [.removed (Slot.file.path h.name),
              .removed (Slot.part.path h.name), .removed (Slot.cache.path h.name)]))) :=
        cuts_created i hs (by simp) (by simp)
      have hall := hbody.append (.cons (e := .removed (Slot.info.path h.name)) (fun hok => ?_)
        (.nil fun _ => ?_))
      · simpa using hall
      · rw [List.append_nil] at hok
        exact hbody _ (List.prefix_refl _) hok
      · simp only [List.foldl_cons, List.foldl_append]
        exact sound_deleted i _
    · exact cuts_created i hs (by simp) (by simp)
  | some status =>
    have htouch : s.disk.touch h.name .info = [] := by simp [Disk.touch, hinfo]
    generalize hs₁ : (s.disk.touch h.name .part).foldl (perform h.name i) s = s₁
    have hsound₁ : Sound h s₁ := hs₁ ▸ hs.touch i (by decide) rfl
    have hslot₁ {t : Slot} (ht : t ≠ .part) : s₁.disk.slot h.name t = s.disk.slot h.name t := by
      rw [← hs₁, foldl_disk]
      simp [ht]
    generalize hs₂ : (s.disk.touch h.name .cache).foldl (perform h.name i) s₁ = s₂
    have hsound₂ : Sound h s₂ := hs₂ ▸ hsound₁.touch i (by decide) (hslot₁ (by decide))
    have hinfo₂ : s₂.disk.slot h.name .info = some status := by
      rw [← hinfo, ← hslot₁ (by decide), ← hs₂, foldl_disk,
        slot_touch_of (hslot₁ (t := .cache) (by decide)), if_neg (by decide)]
    rw [htouch, List.nil_append]
    refine .append (cuts_touch i hs (by decide) rfl) ?_
    rw [hs₁]
    refine .append (cuts_touch i hsound₁ (by decide) (hslot₁ (by decide))) ?_
    rw [hs₂]
    split_ifs
    · have hsound₃ := hsound₂.removed i (t := .file) (by decide) (by decide)
      have hsound₄ {es : List Effect} (hc : Careful h s.disk es)
          (hpart : .removed (Slot.part.path h.name) ∈ es)
          (hnot : .removed (Slot.info.path h.name) ∉ es) :
          Sound h (perform h.name i (perform h.name i s₂ (.removed (Slot.file.path h.name)))
            (.removed (Slot.part.path h.name))) := by
        apply hsound₃.removed_part
        intro status' hstatus'
        obtain rfl : status = status' := by simpa [hinfo₂] using hstatus'
        exact (hc.cleared (.inr hpart)).elim (fun h => absurd h hnot) fun h => h status hinfo
      refine .cons (fun _ => hsound₂) (.cons (fun _ => hsound₃) (.cons (fun hc => ?_)
        (.cons (fun hc => ?_) (.nil fun _ => sound_deleted i s₂))))
      · exact hsound₄ hc (by simp) (by simp)
      · exact (hsound₄ hc (by simp) (by simp)).removed i (t := .cache) (by decide) (by decide)
    · exact .nil fun _ => hsound₂

/-- Every cut of a call. -/
lemma cuts_effects (env : Env) (hs : Sound h s) (c : FileCall) :
    Cuts (perform h.name (index c)) (Careful h s.disk) (Sound h) s (s.disk.effects env h c) := by
  cases c with
  | delete => exact cuts_delete _ hs
  | readPiece index => exact cuts_touch _ hs (by decide) rfl
  | download c =>
    cases c with
    | writePiece piece index => exact cuts_writePiece env hs piece index
    | isComplete =>
      exact cuts_statusEffects _ hs fun _ => not_careful_created (by simp) (by simp) (by simp)
    | build => exact cuts_build _ hs

end Calls

/-! ### Runs -/

section Runs

variable {env : Env} {h : InfoHash}

lemma executed_cut (d : Disk) (ev : Event) :
    executed env h d ev <+: d.effects env h ev.call := by
  rw [executed]
  rw [effects_eq]
  cases ev.stop with
  | none => exact List.prefix_refl _
  | some k => exact List.take_prefix k _

/-- The status file that is created to be read is filled. -/
lemma filled_statusEffects {d : Disk} {p : String} (hp : .created p ∈ d.statusEffects h) :
    .written (Slot.info.path h.name) 0 (List.replicate h.pieces.length 0)
      ∈ d.statusEffects h := by
  rw [Disk.statusEffects] at hp ⊢
  split_ifs at hp ⊢
  · exact absurd hp (by simp)
  · simp

lemma careful_statusEffects {d : Disk} : Careful h d (d.statusEffects h) where
  filled hcreated := .inl (filled_statusEffects hcreated)
  cleared hgone := absurd hgone
    (not_or_intro renamed_notMem_statusEffects removed_notMem_statusEffects)

/-- A call that is not stopped is careful, unless it deletes what is not there. -/
theorem careful_of_unstopped {d : Disk} {ev : Event} (hstop : ev.stop = none)
    (hdelete : ev.call = .delete →
      (d.slot h.name .info).isSome ∨ (d.slot h.name .file).isSome) :
    Careful h d (executed env h d ev) := by
  have hexecuted : executed env h d ev = d.effects env h ev.call := by
    rw [executed]
    rw [hstop, effects_eq]
  rw [hexecuted]
  cases hcall : ev.call with
  | readPiece index => constructor <;> simp [Disk.effects]
  | delete =>
    have hdelete := hdelete hcall
    constructor
    · intro hcreated
      right
      simp only [Disk.effects, Disk.delete] at hcreated ⊢
      cases hfile : d.slot h.name .file with
      | none =>
        simp [hfile] at hdelete hcreated
        simp [hcreated] at hdelete
      | some content => simp
    · intro hremoved
      left
      simp only [Disk.effects, Disk.delete] at hremoved ⊢
      split_ifs at hremoved ⊢ <;> simp at hremoved ⊢
  | download c =>
    cases c with
    | isComplete => exact careful_statusEffects
    | writePiece piece index =>
      simp only [Disk.effects, Disk.download, Disk.writePiece]
      cases mulU32 env index h.pieceLength with
      | error e => constructor <;> simp
      | ok offset =>
        simp only
        split_ifs
        · constructor
          · simpa using fun hcreated => Or.inl (filled_statusEffects hcreated)
          · simp [removed_notMem_statusEffects, renamed_notMem_statusEffects]
        · constructor
          · simpa using fun hcreated => Or.inl (Or.inl (filled_statusEffects hcreated))
          · simp [removed_notMem_statusEffects, renamed_notMem_statusEffects]
    | build =>
      simp only [Disk.effects, Disk.download, Disk.build]
      split_ifs
      · constructor
        · simpa using fun hcreated => Or.inl (filled_statusEffects hcreated)
        · simp [removed_notMem_statusEffects, renamed_notMem_statusEffects]
      · constructor <;> simp
      · exact careful_statusEffects

/-- What one step preserves. -/
lemma sound_step {s t : History} {ev : Event} (hs : Sound h s)
    (hcareful : Careful h s.disk (executed env h s.disk ev)) (ht : step env h s ev = some t) :
    Sound h t := by
  obtain rfl := Option.some.inj ht
  exact cuts_effects env hs ev.call _ (executed_cut s.disk ev) hcareful

end Runs

/-! ### Three pieces -/

def zeroEnv : Env := ⟨fun _ => Digest.zero, true⟩

/-- A file of five letters, in pieces of two. -/
def fiveLetters : InfoHash := ⟨"a", 5, 2, List.replicate 3 ⟨Digest.zero.val⟩⟩

/-- The last piece is written, then the process stops before the first one is marked, and writes it
once more. -/
def stoppedDownload : List Event :=
  [⟨.download (.writePiece [101] 2), none⟩, ⟨.download (.writePiece [97, 98] 0), some 1⟩,
    ⟨.download .isComplete, none⟩, ⟨.download (.writePiece [97, 98] 0), none⟩,
    ⟨.download (.writePiece [99, 100] 1), none⟩]

/-- A file of one piece. -/
def onePiece : InfoHash := ⟨"a", 1, 65536, [⟨[232, 239, 143, 30, 151, 182, 21, 50, 64, 24, 228, 52,
  194, 112, 183, 64, 127, 221, 117, 32]⟩]⟩

end History

end BearTorrent
