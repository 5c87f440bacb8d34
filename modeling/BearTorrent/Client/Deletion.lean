import BearTorrent.Client.CacheCoherence

/-!
# What `delete_file` leaves behind

The cache files of a name are looked up before the finished file, and looking one up creates it.
They are removed together with the finished file only.
-/

namespace BearTorrent

open FileSystem Effects

variable {d : Disk} {x y : EntryName}

/-- The disk after `delete_file`, which always returns `Ok`. -/
def Disk.deleted (d : Disk) (name : String) : Disk :=
  (runFrom (deleteFile name : DiskM Unit) d).2.1

/-- No file of the name is left, and the files of the other names are what they were. -/
structure DeletedCleanly (d : Disk) (x : EntryName) : Prop where
  returned : (runFrom (deleteFile x.val : DiskM Unit) d).1 = .ok ()
  gone : ∀ s, (d.deleted x.val).slot x.val s = none
  others : ∀ y, y ≠ x → ∀ s, (d.deleted x.val).slot y.val s = d.slot y.val s

lemma deleted_eq (d : Disk) (name : String) : d.deleted name = after (d.delete name) d := by
  rw [Disk.deleted, (performs_deleteFile d name).runFrom_eq]

/-- The effects are on the four files of the name. -/
lemma onSlots_delete (d : Disk) (name : String) :
    OnSlots name [.info, .part, .cache, .file] (d.delete name) := by
  simp only [Disk.delete, onSlots_append]
  refine ⟨onSlots_touch (by decide), onSlots_touch (by decide), onSlots_touch (by decide), ?_⟩
  split_ifs
  · simp [Effect.paths]
  · exact onSlots_nil

/-- The files of other names are never touched. -/
lemma slot_deleted_other (hne : y ≠ x) (s : Slot) :
    (d.deleted x.val).slot y.val s = d.slot y.val s := by
  rw [deleted_eq]
  exact slot_after_other (onSlots_delete d x.val) fun heq => absurd heq hne

/-- Nothing of a name is left behind if and only if its finished file was there. -/
theorem deletedCleanly_iff (d : Disk) (x : EntryName) :
    DeletedCleanly d x ↔ (d.slot x.val .file).isSome = true := by
  constructor
  · intro h
    by_contra hfile
    have hinfo := h.gone .info
    rw [deleted_eq, slot_delete_of_none d (Option.not_isSome_iff_eq_none.mp hfile) (by decide)]
      at hinfo
    cases hinfo
  · intro hfile
    refine ⟨?_, fun s => ?_, fun y hne s => slot_deleted_other hne s⟩
    · rw [(performs_deleteFile d x.val).runFrom_eq]
    · rw [deleted_eq, slot_delete_of_file d hfile]

/-- Without a finished file, all three files of the cache are there afterwards; those that were
missing are empty. -/
theorem deleted_leaves_cache (hfile : d.slot x.val .file = none) {s : Slot} (hs : s ≠ .file) :
    (d.deleted x.val).slot x.val s = some ((d.slot x.val s).getD []) := by
  rw [deleted_eq, slot_delete_of_none d hfile hs]

/-- Deleting a file that does not exist creates three. -/
theorem delete_creates_files :
    ¬ ∀ (d : Disk) (x : EntryName), (runFrom (deleteFile x.val : DiskM Unit) d).1 = .ok () →
      (∀ s, (d.deleted x.val).slot x.val s = none) ∧
        ∀ y, y ≠ x → ∀ s, (d.deleted x.val).slot y.val s = d.slot y.val s := by
  intro h
  have hinfo := (h ⟨[], fun _ => none⟩ CacheHistory.entryA
    (by rw [(performs_deleteFile _ CacheHistory.entryA.val).runFrom_eq])).1 .info
  rw [deleted_leaves_cache rfl (by decide)] at hinfo
  cases hinfo

end BearTorrent
