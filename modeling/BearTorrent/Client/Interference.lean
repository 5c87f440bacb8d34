import BearTorrent.Client.FileCalls
import BearTorrent.Lib.Unwinding

/-!
# Two downloads on one disk

The file handler finds the files of a download by the name of its info hash alone. Calls for two
downloads are interleaved in any order and the calls for the second are left out; the calls for the
first cannot tell the difference exactly when no file of the second is at a location of the first.
-/

namespace BearTorrent

open Effects LexicalPath Unwinding

/-- A call for the first download or for the second. -/
abbrev PairCall := DownloadCall ⊕ DownloadCall

/-- The disk after a call. -/
def Disk.next (d : Disk) (env : Env) (h : InfoHash) (c : DownloadCall) : Disk :=
  (runFrom (c.run env h) d).2.1

/-- The disk after a call for one of two downloads. -/
def pairStep (env : Env) (h₁ h₂ : InfoHash) (d : Disk) : PairCall → Disk
  | .inl c => d.next env h₁ c
  | .inr c => d.next env h₂ c

/-- A call that does not build its file. -/
def Pending (env : Env) (h : InfoHash) (d : Disk) (c : DownloadCall) : Prop :=
  c = .build → (runFrom (c.run env h) d).1 ≠ .ok .done

/-- Neither download is built by a call. -/
def PairPending (env : Env) (h₁ h₂ : InfoHash) (d : Disk) : PairCall → Prop
  | .inl c => Pending env h₁ d c
  | .inr c => Pending env h₂ d c

/-- What a call returns and leaves of its download: the `.part` file and the status. -/
structure Observation where
  result : Except Fault CallResult
  part : Option Bytes
  info : Option Bytes

def Disk.observe (d : Disk) (env : Env) (h : InfoHash) (c : DownloadCall) : Observation where
  result := (runFrom (c.run env h) d).1
  part := (d.next env h c).slot h.name .part
  info := (d.next env h c).slot h.name .info

/-- Every call for `h₁` returns and leaves what it would with the calls for `h₂` left out, whatever
is on the disk and in whatever order the calls are made, as long as neither has been built. -/
def Undisturbed (env : Env) (cwd : Location) (h₁ h₂ : InfoHash) : Prop :=
  ∀ (files : Location → Option Bytes) (calls : List PairCall) (c : DownloadCall),
    Along (pairStep env h₁ h₂) (PairPending env h₁ h₂) ⟨cwd, files⟩ calls →
      (calls.foldl (pairStep env h₁ h₂) ⟨cwd, files⟩).observe env h₁ c
        = ((calls.filter Sum.isLeft).foldl (pairStep env h₁ h₂) ⟨cwd, files⟩).observe env h₁ c

/-- The names lead to different files: the `.part` file and the finished file of the first are not
the `.part` or the `.info` file of the second. -/
def Apart (cwd : Location) (name₁ name₂ : String) : Prop :=
  locate cwd name₁ .part ≠ locate cwd name₂ .part ∧
    locate cwd name₁ .file ≠ locate cwd name₂ .part ∧
    locate cwd name₁ .file ≠ locate cwd name₂ .info

/-! ### Locations of two names -/

/-- Two names never share files of different kinds in the cache. -/
lemma locate_part_ne_info (cwd : Location) (name₁ name₂ : String) :
    locate cwd name₁ .part ≠ locate cwd name₂ .info := by
  rw [locate_cache cwd name₁ (by decide), locate_cache cwd name₂ (by decide)]
  intro h
  have hext := (List.append_inj' (List.cons.inj h).1 (by decide)).2
  exact absurd hext (by decide)

/-- Names without slashes lead to different files exactly when they are different. -/
theorem apart_iff_of_plain (cwd : Location) {name₁ name₂ : String} (h₁ : '/' ∉ name₁.toList)
    (h₂ : '/' ∉ name₂.toList) : Apart cwd name₁ name₂ ↔ name₁ ≠ name₂ := by
  have hfile {s : Slot} (hs : s ≠ .file) : locate cwd name₁ .file ≠ locate cwd name₂ s := by
    rw [locate_file_of_notMem cwd h₁, locate_cache_of_notMem cwd h₂ hs]
    intro heq
    by_cases hplain : Plain name₁.toList
    · rw [enter_of_plain hplain] at heq
      have hfolder := (List.cons.inj (List.cons.inj heq).2).1
      exact absurd hfolder (by decide)
    · have hle := length_enter_le hplain (filesFolder cwd)
      rw [heq] at hle
      simp only [cacheFolder, filesFolder, List.length_cons] at hle
      omega
  have hpart : locate cwd name₁ .part = locate cwd name₂ .part ↔ name₁ = name₂ := by
    rw [locate_cache_of_notMem cwd h₁ (by decide), locate_cache_of_notMem cwd h₂ (by decide)]
    simp [String.toList_inj]
  exact ⟨fun h heq => h.1 (hpart.mpr heq),
    fun hne => ⟨fun heq => hne (hpart.mp heq), hfile (by decide), hfile (by decide)⟩⟩

/-- Two names share their `.info` file exactly when they share their `.part` file. -/
lemma locate_info_eq_iff (cwd : Location) (name₁ name₂ : String) :
    locate cwd name₁ .info = locate cwd name₂ .info
      ↔ locate cwd name₁ .part = locate cwd name₂ .part := by
  rw [locate_cache cwd name₁ (by decide), locate_cache cwd name₂ (by decide),
    locate_cache cwd name₁ (by decide), locate_cache cwd name₂ (by decide)]
  simp

/-! ### Disks that agree on a download -/

/-- Two disks hold the same at some locations. -/
def Agree (locs : Set Location) (d d' : Disk) : Prop :=
  d.cwd = d'.cwd ∧ ∀ l ∈ locs, d.files l = d'.files l

/-- The locations that the calls for a download use. -/
def downloadFiles (cwd : Location) (name : String) : Set Location :=
  {l | ∃ s ∈ [Slot.part, .info, .file], l = locate cwd name s}

section Agree

variable {locs : Set Location} {d d' : Disk}

lemma Agree.set (h : Agree locs d d') {p : String} {c c' : Option Bytes} (hc : c = c') :
    Agree locs (d.set p c) (d'.set p c') := by
  refine ⟨h.1, fun l hl => ?_⟩
  simp only [Disk.set, Function.update_apply, h.1, hc, h.2 l hl]

lemma Agree.act (h : Agree locs d d') {e : Effect}
    (he : ∀ p ∈ e.paths, resolve d.cwd p ∈ locs) : Agree locs (act e d) (act e d') := by
  have hcontent (p : String) (hp : p ∈ e.paths) : d.content p = d'.content p := by
    unfold Disk.content
    rw [h.2 _ (he p hp), h.1]
  cases e with
  | created p => exact h.set rfl
  | opened p => exact h
  | written p offset bytes =>
    exact h.set (congrArg _ (hcontent p List.mem_cons_self))
  | renamed p q => exact (h.set rfl).set (hcontent p List.mem_cons_self)
  | removed p => exact h.set rfl

/-- The same effects on some locations keep two disks in agreement there. -/
lemma Agree.after (h : Agree locs d d') {es : List Effect}
    (hes : ∀ e ∈ es, ∀ p ∈ e.paths, resolve d.cwd p ∈ locs) :
    Agree locs (after es d) (after es d') := by
  induction es generalizing d d' with
  | nil => exact h
  | cons e es ih =>
    apply ih (h.act (hes e List.mem_cons_self))
    intro e' he'
    rw [cwd_act]
    exact hes e' (List.mem_cons_of_mem e he')

/-- Effects on other locations keep the agreement. -/
lemma Agree.after_left (h : Agree locs d d') {es : List Effect}
    (hes : ∀ e ∈ es, ∀ p ∈ e.paths, resolve d.cwd p ∉ locs) :
    Agree locs (Effects.after es d) d' := by
  refine ⟨(cwd_after es d).trans h.1, fun l hl => ?_⟩
  rw [files_after d fun e he p hp heq => hes e he p hp (heq ▸ hl)]
  exact h.2 l hl

lemma Agree.slot {name : String} (h : Agree (downloadFiles d.cwd name) d d') {s : Slot}
    (hs : s ∈ [Slot.part, .info, .file]) : d.slot name s = d'.slot name s := by
  have hfiles := h.2 (locate d.cwd name s) ⟨s, hs, rfl⟩
  unfold locate at hfiles
  unfold Disk.slot Disk.content
  rw [hfiles, h.1]

end Agree

/-- A call depends on the files of its download alone. -/
lemma download_congr {d d' : Disk} {h : InfoHash}
    (hslot : ∀ s ∈ [Slot.part, .info, .file], d.slot h.name s = d'.slot h.name s) (env : Env)
    (c : DownloadCall) : d.download env h c = d'.download env h c := by
  have hpart := hslot .part (by simp)
  have hinfo := hslot .info (by simp)
  have hfile := hslot .file (by simp)
  obtain ⟨hstatus, heffects⟩ := status_congr hinfo
  have hcomplete : d.complete h = d'.complete h := by rw [Disk.complete, Disk.complete, hstatus]
  have hbuild : d.build h = d'.build h := by
    rw [Disk.build, Disk.build, hcomplete, hfile, heffects, touch_congr hpart]
  cases c with
  | writePiece piece index =>
    simp only [Disk.download, Disk.writePiece, touch_congr hpart, hstatus, heffects]
  | isComplete => rw [Disk.download, Disk.download, hcomplete, heffects]
  | build => rw [Disk.download, Disk.download, hbuild]

lemma next_eq (d : Disk) (env : Env) (h : InfoHash) (c : DownloadCall) :
    d.next env h c = after (d.download env h c).2 d :=
  congrArg (fun r => r.2.1) (performs_download env h d c).runFrom_eq

lemma result_eq (d : Disk) (env : Env) (h : InfoHash) (c : DownloadCall) :
    (runFrom (c.run env h) d).1 = (d.download env h c).1 :=
  congrArg Prod.fst (performs_download env h d c).runFrom_eq

lemma onSlots_of_pending {env : Env} {h : InfoHash} {d : Disk} {c : DownloadCall}
    (hc : Pending env h d c) : OnSlots h.name [.part, .info] (d.download env h c).2 := by
  apply onSlots_pending
  intro hbuild
  rw [← result_eq]
  exact hc hbuild

/-- A call for a download acts on its own files. -/
lemma Agree.next {d d' : Disk} {h : InfoHash} (hd : Agree (downloadFiles d.cwd h.name) d d')
    (env : Env) (c : DownloadCall) :
    Agree (downloadFiles d.cwd h.name) (d.next env h c) (d'.next env h c) := by
  rw [next_eq, next_eq, ← download_congr (fun s hs => hd.slot hs) env c]
  apply hd.after
  intro e he p hp
  obtain ⟨s, hs, rfl⟩ := onSlots_download c e he p hp
  exact ⟨s, hs, rfl⟩

/-- A pending call for another download acts on other locations. -/
lemma Agree.next_other {cwd : Location} {d d' : Disk} {h₁ h₂ : InfoHash}
    (hapart : Apart cwd h₁.name h₂.name) (hcwd : d.cwd = cwd)
    (hd : Agree (downloadFiles cwd h₁.name) d d') {env : Env} {c : DownloadCall}
    (hc : Pending env h₂ d c) : Agree (downloadFiles cwd h₁.name) (d.next env h₂ c) d' := by
  rw [next_eq]
  apply hd.after_left
  rintro e he p hp ⟨s, hs, heq⟩
  obtain ⟨t, ht, rfl⟩ := onSlots_of_pending hc e he p hp
  change locate d.cwd h₂.name t = _ at heq
  obtain ⟨hpart, hfile₁, hfile₂⟩ := hapart
  rw [hcwd] at heq
  simp only [List.mem_cons, List.not_mem_nil, or_false] at hs ht
  rcases ht with rfl | rfl <;> rcases hs with rfl | rfl | rfl
  · exact hpart heq.symm
  · exact locate_part_ne_info cwd _ _ heq
  · exact hfile₁ heq.symm
  · exact locate_part_ne_info cwd _ _ heq.symm
  · exact hpart ((locate_info_eq_iff cwd _ _).mp heq.symm)
  · exact hfile₂ heq.symm

/-- What a call observes is what its download holds. -/
lemma observe_congr {cwd : Location} {d d' : Disk} {h : InfoHash} (hcwd : d.cwd = cwd)
    (hd : Agree (downloadFiles cwd h.name) d d') (env : Env) (c : DownloadCall) :
    d.observe env h c = d'.observe env h c := by
  subst hcwd
  have hnext := hd.next env c
  have hcwd : (d.next env h c).cwd = d.cwd := by rw [next_eq, cwd_after]
  rw [← hcwd] at hnext
  unfold Disk.observe
  rw [result_eq, result_eq, download_congr (fun s hs => hd.slot hs) env c,
    hnext.slot (s := .part) (by simp), hnext.slot (s := .info) (by simp)]

/-- Downloads at different locations do not interfere. -/
theorem undisturbed_of_apart {env : Env} {cwd : Location} {h₁ h₂ : InfoHash}
    (hapart : Apart cwd h₁.name h₂.name) : Undisturbed env cwd h₁ h₂ := by
  intro files calls c hcalls
  -- the relation of the unwinding: the two disks agree on the files of the first download
  let R (d d' : Disk) : Prop := d.cwd = cwd ∧ Agree (downloadFiles cwd h₁.name) d d'
  have hvisible (d d' : Disk) (a : PairCall) (ha : a.isLeft = true) (hd : R d d') :
      R (pairStep env h₁ h₂ d a) (pairStep env h₁ h₂ d' a) := by
    obtain ⟨hcwd, hd⟩ := hd
    cases a with
    | inr c => exact absurd ha (by simp)
    | inl c =>
      refine ⟨?_, ?_⟩
      · rw [pairStep, next_eq, cwd_after, hcwd]
      · subst hcwd
        exact hd.next env c
  have hhidden (d d' : Disk) (a : PairCall) (ha : a.isLeft = false)
      (hok : PairPending env h₁ h₂ d a) (hd : R d d') : R (pairStep env h₁ h₂ d a) d' := by
    obtain ⟨hcwd, hd⟩ := hd
    cases a with
    | inl c => exact absurd ha (by simp)
    | inr c =>
      refine ⟨?_, hd.next_other hapart hcwd hok⟩
      rw [pairStep, next_eq, cwd_after, hcwd]
  obtain ⟨hcwd, hagree⟩ :=
    related_filter (R := R) hvisible hhidden hcalls ⟨rfl, rfl, fun _ _ => rfl⟩
  exact observe_congr hcwd hagree env c

/-! ### Downloads that share a file -/

/-- A written piece leaves a `.part` file. -/
lemma part_of_writePiece (d : Disk) (env : Env) (h : InfoHash) (piece : Bytes)
    (index : UInt32) : ((d.next env h (.writePiece piece index)).slot h.name .part).isSome := by
  rw [next_eq, Disk.download, Disk.writePiece]
  cases mulU32 env index h.pieceLength with
  | error e => simp
  | ok offset =>
    have hinfo : (act (Effect.written (Slot.part.path h.name) offset.toNat piece)
        (after (d.touch h.name .part) d)).slot h.name .info = d.slot h.name .info := by simp
    simp only
    split_ifs <;> simp [after_append, slot_statusEffects_of hinfo]

/-- A written piece leaves a `.info` file where its status is set. -/
lemma info_of_writePiece {d : Disk} {env : Env} {h : InfoHash} {index offset : UInt32}
    (piece : Bytes) (hoff : mulU32 env index h.pieceLength = .ok offset)
    (hindex : index.toNat < (d.status h).length) :
    (d.next env h (.writePiece piece index)).slot h.name .info
      = some (Patch.patch 0 (d.status h) index.toNat [1]) := by
  have hinfo : (act (Effect.written (Slot.part.path h.name) offset.toNat piece)
      (after (d.touch h.name .part) d)).slot h.name .info = d.slot h.name .info := by simp
  rw [next_eq, Disk.download, Disk.writePiece, hoff]
  simp only [Nat.not_le.mpr hindex, if_false]
  simp [after_append, slot_statusEffects_of hinfo]

/-- A look at the status leaves a `.info` file. -/
lemma info_of_isComplete (d : Disk) (env : Env) (h : InfoHash) :
    ((d.next env h .isComplete).slot h.name .info).isSome := by
  rw [next_eq, Disk.download]
  simp

lemma cwd_next (d : Disk) (env : Env) (h : InfoHash) (c : DownloadCall) :
    (d.next env h c).cwd = d.cwd := by
  rw [next_eq, cwd_after]

/-- Files at one location have one content. -/
lemma slot_eq_of_locate {cwd : Location} {d : Disk} {name₁ name₂ : String} {s t : Slot}
    (hcwd : d.cwd = cwd) (h : locate cwd name₁ s = locate cwd name₂ t) :
    d.slot name₁ s = d.slot name₂ t := by
  subst hcwd
  exact congrArg d.files h

/-- One call for `h₂` is made before a call for `h₁`. -/
lemma observe_of_undisturbed {env : Env} {cwd : Location} {h₁ h₂ : InfoHash}
    (h : Undisturbed env cwd h₁ h₂) (d : Disk) (hcwd : d.cwd = cwd) (c₂ : DownloadCall)
    (hc₂ : c₂ ≠ .build) (c : DownloadCall) :
    (d.next env h₂ c₂).observe env h₁ c = d.observe env h₁ c := by
  subst hcwd
  exact h d.files [.inr c₂] c ⟨fun hbuild => absurd hbuild hc₂, trivial⟩

/-- A `.part` file of the second download shows up as the one of the first. -/
lemma not_undisturbed_of_part {env : Env} {cwd : Location} {h₁ h₂ : InfoHash}
    (hpart : locate cwd h₁.name .part = locate cwd h₂.name .part) :
    ¬ Undisturbed env cwd h₁ h₂ := by
  intro h
  let d : Disk := ⟨cwd, fun _ => none⟩
  have hsome := part_of_writePiece d env h₂ [] 0
  have hcwd : (d.next env h₂ (.writePiece [] 0)).cwd = cwd := cwd_next _ _ _ _
  rw [← slot_eq_of_locate hcwd hpart] at hsome
  have hobs := congrArg Observation.part
    (observe_of_undisturbed h d rfl (.writePiece [] 0) nofun .isComplete)
  simp only [Disk.observe, next_eq _ _ h₁, Disk.download, slot_statusEffects, reduceCtorEq,
    if_false] at hobs
  rw [hobs] at hsome
  exact absurd hsome (by simp [d, Disk.slot, Disk.content])

/-- A file of the second download where the first is to be built prevents the building. -/
lemma not_undisturbed_of_file {env : Env} {cwd : Location} {h₁ h₂ : InfoHash}
    (hpart : locate cwd h₁.name .part ≠ locate cwd h₂.name .part) (c₂ : DownloadCall)
    (hc₂ : c₂ ≠ .build) (hfile : ∀ d : Disk, d.cwd = cwd →
      ((d.next env h₂ c₂).slot h₁.name .file).isSome) : ¬ Undisturbed env cwd h₁ h₂ := by
  intro h
  generalize hd : (⟨cwd, fun _ => none⟩ : Disk).set (Slot.info.path h₁.name) (some []) = d
  have hcwd : d.cwd = cwd := by rw [← hd]; rfl
  have hinfo : d.slot h₁.name .info = some [] := by rw [← hd, Disk.slot_set, if_pos rfl]
  have hnone : d.slot h₁.name .file = none := by
    rw [← hd, Disk.slot_set, if_neg (by decide)]
    rfl
  have hinfo₂ : (d.next env h₂ c₂).slot h₁.name .info = some [] := by
    rw [← hinfo, next_eq]
    refine slot_after d h₁.name .info fun e he p hp => ?_
    obtain ⟨t, ht, rfl⟩ := onSlots_pending (fun hbuild => absurd hbuild hc₂) e he p hp
    change locate d.cwd h₁.name .info ≠ locate d.cwd h₂.name t
    rw [hcwd]
    simp only [List.mem_cons, List.not_mem_nil, or_false] at ht
    rcases ht with rfl | rfl
    · exact (locate_part_ne_info cwd _ _).symm
    · exact fun heq => hpart ((locate_info_eq_iff cwd _ _).mp heq)
  have hcomplete (d' : Disk) (hd' : d'.slot h₁.name .info = some []) :
      d'.complete h₁ = true := by
    rw [Disk.complete, Disk.status, hd']
    rfl
  have hobs := congrArg Observation.result
    (observe_of_undisturbed h d hcwd c₂ hc₂ .build)
  simp only [Disk.observe, result_eq, Disk.download, Disk.build, hcomplete _ hinfo,
    hcomplete _ hinfo₂, hfile d hcwd, hnone] at hobs
  exact absurd hobs (by simp [Except.map])

/-- Calls for two downloads do not interfere exactly when their names lead to different files. -/
theorem undisturbed_iff_apart (env : Env) (cwd : Location) (h₁ h₂ : InfoHash) :
    Undisturbed env cwd h₁ h₂ ↔ Apart cwd h₁.name h₂.name := by
  refine ⟨fun h => ?_, undisturbed_of_apart⟩
  have hpart : locate cwd h₁.name .part ≠ locate cwd h₂.name .part :=
    fun heq => not_undisturbed_of_part heq h
  refine ⟨hpart, fun heq => ?_, fun heq => ?_⟩
  · refine not_undisturbed_of_file hpart (.writePiece [] 0) nofun (fun d hd => ?_) h
    rw [slot_eq_of_locate (by rw [cwd_next, hd]) heq]
    exact part_of_writePiece d env h₂ [] 0
  · refine not_undisturbed_of_file hpart .isComplete nofun (fun d hd => ?_) h
    rw [slot_eq_of_locate (by rw [cwd_next, hd]) heq]
    exact info_of_isComplete d env h₂

/-! ### Two files of one name -/

/-- The files with the content `a` and with the content `b`, both of the name `a`. -/
def namesake₁ : InfoHash := ⟨"a", 1, 65536, [⟨[232, 239, 143, 30, 151, 182, 21, 50, 64, 24, 228, 52,
  194, 112, 183, 64, 127, 221, 117, 32]⟩]⟩

def namesake₂ : InfoHash := ⟨"a", 1, 65536, [⟨[162, 177, 117, 100, 182, 118, 192, 49, 144, 231, 90,
  11, 193, 254, 188, 0, 195, 46, 247, 155]⟩]⟩

/-- SHA-1 of the fields of the two info hashes. -/
def namesakeEnv : Env where
  sha1 bytes :=
    if bytes.getLast? = some 32 then
      ⟨[89, 31, 81, 0, 117, 39, 123, 5, 89, 85, 66, 108, 235, 44, 114, 163, 170, 167, 202, 173],
        rfl⟩
    else
      ⟨[88, 180, 72, 179, 103, 131, 121, 27, 38, 116, 178, 226, 32, 34, 166, 108, 24, 210, 16, 75],
        rfl⟩
  overflowChecks := true

/-- A piece of the second file counts as the piece of the first. -/
theorem namesake_counts_as_received :
    namesake₁.getHashedInfoHash namesakeEnv ≠ namesake₂.getHashedInfoHash namesakeEnv ∧
      ¬ Undisturbed namesakeEnv [] namesake₁ namesake₂ ∧
      (((⟨[], fun _ => none⟩ : Disk).next namesakeEnv namesake₂ (.writePiece [98] 0)).observe
        namesakeEnv namesake₁ .isComplete).result = .ok (.complete true) := by
  refine ⟨by decide, not_undisturbed_of_part rfl, ?_⟩
  generalize hd : (⟨[], fun _ => none⟩ : Disk) = d
  have hstatus : d.status namesake₂ = [0] := by rw [← hd]; rfl
  have hinfo : (d.next namesakeEnv namesake₂ (.writePiece [98] 0)).slot namesake₁.name .info
      = some [1] :=
    (info_of_writePiece [98] (mulU32_of_lt namesakeEnv (by decide))
      (by rw [hstatus]; decide)).trans (by rw [hstatus]; rfl)
  have hcomplete :
      (d.next namesakeEnv namesake₂ (.writePiece [98] 0)).complete namesake₁ = true := by
    rw [Disk.complete, Disk.status, hinfo]
    decide
  rw [Disk.observe, result_eq, Disk.download, hcomplete]

end BearTorrent
