import BearTorrent.Client.CacheCoherence

/-!
# Loading a cache file again

A `.filecache` file is loaded by the calls of `InfoHash::new` that come after the one that wrote
it. They get the same info hash when the name survives as a line of text. The file is created
before the content is read, and is written line by line, so a call that is stopped in between leaves
the first lines for all later calls.
-/

namespace BearTorrent

open FileSystem Effects TextFormat
open CacheHistory (scanEnv)

/-! ### The first lines of a cache file -/

/-- The loader gets to the fourth line, which is not the header. -/
def HeaderRejected (ls : List (List Char)) : Prop :=
  ∃ name length pieceLength header rest,
    ls = ("name: ".toList ++ name) :: ("file_length: ".toList ++ length) ::
      ("piece_length: ".toList ++ pieceLength) :: header :: rest ∧
    (parseUnsigned 64 length).isSome = true ∧ (parseUnsigned 32 pieceLength).isSome = true ∧
    trim header ≠ "pieces:".toList

section Lines

variable {h : InfoHash} {k : ℕ} {ls : List (List Char)}

/-- A missing line is a panic. -/
lemma nextLine_bind_eq_err {α : Type} {f : List Char × List (List Char) → Except Fault α}
    {message : String} :
    (nextLine ls >>= f) = .error (.err message) ↔
      ∃ line rest, ls = line :: rest ∧ f (line, rest) = .error (.err message) := by
  cases ls with
  | nil => simp [nextLine, bind, Except.bind]
  | cons line rest => simp [nextLine, bind, Except.bind]

/-- A missing value is a panic. -/
lemma orPanic_bind_eq_err {α β : Type} {o : Option α} {f : α → Except Fault β}
    {message : String} :
    (orPanic o >>= f) = .error (.err message) ↔ ∃ a, o = some a ∧ f a = .error (.err message) := by
  cases o with
  | none => simp [orPanic, bind, Except.bind]
  | some a => simp [orPanic, bind, Except.bind]

/-- Only the header makes the loader return an error. -/
lemma loadLines_eq_err :
    (∃ message, loadLines ls = .error (.err message)) ↔ HeaderRejected ls := by
  simp only [loadLines, nextLine_bind_eq_err, orPanic_bind_eq_err, stripPrefix?_eq_some]
  constructor
  · rintro ⟨message, _, _, rfl, name, rfl, _, _, rfl, length, rfl, fileLength, hlength, _, _, rfl,
      pieceLength, rfl, value, hpiece, header, rest, rfl, hload⟩
    refine ⟨name, length, pieceLength, header, rest, rfl, ?_, ?_, fun htrim => ?_⟩
    · rw [hlength]
      rfl
    · rw [hpiece]
      rfl
    · rw [if_neg (not_not.mpr htrim)] at hload
      obtain ⟨pieces, -, hload⟩ := orPanic_bind_eq_err.mp hload
      cases hload
  · rintro ⟨name, length, pieceLength, header, rest, rfl, hlength, hpiece, htrim⟩
    obtain ⟨fileLength, hlength⟩ := Option.isSome_iff_exists.mp hlength
    obtain ⟨value, hpiece⟩ := Option.isSome_iff_exists.mp hpiece
    refine ⟨"Invalid header", _, _, rfl, name, rfl, _, _, rfl, length, rfl, fileLength, hlength, _,
      _, rfl, pieceLength, rfl, value, hpiece, header, rest, rfl, ?_⟩
    rw [if_pos htrim]
    rfl

lemma length_cacheLines (h : InfoHash) : (cacheLines h).length = h.pieces.length + 4 := by
  rw [cacheLines, List.length_append, List.length_map, Nat.add_comm]
  rfl

/-- With the fields and some of the pieces, the lines are those of an info hash that has no others. -/
lemma cacheLines_take (h : InfoHash) (k : ℕ) :
    (cacheLines h).take (k + 4) = cacheLines { h with pieces := h.pieces.take k } := by
  simp [cacheLines, List.map_take]

/-- The loader needs the fields, and takes the pieces that it finds. -/
lemma loadLines_take (h : InfoHash) (k : ℕ) :
    loadLines ((cacheLines h).take k)
      = if k < 4 then .error .panic else .ok { h with pieces := h.pieces.take (k - 4) } := by
  split_ifs with hk
  · have hlength : parseUnsigned 64 (decimal h.fileLength.toNat) = some h.fileLength.toNat :=
      parseUnsigned_decimal h.fileLength.toNat_lt
    have hpiece : parseUnsigned 32 (decimal h.pieceLength.toNat) = some h.pieceLength.toNat :=
      parseUnsigned_decimal h.pieceLength.toNat_lt
    have hcases : k = 0 ∨ k = 1 ∨ k = 2 ∨ k = 3 := by omega
    rcases hcases with rfl | rfl | rfl | rfl <;>
      simp only [cacheLines, List.cons_append, List.nil_append, List.take_succ_cons, List.take_zero,
        loadLines, nextLine, bind, Except.bind, stripPrefix?_append, orPanic, hlength, hpiece]
  · obtain ⟨j, rfl⟩ := Nat.exists_eq_add_of_le' (Nat.not_lt.mp hk)
    rw [cacheLines_take, loadLines_cacheLines, Nat.add_sub_cancel]

/-- A name without line breaks is read back, with the pieces that are there. -/
lemma loadFileCache_take (h : InfoHash) (k : ℕ) (hname : IsLine h.name.toList) :
    loadFileCache (((cacheLines h).take k).flatMap lineBytes)
      = if k < 4 then .error .panic else .ok { h with pieces := h.pieces.take (k - 4) } := by
  have hlines : ∀ line ∈ (cacheLines h).take k, IsLine line := fun line hline =>
    isLine_of_mem_cacheLines hname line (List.mem_of_mem_take hline)
  rw [loadFileCache_lines, lines_unlines hlines, loadLines_take]

/-- The first lines are loaded as the whole info hash exactly when they are all and the name is a
line. -/
lemma loadFileCache_take_iff (h : InfoHash) (k : ℕ) :
    loadFileCache (((cacheLines h).take k).flatMap lineBytes) = .ok h ↔
      IsLine h.name.toList ∧ h.pieces.length + 4 ≤ k := by
  constructor
  · intro hload
    have hname : IsLine h.name.toList := by
      rw [loadFileCache_lines] at hload
      cases k with
      | zero => cases hload
      | succ k => exact isLine_of_loadLines rfl hload
    rw [loadFileCache_take h k hname] at hload
    split_ifs at hload with hk
    have hpieces := congrArg (fun h => h.pieces.length) (Except.ok.inj hload)
    simp only [List.length_take] at hpieces
    exact ⟨hname, by omega⟩
  · rintro ⟨hname, hk⟩
    rw [loadFileCache_take h k hname, if_neg (by omega), List.take_of_length_le (by omega)]

/-- The lines of a name without line breaks never have another header. -/
lemma not_headerRejected_take (h : InfoHash) (k : ℕ) (hname : IsLine h.name.toList) :
    ¬ HeaderRejected (lines (unlines ((cacheLines h).take k))) := by
  rw [← loadLines_eq_err, ← loadFileCache_lines, loadFileCache_take h k hname]
  split_ifs <;> simp

end Lines

/-! ### The calls that come after -/

section Calls

variable {env : Env} {d : Disk} {name : String} {content : Bytes}

/-- The info hash of a file does not depend on the reads. -/
lemma compute_sizes (env : Env) (name : String) (content : Bytes) (sizes sizes' : ℕ → ℕ) :
    InfoHash.compute env name content sizes = .compute env name content sizes' :=
  compute_eq_iff.mpr ⟨rfl, rfl⟩

/-- A call that finds a `.filecache` file loads it and changes nothing. -/
lemma runFrom_newInfoHash_cached {contents : Bytes} (hcache : d.slot name .cache = some contents)
    (sizes : ℕ → ℕ) :
    runFrom (newInfoHash env name sizes : DiskM InfoHash) d = (loadFileCache contents, d, []) := by
  rw [(performs_newInfoHash env d name sizes).runFrom_eq]
  simp [Disk.newInfoHash, hcache]

/-- A call that finds none computes the info hash and writes it. -/
lemma runFrom_newInfoHash_fresh (env : Env) (hfile : d.slot name .file = some content)
    (hcache : d.slot name .cache = none) (sizes : ℕ → ℕ) :
    ∃ d', runFrom (newInfoHash env name sizes : DiskM InfoHash) d
        = (.ok (.compute env name content sizes), d', (d.newInfoHash env name sizes).2) ∧
      d'.slot name .cache = some (cacheText (.compute env name content sizes)) := by
  refine ⟨after (d.newInfoHash env name sizes).2 d, ?_, ?_⟩
  · rw [(performs_newInfoHash env d name sizes).runFrom_eq]
    simp [Disk.newInfoHash, hcache, hfile]
  · rw [slot_newInfoHash, hcache, hfile]

/-- A call of `InfoHash::new` loads from the `.filecache` file what the call that wrote it returned
if and only if the name contains no line feed and does not end in a carriage return. -/
theorem cache_round_trips_iff (hfile : d.slot name .file = some content)
    (hcache : d.slot name .cache = none) (sizes sizes' : ℕ → ℕ) :
    (runFrom (newInfoHash env name sizes : DiskM InfoHash) d).1
        = .ok (.compute env name content sizes) ∧
      ((runFrom (newInfoHash env name sizes' : DiskM InfoHash)
            (runFrom (newInfoHash env name sizes : DiskM InfoHash) d).2.1).1
          = .ok (.compute env name content sizes) ↔ IsLine name.toList) := by
  obtain ⟨d', hrun, hwritten⟩ := runFrom_newInfoHash_fresh env hfile hcache sizes
  have hname : (InfoHash.compute env name content sizes).name = name := rfl
  generalize InfoHash.compute env name content sizes = h at hrun hwritten hname ⊢
  rw [hrun]
  refine ⟨rfl, ?_⟩
  rw [runFrom_newInfoHash_cached hwritten, loadFileCache_cacheText_iff, hname]

/-- A folder with one file, of one byte. -/
def oneByteDisk (name : String) : Disk :=
  (⟨[], fun _ => none⟩ : Disk).set (filePath name) (some [1])

lemma slot_oneByteDisk (name : String) (s : Slot) :
    (oneByteDisk name).slot name s = if s = .file then some [1] else none :=
  Disk.slot_set _ name .file s (some [1])

theorem cache_round_trips_letter :
    let first := runFrom (newInfoHash scanEnv "a" (fun _ => 1) : DiskM InfoHash) (oneByteDisk "a")
    first.1 = .ok (.compute scanEnv "a" [1] fun _ => 1) ∧
      (runFrom (newInfoHash scanEnv "a" (fun _ => 1) : DiskM InfoHash) first.2.1).1
        = .ok (.compute scanEnv "a" [1] fun _ => 1) := by
  obtain ⟨hfirst, hsecond⟩ := cache_round_trips_iff (slot_oneByteDisk "a" .file)
    (slot_oneByteDisk "a" .cache) (fun _ => 1) fun _ => 1
  exact ⟨hfirst, hsecond.mpr ⟨by decide, by decide⟩⟩

/-- A carriage return at the end of the name is lost. -/
theorem carriage_return_is_lost :
    let first := runFrom (newInfoHash scanEnv "a\r" (fun _ => 1) : DiskM InfoHash)
      (oneByteDisk "a\r")
    "a\r" ≠ "" ∧ '/' ∉ "a\r".toList ∧ Char.ofNat 0 ∉ "a\r".toList ∧
      first.1 = .ok (.compute scanEnv "a\r" [1] fun _ => 1) ∧
      (runFrom (newInfoHash scanEnv "a\r" (fun _ => 1) : DiskM InfoHash) first.2.1).1
        ≠ .ok (.compute scanEnv "a\r" [1] fun _ => 1) := by
  obtain ⟨hfirst, hsecond⟩ := cache_round_trips_iff (slot_oneByteDisk "a\r" .file)
    (slot_oneByteDisk "a\r" .cache) (fun _ => 1) fun _ => 1
  refine ⟨by decide, by decide, by decide, hfirst, fun hload => ?_⟩
  exact absurd (hsecond.mp hload).getLast (by decide)

end Calls

/-! ### A call that is stopped -/

section Stopped

variable {env : Env} {d : Disk} {name : String} {content : Bytes} {h : InfoHash} {k : ℕ}
  {sizes : ℕ → ℕ}

/-- The disk that a call of `InfoHash::new` leaves when it is stopped after `k` effects. The first
effect creates the `.filecache` file, each of the others writes a line. -/
def Disk.stopped (d : Disk) (env : Env) (name : String) (sizes : ℕ → ℕ) (k : ℕ) : Disk :=
  after ((runFrom (BearTorrent.newInfoHash env name sizes : DiskM InfoHash) d).2.2.take k) d

/-- The disk after further calls for the same file. -/
def Disk.rescanned (d : Disk) (env : Env) (name : String) (later : List (ℕ → ℕ)) : Disk :=
  later.foldl (fun d sizes =>
    (runFrom (BearTorrent.newInfoHash env name sizes : DiskM InfoHash) d).2.1) d

/-- The result is the info hash `h` or an `Err`. -/
def FreshOrErr (h : InfoHash) (result : Except Fault InfoHash) : Prop :=
  result = .ok h ∨ ∃ message, result = .error (.err message)

/-- Every further call for the file returns the info hash `h` or an `Err`. -/
def RescansHarmless (env : Env) (name : String) (h : InfoHash) (d : Disk) : Prop :=
  ∀ later sizes, FreshOrErr h
    (runFrom (newInfoHash env name sizes : DiskM InfoHash) (d.rescanned env name later)).1

/-- The lines that the further calls load: those that the stopped call had written, or all lines if
it had not even created the file, since the next call then does. -/
def linesLeft (h : InfoHash) : ℕ → List (List Char)
  | 0     => cacheLines h
  | k + 1 => (cacheLines h).take k

lemma lineEffects_take (path : String) (offset : ℕ) (ls : List (List Char)) (k : ℕ) :
    (lineEffects path offset ls).take k = lineEffects path offset (ls.take k) := by
  induction ls generalizing offset k with
  | nil => rw [lineEffects, List.take_nil, List.take_nil, lineEffects]
  | cons line ls ih =>
    cases k with
    | zero => rfl
    | succ k => rw [lineEffects, List.take_succ_cons, ih, List.take_succ_cons, lineEffects]

lemma stopped_eq (d : Disk) (env : Env) (name : String) (sizes : ℕ → ℕ) (k : ℕ) :
    d.stopped env name sizes k = after ((d.newInfoHash env name sizes).2.take k) d := by
  rw [Disk.stopped, (performs_newInfoHash env d name sizes).runFrom_eq]

lemma stopped_zero : d.stopped env name sizes 0 = d := rfl

/-- The lines that were written are there. -/
lemma slot_stopped_succ (env : Env) (hfile : d.slot name .file = some content)
    (hcache : d.slot name .cache = none) (sizes : ℕ → ℕ) (k : ℕ) :
    (d.stopped env name sizes (k + 1)).slot name .cache
      = some (((cacheLines (.compute env name content sizes)).take k).flatMap lineBytes) := by
  have hempty : (act (Effect.created (Slot.cache.path name)) d).slot name .cache = some [] := by
    simp
  have hlines := slot_lineEffects hempty
    ((cacheLines (.compute env name content sizes)).take k) .cache
  rw [if_pos rfl, List.nil_append, List.length_nil] at hlines
  simp only [stopped_eq, Disk.newInfoHash, hcache, hfile]
  rw [List.take_succ_cons, after_cons, lineEffects_take, hlines]

/-- With a `.filecache` file, all further calls load it. -/
lemma rescansHarmless_cached {contents : Bytes} (hcache : d.slot name .cache = some contents) :
    RescansHarmless env name h d ↔ FreshOrErr h (loadFileCache contents) := by
  have hsame : ∀ later, d.rescanned env name later = d := fun later => by
    induction later with
    | nil => rfl
    | cons sizes later ih =>
      rw [Disk.rescanned, List.foldl_cons, runFrom_newInfoHash_cached hcache]
      exact ih
  constructor
  · intro hall
    have hfirst := hall [] fun _ => 0
    rwa [hsame, runFrom_newInfoHash_cached hcache] at hfirst
  · intro hload later sizes
    rwa [hsame, runFrom_newInfoHash_cached hcache]

/-- Without one, the first of them writes it. -/
lemma rescansHarmless_fresh (hfirst : ∀ sizes, ∃ d' es,
      runFrom (newInfoHash env name sizes : DiskM InfoHash) d = (.ok h, d', es) ∧
        d'.slot name .cache = some (cacheText h)) :
    RescansHarmless env name h d ↔ FreshOrErr h (loadFileCache (cacheText h)) := by
  constructor
  · intro hall
    obtain ⟨d', es, hrun, hwritten⟩ := hfirst fun _ => 0
    have hcached : RescansHarmless env name h d' := fun later sizes => by
      have hlater := hall ((fun _ => 0) :: later) sizes
      rwa [Disk.rescanned, List.foldl_cons, hrun] at hlater
    exact (rescansHarmless_cached hwritten).mp hcached
  · intro hload later sizes
    cases later with
    | nil =>
      obtain ⟨d', es, hrun, -⟩ := hfirst sizes
      rw [Disk.rescanned, List.foldl_nil, hrun]
      exact .inl rfl
    | cons first later =>
      obtain ⟨d', es, hrun, hwritten⟩ := hfirst first
      rw [Disk.rescanned, List.foldl_cons, hrun]
      exact (rescansHarmless_cached hwritten).mpr hload later sizes

/-- What becomes of a call that loads the first lines. -/
lemma freshOrErr_take_iff (h : InfoHash) (k : ℕ) :
    FreshOrErr h (loadFileCache (((cacheLines h).take k).flatMap lineBytes)) ↔
      IsLine h.name.toList ∧ h.pieces.length + 4 ≤ k ∨
        HeaderRejected (lines (unlines ((cacheLines h).take k))) := by
  rw [FreshOrErr, loadFileCache_take_iff, loadFileCache_lines, loadLines_eq_err]

/-- After a call that was stopped, all further calls return the info hash of the file or an `Err`
if and only if the name contains no line feed and does not end in a carriage return, and the call
had not created the `.filecache` file or had written all its lines, or else the name makes the
loader reject the fourth line. The latter takes a name with line feeds. -/
theorem stopped_harmless_iff (hfile : d.slot name .file = some content)
    (hcache : d.slot name .cache = none) (sizes : ℕ → ℕ) (k : ℕ) :
    (RescansHarmless env name (.compute env name content sizes) (d.stopped env name sizes k) ↔
      IsLine name.toList ∧
          (k = 0 ∨ (InfoHash.compute env name content sizes).pieces.length + 5 ≤ k) ∨
        HeaderRejected (lines (unlines (linesLeft (.compute env name content sizes) k)))) ∧
      (IsLine name.toList →
        ¬ HeaderRejected (lines (unlines (linesLeft (.compute env name content sizes) k)))) := by
  have hfirst : ∀ sizes', ∃ d' es,
      runFrom (newInfoHash env name sizes' : DiskM InfoHash) d
        = (.ok (.compute env name content sizes), d', es) ∧
      d'.slot name .cache = some (cacheText (.compute env name content sizes)) := fun sizes' => by
    obtain ⟨d', hrun, hwritten⟩ := runFrom_newInfoHash_fresh env hfile hcache sizes'
    rw [compute_sizes env name content sizes' sizes] at hrun hwritten
    exact ⟨d', _, hrun, hwritten⟩
  have hname : (InfoHash.compute env name content sizes).name = name := rfl
  have hstopped := slot_stopped_succ env hfile hcache sizes
  generalize InfoHash.compute env name content sizes = h at hfirst hname hstopped ⊢
  have hwhole := List.take_of_length_le (length_cacheLines h).le
  cases k with
  | zero =>
    have htake := freshOrErr_take_iff h (h.pieces.length + 4)
    have hline := not_headerRejected_take h (h.pieces.length + 4)
    rw [hwhole, hname] at htake hline
    rw [linesLeft, stopped_zero, rescansHarmless_fresh hfirst]
    refine ⟨htake.trans (or_congr_left ?_), hline⟩
    simp
  | succ k =>
    have hline := not_headerRejected_take h k
    rw [linesLeft, rescansHarmless_cached (hstopped k), freshOrErr_take_iff]
    rw [hname] at hline ⊢
    refine ⟨or_congr_left ?_, hline⟩
    simp

lemma length_pieces_letter :
    (InfoHash.compute scanEnv "a" [1] fun _ => 1).pieces.length = 1 := by
  rw [compute_pieces_length, compute_pieceLength]
  decide

/-- A call that was stopped when all lines were written. -/
theorem stopped_harmless_letter :
    RescansHarmless scanEnv "a" (.compute scanEnv "a" [1] fun _ => 1)
      ((oneByteDisk "a").stopped scanEnv "a" (fun _ => 1) 6) := by
  obtain ⟨hiff, -⟩ := stopped_harmless_iff (slot_oneByteDisk "a" .file)
    (slot_oneByteDisk "a" .cache) (fun _ => 1) 6
  exact hiff.mpr (.inl ⟨⟨by decide, by decide⟩, .inr (by rw [length_pieces_letter])⟩)

/-- After a call that was stopped when the `.filecache` file was created, the next one panics. After
one that was stopped before the first hash, it returns an info hash without pieces. -/
theorem stopped_call_harms :
    let h : InfoHash := .compute scanEnv "a" [1] fun _ => 1
    let later (k : ℕ) := (runFrom (newInfoHash scanEnv "a" (fun _ => 1) : DiskM InfoHash)
      ((oneByteDisk "a").stopped scanEnv "a" (fun _ => 1) k)).1
    h.pieces.length = 1 ∧ later 1 = .error .panic ∧ later 5 = .ok { h with pieces := [] } := by
  intro h later
  have hlater : ∀ k, later (k + 1)
      = if k < 4 then .error .panic else .ok { h with pieces := h.pieces.take (k - 4) } := fun k => by
    have hwritten := slot_stopped_succ scanEnv (slot_oneByteDisk "a" .file)
      (slot_oneByteDisk "a" .cache) (fun _ => 1) k
    simp only [later, runFrom_newInfoHash_cached hwritten]
    have hname : IsLine "a".toList := ⟨by decide, by decide⟩
    exact loadFileCache_take h k hname
  exact ⟨length_pieces_letter, hlater 0, hlater 4⟩

end Stopped

end BearTorrent
