import BearTorrent.Lib.LexicalPath
import Mathlib.Algebra.Order.BigOperators.Group.List
import Mathlib.Algebra.Order.Group.Nat

/-!
# Following a path through folders

A path can only be followed when every component before the last leads to a folder, and when the
names in it are not longer than the file system takes.
-/

namespace LexicalPath

/-- The number of bytes of a component in UTF-8. -/
def byteLength : List Char → ℕ
  | []      => 0
  | c :: cs => c.utf8Size + byteLength cs

@[simp] lemma byteLength_append (cs cs' : List Char) :
    byteLength (cs ++ cs') = byteLength cs + byteLength cs' := by
  induction cs with
  | nil => exact (Nat.zero_add _).symm
  | cons c cs ih => rw [List.cons_append, byteLength, ih, byteLength, Nat.add_assoc]

/-- The folders of a file system, each in a folder, and the largest number of bytes that it takes in
the name of a file or folder. -/
structure FolderTree where
  folders : Location → Bool
  nameMax : ℕ
  parent : ∀ name loc, folders (name :: loc) = true → folders loc = true

/-- Why a path cannot be followed. -/
inductive FollowError where
  | notFound
  | notDirectory
  | nameTooLong
  | nulByte
  deriving DecidableEq, Repr

/-- What the components before the last lead to. -/
def visited : Location → List (List Char) → List Location
  | dir, c :: c' :: cs => enter dir c :: visited (enter dir c) (c' :: cs)
  | _, _               => []

namespace FolderTree

/-- Follow components as far as the last, where `isFile` says which locations are files. -/
def follow (t : FolderTree) (isFile : Location → Bool) :
    Location → List (List Char) → Except FollowError Unit
  | _, []              => .ok ()
  | _, [c]             => if t.nameMax < byteLength c then .error .nameTooLong else .ok ()
  | dir, c :: c' :: cs =>
    if t.nameMax < byteLength c then .error .nameTooLong
    else if t.folders (enter dir c) then t.follow isFile (enter dir c) (c' :: cs)
    else if isFile (enter dir c) then .error .notDirectory
    else .error .notFound

/-- Follow a path from a folder as far as its last component. -/
def reach (t : FolderTree) (isFile : Location → Bool) (dir : Location) (path : String) :
    Except FollowError Unit :=
  if '\x00' ∈ path.toList then .error .nulByte else t.follow isFile dir (components path.toList)

variable {t : FolderTree} {isFile : Location → Bool} {dir loc loc' : Location}
  {cs : List (List Char)} {path : String}

lemma follow_eq_ok_iff :
    t.follow isFile dir cs = .ok () ↔
      (∀ c ∈ cs, byteLength c ≤ t.nameMax) ∧ ∀ loc ∈ visited dir cs, t.folders loc = true := by
  fun_induction follow t isFile dir cs with
  | case1 dir => simp [visited]
  | case2 dir c hlong => simp [visited, hlong]
  | case3 dir c hshort => simp [visited, Nat.le_of_not_lt hshort]
  | case4 dir c c' cs hlong =>
    rw [List.forall_mem_cons]
    simp [Nat.not_le.mpr hlong]
  | case5 dir c c' cs hshort hfolder ih =>
    rw [ih, visited, List.forall_mem_cons (a := c), List.forall_mem_cons (a := enter dir c)]
    simp only [Nat.le_of_not_lt hshort, hfolder, true_and]
  | case6 dir c c' cs hshort hfolder hfile => simp [visited, hfolder]
  | case7 dir c c' cs hshort hfolder hfile => simp [visited, hfolder]

/-- The path can be followed, and no folder is where it leads. -/
structure Free (t : FolderTree) (dir : Location) (path : String) : Prop where
  nul : '\x00' ∉ path.toList
  names : ∀ c ∈ components path.toList, byteLength c ≤ t.nameMax
  visited : ∀ loc ∈ visited dir (components path.toList), t.folders loc = true
  last : t.folders (resolve dir path) = false

lemma reach_eq_ok_iff :
    t.reach isFile dir path = .ok () ↔
      '\x00' ∉ path.toList ∧ (∀ c ∈ components path.toList, byteLength c ≤ t.nameMax) ∧
        ∀ loc ∈ LexicalPath.visited dir (components path.toList), t.folders loc = true := by
  rw [reach]
  split_ifs with hnul
  · simp [hnul]
  · rw [follow_eq_ok_iff]
    simp [hnul]

lemma Free.reach_eq_ok (h : t.Free dir path) : t.reach isFile dir path = .ok () :=
  reach_eq_ok_iff.mpr ⟨h.nul, h.names, h.visited⟩

lemma free_of_reach (h : t.reach isFile dir path = .ok ())
    (hlast : t.folders (resolve dir path) = false) : t.Free dir path := by
  obtain ⟨hnul, hnames, hvisited⟩ := reach_eq_ok_iff.mp h
  exact ⟨hnul, hnames, hvisited, hlast⟩

/-- A folder is in folders all the way up. -/
lemma folders_of_suffix (h : loc <:+ loc') (hfolder : t.folders loc' = true) :
    t.folders loc = true := by
  induction loc' with
  | nil =>
    rw [List.suffix_nil.mp h]
    exact hfolder
  | cons name rest ih =>
    rcases List.suffix_cons_iff.mp h with rfl | h
    · exact hfolder
    · exact ih h (t.parent name rest hfolder)

/-- The folders with given locations, and those around them. -/
def around (locs : List Location) (nameMax : ℕ) : FolderTree where
  folders loc := locs.any fun l => decide (loc <:+ l)
  nameMax
  parent name loc h := by
    obtain ⟨l, hl, hsuffix⟩ := List.any_eq_true.mp h
    refine List.any_eq_true.mpr ⟨l, hl, decide_eq_true ?_⟩
    exact (List.suffix_cons name loc).trans (of_decide_eq_true hsuffix)

@[simp] lemma folders_around {locs : List Location} {n : ℕ} :
    (around locs n).folders loc = true ↔ ∃ l ∈ locs, loc <:+ l := by
  simp [around]

end FolderTree

/-- A file at the path excludes neither the folders `locs` nor those that the path goes through. -/
structure Creatable (locs : List Location) (dir : Location) (path : String) : Prop where
  nul : '\x00' ∉ path.toList
  apart : ∀ loc ∈ locs ++ visited dir (components path.toList), ¬ resolve dir path <:+ loc

instance (locs : List Location) (dir : Location) (path : String) :
    Decidable (Creatable locs dir path) :=
  decidable_of_iff (_ ∧ _) ⟨fun h => ⟨h.1, h.2⟩, fun h => ⟨h.nul, h.apart⟩⟩

section Creatable

variable {t : FolderTree} {locs : List Location} {dir : Location} {path : String} {n : ℕ}

/-- Where a path is free, a file can be. -/
lemma FolderTree.Free.creatable (h : t.Free dir path) (hlocs : ∀ loc ∈ locs, t.folders loc = true) :
    Creatable locs dir path := by
  refine ⟨h.nul, fun loc hloc hsuffix => ?_⟩
  have hfolder : t.folders loc = true := by
    rcases List.mem_append.mp hloc with hloc | hloc
    · exact hlocs loc hloc
    · exact h.visited loc hloc
  have hlast := folders_of_suffix hsuffix hfolder
  rw [h.last] at hlast
  cases hlast

/-- A path at which a file can be is free among the folders that it needs. -/
lemma Creatable.free (h : Creatable locs dir path)
    (hn : ∀ c ∈ components path.toList, byteLength c ≤ n) :
    (FolderTree.around (locs ++ visited dir (components path.toList)) n).Free dir path where
  nul := h.nul
  names := hn
  visited loc hloc :=
    FolderTree.folders_around.mpr ⟨loc, List.mem_append_right _ hloc, List.suffix_refl _⟩
  last := by
    rw [Bool.eq_false_iff, ne_eq, FolderTree.folders_around]
    rintro ⟨loc, hloc, hsuffix⟩
    exact h.apart loc hloc hsuffix

/-- A bound on the names in given paths. -/
lemma exists_nameMax (least : ℕ) (paths : List String) :
    ∃ n, least ≤ n ∧ ∀ path ∈ paths, ∀ c ∈ components path.toList, byteLength c ≤ n := by
  let names := paths.flatMap fun path => components path.toList
  refine ⟨least + (names.map byteLength).sum, Nat.le_add_right _ _, fun path hpath c hc => ?_⟩
  have hmem : byteLength c ∈ names.map byteLength :=
    List.mem_map_of_mem (List.mem_flatMap.mpr ⟨path, hpath, hc⟩)
  exact (List.single_le_sum (fun _ _ => Nat.zero_le _) _ hmem).trans (Nat.le_add_left _ _)

/-- The last component does not matter for what a path goes through. -/
lemma visited_append_singleton (dir : Location) (cs : List (List Char)) (c c' : List Char) :
    visited dir (cs ++ [c]) = visited dir (cs ++ [c']) := by
  induction cs generalizing dir with
  | nil => rfl
  | cons d cs ih =>
    cases cs with
    | nil => rfl
    | cons d' cs => exact congrArg (enter dir d :: ·) (ih (enter dir d))

end Creatable

end LexicalPath
