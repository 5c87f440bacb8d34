import Mathlib.Data.List.Basic

/-!
# Where a path leads

A relative path is a list of components between slashes. It is resolved from a folder by walking
through them: an empty component and `.` stay, `..` leaves the folder, every other component enters
a folder or names a file. Links are not followed. The root has no folder above it.
-/

namespace LexicalPath

/-- A file or folder: the names of the folders around it, its own name first. -/
abbrev Location := List (List Char)

/-- The components of a path. -/
def components (path : List Char) : List (List Char) := path.splitOn '/'

/-- Follow one component. -/
def enter (dir : Location) (c : List Char) : Location :=
  if c = [] ∨ c = ['.'] then dir else if c = ['.', '.'] then dir.tail else c :: dir

/-- Follow a list of components. -/
def walk (dir : Location) (cs : List (List Char)) : Location := cs.foldl enter dir

/-- Where a path leads from a folder. -/
def resolve (dir : Location) (path : String) : Location := walk dir (components path.toList)

/-- `loc` is the folder `dir` or lies inside it. -/
def Within (dir loc : Location) : Prop := dir <:+ loc

instance (dir loc : Location) : Decidable (Within dir loc) :=
  inferInstanceAs (Decidable (dir <:+ loc))

/-- A component that enters a folder or names a file. -/
def Plain (c : List Char) : Prop := c ≠ [] ∧ c ≠ ['.'] ∧ c ≠ ['.', '.']

/-! ### Walking -/

@[simp] lemma walk_nil (dir : Location) : walk dir [] = dir := rfl

@[simp] lemma walk_cons (dir : Location) (c : List Char) (cs : List (List Char)) :
    walk dir (c :: cs) = walk (enter dir c) cs := rfl

lemma walk_append (dir : Location) (cs cs' : List (List Char)) :
    walk dir (cs ++ cs') = walk (walk dir cs) cs' :=
  List.foldl_append

lemma enter_of_plain {c : List Char} (h : Plain c) (dir : Location) : enter dir c = c :: dir := by
  rw [enter, if_neg (not_or_intro h.1 h.2.1), if_neg h.2.2]

lemma length_enter {dir dir' : Location} (h : dir.length = dir'.length) (c : List Char) :
    (enter dir c).length = (enter dir' c).length := by
  unfold enter
  split_ifs
  · exact h
  · rw [List.length_tail, List.length_tail, h]
  · rw [List.length_cons, List.length_cons, h]

/-- The depth that a walk leads to depends on the depth where it starts. -/
lemma length_walk {dir dir' : Location} (h : dir.length = dir'.length) (cs : List (List Char)) :
    (walk dir cs).length = (walk dir' cs).length := by
  induction cs generalizing dir dir' with
  | nil => exact h
  | cons c cs ih => exact ih (length_enter h c)

/-- A component that does not enter anything leads no deeper. -/
lemma length_enter_le {c : List Char} (h : ¬ Plain c) (dir : Location) :
    (enter dir c).length ≤ dir.length := by
  rw [enter]
  split_ifs with h₁ h₂
  · exact Nat.le_refl _
  · rw [List.length_tail]
    exact Nat.sub_le _ _
  · rw [not_or] at h₁
    exact absurd ⟨h₁.1, h₁.2, h₂⟩ h

lemma plain_of_length {c : List Char} (h : 3 ≤ c.length) : Plain c := by
  refine ⟨?_, ?_, ?_⟩ <;> rintro rfl <;> simp at h

lemma walk_append_singleton (dir : Location) (cs : List (List Char)) (c : List Char) :
    walk dir (cs ++ [c]) = enter (walk dir cs) c :=
  walk_append dir cs [c]

/-- With different extensions a name leads to different files, from any two folders of one
depth. -/
lemma walk_append_ne {dir dir' : Location} (hdir : dir.length = dir'.length)
    (cs : List (List Char)) (c : List Char) {e e' : List Char} (he : 3 ≤ e.length)
    (hne : e ≠ e') : walk dir (cs ++ [c ++ e]) ≠ walk dir' (cs ++ [c ++ e']) := by
  have hlen := length_walk hdir cs
  have hplain : Plain (c ++ e) := plain_of_length (by rw [List.length_append]; omega)
  rw [walk_append_singleton, walk_append_singleton, enter_of_plain hplain]
  intro h
  by_cases hplain' : Plain (c ++ e')
  · rw [enter_of_plain hplain'] at h
    exact hne (List.append_cancel_left (List.cons.inj h).1)
  · have hle := length_enter_le hplain' (walk dir' cs)
    rw [← h, List.length_cons] at hle
    omega

/-- Without `..` a walk stays inside the folder where it starts. -/
lemma within_walk {dir loc : Location} (h : Within dir loc) {cs : List (List Char)}
    (hcs : ['.', '.'] ∉ cs) : Within dir (walk loc cs) := by
  induction cs generalizing loc with
  | nil => exact h
  | cons c cs ih =>
    rw [List.mem_cons, not_or] at hcs
    apply ih _ hcs.2
    rw [enter]
    split_ifs with _ hc
    · exact h
    · exact absurd hc.symm hcs.1
    · exact h.trans (List.suffix_cons c loc)

/-- Followed from two folders side by side, components lead to the same place, or into each. -/
lemma walk_siblings (a b : List Char) (dir : Location) (cs : List (List Char)) (loc : Location) :
    walk (loc ++ a :: dir) cs = walk (loc ++ b :: dir) cs ∨
      ∃ loc', walk (loc ++ a :: dir) cs = loc' ++ a :: dir ∧
        walk (loc ++ b :: dir) cs = loc' ++ b :: dir := by
  induction cs generalizing loc with
  | nil => exact .inr ⟨loc, rfl, rfl⟩
  | cons c cs ih =>
    simp only [walk_cons, enter]
    split_ifs
    · exact ih loc
    · cases loc with
      | nil => exact .inl rfl
      | cons _ loc => exact ih loc
    · exact ih (c :: loc)

/-- One more component that leads neither to a folder nor to one around it. -/
lemma within_enter_iff {dir loc : Location} {c : List Char} (h : ¬ enter loc c <:+ dir) :
    Within dir (enter loc c) ↔ Within dir loc := by
  rw [enter] at h ⊢
  split_ifs at h ⊢
  · exact Iff.rfl
  · cases loc with
    | nil => exact Iff.rfl
    | cons name loc =>
      refine ⟨fun hin => hin.trans (List.suffix_cons name loc), fun hin => ?_⟩
      rcases List.suffix_cons_iff.mp hin with rfl | hin
      · exact absurd (List.suffix_cons name loc) h
      · exact hin
  · refine ⟨fun hin => ?_, fun hin => hin.trans (List.suffix_cons c loc)⟩
    rcases List.suffix_cons_iff.mp hin with rfl | hin
    · exact absurd (List.suffix_refl _) h
    · exact hin

/-! ### Components -/

lemma components_append_cons (s t : List Char) :
    components (s ++ '/' :: t) = components s ++ components t :=
  List.splitOn_append_cons_self s t

lemma components_of_notMem {s : List Char} (h : '/' ∉ s) : components s = [s] :=
  List.splitOn_eq_singleton h

/-- The components of a path, without its last. -/
def folders (path : List Char) : List (List Char) := (components path).dropLast

/-- The last component of a path. -/
def fileName (path : List Char) : List Char := (components path).getLastD []

/-- A path is its last component, or ends with a slash and its last component. -/
lemma exists_last_slash (s : List Char) :
    '/' ∉ s ∨ ∃ t u, s = t ++ '/' :: u ∧ '/' ∉ u := by
  induction s with
  | nil => exact .inl List.not_mem_nil
  | cons c s ih =>
    rcases ih with h | ⟨t, u, rfl, hu⟩
    · by_cases hc : c = '/'
      · exact .inr ⟨[], s, by rw [hc, List.nil_append], h⟩
      · exact .inl (List.not_mem_cons_of_ne_of_not_mem (Ne.symm hc) h)
    · exact .inr ⟨c :: t, u, rfl, hu⟩

/-- An extension without slashes is added to the last component. -/
lemma components_append {e : List Char} (he : '/' ∉ e) (s : List Char) :
    components (s ++ e) = folders s ++ [fileName s ++ e] := by
  rw [folders, fileName]
  rcases exists_last_slash s with hs | ⟨t, u, rfl, hu⟩
  · have hse : '/' ∉ s ++ e := by simp [hs, he]
    rw [components_of_notMem hs, components_of_notMem hse]
    rfl
  · have hue : '/' ∉ u ++ e := by simp [hu, he]
    rw [List.append_assoc, List.cons_append, components_append_cons, components_append_cons,
      components_of_notMem hu, components_of_notMem hue]
    simp

lemma components_eq (s : List Char) : components s = folders s ++ [fileName s] := by
  have h := components_append List.not_mem_nil s
  simpa using h

lemma folders_of_notMem {s : List Char} (h : '/' ∉ s) : folders s = [] := by
  rw [folders, components_of_notMem h]
  rfl

lemma fileName_of_notMem {s : List Char} (h : '/' ∉ s) : fileName s = s := by
  rw [fileName, components_of_notMem h]
  rfl

end LexicalPath
