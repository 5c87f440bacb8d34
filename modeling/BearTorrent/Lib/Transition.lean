import Mathlib.Algebra.GroupWithZero.Nat
import Mathlib.Data.List.Induction

/-!
# Runs of a partial step function

A system is given by a partial function `step : σ → α → Option σ`: the action `a` is enabled in
`s` when `step s a` is defined. A run carries its trace, the list of the states left and the
actions taken there, so that a condition on every step is a condition on the trace.
-/

namespace Transition

variable {σ α : Type*} {step : σ → α → Option σ}

/-- `Run step s tr t`: starting in `s`, the steps of the trace `tr` lead to `t`. -/
inductive Run (step : σ → α → Option σ) : σ → List (σ × α) → σ → Prop where
  | nil (s : σ) : Run step s [] s
  | snoc {s t u : σ} {tr : List (σ × α)} {a : α} (h : Run step s tr t) (ha : step t a = some u) :
      Run step s (tr ++ [(t, a)]) u

/-- `t` can be reached from `s` by actions that `ok` allows. -/
def Reaches (step : σ → α → Option σ) (ok : α → Prop) (s t : σ) : Prop :=
  ∃ tr, Run step s tr t ∧ ∀ p ∈ tr, ok p.2

/-- Perform a list of actions; `none` when one of them is not enabled. -/
def exec (step : σ → α → Option σ) : σ → List α → Option σ
  | s, []      => some s
  | s, a :: as => (step s a).bind fun t => exec step t as

/-- The trace of performing a list of actions. -/
def trace (step : σ → α → Option σ) : σ → List α → List (σ × α)
  | _, []      => []
  | s, a :: as => (s, a) :: (step s a).elim [] fun t => trace step t as

/-- Perform a list of actions, each only where `ok` allows it. -/
def walk (step : σ → α → Option σ) (ok : σ → α → Bool) : σ → List α → Option σ
  | s, []      => some s
  | s, a :: as => if ok s a then (step s a).bind fun t => walk step ok t as else none

namespace Run

lemma single {s t : σ} {a : α} (ha : step s a = some t) : Run step s [(s, a)] t :=
  .snoc (.nil s) ha

lemma append {s t u : σ} {tr tr' : List (σ × α)} (h : Run step s tr t) (h' : Run step t tr' u) :
    Run step s (tr ++ tr') u := by
  induction h' with
  | nil => simpa using h
  | snoc h' ha ih =>
    rw [← List.append_assoc]
    exact .snoc ih ha

/-- The last step of a run. -/
lemma last {s t : σ} {tr : List (σ × α)} {p : σ × α} (h : Run step s (tr ++ [p]) t) :
    Run step s tr p.1 ∧ step p.1 p.2 = some t := by
  generalize htr : tr ++ [p] = l at h
  cases h with
  | nil => simp at htr
  | snoc h ha =>
    obtain ⟨rfl, hp⟩ := List.append_inj' htr rfl
    obtain rfl := List.singleton_inj.mp hp
    exact ⟨h, ha⟩

/-- A run is cut where its trace is cut. -/
lemma split {s t : σ} {tr tr' : List (σ × α)} (h : Run step s (tr ++ tr') t) :
    ∃ u, Run step s tr u ∧ Run step u tr' t := by
  induction tr' using List.reverseRecOn generalizing t with
  | nil => exact ⟨t, by simpa using h, .nil t⟩
  | append_singleton tr' p ih =>
    rw [← List.append_assoc] at h
    obtain ⟨h, ha⟩ := h.last
    obtain ⟨u, hu, hu'⟩ := ih h
    exact ⟨u, hu, .snoc hu' ha⟩

/-- A run that is cut at one of its steps. -/
lemma split_cons {s t : σ} {tr tr' : List (σ × α)} {p : σ × α}
    (h : Run step s (tr ++ p :: tr') t) :
    ∃ u, Run step s tr p.1 ∧ step p.1 p.2 = some u ∧ Run step u tr' t := by
  rw [← List.singleton_append, ← List.append_assoc] at h
  obtain ⟨u, hu, h'⟩ := h.split
  obtain ⟨hp, ha⟩ := hu.last
  exact ⟨u, hp, ha, h'⟩

/-- The part of a run before one of its steps is a run to the state that step left. -/
lemma of_mem {s t : σ} {tr : List (σ × α)} (h : Run step s tr t) {p : σ × α} (hp : p ∈ tr) :
    ∃ tr₁ tr₂, tr = tr₁ ++ p :: tr₂ ∧ Run step s tr₁ p.1 := by
  induction h with
  | nil => simp at hp
  | @snoc t u tr a h ha ih =>
    rcases List.mem_append.mp hp with hp | hp
    · obtain ⟨tr₁, tr₂, rfl, h₁⟩ := ih hp
      exact ⟨tr₁, tr₂ ++ [(t, a)], by simp, h₁⟩
    · obtain rfl := List.mem_singleton.mp hp
      exact ⟨tr, [], rfl, h⟩

/-- A step of a run is taken in a state that the run reaches. -/
lemma step_of_mem {s t : σ} {tr : List (σ × α)} (h : Run step s tr t) {p : σ × α} (hp : p ∈ tr) :
    ∃ tr₁ u, Run step s tr₁ p.1 ∧ step p.1 p.2 = some u := by
  obtain ⟨tr₁, tr₂, rfl, h₁⟩ := h.of_mem hp
  obtain ⟨u, -, hu, -⟩ := h.split_cons
  exact ⟨tr₁, u, h₁, hu⟩

/-- What every allowed step preserves, every run of allowed steps preserves. -/
lemma invariant {P : σ → α → Prop} {I : σ → Prop}
    (hstep : ∀ s a t, I s → P s a → step s a = some t → I t)
    {s t : σ} {tr : List (σ × α)} (h : Run step s tr t) (hok : ∀ p ∈ tr, P p.1 p.2)
    (hs : I s) : I t := by
  induction h with
  | nil => exact hs
  | @snoc t u tr a h ha ih =>
    have ht := ih (fun p hp => hok p (List.mem_append_left _ hp))
    exact hstep t a u ht (hok (t, a) (by simp)) ha

/-- What every step preserves, every run preserves. -/
lemma preserve {I : σ → Prop} (hstep : ∀ s a t, I s → step s a = some t → I t)
    {s t : σ} {tr : List (σ × α)} (h : Run step s tr t) (hs : I s) : I t :=
  h.invariant (P := fun _ _ => True) (fun s a t hs _ ha => hstep s a t hs ha)
    (fun _ _ => trivial) hs

/-- What enters a first-in-first-out system leaves it in the same order, or is still in it. When the
system has stopped, nothing leaves it any more. -/
lemma flow_until {β : Type*} {P : σ → α → Prop} {I S : σ → Prop} {pending : σ → List β}
    {enters leaves : σ × α → List β}
    (hinv : ∀ s a t, I s → P s a → step s a = some t → I t)
    (hgoes : ∀ s a t, I s → P s a → ¬ S s → step s a = some t →
      pending s ++ enters (s, a) = leaves (s, a) ++ pending t)
    (hstops : ∀ s a t, I s → P s a → S s → step s a = some t → S t ∧ leaves (s, a) = [])
    {s t : σ} {tr : List (σ × α)} (h : Run step s tr t) (hok : ∀ p ∈ tr, P p.1 p.2) (hs : I s) :
    ∃ rest, pending s ++ tr.flatMap enters = tr.flatMap leaves ++ rest ∧
      (¬ S t → rest = pending t) := by
  induction h with
  | nil => exact ⟨pending s, by simp, fun _ => rfl⟩
  | @snoc t u tr a h ha ih =>
    have hok' : ∀ p ∈ tr, P p.1 p.2 := fun p hp => hok p (List.mem_append_left _ hp)
    have ht := h.invariant hinv hok' hs
    have hP : P t a := hok (t, a) (by simp)
    obtain ⟨rest, heq, hrest⟩ := ih hok'
    by_cases hS : S t
    · obtain ⟨hS', hleaves⟩ := hstops t a u ht hP hS ha
      refine ⟨rest ++ enters (t, a), ?_, fun hnot => absurd hS' hnot⟩
      rw [List.flatMap_append, List.flatMap_append, ← List.append_assoc, heq]
      simp [hleaves]
    · refine ⟨pending u, ?_, fun _ => rfl⟩
      calc pending s ++ (tr ++ [(t, a)]).flatMap enters
          = (pending s ++ tr.flatMap enters) ++ enters (t, a) := by simp
        _ = tr.flatMap leaves ++ (pending t ++ enters (t, a)) := by
            rw [heq, hrest hS, List.append_assoc]
        _ = tr.flatMap leaves ++ (leaves (t, a) ++ pending u) := by rw [hgoes t a u ht hP hS ha]
        _ = (tr ++ [(t, a)]).flatMap leaves ++ pending u := by simp

/-- What enters a first-in-first-out system leaves it in the same order, or is still in it. -/
lemma flow {β : Type*} {pending : σ → List β} {enters leaves : σ × α → List β}
    (hstep : ∀ s a t, step s a = some t →
      pending s ++ enters (s, a) = leaves (s, a) ++ pending t)
    {s t : σ} {tr : List (σ × α)} (h : Run step s tr t) :
    pending s ++ tr.flatMap enters = tr.flatMap leaves ++ pending t := by
  obtain ⟨rest, heq, hrest⟩ := h.flow_until (P := fun _ _ => True) (I := fun _ => True)
    (S := fun _ => False) (fun _ _ _ _ _ _ => trivial) (fun s a t _ _ _ ha => hstep s a t ha)
    (fun _ _ _ _ _ hS => hS.elim) (fun _ _ => trivial) trivial
  rw [heq, hrest not_false]

/-- What every allowed step gains is paid for by the measure `μ` and by what the step is granted. -/
lemma balance {P : σ → α → Prop} {I : σ → Prop} {μ : σ → ℕ} {gain grant : σ × α → ℕ}
    (hstep : ∀ s a t, I s → P s a → step s a = some t →
      I t ∧ gain (s, a) + μ t ≤ grant (s, a) + μ s)
    {s t : σ} {tr : List (σ × α)} (h : Run step s tr t) (hok : ∀ p ∈ tr, P p.1 p.2) (hs : I s) :
    (tr.map gain).sum + μ t ≤ (tr.map grant).sum + μ s := by
  induction h with
  | nil => simp
  | @snoc t u tr a h ha ih =>
    have hok' : ∀ p ∈ tr, P p.1 p.2 := fun p hp => hok p (List.mem_append_left _ hp)
    have hI := h.invariant (fun s a t hs hP ha => (hstep s a t hs hP ha).1) hok' hs
    have hlast := (hstep t a u hI (hok (t, a) (by simp)) ha).2
    have hbefore := ih hok'
    simp only [List.map_append, List.map_cons, List.map_nil, List.sum_append, List.sum_cons,
      List.sum_nil]
    omega

/-- A run is as long as its measure and what its steps are granted allow. -/
lemma length_le {P : σ → α → Prop} {I : σ → Prop} {μ : σ → ℕ} {grant : σ × α → ℕ}
    (hstep : ∀ s a t, I s → P s a → step s a = some t → I t ∧ 1 + μ t ≤ grant (s, a) + μ s)
    {s t : σ} {tr : List (σ × α)} (h : Run step s tr t) (hok : ∀ p ∈ tr, P p.1 p.2) (hs : I s) :
    tr.length + μ t ≤ (tr.map grant).sum + μ s := by
  have hle : (tr.map fun _ => 1).sum + μ t ≤ (tr.map grant).sum + μ s := h.balance hstep hok hs
  rwa [List.map_const', List.sum_replicate_nat, Nat.mul_one] at hle

/-- A run is no longer than a measure that goes down with every step. -/
lemma length_le_of_lt {I : σ → Prop} {μ : σ → ℕ}
    (hstep : ∀ s a t, I s → step s a = some t → I t ∧ μ t < μ s)
    {s t : σ} {tr : List (σ × α)} (h : Run step s tr t) (hs : I s) : tr.length + μ t ≤ μ s := by
  induction h with
  | nil => simp
  | @snoc t u tr a h ha ih =>
    have hI := h.preserve (fun s a t hs ha => (hstep s a t hs ha).1) hs
    have hlast := (hstep t a u hI ha).2
    rw [List.length_append, List.length_singleton]
    omega

/-- A system that takes the steps of another one, or steps that the other does not see, runs as
that one does. -/
lemma simulate {τ β : Type*} {step' : τ → β → Option τ} {f : τ → σ} {I : τ → Prop}
    {P : σ → α → Prop}
    (hstep : ∀ u b v, I u → step' u b = some v →
      I v ∧ (f v = f u ∨ ∃ a, P (f u) a ∧ step (f u) a = some (f v)))
    {u v : τ} {tr : List (τ × β)} (h : Run step' u tr v) (hu : I u) :
    I v ∧ ∃ tr', Run step (f u) tr' (f v) ∧ ∀ p ∈ tr', P p.1 p.2 := by
  induction h with
  | nil => exact ⟨hu, [], .nil _, by simp⟩
  | @snoc v w tr b h hb ih =>
    obtain ⟨hv, tr', hrun, hP⟩ := ih
    obtain ⟨hw, heq | ⟨a, hPa, ha⟩⟩ := hstep v b w hv hb
    · exact ⟨hw, tr', heq ▸ hrun, hP⟩
    · refine ⟨hw, _, hrun.snoc ha, fun p hp => ?_⟩
      rcases List.mem_append.mp hp with hp | hp
      · exact hP p hp
      · exact List.mem_singleton.mp hp ▸ hPa

/-- A part of a system runs through what the steps of the system are for it. -/
lemma project {τ β : Type*} {step' : τ → β → Option τ} {f : τ → σ} {g : τ × β → List (σ × α)}
    (hstep : ∀ u b v, step' u b = some v → Run step (f u) (g (u, b)) (f v))
    {u v : τ} {tr : List (τ × β)} (h : Run step' u tr v) :
    Run step (f u) (tr.flatMap g) (f v) := by
  induction h with
  | nil => exact .nil _
  | @snoc v w tr b h hb ih =>
    rw [List.flatMap_append, List.flatMap_singleton]
    exact ih.append (hstep v b w hb)

/-- Where every state allows another counted step, runs have as many of them as one likes. -/
lemma exists_count {I : σ → Prop} {P : σ × α → Bool}
    (hprogress : ∀ s, I s → ∃ tr t, Run step s tr t ∧ 0 < tr.countP P ∧ I t) (n : ℕ) {s : σ}
    (hs : I s) : ∃ tr t, Run step s tr t ∧ n ≤ tr.countP P ∧ I t := by
  induction n with
  | zero => exact ⟨[], s, .nil s, Nat.zero_le _, hs⟩
  | succ n ih =>
    obtain ⟨tr, t, hrun, hle, ht⟩ := ih
    obtain ⟨tr', u, hrun', hpos, hu⟩ := hprogress t ht
    refine ⟨tr ++ tr', u, hrun.append hrun', ?_, hu⟩
    rw [List.countP_append]
    exact Nat.add_le_add hle hpos

end Run

/-- Performing a list of actions is a run that takes exactly these actions. -/
lemma run_trace {s t : σ} {as : List α} (h : exec step s as = some t) :
    Run step s (trace step s as) t ∧ (trace step s as).map Prod.snd = as := by
  induction as generalizing s with
  | nil =>
    obtain rfl := Option.some.inj h
    exact ⟨.nil s, rfl⟩
  | cons a as ih =>
    obtain ⟨u, hu, h⟩ := Option.bind_eq_some_iff.mp h
    obtain ⟨hrun, has⟩ := ih h
    rw [trace, hu, Option.elim_some, List.map_cons, has]
    exact ⟨(Run.single hu).append hrun, rfl⟩

lemma run_of_exec {s t : σ} {as : List α} (h : exec step s as = some t) :
    ∃ tr, Run step s tr t ∧ tr.map Prod.snd = as :=
  ⟨_, run_trace h⟩

/-- A walk is a run of allowed steps. -/
lemma run_of_walk {ok : σ → α → Bool} {s t : σ} {as : List α}
    (h : walk step ok s as = some t) :
    ∃ tr, Run step s tr t ∧ ∀ p ∈ tr, ok p.1 p.2 = true := by
  induction as generalizing s with
  | nil =>
    obtain rfl := Option.some.inj h
    exact ⟨[], .nil s, by simp⟩
  | cons a as ih =>
    rw [walk] at h
    split_ifs at h with hok
    obtain ⟨u, hu, h⟩ := Option.bind_eq_some_iff.mp h
    obtain ⟨tr, htr, hall⟩ := ih h
    refine ⟨(s, a) :: tr, (Run.single hu).append htr, fun p hp => ?_⟩
    rcases List.mem_cons.mp hp with rfl | hp
    · exact hok
    · exact hall p hp

/-- What holds of the actions holds of the steps that take them. -/
lemma forall_of_map {P : σ → α → Prop} {tr : List (σ × α)} {as : List α}
    (htr : tr.map Prod.snd = as) (has : ∀ a ∈ as, ∀ s, P s a) : ∀ p ∈ tr, P p.1 p.2 := by
  intro p hp
  apply has
  rw [← htr]
  exact List.mem_map_of_mem hp

namespace Reaches

variable {ok : α → Prop}

lemma refl (s : σ) : Reaches step ok s s := ⟨[], .nil s, by simp⟩

lemma single {s t : σ} {a : α} (ha : step s a = some t) (hok : ok a) : Reaches step ok s t :=
  ⟨[(s, a)], .single ha, by simpa using hok⟩

lemma trans {s t u : σ} (h : Reaches step ok s t) (h' : Reaches step ok t u) :
    Reaches step ok s u := by
  obtain ⟨tr, htr, hok⟩ := h
  obtain ⟨tr', htr', hok'⟩ := h'
  refine ⟨tr ++ tr', htr.append htr', fun p hp => ?_⟩
  rcases List.mem_append.mp hp with hp | hp
  · exact hok p hp
  · exact hok' p hp

lemma tail {s t u : σ} {a : α} (h : Reaches step ok s t) (ha : step t a = some u) (hok : ok a) :
    Reaches step ok s u :=
  h.trans (single ha hok)

/-- A system takes the steps of a part of it. -/
lemma map {τ β : Type*} {step' : τ → β → Option τ} (f : σ → τ) (g : α → β)
    (hstep : ∀ s a t, step s a = some t → step' (f s) (g a) = some (f t)) {s t : σ}
    (h : Reaches step ok s t) : Reaches step' (fun b => ∃ a, b = g a ∧ ok a) (f s) (f t) := by
  obtain ⟨tr, hrun, hok⟩ := h
  induction hrun with
  | nil => exact .refl _
  | @snoc t u tr a hrun ha ih =>
    have hreach := ih fun p hp => hok p (List.mem_append_left _ hp)
    exact hreach.tail (hstep t a u ha) ⟨a, rfl, hok (t, a) (by simp)⟩

end Reaches

end Transition
