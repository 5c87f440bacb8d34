import Mathlib.Data.List.Basic

/-!
# Computations that record their effects

A computation on a state that changes it by effects only, one at a time, and records them in
order. `Performs x s r es` is its specification: started in `s` the computation `x` ends with `r`
and its effects are `es`. Whatever it did is then known of every cut of it as well: stopped between
two effects it leaves the state after a prefix of `es`.
-/

namespace Effects

/-- The effects `ε` act on states `σ`. -/
class ActsOn (ε σ : Type) where
  act : ε → σ → σ

export ActsOn (act)

/-- Computations with effects `ε` on a state `σ` and failures `φ`. The state is paired with the
effects so far. -/
def EffectM (ε σ φ : Type) : Type → Type := ExceptT φ (StateM (σ × List ε))

variable {ε σ φ α β : Type}

instance : Monad (EffectM ε σ φ) := inferInstanceAs (Monad (ExceptT φ (StateM (σ × List ε))))

instance : LawfulMonad (EffectM ε σ φ) :=
  inferInstanceAs (LawfulMonad (ExceptT φ (StateM (σ × List ε))))

instance : MonadExcept φ (EffectM ε σ φ) :=
  inferInstanceAs (MonadExcept φ (ExceptT φ (StateM (σ × List ε))))

/-- Run a computation: its result, the state it leaves and its effects. -/
def runFrom (x : EffectM ε σ φ α) (s : σ) : Except φ α × σ × List ε := x (s, [])

/-- The state. -/
def getState : EffectM ε σ φ σ := fun m => (.ok m.1, m)

/-- Reading the state first. -/
lemma getState_bind (f : σ → EffectM ε σ φ α) (s : σ) (log : List ε) :
    (getState >>= f) (s, log) = f s (s, log) := rfl

/-- Perform an effect. -/
def perform [ActsOn ε σ] (e : ε) : EffectM ε σ φ Unit :=
  fun m => (.ok (), (act e m.1, m.2 ++ [e]))

/-- The state after a list of effects. -/
def after [ActsOn ε σ] (es : List ε) (s : σ) : σ := es.foldl (fun s e => act e s) s

section After

variable [ActsOn ε σ]

@[simp] lemma after_nil (s : σ) : after ([] : List ε) s = s := rfl

@[simp] lemma after_cons (e : ε) (es : List ε) (s : σ) : after (e :: es) s = after es (act e s) :=
  rfl

lemma after_append (es es' : List ε) (s : σ) : after (es ++ es') s = after es' (after es s) :=
  List.foldl_append

/-- An observation that no effect changes. -/
lemma observe_after {γ : Type} {f : σ → γ} {es : List ε} (h : ∀ e ∈ es, ∀ s, f (act e s) = f s)
    (s : σ) : f (after es s) = f s := by
  induction es generalizing s with
  | nil => rfl
  | cons e es ih =>
    rw [after_cons, ih fun e he => h e (List.mem_cons_of_mem _ he)]
    exact h e List.mem_cons_self s

end After

/-- Started in `s`, `x` ends with `r` and its effects are `es`. -/
def Performs [ActsOn ε σ] (x : EffectM ε σ φ α) (s : σ) (r : Except φ α) (es : List ε) : Prop :=
  ∀ log, x (s, log) = (r, (after es s, log ++ es))

namespace Performs

variable [ActsOn ε σ] {s : σ} {es es' : List ε}

/-- The specification determines the run. -/
lemma runFrom_eq {x : EffectM ε σ φ α} {r : Except φ α} (h : Performs x s r es) :
    runFrom x s = (r, after es s, es) :=
  h []

lemma pure (a : α) : Performs (pure a : EffectM ε σ φ α) s (.ok a) [] := by
  intro log
  rw [List.append_nil]
  rfl

lemma throw (e : φ) : Performs (throw e : EffectM ε σ φ α) s (.error e) [] := by
  intro log
  rw [List.append_nil]
  rfl

lemma getState : Performs (getState : EffectM ε σ φ σ) s (.ok s) [] := by
  intro log
  rw [List.append_nil]
  rfl

lemma perform (e : ε) : Performs (perform e : EffectM ε σ φ Unit) s (.ok ()) [e] := fun _ => rfl

lemma ofExcept (x : Except φ α) :
    Performs (MonadExcept.ofExcept x : EffectM ε σ φ α) s x [] := by
  cases x with
  | error e => exact throw e
  | ok a => exact pure a

/-- Sequencing after a computation that succeeds. -/
lemma bind {x : EffectM ε σ φ α} {f : α → EffectM ε σ φ β} {a : α} {r : Except φ β}
    (hx : Performs x s (.ok a) es) (hf : Performs (f a) (after es s) r es') :
    Performs (x >>= f) s r (es ++ es') := by
  intro log
  have hbind : (x >>= f) (s, log) = ExceptT.bindCont (m := StateM (σ × List ε)) f
      (x (s, log)).1 (x (s, log)).2 := rfl
  rw [hbind, hx log, after_append, ← List.append_assoc]
  exact hf (log ++ es)

/-- Sequencing before a computation without effects. -/
lemma bind_nil {x : EffectM ε σ φ α} {f : α → EffectM ε σ φ β} {a : α} {r : Except φ β}
    (hx : Performs x s (.ok a) es) (hf : Performs (f a) (after es s) r []) :
    Performs (x >>= f) s r es := by
  have h := hx.bind hf
  rwa [List.append_nil] at h

/-- Sequencing after a computation that fails. -/
lemma bind_error {x : EffectM ε σ φ α} {f : α → EffectM ε σ φ β} {e : φ}
    (hx : Performs x s (.error e) es) : Performs (x >>= f) s (.error e) es := by
  intro log
  have hbind : (x >>= f) (s, log) = ExceptT.bindCont (m := StateM (σ × List ε)) f
      (x (s, log)).1 (x (s, log)).2 := rfl
  rw [hbind, hx log]
  rfl

/-- A handler is not called after a success. -/
lemma tryCatch {x : EffectM ε σ φ α} {handle : φ → EffectM ε σ φ α} {a : α}
    (hx : Performs x s (.ok a) es) : Performs (tryCatch x handle) s (.ok a) es := by
  intro log
  have htry : (MonadExcept.tryCatch x handle : EffectM ε σ φ α) (s, log)
      = (match (x (s, log)).1 with
        | .ok a    => (Pure.pure (Except.ok a) : StateM (σ × List ε) (Except φ α))
        | .error e => (handle e : StateM (σ × List ε) (Except φ α))) (x (s, log)).2 := rfl
  rw [htry, hx log]
  rfl

/-- A handler without effects is called after a failure. -/
lemma tryCatch_error {x : EffectM ε σ φ α} {handle : φ → EffectM ε σ φ α} {e : φ}
    {r : Except φ α} (hx : Performs x s (.error e) es)
    (hhandle : Performs (handle e) (after es s) r []) :
    Performs (MonadExcept.tryCatch x handle) s r es := by
  intro log
  have htry : (MonadExcept.tryCatch x handle : EffectM ε σ φ α) (s, log)
      = (match (x (s, log)).1 with
        | .ok a    => (Pure.pure (Except.ok a) : StateM (σ × List ε) (Except φ α))
        | .error e => (handle e : StateM (σ × List ε) (Except φ α))) (x (s, log)).2 := rfl
  have hlog := hhandle (log ++ es)
  rw [List.append_nil, after_nil] at hlog
  rw [htry, hx log]
  exact hlog

/-- Sequencing before a computation without effects, whatever the results are. -/
lemma exists_bind {x : EffectM ε σ φ α} {f : α → EffectM ε σ φ β}
    (hx : ∃ r, Performs x s r es) (hf : ∀ a, ∃ r, Performs (f a) (after es s) r []) :
    ∃ r, Performs (x >>= f) s r es := by
  obtain ⟨r, hx⟩ := hx
  cases r with
  | error e => exact ⟨_, hx.bind_error⟩
  | ok a =>
    obtain ⟨r, hr⟩ := hf a
    exact ⟨r, hx.bind_nil hr⟩

end Performs

/-! ### All effects of a computation -/

/-- Started with `I`, the computation ends with `I`, all its effects satisfy `P`, and its result
satisfies `Q` if there is one. -/
def Emits (I : σ → Prop) (P : ε → Prop) (Q : α → Prop) (x : EffectM ε σ φ α) : Prop :=
  ∀ s log, I s → I (x (s, log)).2.1 ∧ (∃ es, (x (s, log)).2.2 = log ++ es ∧ ∀ e ∈ es, P e) ∧
    ∀ a, (x (s, log)).1 = .ok a → Q a

namespace Emits

variable {I : σ → Prop} {P : ε → Prop} {Q : α → Prop} {R : β → Prop} {x : EffectM ε σ φ α}
  {f : α → EffectM ε σ φ β}

lemma pure {a : α} (ha : Q a) : Emits I P Q (pure a : EffectM ε σ φ α) := by
  refine fun s log hs => ⟨hs, ⟨[], (List.append_nil log).symm, by simp⟩, fun b hb => ?_⟩
  obtain rfl := Except.ok.inj hb
  exact ha

lemma throw (e : φ) : Emits I P Q (throw e : EffectM ε σ φ α) := by
  refine fun s log hs => ⟨hs, ⟨[], (List.append_nil log).symm, by simp⟩, fun b hb => ?_⟩
  cases hb

lemma ofExcept {r : Except φ α} (hr : ∀ a, r = .ok a → Q a) :
    Emits I P Q (MonadExcept.ofExcept r : EffectM ε σ φ α) := by
  cases r with
  | error e => exact throw e
  | ok a => exact pure (hr a rfl)

lemma perform [ActsOn ε σ] {e : ε} (he : P e) (hI : ∀ s, I s → I (act e s)) :
    Emits I P (fun _ => True) (perform e : EffectM ε σ φ Unit) := fun s log hs =>
  ⟨hI s hs, ⟨[e], rfl, by simpa using he⟩, fun _ _ => trivial⟩

/-- The effects of two computations, one after the other. -/
lemma append {log es : List ε} {r : Except φ β × σ × List ε} (hP : ∀ e ∈ es, P e)
    (h : I r.2.1 ∧ (∃ es', r.2.2 = (log ++ es) ++ es' ∧ ∀ e ∈ es', P e) ∧
      ∀ b, r.1 = .ok b → R b) :
    I r.2.1 ∧ (∃ es', r.2.2 = log ++ es' ∧ ∀ e ∈ es', P e) ∧ ∀ b, r.1 = .ok b → R b := by
  obtain ⟨hI, ⟨es', hes', hP'⟩, hR⟩ := h
  exact ⟨hI, ⟨es ++ es', hes'.trans (List.append_assoc _ _ _),
    List.forall_mem_append.mpr ⟨hP, hP'⟩⟩, hR⟩

lemma bind (hx : Emits I P Q x) (hf : ∀ a, Q a → Emits I P R (f a)) : Emits I P R (x >>= f) := by
  intro s log hs
  obtain ⟨hI, ⟨es, hes, hP⟩, hQ⟩ := hx s log hs
  have hbind : (x >>= f) (s, log) = ExceptT.bindCont (m := StateM (σ × List ε)) f
      (x (s, log)).1 (x (s, log)).2 := rfl
  rw [hbind]
  cases hr : (x (s, log)).1 with
  | error e => exact ⟨hI, ⟨es, hes, hP⟩, fun b hb => (by cases hb)⟩
  | ok a =>
    have hrest := hf a (hQ a hr) (x (s, log)).2.1 (x (s, log)).2.2 hI
    refine append hP ?_
    rwa [← hes]

lemma getState_bind {f : σ → EffectM ε σ φ α} (hf : ∀ s, I s → Emits I P Q (f s)) :
    Emits I P Q (getState >>= f) := fun s log hs => hf s hs s log hs

lemma tryCatch {handle : φ → EffectM ε σ φ α} (hx : Emits I P Q x)
    (hhandle : ∀ e, Emits I P Q (handle e)) : Emits I P Q (tryCatch x handle) := by
  intro s log hs
  obtain ⟨hI, ⟨es, hes, hP⟩, hQ⟩ := hx s log hs
  have htry : (MonadExcept.tryCatch x handle : EffectM ε σ φ α) (s, log)
      = (match (x (s, log)).1 with
        | .ok a    => (Pure.pure (Except.ok a) : StateM (σ × List ε) (Except φ α))
        | .error e => (handle e : StateM (σ × List ε) (Except φ α))) (x (s, log)).2 := rfl
  rw [htry]
  cases hr : (x (s, log)).1 with
  | ok a =>
    refine ⟨hI, ⟨es, hes, hP⟩, fun b hb => ?_⟩
    obtain rfl := Except.ok.inj hb
    exact hQ a hr
  | error e =>
    have hrest := hhandle e (x (s, log)).2.1 (x (s, log)).2.2 hI
    refine append hP ?_
    rwa [← hes]

/-- What the first of two computations does is done by both. -/
lemma mem_bind (hx : Emits I P Q x) (hf : ∀ a, Q a → Emits I P R (f a)) {s : σ} (hs : I s) {e : ε}
    (he : e ∈ (runFrom x s).2.2) : e ∈ (runFrom (x >>= f) s).2.2 := by
  obtain ⟨hI, -, hQ⟩ := hx s [] hs
  have hbind : runFrom (x >>= f) s = ExceptT.bindCont (m := StateM (σ × List ε)) f
      (x (s, [])).1 (x (s, [])).2 := rfl
  rw [hbind]
  change e ∈ (x (s, [])).2.2 at he
  cases hr : (x (s, [])).1 with
  | error _ => exact he
  | ok a =>
    obtain ⟨-, ⟨es, hes, -⟩, -⟩ := hf a (hQ a hr) (x (s, [])).2.1 (x (s, [])).2.2 hI
    change e ∈ (f a (x (s, [])).2).2.2
    rw [hes]
    exact List.mem_append_left _ he

lemma of_runFrom (hx : Emits I P Q x) {s : σ} (hs : I s) : ∀ e ∈ (runFrom x s).2.2, P e := by
  obtain ⟨-, ⟨es, hes, hP⟩, -⟩ := hx s [] hs
  intro e he
  rw [runFrom, hes] at he
  exact hP e he

end Emits

/-! ### Two computations that do the same -/

/-- Started with `I`, the two computations do the same, they end with `I`, and their result
satisfies `Q` if there is one. -/
def SameOn (I : σ → Prop) (Q : α → Prop) (x y : EffectM ε σ φ α) : Prop :=
  ∀ s log, I s → x (s, log) = y (s, log) ∧ I (y (s, log)).2.1 ∧ ∀ a, (y (s, log)).1 = .ok a → Q a

namespace SameOn

variable {I : σ → Prop} {Q : α → Prop} {R : β → Prop} {x y : EffectM ε σ φ α}
  {f g : α → EffectM ε σ φ β}

lemma pure {a : α} (ha : Q a) : SameOn I Q (pure a : EffectM ε σ φ α) (pure a) := by
  refine fun s log hs => ⟨rfl, hs, fun b hb => ?_⟩
  obtain rfl := Except.ok.inj hb
  exact ha

lemma throw (e : φ) : SameOn I Q (throw e : EffectM ε σ φ α) (throw e) := by
  refine fun s log hs => ⟨rfl, hs, fun b hb => ?_⟩
  cases hb

lemma bind (hx : SameOn I Q x y) (hf : ∀ a, Q a → SameOn I R (f a) (g a)) :
    SameOn I R (x >>= f) (y >>= g) := by
  intro s log hs
  obtain ⟨heq, hI, hQ⟩ := hx s log hs
  have hbind (x : EffectM ε σ φ α) (f : α → EffectM ε σ φ β) :
      (x >>= f) (s, log) = ExceptT.bindCont (m := StateM (σ × List ε)) f
        (x (s, log)).1 (x (s, log)).2 := rfl
  rw [hbind x f, hbind y g, heq]
  cases hr : (y (s, log)).1 with
  | error e => exact ⟨rfl, hI, fun b hb => (by cases hb)⟩
  | ok a => exact hf a (hQ a hr) (y (s, log)).2.1 (y (s, log)).2.2 hI

lemma tryCatch {handle handle' : φ → EffectM ε σ φ α} (hx : SameOn I Q x y)
    (hhandle : ∀ e, SameOn I Q (handle e) (handle' e)) :
    SameOn I Q (tryCatch x handle) (tryCatch y handle') := by
  intro s log hs
  obtain ⟨heq, hI, hQ⟩ := hx s log hs
  have htry (x : EffectM ε σ φ α) (handle : φ → EffectM ε σ φ α) :
      (MonadExcept.tryCatch x handle : EffectM ε σ φ α) (s, log)
        = (match (x (s, log)).1 with
          | .ok a    => (Pure.pure (Except.ok a) : StateM (σ × List ε) (Except φ α))
          | .error e => (handle e : StateM (σ × List ε) (Except φ α))) (x (s, log)).2 := rfl
  rw [htry x handle, htry y handle', heq]
  cases hr : (y (s, log)).1 with
  | error e => exact hhandle e (y (s, log)).2.1 (y (s, log)).2.2 hI
  | ok a =>
    refine ⟨rfl, hI, fun b hb => ?_⟩
    obtain rfl := Except.ok.inj hb
    exact hQ a hr

/-- What is known of one of them is known of the other. -/
lemma performs [ActsOn ε σ] {s : σ} {r : Except φ α} {es : List ε} (h : SameOn I Q x y) (hs : I s)
    (hy : Performs y s r es) : Performs x s r es := fun log => (h s log hs).1.trans (hy log)

end SameOn

/-! ### Cuts -/

/-- Wherever the effects `es` are cut, `I` holds of the state they lead to, for the cuts that `ok`
allows. -/
def Cuts (step : σ → ε → σ) (ok : List ε → Prop) (I : σ → Prop) (s : σ) (es : List ε) : Prop :=
  ∀ t, t <+: es → ok t → I (t.foldl step s)

namespace Cuts

variable {step : σ → ε → σ} {ok : List ε → Prop} {I : σ → Prop} {s : σ}

lemma nil (h : ok [] → I s) : Cuts step ok I s [] := by
  intro t ht hok
  rw [List.prefix_nil.mp ht] at hok ⊢
  exact h hok

/-- The cut before an effect, and those after it. -/
lemma cons {e : ε} {es : List ε} (h : ok [] → I s)
    (hes : Cuts step (fun t => ok (e :: t)) I (step s e) es) : Cuts step ok I s (e :: es) := by
  intro t ht hok
  cases t with
  | nil => exact h hok
  | cons e' t =>
    obtain ⟨rfl, ht'⟩ := List.cons_prefix_cons.mp ht
    exact hes t ht' hok

/-- The cuts in the first part of a list, and those in the second. -/
lemma append {es es' : List ε} (h : Cuts step ok I s es)
    (h' : Cuts step (fun t => ok (es ++ t)) I (es.foldl step s) es') :
    Cuts step ok I s (es ++ es') := by
  intro t ht hok
  rcases List.prefix_or_prefix_of_prefix ht (List.prefix_append es es') with ht' | ⟨u, rfl⟩
  · exact h t ht' hok
  · rw [List.foldl_append]
    exact h' u ((List.prefix_append_right_inj es).mp ht) hok

end Cuts

end Effects
