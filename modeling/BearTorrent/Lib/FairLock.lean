import Mathlib.Data.List.Basic

/-!
# A fair readers-writer lock

Tasks enter the lock in the order in which they asked for it: the first task that waits enters
when the lock is free, or when it wants to read and every holder reads.
-/

/-- What a task wants the lock for. -/
inductive LockMode where
  | read
  | write
  deriving DecidableEq

/-- The tasks that hold the lock, and those that wait for it, in order. -/
structure FairLock (τ : Type*) where
  holders : List (τ × LockMode)
  queue : List (τ × LockMode)

namespace FairLock

variable {τ : Type*} {l : FairLock τ} {x : τ} {mode : LockMode}

/-- A lock that no task holds or waits for. -/
def free : FairLock τ := ⟨[], []⟩

/-- Wait for the lock, behind the tasks that wait already. -/
def request (l : FairLock τ) (x : τ) (mode : LockMode) : FairLock τ :=
  { l with queue := l.queue ++ [(x, mode)] }

/-- The holders leave room for one more task. -/
def admits (l : FairLock τ) : LockMode → Bool
  | .read  => l.holders.all fun p => p.2 == .read
  | .write => l.holders.isEmpty

/-- The first task that waits enters. -/
def grant (l : FairLock τ) : Option (FairLock τ) :=
  match l.queue with
  | []         => none
  | p :: queue => if l.admits p.2 then some ⟨p :: l.holders, queue⟩ else none

/-- Leave the lock. -/
def release [DecidableEq τ] (l : FairLock τ) (x : τ) : FairLock τ :=
  { l with holders := l.holders.filter fun p => p.1 ≠ x }

/-- The task holds the lock. -/
def Holds (l : FairLock τ) (x : τ) (mode : LockMode) : Prop := (x, mode) ∈ l.holders

instance [DecidableEq τ] : Decidable (l.Holds x mode) := inferInstanceAs (Decidable (_ ∈ _))

end FairLock
