import Mathlib.Algebra.BigOperators.Group.Finset.Basic

/-!
# Bytes, digests and arithmetic of the client

The SHA-1 of the `sha1` crate and the build's overflow checks are parameters of the model. On a
build with checks a `u32` or `usize` operation that overflows panics, on one without it wraps.
-/

namespace BearTorrent

/-- A `Vec<u8>`, also the content of a file. -/
abbrev Bytes := List UInt8

/-- A `[u8; 20]`. -/
abbrev Digest := {bytes : Bytes // bytes.length = 20}

/-- `try_into` from a vector of bytes to `[u8; 20]`. -/
def Digest.ofBytes? (bytes : Bytes) : Option Digest :=
  if h : bytes.length = 20 then some ⟨bytes, h⟩ else none

@[simp] lemma Digest.ofBytes?_val (d : Digest) : Digest.ofBytes? d.val = some d := by
  simp [Digest.ofBytes?, d.property]

lemma Digest.ofBytes?_eq_some {bytes : Bytes} {d : Digest} :
    Digest.ofBytes? bytes = some d ↔ bytes = d.val := by
  constructor
  · intro h
    simp only [Digest.ofBytes?, Option.dite_none_right_eq_some, Option.some.injEq] at h
    obtain ⟨_, rfl⟩ := h
    rfl
  · rintro rfl
    simp

/-- What the client's code takes from outside: the hash function and the build profile. -/
structure Env where
  sha1 : Bytes → Digest
  overflowChecks : Bool

/-- The digest of zeros. -/
def Digest.zero : Digest := ⟨List.replicate 20 0, rfl⟩

/-- How a call ends without a value: with an `Err`, or by panicking. -/
inductive Fault where
  | err (message : String)
  | panic
  deriving DecidableEq, Repr

/-- `a * b` on `u32`. -/
def mulU32 (env : Env) (a b : UInt32) : Except Fault UInt32 :=
  if env.overflowChecks ∧ 2 ^ 32 ≤ a.toNat * b.toNat then .error .panic else .ok (a * b)

/-- `a + b` on `u32`. -/
def addU32 (env : Env) (a b : UInt32) : Except Fault UInt32 :=
  if env.overflowChecks ∧ 2 ^ 32 ≤ a.toNat + b.toNat then .error .panic else .ok (a + b)

/-- `a - b` on a 64-bit `usize`. -/
def subUsize (env : Env) (a b : ℕ) : Except Fault ℕ :=
  if b ≤ a then .ok (a - b)
  else if env.overflowChecks then .error .panic else .ok (2 ^ 64 + a - b)

/-- `a * b` on a 64-bit `usize`. -/
def mulUsize (env : Env) (a b : ℕ) : Except Fault ℕ :=
  if a * b < 2 ^ 64 then .ok (a * b)
  else if env.overflowChecks then .error .panic else .ok (a * b % 2 ^ 64)

lemma except_bind_eq_ok {α β : Type} {x : Except Fault α} {f : α → Except Fault β} {b : β} :
    (x >>= f) = .ok b ↔ ∃ a, x = .ok a ∧ f a = .ok b := by
  cases x <;> simp [bind, Except.bind]

lemma mulU32_of_lt (env : Env) {a b : UInt32} (h : a.toNat * b.toNat < 2 ^ 32) :
    mulU32 env a b = .ok (a * b) :=
  if_neg fun h' => absurd h'.2 (by omega)

lemma mulU32_of_unchecked {env : Env} (henv : env.overflowChecks = false) (a b : UInt32) :
    mulU32 env a b = .ok (a * b) :=
  if_neg fun h => by simp [henv] at h

lemma mulU32_overflow {env : Env} (henv : env.overflowChecks = true) {a b : UInt32}
    (h : 2 ^ 32 ≤ a.toNat * b.toNat) : mulU32 env a b = .error .panic :=
  if_pos ⟨henv, h⟩

lemma toNat_mul_of_lt {a b : UInt32} (h : a.toNat * b.toNat < 2 ^ 32) :
    (a * b).toNat = a.toNat * b.toNat := by
  rw [UInt32.toNat_mul, Nat.mod_eq_of_lt h]

lemma addU32_of_lt (env : Env) {a b : UInt32} (h : a.toNat + b.toNat < 2 ^ 32) :
    addU32 env a b = .ok (a + b) :=
  if_neg fun h' => absurd h'.2 (Nat.not_le.mpr h)

lemma subUsize_of_le (env : Env) {a b : ℕ} (h : b ≤ a) : subUsize env a b = .ok (a - b) :=
  if_pos h

lemma mulUsize_of_lt (env : Env) {a b : ℕ} (h : a * b < 2 ^ 64) :
    mulUsize env a b = .ok (a * b) :=
  if_pos h

end BearTorrent
