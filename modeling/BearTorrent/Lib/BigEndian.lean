import Mathlib.Algebra.BigOperators.Group.Finset.Basic

/-!
# Big-endian bytes

A natural number as a list of `n` bytes, the most significant first, and back.
-/

namespace BigEndian

/-- The last `n` base-256 digits of `v`, the most significant first. -/
def toBytes : ℕ → ℕ → List UInt8
  | 0, _     => []
  | n + 1, v => UInt8.ofNat (v / 256 ^ n) :: toBytes n v

/-- The number with the given digits. -/
def ofBytes : List UInt8 → ℕ
  | []         => 0
  | b :: bytes => b.toNat * 256 ^ bytes.length + ofBytes bytes

@[simp] lemma length_toBytes (n v : ℕ) : (toBytes n v).length = n := by
  induction n with
  | zero => rfl
  | succ n ih => rw [toBytes, List.length_cons, ih]

lemma ofBytes_toBytes (n v : ℕ) : ofBytes (toBytes n v) = v % 256 ^ n := by
  induction n with
  | zero => rw [toBytes, ofBytes, pow_zero, Nat.mod_one]
  | succ n ih =>
    have hdigit : (UInt8.ofNat (v / 256 ^ n)).toNat = v / 256 ^ n % 256 := UInt8.toNat_ofNat'
    rw [toBytes, ofBytes, ih, length_toBytes, hdigit, Nat.mod_pow_succ (b := 256), Nat.mul_comm,
      Nat.add_comm]

/-- A number that fits the bytes is read back. -/
lemma ofBytes_toBytes_of_lt {n v : ℕ} (h : v < 256 ^ n) : ofBytes (toBytes n v) = v :=
  (ofBytes_toBytes n v).trans (Nat.mod_eq_of_lt h)

/-- Numbers that fit the bytes have different digits. -/
lemma toBytes_inj {n v w : ℕ} (hv : v < 256 ^ n) (hw : w < 256 ^ n)
    (h : toBytes n v = toBytes n w) : v = w := by
  rw [← ofBytes_toBytes_of_lt hv, h, ofBytes_toBytes_of_lt hw]

lemma ofBytes_lt (bytes : List UInt8) : ofBytes bytes < 256 ^ bytes.length := by
  induction bytes with
  | nil => exact Nat.one_pos
  | cons b bytes ih =>
    have hb : (b.toNat + 1) * 256 ^ bytes.length ≤ 256 * 256 ^ bytes.length :=
      Nat.mul_le_mul_right _ b.toNat_lt
    rw [ofBytes, List.length_cons, pow_succ, Nat.mul_comm _ 256]
    rw [Nat.succ_mul] at hb
    omega

/-- Only the last `n` digits count. -/
lemma toBytes_add_mul (n v k : ℕ) : toBytes n (v + k * 256 ^ n) = toBytes n v := by
  induction n generalizing k with
  | zero => rfl
  | succ n ih =>
    have hdigit : (v + k * 256 * 256 ^ n) / 256 ^ n = v / 256 ^ n + k * 256 :=
      Nat.add_mul_div_right _ _ (Nat.pow_pos (by decide))
    rw [pow_succ, Nat.mul_comm _ 256, ← Nat.mul_assoc, toBytes, toBytes, ih, hdigit]
    congr 1
    apply UInt8.toNat_inj.mp
    rw [UInt8.toNat_ofNat', UInt8.toNat_ofNat', Nat.add_mul_mod_self_right]

/-- Bytes are the digits of the number they make. -/
lemma toBytes_ofBytes (bytes : List UInt8) : toBytes bytes.length (ofBytes bytes) = bytes := by
  induction bytes with
  | nil => rfl
  | cons b bytes ih =>
    have hdigit : (ofBytes bytes + b.toNat * 256 ^ bytes.length) / 256 ^ bytes.length = b.toNat := by
      rw [Nat.add_mul_div_right _ _ (Nat.pow_pos (by decide)),
        Nat.div_eq_of_lt (ofBytes_lt bytes), Nat.zero_add]
    rw [ofBytes, List.length_cons, toBytes, Nat.add_comm, hdigit, toBytes_add_mul, ih]
    congr 1
    exact UInt8.ofNat_toNat

end BigEndian
