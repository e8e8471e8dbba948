/-
  StealthNet.Lib.BigEndian
  ────────────────────────
  NUMBERS IN NETWORK BYTE ORDER.

  `octets n v` are the lowest `n` octets of a number, the most significant
  first; `value` reads a list of octets back.  Fields of bits are appended
  before they are written, so the first field is at the front of the first
  octet (`head_octets_append`).
-/
import Mathlib.Data.List.Basic
import Mathlib.Algebra.Order.Ring.Nat

namespace Lib.BigEndian

/-- The last `n` octets of a number. -/
def octets : ℕ → ℕ → List UInt8
  | 0, _ => []
  | n + 1, v => octets n (v / 256) ++ [UInt8.ofNat (v % 256)]

/-- The number that octets stand for. -/
def value (l : List UInt8) : ℕ := l.foldl (fun n b => n * 256 + b.toNat) 0

@[simp] theorem length_octets (n v : ℕ) : (octets n v).length = n := by
  induction n generalizing v with
  | zero => rfl
  | succ n ih => simp [octets, ih]

theorem value_append_singleton (l : List UInt8) (b : UInt8) :
    value (l ++ [b]) = value l * 256 + b.toNat := by
  unfold value
  rw [List.foldl_append]
  rfl

/-- What fits into the octets is read back. -/
theorem value_octets (n : ℕ) {v : ℕ} (hv : v < 256 ^ n) : value (octets n v) = v := by
  induction n generalizing v with
  | zero =>
      obtain rfl : v = 0 := by
        simpa using hv
      rfl
  | succ n ih =>
      have hdiv : v / 256 < 256 ^ n := by
        rw [Nat.div_lt_iff_lt_mul (by decide), ← Nat.pow_succ]
        exact hv
      have hmod : (UInt8.ofNat (v % 256)).toNat = v % 256 :=
        UInt8.toNat_ofNat_of_lt' (Nat.mod_lt v (by decide))
      unfold octets
      rw [value_append_singleton, ih hdiv, hmod]
      exact Nat.div_add_mod' v 256

/-- A word of `8 * n` bits is read back from its octets. -/
theorem ofNat_value_octets {w : ℕ} (n : ℕ) (hw : w = 8 * n) (v : BitVec w) :
    BitVec.ofNat w (value (octets n v.toNat)) = v := by
  subst hw
  have hv : v.toNat < 256 ^ n := by
    have hlt := v.isLt
    rw [Nat.pow_mul] at hlt
    exact hlt
  rw [value_octets n hv, BitVec.ofNat_toNat, BitVec.setWidth_eq]

theorem head_octets (n v : ℕ) :
    (octets (n + 1) v).head? = some (UInt8.ofNat (v / 256 ^ n % 256)) := by
  induction n generalizing v with
  | zero => simp [octets]
  | succ n ih =>
      unfold octets
      rw [List.head?_append, ih, Nat.div_div_eq_div_mul, ← Nat.pow_succ']
      rfl

theorem toNat_append_div {n m : ℕ} (a : BitVec n) (b : BitVec m) :
    (a ++ b).toNat / 2 ^ m = a.toNat := by
  rw [BitVec.toNat_append, ← Nat.shiftLeft_add_eq_or_of_lt b.isLt, Nat.shiftLeft_eq,
    Nat.mul_comm, Nat.mul_add_div (Nat.two_pow_pos m), Nat.div_eq_of_lt b.isLt, Nat.add_zero]

/-- A field of four bits at the front of a word is the upper half of the first
octet. -/
theorem head_octets_append (n : ℕ) {m : ℕ} (hm : m = 8 * n + 4) (nibble : BitVec 4)
    (rest : BitVec m) :
    ∃ b, (octets (n + 1) (nibble ++ rest).toNat).head? = some b ∧
      b >>> 4 = UInt8.ofNat nibble.toNat := by
  subst hm
  refine ⟨_, head_octets n _, ?_⟩
  have hnibble := nibble.isLt
  have hpow : 256 ^ n * 16 = 2 ^ (8 * n + 4) := by
    rw [Nat.pow_add, Nat.pow_mul]
  -- the first octet holds the field and four more bits
  have hdiv : (nibble ++ rest).toNat / 256 ^ n / 16 = nibble.toNat := by
    rw [Nat.div_div_eq_div_mul, hpow]
    exact toNat_append_div nibble rest
  generalize (nibble ++ rest).toNat / 256 ^ n = first at hdiv ⊢
  apply UInt8.toNat_inj.mp
  rw [UInt8.toNat_shiftRight, UInt8.toNat_ofNat', UInt8.toNat_ofNat', Nat.shiftRight_eq_div_pow]
  show first % 256 % 256 / 16 = nibble.toNat % 256
  omega

end Lib.BigEndian
