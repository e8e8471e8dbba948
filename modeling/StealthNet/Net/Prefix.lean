/-
  StealthNet.Net.Prefix
  ─────────────────────
  WHICH ADDRESSES A PREFIX CONTAINS.

  A prefix is compared through its two ends, `network` and `broadcast`; an
  address lies between them exactly if it has the same leading bits
  (`IpPrefix.contains_iff`).  So a network contains the address it was
  written with, and two networks of one length that share an address are the
  same network, whatever host bits they were written with
  (`IpNet.trunc_eq_of_contains`).
-/
import StealthNet.Net.Addr
import Mathlib.Data.Nat.Bitwise

namespace StealthNet

/-! ## §1. The ends of a prefix. -/

namespace IpPrefix

variable {w : Nat}

/-- The number of bits behind the prefix. -/
def hostBits (p : IpPrefix w) : Nat := w - p.prefixLen

theorem getLsbD_network (p : IpPrefix w) (i : Nat) :
    p.network.getLsbD i = (p.addr.getLsbD i && decide (p.hostBits ≤ i)) := by
  unfold network hostBits
  by_cases hi : i < w
  · by_cases hk : w - (p.prefixLen : Nat) ≤ i
    · simp [hi, hk]
    · have hlt : i < w - (p.prefixLen : Nat) := by omega
      simp [hi, hk, hlt]
  · simp [BitVec.getLsbD_of_ge _ _ (Nat.le_of_not_lt hi)]

theorem toNat_network (p : IpPrefix w) :
    p.network.toNat = p.addr.toNat / 2 ^ p.hostBits * 2 ^ p.hostBits := by
  apply Nat.eq_of_testBit_eq
  intro i
  rw [← BitVec.getLsbD, getLsbD_network, Nat.testBit_mul_two_pow, Nat.testBit_div_two_pow]
  by_cases hk : p.hostBits ≤ i
  · simp [hk, BitVec.getLsbD]
  · simp [hk]

theorem toNat_broadcast (p : IpPrefix w) :
    p.broadcast.toNat
      = p.addr.toNat / 2 ^ p.hostBits * 2 ^ p.hostBits + (2 ^ p.hostBits - 1) := by
  have hlen := p.prefixLen.isLt
  have hlt : 2 ^ p.hostBits - 1 < 2 ^ p.hostBits := by
    have := Nat.two_pow_pos p.hostBits
    omega
  -- the host bits of the first summand are zero, so the sum is a disjunction
  rw [Nat.mul_comm, Nat.two_pow_add_eq_or_of_lt hlt]
  apply Nat.eq_of_testBit_eq
  intro i
  rw [Nat.testBit_or, Nat.testBit_two_pow_mul, Nat.testBit_two_pow_sub_one,
    Nat.testBit_div_two_pow, ← BitVec.getLsbD]
  unfold broadcast
  rw [BitVec.getLsbD_or, BitVec.getLsbD_ushiftRight, BitVec.getLsbD_allOnes]
  unfold hostBits
  by_cases hk : w - (p.prefixLen : Nat) ≤ i
  · have hnot : ¬ (p.prefixLen : Nat) + i < w := by omega
    simp [hk, hnot, BitVec.getLsbD]
  · have hin : (p.prefixLen : Nat) + i < w := by omega
    simp [hk, hin]
    omega

/-! ## §2. Containment. -/

/-- A prefix contains the addresses with its leading bits. -/
theorem contains_iff {p : IpPrefix w} {a : BitVec w} :
    p.contains a = true ↔ a.toNat / 2 ^ p.hostBits = p.addr.toNat / 2 ^ p.hostBits := by
  have hpos := Nat.two_pow_pos p.hostBits
  unfold contains
  rw [Bool.and_eq_true, decide_eq_true_iff, decide_eq_true_iff, BitVec.le_def, BitVec.le_def,
    toNat_network, toNat_broadcast]
  generalize p.addr.toNat / 2 ^ p.hostBits = q
  constructor
  · rintro ⟨hlow, hhigh⟩
    apply Nat.le_antisymm
    · apply Nat.le_of_lt_succ
      -- at most the broadcast address is less than the next network
      rw [Nat.div_lt_iff_lt_mul hpos, Nat.succ_mul]
      omega
    · rwa [Nat.le_div_iff_mul_le hpos]
  · rintro rfl
    have hdiv := Nat.div_add_mod' a.toNat (2 ^ p.hostBits)
    have hmod := Nat.mod_lt a.toNat hpos
    omega

theorem contains_addr (p : IpPrefix w) : p.contains p.addr = true := contains_iff.mpr rfl

/-- Two prefixes of one length that share an address have one network. -/
theorem network_eq_of_contains {p q : IpPrefix w} {a : BitVec w} (hp : p.contains a = true)
    (hq : q.contains a = true) (hlen : p.prefixLen = q.prefixLen) : p.network = q.network := by
  apply BitVec.eq_of_toNat_eq
  rw [toNat_network, toNat_network, ← contains_iff.mp hp, ← contains_iff.mp hq]
  unfold hostBits
  rw [hlen]

/-- The prefix with its host bits cleared. -/
def trunc (p : IpPrefix w) : IpPrefix w := ⟨p.network, p.prefixLen⟩

end IpPrefix

namespace IpNet

/-- The network a prefix denotes, whatever host bits it was written with. -/
def trunc : IpNet → IpNet
  | .v4 net => .v4 net.trunc
  | .v6 net => .v6 net.trunc

theorem contains_addr (net : IpNet) : net.contains net.addr = true := by
  cases net with
  | v4 net => exact net.contains_addr
  | v6 net => exact net.contains_addr

theorem trunc_eq_of_contains {n m : IpNet} {a : IpAddr} (hn : n.contains a = true)
    (hm : m.contains a = true) (hlen : n.prefixLen = m.prefixLen) : n.trunc = m.trunc := by
  -- the argument for one width; the families differ in nothing else
  have key : ∀ {w : Nat} {p q : IpPrefix w} {b : BitVec w}, p.contains b = true →
      q.contains b = true → (p.prefixLen : Nat) = q.prefixLen → p.trunc = q.trunc := by
    intro w p q b hp hq hlen
    have hfin : p.prefixLen = q.prefixLen := Fin.ext hlen
    unfold IpPrefix.trunc
    rw [IpPrefix.network_eq_of_contains hp hq hfin, hfin]
  cases a with
  | v4 a =>
      cases n with
      | v6 n => cases hn
      | v4 n =>
          cases m with
          | v6 m => cases hm
          | v4 m => exact congrArg IpNet.v4 (key hn hm hlen)
  | v6 a =>
      cases n with
      | v4 n => cases hn
      | v6 n =>
          cases m with
          | v4 m => cases hm
          | v6 m => exact congrArg IpNet.v6 (key hn hm hlen)

end IpNet

end StealthNet
