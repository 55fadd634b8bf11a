import Mathlib.Algebra.Ring.Nat
import Mathlib.Tactic.Common

namespace PrefixBlock

/-!
# Blocks of bit vectors with a common prefix

The bit vectors that agree with `a` on all but the low `k` bits form the interval from `a &&& highMask w k` to
`(a &&& highMask w k) ||| ~~~highMask w k`, as the addresses of a network do.

* `highMask` — the mask of the upper bits;
* `toNat_and_highMask`, `toNat_block_end` — the two ends as numbers;
* `mem_block_iff` — to be in the interval is to have the upper bits of `a`;
* `block_start_le_end` — the interval is not empty.
-/

variable {w : Nat}

/-- All bits set except the low `k`. -/
abbrev highMask (w k : Nat) : BitVec w := BitVec.allOnes w <<< k

/-- Clearing the low `k` bits rounds down to a multiple of `2 ^ k`. -/
theorem toNat_and_highMask (a : BitVec w) (k : Nat) :
    (a &&& highMask w k).toNat = a.toNat / 2 ^ k * 2 ^ k := by
  rw [highMask, ← BitVec.shiftLeft_ushiftRight, BitVec.toNat_shiftLeft, BitVec.toNat_ushiftRight,
    Nat.shiftLeft_eq, Nat.shiftRight_eq_div_pow]
  exact Nat.mod_eq_of_lt (Nat.lt_of_le_of_lt (Nat.div_mul_le_self _ _) a.isLt)

/-- The multiple of `2 ^ k` below a vector leaves room for a whole block. -/
theorem div_mul_add_le (a : BitVec w) {k : Nat} (hk : k ≤ w) :
    a.toNat / 2 ^ k * 2 ^ k + 2 ^ k ≤ 2 ^ w := by
  have hlt : a.toNat / 2 ^ k < 2 ^ (w - k) := by
    rw [Nat.div_lt_iff_lt_mul (Nat.two_pow_pos k), ← Nat.pow_add, Nat.sub_add_cancel hk]
    exact a.isLt
  calc a.toNat / 2 ^ k * 2 ^ k + 2 ^ k = (a.toNat / 2 ^ k + 1) * 2 ^ k := (Nat.succ_mul _ _).symm
    _ ≤ 2 ^ (w - k) * 2 ^ k := Nat.mul_le_mul_right _ hlt
    _ = 2 ^ w := by rw [← Nat.pow_add, Nat.sub_add_cancel hk]

theorem toNat_not_highMask {k : Nat} (hk : k ≤ w) : (~~~highMask w k).toNat = 2 ^ k - 1 := by
  -- the mask is `2 ^ w - 1` rounded down to a multiple of `2 ^ k`
  have hmask : (highMask w k).toNat = (2 ^ w - 1) / 2 ^ k * 2 ^ k := by
    have := toNat_and_highMask (BitVec.allOnes w) k
    rwa [BitVec.allOnes_and, BitVec.toNat_allOnes] at this
  have hroom := div_mul_add_le (BitVec.allOnes w) hk
  rw [BitVec.toNat_allOnes] at hroom
  have hpos := Nat.two_pow_pos k
  have hposw := Nat.two_pow_pos w
  have hmod := Nat.mod_lt (2 ^ w - 1) hpos
  have hdiv := Nat.div_add_mod (2 ^ w - 1) (2 ^ k)
  rw [Nat.mul_comm] at hdiv
  rw [BitVec.toNat_not, hmask]
  omega

theorem toNat_block_end (a : BitVec w) {k : Nat} (hk : k ≤ w) :
    ((a &&& highMask w k) ||| ~~~highMask w k).toNat = a.toNat / 2 ^ k * 2 ^ k + (2 ^ k - 1) := by
  -- disjoint bits: the union is a sum
  have hdisj : (a &&& highMask w k) &&& ~~~highMask w k = 0#w := by
    rw [BitVec.and_assoc, BitVec.and_not_self]
    exact BitVec.and_zero
  have hroom := div_mul_add_le a hk
  have hpos := Nat.two_pow_pos k
  rw [← BitVec.add_eq_or_of_and_eq_zero _ _ hdisj, BitVec.toNat_add, toNat_and_highMask,
    toNat_not_highMask hk]
  exact Nat.mod_eq_of_lt (by omega)

/-- **Blocks are intervals**: the numbers with the upper bits of `a` are those from its network to its broadcast
    address. -/
theorem mem_block_iff (a x : BitVec w) {k : Nat} (hk : k ≤ w) :
    (a &&& highMask w k ≤ x ∧ x ≤ (a &&& highMask w k) ||| ~~~highMask w k) ↔
      x >>> k = a >>> k := by
  have hpos := Nat.two_pow_pos k
  rw [BitVec.le_def, BitVec.le_def, toNat_and_highMask, toNat_block_end a hk,
    ← BitVec.toNat_inj, BitVec.toNat_ushiftRight, BitVec.toNat_ushiftRight,
    Nat.shiftRight_eq_div_pow, Nat.shiftRight_eq_div_pow, Nat.div_eq_iff hpos,
    Nat.add_sub_assoc hpos]

theorem block_start_le_end (a : BitVec w) {k : Nat} (hk : k ≤ w) :
    a &&& highMask w k ≤ (a &&& highMask w k) ||| ~~~highMask w k := by
  rw [BitVec.le_def, toNat_and_highMask, toNat_block_end a hk]
  exact Nat.le_add_right _ _

/-- Clearing the low bits keeps the prefix. -/
theorem and_highMask_ushiftRight (a : BitVec w) {k : Nat} (hk : k ≤ w) :
    (a &&& highMask w k) >>> k = a >>> k :=
  (mem_block_iff a _ hk).mp ⟨BitVec.le_refl _, block_start_le_end a hk⟩

end PrefixBlock
