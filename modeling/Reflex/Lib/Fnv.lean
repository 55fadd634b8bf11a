import Mathlib.Data.BitVec
import Mathlib.Data.Nat.Bitwise
import Mathlib.Tactic.Ring

namespace Fnv

/-!
# FNV-1a

The FNV-1a hash over words of any width: each byte is put in by an exclusive or, and the word is
multiplied by a prime.

* `hash` — the recurrence;
* `setWidth_hash` — the low bits of a hash are a hash of that width;
* `hash_eq_tally` — a byte only changes the low byte of the word, so that a hash is a sum over the bytes:
  what each of them changes, times a power of the prime.
-/

variable {w : Nat}

/-- One round: the exclusive or with a byte, and the product with the prime. -/
def step (prime h : BitVec w) (b : UInt8) : BitVec w := (h ^^^ b.toBitVec.setWidth w) * prime

/-- The hash with an offset basis and a prime. -/
def hash (basis prime : BitVec w) (bs : List UInt8) : BitVec w := bs.foldl (step prime) basis

theorem hash_cons (basis prime : BitVec w) (b : UInt8) (bs : List UInt8) :
    hash basis prime (b :: bs) = hash (step prime basis b) prime bs := rfl

theorem hash_concat (basis prime : BitVec w) (bs : List UInt8) (b : UInt8) :
    hash basis prime (bs ++ [b]) = step prime (hash basis prime bs) b := by
  rw [hash, hash, List.foldl_append]
  rfl

theorem setWidth_step {v : Nat} (hv : v ≤ w) (prime h : BitVec w) (b : UInt8) :
    (step prime h b).setWidth v = step (prime.setWidth v) (h.setWidth v) b := by
  rw [step, BitVec.setWidth_mul _ _ hv, BitVec.setWidth_xor, BitVec.setWidth_setWidth_of_le _ hv]
  rfl

/-- **Low bits.** A hash that is cut down to fewer bits is the hash of that width, with the basis and
    the prime cut down. -/
theorem setWidth_hash {v : Nat} (hv : v ≤ w) (basis prime : BitVec w) (bs : List UInt8) :
    (hash basis prime bs).setWidth v = hash (basis.setWidth v) (prime.setWidth v) bs := by
  induction bs generalizing basis with
  | nil => rfl
  | cons b bs ih => rw [hash_cons, hash_cons, ih, setWidth_step hv]

/-! ### A sum over the bytes -/

/-- What a byte changes in a word with this low byte. -/
def change (w : Nat) (low : BitVec 8) (b : UInt8) : BitVec w :=
  (low ^^^ b.toBitVec).setWidth w - low.setWidth w

/-- The changes of the bytes, each times the prime for every round from it on.  The low byte runs on its
    own. -/
def tally (prime : BitVec w) (low : BitVec 8) : List UInt8 → BitVec w
  | [] => 0
  | b :: bs => change w low b * prime ^ (bs.length + 1)
      + tally prime (step (prime.setWidth 8) low b) bs

/-- An exclusive or with a byte changes the low byte only, so it is the addition of a number that depends on that byte
    alone. -/
theorem xor_eq_add_change (hw : 8 ≤ w) (h : BitVec w) (b : UInt8) :
    h ^^^ b.toBitVec.setWidth w = h + change w (h.setWidth 8) b := by
  rw [change, add_sub, eq_sub_iff_add_eq]
  have hbyte : ∀ x : BitVec 8, (x.setWidth w).toNat = x.toNat := fun x => by
    rw [BitVec.toNat_setWidth, Nat.mod_eq_of_lt (x.isLt.trans_le (Nat.pow_le_pow_right (by decide) hw))]
  have hb := b.toBitVec.isLt
  -- above the low byte nothing changes
  have hhigh : (h.toNat ^^^ b.toBitVec.toNat) / 2 ^ 8 = h.toNat / 2 ^ 8 := by
    rw [Nat.xor_div_two_pow, Nat.div_eq_of_lt hb, Nat.xor_zero]
  have hlow : (h.toNat ^^^ b.toBitVec.toNat) % 2 ^ 8 = h.toNat % 2 ^ 8 ^^^ b.toBitVec.toNat := by
    rw [Nat.xor_mod_two_pow, Nat.mod_eq_of_lt hb]
  have hsum : (h.toNat ^^^ b.toBitVec.toNat) + h.toNat % 2 ^ 8
      = h.toNat + (h.toNat % 2 ^ 8 ^^^ b.toBitVec.toNat) := by
    rw [← Nat.div_add_mod (h.toNat ^^^ b.toBitVec.toNat) (2 ^ 8), hhigh, hlow]
    have := Nat.div_add_mod h.toNat (2 ^ 8)
    omega
  apply BitVec.eq_of_toNat_eq
  rw [BitVec.toNat_add, BitVec.toNat_add, BitVec.toNat_xor, hbyte, hbyte, hbyte, BitVec.toNat_xor,
    BitVec.toNat_setWidth, hsum]

/-- **A hash is a sum**: that of the basis and of the changes of the bytes, with powers of the prime. -/
theorem hash_eq_tally (hw : 8 ≤ w) (basis prime : BitVec w) (bs : List UInt8) :
    hash basis prime bs = basis * prime ^ bs.length + tally prime (basis.setWidth 8) bs := by
  induction bs generalizing basis with
  | nil =>
    show basis = basis * prime ^ 0 + 0
    rw [pow_zero, mul_one, add_zero]
  | cons b bs ih =>
    rw [hash_cons, ih, setWidth_step hw, step, xor_eq_add_change hw, tally, List.length_cons]
    ring

end Fnv
