import Mathlib.Data.Nat.ModEq
import Mathlib.Tactic.Common

namespace OnesComplement

/-!
# Ones' complement sums

Addition with the carry added back at the low end, as Internet checksums use it.  With `n` for the value
whose bits are all ones, a sum stands for its remainder modulo `n`, and `n` and zero stand for the same;
but only the sum zero gives zero.

* `residue n s` — what is left of the sum `s` when all carries have been added;
* `residue_carry` — adding the carries once does not change it;
* `residue_add_complement` — with the complement of a sum added, and anything else behind it, the bits
  are all ones exactly when the rest is a multiple of `n`.
-/

variable {n : Nat}

/-- The sum with its carries added: between `1` and `n`, or zero for zero. -/
def residue (n s : Nat) : Nat := if s = 0 then 0 else (s - 1) % n + 1

/-- The complement of a sum. -/
def complement (n s : Nat) : Nat := n - residue n s

@[simp] theorem residue_zero (n : Nat) : residue n 0 = 0 := rfl

theorem residue_le (hn : 0 < n) (s : Nat) : residue n s ≤ n := by
  rw [residue]
  split
  · exact Nat.zero_le n
  · exact Nat.mod_lt _ hn

/-- A sum without carries is left as it is. -/
theorem residue_of_le {s : Nat} (h : s ≤ n) : residue n s = s := by
  rw [residue]
  split
  · rename_i hs
    exact hs.symm
  · rw [Nat.mod_eq_of_lt (by omega)]
    omega

theorem residue_modEq (n s : Nat) : residue n s ≡ s [MOD n] := by
  rw [residue]
  split
  · rename_i hs
    rw [hs]
  · rename_i hs
    have h := (Nat.mod_modEq (s - 1) n).add_right 1
    rwa [Nat.sub_add_cancel (Nat.one_le_iff_ne_zero.mpr hs)] at h

/-- Sums with the same remainder have the same residue, unless one of them is zero. -/
theorem residue_congr {s t : Nat} (h : s ≡ t [MOD n]) (hs : s ≠ 0) (ht : t ≠ 0) :
    residue n s = residue n t := by
  rw [residue, residue, if_neg hs, if_neg ht]
  have hpred : s - 1 ≡ t - 1 [MOD n] := by
    apply Nat.ModEq.add_right_cancel' 1
    rwa [Nat.sub_add_cancel (Nat.one_le_iff_ne_zero.mpr hs),
      Nat.sub_add_cancel (Nat.one_le_iff_ne_zero.mpr ht)]
  exact congrArg (· + 1) hpred

/-- **Carries.**  Adding them once does not change what is left. -/
theorem residue_carry (n s : Nat) : residue n (s % (n + 1) + s / (n + 1)) = residue n s := by
  by_cases hs : s = 0
  · simp [hs]
  · have hdiv := Nat.mod_add_div s (n + 1)
    rw [Nat.succ_mul] at hdiv
    refine residue_congr ?_ (fun h => hs ?_) hs
    · have hmod : n * (s / (n + 1)) ≡ 0 [MOD n] := Nat.modEq_zero_iff_dvd.mpr (Nat.dvd_mul_right _ _)
      calc s % (n + 1) + s / (n + 1)
          ≡ s % (n + 1) + s / (n + 1) + n * (s / (n + 1)) [MOD n] := (hmod.add_left _).symm
        _ = s := by omega
    · obtain ⟨hlow, hhigh⟩ := Nat.add_eq_zero_iff.mp h
      rw [hlow, hhigh, Nat.mul_zero] at hdiv
      exact hdiv.symm

/-- All bits are ones for the multiples of `n`, but not for zero. -/
theorem residue_eq_top_iff (hn : 0 < n) {s : Nat} : residue n s = n ↔ s ≠ 0 ∧ n ∣ s := by
  constructor
  · intro h
    refine ⟨fun hs => ?_, ?_⟩
    · rw [hs, residue_zero] at h
      exact absurd h hn.ne
    · have hmod := residue_modEq n s
      rw [h] at hmod
      exact (Nat.modEq_zero_iff_dvd.mp ((Nat.modEq_zero_iff_dvd.mpr dvd_rfl).symm.trans hmod).symm)
  · rintro ⟨hs, hdvd⟩
    have hmod : s ≡ n [MOD n] := (Nat.modEq_zero_iff_dvd.mpr hdvd).trans
      (Nat.modEq_zero_iff_dvd.mpr dvd_rfl).symm
    rw [residue_congr hmod hs hn.ne', residue_of_le le_rfl]

/-- A sum and its complement add up to a multiple of the modulus that is not zero: the check of a receiver. -/
theorem add_complement (hn : 0 < n) (s : Nat) :
    s + complement n s ≠ 0 ∧ n ∣ s + complement n s := by
  have hle := residue_le hn s
  have hsum : residue n s + complement n s = n := Nat.add_sub_cancel' hle
  constructor
  · intro h
    obtain ⟨rfl, hcompl⟩ := Nat.add_eq_zero_iff.mp h
    rw [residue_zero, hcompl] at hsum
    exact hn.ne hsum
  · have hmod := (residue_modEq n s).add_right (complement n s)
    rw [hsum] at hmod
    exact Nat.modEq_zero_iff_dvd.mp (hmod.symm.trans (Nat.modEq_zero_iff_dvd.mpr dvd_rfl))

/-- **Checking.**  With its complement, a sum and what follows it have all bits ones exactly when what
    follows is a multiple of `n`. -/
theorem residue_add_complement (hn : 0 < n) (s rest : Nat) :
    residue n (s + complement n s + rest) = n ↔ n ∣ rest := by
  obtain ⟨hpos, hdvd⟩ := add_complement hn s
  rw [residue_eq_top_iff hn, Nat.dvd_add_right hdvd]
  exact and_iff_right (by omega)

/-- The complement is zero for the multiples of `n`, but not for zero. -/
theorem complement_eq_zero_iff (hn : 0 < n) {s : Nat} : complement n s = 0 ↔ s ≠ 0 ∧ n ∣ s := by
  have hle := residue_le hn s
  rw [← residue_eq_top_iff hn, complement]
  omega

end OnesComplement
