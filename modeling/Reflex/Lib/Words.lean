import Mathlib.Data.List.Basic
import Mathlib.Tactic.Common

namespace Words

/-!
# Words that commute

Two words that make up the same word in both orders are powers of one word.  So a word that is the same with its
first letters moved to the end repeats a shorter one.

* `power` — a word repeated so many times, with `power_add` and `power_append_comm`;
* `exists_power_of_append_comm` — words that commute have a common root, by induction on their lengths;
* `append_comm_iff` — when two words commute;
* `rotate_iff` — when a word is the same with its first letters moved to the end.
-/

variable {α : Type*}

/-- A word repeated `k` times. -/
def power (w : List α) (k : Nat) : List α := (List.replicate k w).flatten

@[simp] theorem power_zero (w : List α) : power w 0 = [] := rfl

theorem power_succ (w : List α) (k : Nat) : power w (k + 1) = w ++ power w k := rfl

@[simp] theorem power_one (w : List α) : power w 1 = w := List.append_nil w

theorem power_add (w : List α) (i j : Nat) : power w (i + j) = power w i ++ power w j := by
  rw [power, List.replicate_add, List.flatten_append, power, power]

@[simp] theorem length_power (w : List α) (k : Nat) : (power w k).length = k * w.length := by
  induction k with
  | zero => simp
  | succ k ih => rw [power_succ, List.length_append, ih, Nat.succ_mul, Nat.add_comm]

/-- Powers of one word commute, in any two numbers. -/
theorem power_append_comm (w : List α) (i j : Nat) :
    power w i ++ power w j = power w j ++ power w i := by
  rw [← power_add, Nat.add_comm, power_add]

/-- **Words that commute** are powers of one word.  Induction on their length: the shorter one is the
    beginning of the longer one, and commutes with what is left of it. -/
theorem exists_power_of_append_comm {u v : List α} (h : u ++ v = v ++ u) :
    ∃ w i j, u = power w i ∧ v = power w j := by
  induction hn : u.length + v.length using Nat.strongRecOn generalizing u v with
  | ind n ih =>
    by_cases hu : u = []
    · exact ⟨v, 0, 1, hu, (power_one v).symm⟩
    by_cases hv : v = []
    · exact ⟨u, 1, 0, (power_one u).symm, hv⟩
    have hulen := List.length_pos_iff.mpr hu
    have hvlen := List.length_pos_iff.mpr hv
    rcases List.append_eq_append_iff.mp h with ⟨t, rfl, ht⟩ | ⟨t, rfl, ht⟩
    · rw [List.length_append] at hn
      obtain ⟨w, i, j, rfl, rfl⟩ := ih (u.length + t.length) (by omega) ht rfl
      exact ⟨w, i, i + j, rfl, (power_add w i j).symm⟩
    · rw [List.length_append] at hn
      obtain ⟨w, i, j, rfl, rfl⟩ := ih (v.length + t.length) (by omega) ht rfl
      exact ⟨w, i + j, i, (power_add w i j).symm, rfl⟩

/-- **Two words commute** exactly if they are powers of one word. -/
theorem append_comm_iff {u v : List α} :
    u ++ v = v ++ u ↔ ∃ w i j, u = power w i ∧ v = power w j := by
  refine ⟨exists_power_of_append_comm, ?_⟩
  rintro ⟨w, i, j, rfl, rfl⟩
  exact power_append_comm w i j

/-- **Moving the first `n` letters to the end** leaves a word as it is exactly if it is a power of a
    word whose length divides `n`. -/
theorem rotate_iff {l : List α} {n : Nat} (hn : n ≤ l.length) :
    l.drop n ++ l.take n = l ↔ ∃ w k, l = power w k ∧ w.length ∣ n := by
  constructor
  · intro h
    have hcomm : l.take n ++ l.drop n = l.drop n ++ l.take n := by
      rw [List.take_append_drop, h]
    obtain ⟨w, i, j, hi, hj⟩ := append_comm_iff.mp hcomm
    refine ⟨w, i + j, ?_, i, ?_⟩
    · rw [power_add, ← hi, ← hj, List.take_append_drop]
    · have hlen := congrArg List.length hi
      rw [List.length_take, length_power, Nat.min_eq_left hn] at hlen
      rw [hlen, Nat.mul_comm]
  · rintro ⟨w, k, rfl, i, rfl⟩
    by_cases hw : w.length = 0
    · have hnil : power w k = [] :=
        List.eq_nil_of_length_eq_zero (by rw [length_power, hw, Nat.mul_zero])
      rw [hnil, List.drop_nil, List.take_nil, List.append_nil]
    · rw [length_power, Nat.mul_comm k] at hn
      obtain ⟨j, rfl⟩ := Nat.exists_eq_add_of_le (Nat.le_of_mul_le_mul_left hn (Nat.pos_of_ne_zero hw))
      have hi : (power w i).length = w.length * i := by rw [length_power, Nat.mul_comm]
      rw [power_add, List.drop_left' hi, List.take_left' hi, power_append_comm]

end Words
