import Mathlib.Data.List.Basic
import Mathlib.Tactic.Common

namespace Slots

/-!
# Slots

Parts of a whole that arrive in any order, some of them more than once, each with its index.

* `Agrees` — what the slots hold are parts of a list, each in its place (`Agrees.set`);
* `filled_set` — one more slot is filled;
* `exists_free` — while fewer are filled than there are, one is free, and none when all are filled
  (`not_free_of_full`);
* `forall_set`, `free_of_set` — what a slot that is filled changes, and what not;
* `contents_eq` — when all are filled, they hold the list;
* `length_flatten_contents_le` — what they hold together, when the parts are lists.
-/

variable {α : Type*}

/-- `n` slots that are free. -/
def free (n : Nat) : List (Option α) := List.replicate n none

/-- How many slots are filled. -/
def filled (slots : List (Option α)) : Nat := slots.countP Option.isSome

/-- What the slots hold, in order. -/
def contents (slots : List (Option α)) : List α := slots.filterMap id

/-- The slots hold parts of `parts`, each in its place. -/
structure Agrees (slots : List (Option α)) (parts : List α) : Prop where
  length_eq : slots.length = parts.length
  part : ∀ (i : Nat) (a : α), slots[i]? = some (some a) → parts[i]? = some a

theorem agrees_free {parts : List α} {n : Nat} (h : n = parts.length) : Agrees (free n) parts := by
  refine ⟨by rw [free, List.length_replicate, h], fun i a ha => ?_⟩
  rw [free, List.getElem?_replicate] at ha
  split at ha
  · cases ha
  · cases ha

/-- A part that is put into its own place agrees with the list, as the others did before. -/
theorem Agrees.set {slots : List (Option α)} {parts : List α} (h : Agrees slots parts) {i : Nat} {a : α}
    (ha : parts[i]? = some a) : Agrees (slots.set i (some a)) parts := by
  refine ⟨by rw [List.length_set, h.length_eq], fun j b hb => ?_⟩
  rw [List.getElem?_set] at hb
  split at hb
  · rename_i hij
    subst hij
    split at hb
    · rw [ha, Option.some.inj (Option.some.inj hb)]
    · cases hb
  · exact h.part j b hb

theorem filled_set {slots : List (Option α)} {i : Nat} {a : α} (h : slots[i]? = some none) :
    filled (slots.set i (some a)) = filled slots + 1 := by
  induction slots generalizing i with
  | nil => cases h
  | cons slot slots ih =>
    cases i with
    | zero =>
      obtain rfl : slot = none := Option.some.inj h
      rw [List.set_cons_zero, filled, filled, List.countP_cons_of_pos rfl,
        List.countP_cons_of_neg Bool.false_ne_true]
    | succ i =>
      have hset := ih (i := i) h
      unfold filled at hset ⊢
      rw [List.set_cons_succ, List.countP_cons, List.countP_cons, hset]
      omega

theorem filled_free (n : Nat) : filled (free n : List (Option α)) = 0 := by
  rw [filled, free, List.countP_replicate]
  rfl

/-- What holds of every part holds of it when one more comes. -/
theorem forall_set {slots : List (Option α)} {p : α → Prop} (h : ∀ b, some b ∈ slots → p b) {i : Nat} {a : α}
    (ha : p a) : ∀ b, some b ∈ slots.set i (some a) → p b := by
  intro b hb
  rcases List.mem_or_eq_of_mem_set hb with hmem | heq
  · exact h b hmem
  · rwa [Option.some.inj heq]

/-- A slot that is still free is another one, and was free. -/
theorem free_of_set {slots : List (Option α)} {i j : Nat} {a : α}
    (h : (slots.set i (some a))[j]? = some none) : i ≠ j ∧ slots[j]? = some none := by
  rw [List.getElem?_set] at h
  split at h
  · split at h <;> cases h
  · exact ⟨‹_›, h⟩

/-- While fewer slots are filled than there are, one is free. -/
theorem exists_free {slots : List (Option α)} (h : filled slots < slots.length) :
    ∃ i : Nat, slots[i]? = some none := by
  by_contra hfull
  have hall : ∀ slot ∈ slots, slot.isSome = true := by
    intro slot hmem
    obtain ⟨i, hi⟩ := List.mem_iff_getElem?.mp hmem
    cases slot with
    | none => exact absurd ⟨i, hi⟩ hfull
    | some a => rfl
  exact absurd (List.countP_eq_length.mpr hall) (Nat.ne_of_lt h)

theorem not_free_of_full {slots : List (Option α)} (h : slots.length ≤ filled slots) (i : Nat) :
    slots[i]? ≠ some none := by
  intro hi
  have hall := List.countP_eq_length.mp (Nat.le_antisymm List.countP_le_length h)
  exact absurd (hall none (List.mem_of_getElem? hi)) Bool.false_ne_true

/-- **Full slots** that agree with a list hold the list, in its order. -/
theorem contents_eq {slots : List (Option α)} {parts : List α} (h : Agrees slots parts)
    (hfull : filled slots = slots.length) : contents slots = parts := by
  induction slots generalizing parts with
  | nil =>
    have hparts : parts = [] := List.length_eq_zero_iff.mp h.length_eq.symm
    rw [hparts]
    rfl
  | cons slot slots ih =>
    obtain ⟨part, parts, rfl⟩ := List.exists_cons_of_length_eq_add_one h.length_eq.symm
    have hall := List.countP_eq_length.mp hfull
    obtain ⟨a, rfl⟩ := Option.isSome_iff_exists.mp (hall slot List.mem_cons_self)
    obtain rfl : part = a := Option.some.inj (h.part 0 a rfl)
    have hrest : Agrees slots parts :=
      ⟨Nat.succ.inj h.length_eq, fun i b hb => h.part (i + 1) b hb⟩
    have hfilled : filled slots = slots.length :=
      List.countP_eq_length.mpr fun slot hmem => hall slot (List.mem_cons_of_mem _ hmem)
    show part :: contents slots = part :: parts
    rw [ih hrest hfilled]

/-- Parts of at most `size` do not hold more than there are slots for. -/
theorem length_flatten_contents_le {slots : List (Option (List α))} {size : Nat}
    (h : ∀ part, some part ∈ slots → part.length ≤ size) :
    (contents slots).flatten.length ≤ slots.length * size := by
  induction slots with
  | nil => exact Nat.zero_le _
  | cons slot slots ih =>
    have hrest := ih fun part hmem => h part (List.mem_cons_of_mem slot hmem)
    rw [List.length_cons, Nat.succ_mul]
    cases slot with
    | none =>
      show (contents slots).flatten.length ≤ _
      omega
    | some part =>
      have hpart := h part List.mem_cons_self
      show (part ++ (contents slots).flatten).length ≤ _
      rw [List.length_append]
      omega

end Slots
