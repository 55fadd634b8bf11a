import Mathlib.Algebra.BigOperators.Group.List.Basic
import Mathlib.Algebra.Group.Pi.Basic
import Mathlib.Data.List.Nodup

namespace Tally

/-!
# Cells that several parties count in

Parties share cells, and each adds to them in steps of its own, in whatever order.

* `Balanced` — every cell holds the sum of what the parties have put into it;
* `Balanced.join`, `Balanced.step` — a party that has put in nothing yet, and a step of one party;
* `Balanced.sum_cells` — the sum over some cells, party by party;
* `sum_map_ite`, `sum_map_ite_eq` — the parties that a sum is about.
-/

variable {ι M τ : Type*} [AddCommGroup M] {share : τ → ι → M} {cells cells' : ι → M} {parties : List τ}

/-- Every cell holds what the parties have put into it; `share t i` is what `t` has put into `i`. -/
def Balanced (share : τ → ι → M) (cells : ι → M) (parties : List τ) : Prop :=
  ∀ i, cells i = (parties.map (share · i)).sum

theorem balanced_nil : Balanced share (fun _ => 0) [] := fun _ => rfl

/-- A party that has put in nothing yet. -/
theorem Balanced.join (h : Balanced share cells parties) {t : τ} (ht : ∀ i, share t i = 0) :
    Balanced share cells (parties ++ [t]) := by
  intro i
  rw [List.map_append, List.sum_append, h i]
  simp [ht i]

/-- One party changes, and the sum by as much as what that party has. -/
theorem sum_map_set {f : τ → M} {k : Nat} {t : τ} (hk : parties[k]? = some t) (t' : τ) :
    ((parties.set k t').map f).sum = (parties.map f).sum + (f t' - f t) := by
  obtain ⟨hlt, rfl⟩ := List.getElem?_eq_some_iff.mp hk
  rw [List.map_set, List.sum_set', dif_pos (by simpa using hlt), List.getElem_map, neg_add_eq_sub]

/-- A step of one party: what it adds to a cell is added to its share. -/
theorem Balanced.step (h : Balanced share cells parties) {k : Nat} {t t' : τ} (hk : parties[k]? = some t)
    (hcells : ∀ i, cells' i = cells i + (share t' i - share t i)) : Balanced share cells' (parties.set k t') := by
  intro i
  rw [hcells i, h i, sum_map_set hk]

/-- The sum over some cells is the sum over the parties of what each has put into these. -/
theorem Balanced.sum_cells (h : Balanced share cells parties) (is : List ι) :
    (is.map cells).sum = (parties.map fun t => (is.map (share t)).sum).sum := by
  induction is with
  | nil => simp
  | cons i is ih =>
    simp only [List.map_cons, List.sum_cons, ih, h i]
    exact (List.sum_map_add (f := (share · i)) (g := fun t => (is.map (share t)).sum)).symm

/-- The summands that are none of others. -/
theorem sum_map_ite {α : Type*} (l : List α) (q : α → Prop) [DecidablePred q] (f : α → M) :
    (l.map fun a => if q a then f a else 0).sum = ((l.filter q).map f).sum := by
  induction l with
  | nil => rfl
  | cons a l ih =>
    by_cases h : q a
    · simp [h, ih]
    · simp [h, ih]

/-- One summand of a list without repetitions. -/
theorem sum_map_ite_eq {α : Type*} [DecidableEq α] {l : List α} (hl : l.Nodup) {a : α} (ha : a ∈ l) (m : M) :
    (l.map fun b => if b = a then m else 0).sum = m := by
  rw [sum_map_ite, List.filter_eq, List.count_eq_one_of_mem hl ha]
  simp

end Tally
