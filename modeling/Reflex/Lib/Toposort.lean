import Mathlib.Data.Fintype.EquivFin
import Mathlib.Data.Fintype.Sets
import Mathlib.Data.List.Basic
import Mathlib.Logic.Relation

namespace Toposort

/-!
# Orders that respect dependencies

`R i j` says that `i` depends on `j`.

* `Sorted` — a list in which everything comes behind what it depends on, `Sorted.snoc`;
* `Sorted.acyclic` — what can be sorted has no cycle;
* `mem_of_saturated` — without cycles, a list that takes in whatever it could misses nothing;
* `length_le_of_isChain` — without cycles, no path is longer than there are nodes.
-/

open Relation

variable {α : Type*} [DecidableEq α] {R : α → α → Prop} {l : List α}

/-- Everything in the list comes behind what it depends on. -/
def Sorted (R : α → α → Prop) (l : List α) : Prop :=
  ∀ i ∈ l, ∀ j, R i j → l.idxOf j < l.idxOf i

theorem sorted_nil : Sorted R [] := fun _ hi => absurd hi List.not_mem_nil

/-- What something in the list depends on is in the list. -/
theorem Sorted.mem (h : Sorted R l) {i j : α} (hi : i ∈ l) (hij : R i j) : j ∈ l :=
  List.idxOf_lt_length_iff.mp (lt_trans (h i hi j hij) (List.idxOf_lt_length_iff.mpr hi))

/-- What something in the list depends on stands before it. -/
theorem Sorted.mem_of_append {i j : α} {done rest : List α} (h : Sorted R (done ++ i :: rest))
    (hij : R i j) : j ∈ done := by
  have hlt := h i (List.mem_append_right _ List.mem_cons_self) j hij
  by_contra hj
  rw [List.idxOf_append_of_notMem hj] at hlt
  by_cases hi : i ∈ done
  · have hlen := List.idxOf_lt_length_iff.mpr hi
    rw [List.idxOf_append_of_mem hi] at hlt
    omega
  · rw [List.idxOf_append_of_notMem hi, List.idxOf_cons_self] at hlt
    omega

/-- An element may be appended if what it depends on is there. -/
theorem Sorted.snoc (h : Sorted R l) {i : α} (hi : i ∉ l) (hdeps : ∀ j, R i j → j ∈ l) :
    Sorted R (l ++ [i]) := by
  intro k hk j hkj
  rcases List.mem_append.mp hk with hold | hnew
  · rw [List.idxOf_append_of_mem hold, List.idxOf_append_of_mem (h.mem hold hkj)]
    exact h k hold j hkj
  · obtain rfl := List.mem_singleton.mp hnew
    have hj : j ∈ l := hdeps j hkj
    rw [List.idxOf_append_of_mem hj, List.idxOf_append_of_notMem hi]
    exact lt_of_lt_of_le (List.idxOf_lt_length_iff.mpr hj) (Nat.le_add_right ..)

/-- Along every path of dependencies the order goes down. -/
theorem Sorted.idxOf_lt (h : Sorted R l) {i j : α} (hi : i ∈ l) (hpath : TransGen R i j) :
    j ∈ l ∧ l.idxOf j < l.idxOf i := by
  induction hpath with
  | single hij => exact ⟨h.mem hi hij, h i hi _ hij⟩
  | tail _ hjk ih => exact ⟨h.mem ih.1 hjk, lt_trans (h _ ih.1 _ hjk) ih.2⟩

/-- **Soundness**: nothing in the list is on a cycle. -/
theorem Sorted.acyclic (h : Sorted R l) {i : α} (hi : i ∈ l) : ¬ TransGen R i i :=
  fun hcycle => lt_irrefl _ (h.idxOf_lt hi hcycle).2

/-- **Completeness**: if there are no cycles, a list that has everything whose dependencies it has
    misses nothing. -/
theorem mem_of_saturated {nodes : List α} (hacyclic : ∀ i, ¬ TransGen R i i)
    (hclosed : ∀ i ∈ nodes, ∀ j, R i j → j ∈ nodes)
    (hsaturated : ∀ i ∈ nodes, (∀ j, R i j → j ∈ l) → i ∈ l) {i : α} (hi : i ∈ nodes) : i ∈ l := by
  -- induction along the dependencies, which are well-founded on the finitely many nodes
  let below (j i : {i // i ∈ nodes}) : Prop := TransGen R i.1 j.1
  have htrans : IsTrans _ below := ⟨fun _ _ _ hij hjk => TransGen.trans hjk hij⟩
  have hirrefl : Std.Irrefl below := ⟨fun i => hacyclic i.1⟩
  have hwf : WellFounded below := Finite.wellFounded_of_trans_of_irrefl below
  exact hwf.induction (C := fun i => i.1 ∈ l) ⟨i, hi⟩ fun i ih =>
    hsaturated i.1 i.2 fun j hij => ih ⟨j, hclosed i.1 i.2 j hij⟩ (.single hij)

omit [DecidableEq α] in
/-- Without cycles, no path is longer than there are nodes. -/
theorem length_le_of_isChain {path nodes : List α} (hacyclic : ∀ i, ¬ TransGen R i i) (hpath : path.IsChain R)
    (hnodes : ∀ i ∈ path, i ∈ nodes) : path.length ≤ nodes.length := by
  have hpairs : path.Pairwise (TransGen R) := (hpath.imp fun _ _ h => TransGen.single h).pairwise
  have hnodup : path.Nodup := by
    refine hpairs.imp ?_
    rintro i _ h rfl
    exact hacyclic i h
  exact (hnodup.subperm hnodes).length_le

end Toposort
