import Mathlib.Logic.Function.Basic
import Mathlib.Tactic.Common

namespace LabelledTree

/-!
# Trees in an arena

A tree whose nodes are numbered `0, 1, …` and whose edges carry labels is a partial function
from a node and a label to a node:

* `walk` follows a list of labels from a node;
* `Rooted E size path` — the nodes below `size` form a tree with root `0`, and `path i` is the
  only list of labels that leads from the root to `i` (`Rooted.path_eq`);
* `addEdge` hangs a new leaf into the tree (`Rooted.addEdge`), which adds exactly one walk
  from the root (`Rooted.walk_addEdge_iff`).
-/

variable {κ : Type*}

/-- Follow the labels of a list from node `i`. -/
def walk (E : ℕ → κ → Option ℕ) : ℕ → List κ → Option ℕ
  | i, [] => some i
  | i, l :: ls => (E i l).bind fun j => walk E j ls

@[simp] theorem walk_nil (E : ℕ → κ → Option ℕ) (i : ℕ) : walk E i [] = some i := rfl

theorem walk_cons (E : ℕ → κ → Option ℕ) (i : ℕ) (l : κ) (ls : List κ) :
    walk E i (l :: ls) = (E i l).bind fun j => walk E j ls := rfl

theorem walk_append (E : ℕ → κ → Option ℕ) (i : ℕ) (ls ms : List κ) :
    walk E i (ls ++ ms) = (walk E i ls).bind fun j => walk E j ms := by
  induction ls generalizing i with
  | nil => rfl
  | cons l ls ih =>
    rw [List.cons_append, walk_cons, walk_cons, Option.bind_assoc]
    exact congrArg _ (funext ih)

/-- The nodes below `size` form a tree with root `0`; `path i` leads from the root to `i`. -/
structure Rooted (E : ℕ → κ → Option ℕ) (size : ℕ) (path : ℕ → List κ) : Prop where
  size_pos : 0 < size
  root : path 0 = []
  edge : ∀ {i l j}, E i l = some j → i < size ∧ j < size ∧ path j = path i ++ [l]

variable {E : ℕ → κ → Option ℕ} {size : ℕ} {path : ℕ → List κ}

private theorem Rooted.walk_from (h : Rooted E size path) {i j : ℕ} {ls : List κ} (hi : i < size)
    (hw : walk E i ls = some j) : j < size ∧ path j = path i ++ ls := by
  induction ls generalizing i with
  | nil =>
    obtain rfl := Option.some.inj hw
    exact ⟨hi, by simp⟩
  | cons l ls ih =>
    obtain ⟨k, hk, hw⟩ := Option.bind_eq_some_iff.mp hw
    obtain ⟨-, hklt, hkpath⟩ := h.edge hk
    obtain ⟨hj, hpath⟩ := ih hklt hw
    exact ⟨hj, by rw [hpath, hkpath, List.append_assoc, List.singleton_append]⟩

theorem Rooted.lt_size (h : Rooted E size path) {j : ℕ} {ls : List κ}
    (hw : walk E 0 ls = some j) : j < size :=
  (h.walk_from h.size_pos hw).1

/-- **Unique paths.** The labels that lead from the root to a node are determined by it. -/
theorem Rooted.path_eq (h : Rooted E size path) {j : ℕ} {ls : List κ}
    (hw : walk E 0 ls = some j) : path j = ls := by
  rw [(h.walk_from h.size_pos hw).2, h.root, List.nil_append]

section AddEdge

variable [DecidableEq κ]

/-- A new edge from `c` to `n` with label `l`. -/
def addEdge (E : ℕ → κ → Option ℕ) (c : ℕ) (l : κ) (n : ℕ) : ℕ → κ → Option ℕ :=
  Function.update E c (Function.update (E c) l (some n))

variable {c : ℕ} {l : κ}

theorem addEdge_same (n : ℕ) : addEdge E c l n c l = some n := by simp [addEdge]

theorem addEdge_other {i : ℕ} {m : κ} (n : ℕ) (h : ¬ (i = c ∧ m = l)) :
    addEdge E c l n i m = E i m := by
  by_cases hi : i = c
  · subst hi
    have hm : m ≠ l := fun hm => h ⟨rfl, hm⟩
    simp [addEdge, hm]
  · simp [addEdge, hi]

/-- A new leaf below a node of the tree gives a tree with one more node. -/
theorem Rooted.addEdge (h : Rooted E size path) (hc : c < size) :
    Rooted (addEdge E c l size) (size + 1) (Function.update path size (path c ++ [l])) where
  size_pos := Nat.succ_pos _
  root := by rw [Function.update_of_ne (Nat.ne_of_lt h.size_pos), h.root]
  edge {i m j} hij := by
    -- old nodes keep their paths: the new one is numbered `size`
    have hpath : ∀ k, k < size → Function.update path size (path c ++ [l]) k = path k :=
      fun k hk => Function.update_of_ne (Nat.ne_of_lt hk) _ _
    by_cases him : i = c ∧ m = l
    · obtain ⟨rfl, rfl⟩ := him
      rw [addEdge_same] at hij
      obtain rfl := Option.some.inj hij
      exact ⟨by omega, by omega, by rw [hpath i hc, Function.update_self]⟩
    · rw [addEdge_other size him] at hij
      obtain ⟨hi, hj, hedge⟩ := h.edge hij
      exact ⟨by omega, by omega, by rw [hpath i hi, hpath j hj, hedge]⟩

/-- Walks of the old tree are walks of the new one. -/
theorem walk_addEdge_of_walk {i j : ℕ} {ls : List κ} (n : ℕ) (hnone : E c l = none)
    (hw : walk E i ls = some j) : walk (addEdge E c l n) i ls = some j := by
  induction ls generalizing i with
  | nil => exact hw
  | cons m ls ih =>
    obtain ⟨k, hk, hw⟩ := Option.bind_eq_some_iff.mp hw
    have him : ¬ (i = c ∧ m = l) := by
      -- an old walk does not use the new edge, which was free before
      rintro ⟨rfl, rfl⟩
      rw [hnone] at hk
      exact absurd hk (by simp)
    rw [walk_cons, addEdge_other n him, hk]
    exact ih hw

/-- A walk of the new tree that does not end in the new leaf never meets it. -/
private theorem Rooted.walk_of_walk_addEdge (h : Rooted E size path) (hc : c < size) {i j : ℕ}
    {ls : List κ} (hj : j ≠ size) (hw : walk (LabelledTree.addEdge E c l size) i ls = some j) :
    walk E i ls = some j := by
  induction ls generalizing i with
  | nil => exact hw
  | cons m ls ih =>
    obtain ⟨k, hk, hw⟩ := Option.bind_eq_some_iff.mp hw
    by_cases him : i = c ∧ m = l
    · -- the new edge leads to the leaf, which has no way out
      obtain ⟨rfl, rfl⟩ := him
      rw [addEdge_same] at hk
      obtain rfl := Option.some.inj hk
      cases ls with
      | nil => exact absurd (Option.some.inj hw).symm hj
      | cons m' ls =>
        obtain ⟨k', hk', -⟩ := Option.bind_eq_some_iff.mp hw
        rw [addEdge_other _ fun hm => Nat.ne_of_gt hc hm.1] at hk'
        exact absurd (h.edge hk').1 (Nat.lt_irrefl _)
    · rw [addEdge_other size him] at hk
      rw [walk_cons, hk]
      exact ih hw

/-- **Adding a leaf** adds exactly one walk from the root. -/
theorem Rooted.walk_addEdge_iff (h : Rooted E size path) {p : List κ}
    (hp : walk E 0 p = some c) (hnone : E c l = none) (ls : List κ) (j : ℕ) :
    walk (LabelledTree.addEdge E c l size) 0 ls = some j ↔
      walk E 0 ls = some j ∨ (j = size ∧ ls = p ++ [l]) := by
  have hc : c < size := h.lt_size hp
  constructor
  · intro hw
    by_cases hj : j = size
    · subst hj
      -- the leaf has one path in the new tree, the one it was hung at
      have hpath := (h.addEdge (l := l) hc).path_eq hw
      rw [Function.update_self, h.path_eq hp] at hpath
      exact .inr ⟨rfl, hpath.symm⟩
    · exact .inl (h.walk_of_walk_addEdge hc hj hw)
  · rintro (hw | ⟨rfl, rfl⟩)
    · exact walk_addEdge_of_walk _ hnone hw
    · rw [walk_append, walk_addEdge_of_walk _ hnone hp, Option.bind_some, walk_cons, addEdge_same]
      rfl

end AddEdge

end LabelledTree
