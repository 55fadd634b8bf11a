import Mathlib.Tactic.Common

namespace FirstMatch

/-!
# First match in a list of rules

`firstMatch m act dflt rules` is the action of the first rule that satisfies `m`, and `dflt`
when there is none.

* `find?_indices` — a scan over precomputed indices of a filtered list is a scan over the
  filtered list;
* `firstMatch_append` — an earlier part of the list decides unless nothing in it matches;
* `firstMatch_filter_of_getElem?` — the same, split at a rule that is filtered out;
* `firstMatch_eq_iff` — when two predicates select the same action;
* `find?_of_perm`, `exists_perm_find?` — the first match of a collection without an order.
-/

variable {ρ α : Type*}

/-- The action of the first rule that satisfies `m`, or `dflt`. -/
def firstMatch (m : ρ → Bool) (act : ρ → α) (dflt : α) (rules : List ρ) : α :=
  ((rules.find? m).map act).getD dflt

@[simp] theorem firstMatch_nil (m : ρ → Bool) (act : ρ → α) (dflt : α) :
    firstMatch m act dflt [] = dflt := rfl

theorem firstMatch_cons (m : ρ → Bool) (act : ρ → α) (dflt : α) (r : ρ) (rules : List ρ) :
    firstMatch m act dflt (r :: rules) = if m r then act r else firstMatch m act dflt rules := by
  unfold firstMatch
  rw [List.find?_cons]
  split <;> simp_all

/-- What an earlier part of the list does not decide, the later part does. -/
theorem firstMatch_append (m : ρ → Bool) (act : ρ → α) (dflt : α) (rules later : List ρ) :
    firstMatch m act dflt (rules ++ later)
      = ((rules.find? m).map act).getD (firstMatch m act dflt later) := by
  unfold firstMatch
  rw [List.find?_append]
  cases rules.find? m <;> simp

/-- The result is an action of the list or the default. -/
theorem firstMatch_mem (m : ρ → Bool) (act : ρ → α) (dflt : α) (rules : List ρ) :
    (∃ r ∈ rules, m r = true ∧ firstMatch m act dflt rules = act r) ∨
      firstMatch m act dflt rules = dflt := by
  unfold firstMatch
  rcases h : rules.find? m with _ | r
  · exact .inr rfl
  · exact .inl ⟨r, List.mem_of_find?_eq_some h, List.find?_some h, rfl⟩

/-- Lists of rules that correspond one to one select the same action. -/
theorem firstMatch_forall₂ {σ : Type*} {m₁ : ρ → Bool} {m₂ : σ → Bool} {act₁ : ρ → α} {act₂ : σ → α}
    (dflt : α) {rules : List ρ} {rules' : List σ}
    (h : List.Forall₂ (fun r r' => m₁ r = m₂ r' ∧ act₁ r = act₂ r') rules rules') :
    firstMatch m₁ act₁ dflt rules = firstMatch m₂ act₂ dflt rules' := by
  induction h with
  | nil => rfl
  | cons hr _ ih => rw [firstMatch_cons, firstMatch_cons, hr.1, hr.2, ih]

/-- A rule that is not kept splits the kept rules: those before it decide unless none of them
    matches. -/
theorem firstMatch_filter_of_getElem? {keep m : ρ → Bool} {act : ρ → α} {dflt : α} {rules : List ρ}
    {i : ℕ} {r : ρ} (hr : rules[i]? = some r) (hkeep : keep r = false) :
    firstMatch m act dflt (rules.filter keep)
      = ((((rules.take i).filter keep).find? m).map act).getD
          (firstMatch m act dflt ((rules.drop (i + 1)).filter keep)) := by
  obtain ⟨hi, rfl⟩ := List.getElem?_eq_some_iff.mp hr
  have hsplit : rules = rules.take i ++ rules[i] :: rules.drop (i + 1) := by
    rw [← List.drop_eq_getElem_cons hi, List.take_append_drop]
  -- only the list on the left is split: the right side mentions its parts
  conv_lhs => rw [hsplit]
  rw [List.filter_append, List.filter_cons_of_neg (by simp [hkeep]), firstMatch_append]

/-- The first rule that tells two predicates apart carries the action that the rules behind it
    give under the other predicate. -/
def Agree (m₁ m₂ : ρ → Bool) (act : ρ → α) (dflt : α) : List ρ → Prop
  | [] => True
  | r :: rules =>
      (m₁ r = true ∧ m₂ r = true) ∨
      (m₁ r = true ∧ m₂ r = false ∧ firstMatch m₂ act dflt rules = act r) ∨
      (m₁ r = false ∧ m₂ r = true ∧ firstMatch m₁ act dflt rules = act r) ∨
      (m₁ r = false ∧ m₂ r = false ∧ Agree m₁ m₂ act dflt rules)

/-- **Two predicates** select the same action exactly when they agree on the list. -/
theorem firstMatch_eq_iff (m₁ m₂ : ρ → Bool) (act : ρ → α) (dflt : α) (rules : List ρ) :
    firstMatch m₁ act dflt rules = firstMatch m₂ act dflt rules ↔ Agree m₁ m₂ act dflt rules := by
  induction rules with
  | nil => simp [Agree]
  | cons r rules ih =>
    rw [firstMatch_cons, firstMatch_cons, Agree]
    -- the four disjuncts of `Agree` are the four ways the predicates judge the head
    rcases h₁ : m₁ r with _ | _ <;> rcases h₂ : m₂ r with _ | _
    · simpa using ih
    · simp
    · simp [eq_comm]
    · simp

/-! ### Collections without an order -/

/-- If at most one element matches, every order finds the same. -/
theorem find?_of_perm {p : ρ → Bool} {l l' : List ρ} (hperm : l'.Perm l)
    (hone : ∀ a ∈ l, ∀ b ∈ l, p a = true → p b = true → a = b) : l'.find? p = l.find? p := by
  rcases h : l.find? p with _ | a
  · rw [List.find?_eq_none] at h ⊢
    exact fun a ha => h a (hperm.mem_iff.mp ha)
  · have ha := List.mem_of_find?_eq_some h
    have hp := List.find?_some h
    rcases h' : l'.find? p with _ | b
    · exact absurd hp (List.find?_eq_none.mp h' a (hperm.mem_iff.mpr ha))
    · have hb := hperm.mem_iff.mp (List.mem_of_find?_eq_some h')
      rw [hone b hb a ha (List.find?_some h') hp]

/-- An element that matches is the first match in some order. -/
theorem exists_perm_find? [DecidableEq ρ] {p : ρ → Bool} {l : List ρ} {a : ρ} (ha : a ∈ l)
    (hp : p a = true) : ∃ l' : List ρ, l'.Perm l ∧ l'.find? p = some a :=
  ⟨a :: l.erase a, (List.perm_cons_erase ha).symm, List.find?_cons_of_pos hp⟩

/-- The indices of the rules that satisfy `keep`, in order. -/
def indices (keep : ρ → Bool) (rules : List ρ) : List ℕ :=
  rules.zipIdx.filterMap fun p => if keep p.1 then some p.2 else none

private theorem find?_zipIdx (keep m : ρ → Bool) (pre rules : List ρ) :
    ((rules.zipIdx pre.length).filterMap fun p => if keep p.1 then some p.2 else none).findSome?
        (fun i => (pre ++ rules)[i]?.filter m)
      = (rules.filter keep).find? m := by
  induction rules generalizing pre with
  | nil => rfl
  | cons r rules ih =>
    -- `pre` holds the rules already passed, so that indices stay those of the whole list
    have hget : (pre ++ r :: rules)[pre.length]? = some r := by simp
    have hrest := ih (pre ++ [r])
    rw [List.append_assoc, List.singleton_append, List.length_append, List.length_singleton] at hrest
    rw [List.zipIdx_cons, List.filterMap_cons, List.filter_cons]
    by_cases hk : keep r = true
    · simp only [hk, if_true]
      rw [List.findSome?_cons, hget, List.find?_cons]
      by_cases hm : m r = true
      · simp [Option.filter, hm]
      · simp only [Option.filter, hm]
        exact hrest
    · simp only [hk]
      exact hrest

/-- **Precomputed indices.** Scanning the indices of the kept rules is scanning the kept
    rules. -/
theorem find?_indices (keep m : ρ → Bool) (rules : List ρ) :
    (indices keep rules).findSome? (fun i => rules[i]?.filter m) = (rules.filter keep).find? m :=
  find?_zipIdx keep m [] rules

end FirstMatch
