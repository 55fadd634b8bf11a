import Mathlib.Data.List.Perm.Subperm
import Mathlib.Tactic.Common

namespace Custody

/-!
# Tokens and their holders

Each holder has a list of tokens, and no token is held twice, be it by two holders or by one.  What matters is who
has a token and not where it stands, so the steps are for lists up to order.

* `Separate` — no token is held twice;
* `Separate.of_subperm` — tokens may be given up and put into another order;
* `Separate.insert` — a fresh token may be handed out;
* `Separate.move` — one holder may take all tokens of another, and gives up its own.
-/

variable {ι α : Type*}

/-- No token is held twice. -/
structure Separate (held : ι → List α) : Prop where
  nodup : ∀ i, (held i).Nodup
  unique : ∀ {i j a}, a ∈ held i → a ∈ held j → i = j

variable {held held' : ι → List α}

theorem nodup_of_subperm {l l' : List α} (h : l.Nodup) (hsub : l'.Subperm l) : l'.Nodup := by
  obtain ⟨l'', hperm, hsublist⟩ := hsub
  exact hperm.nodup_iff.mp (h.sublist hsublist)

/-- **Giving tokens up**, or handing them to nobody, keeps the parties separate. -/
theorem Separate.of_subperm (h : Separate held) (hsub : ∀ i, (held' i).Subperm (held i)) :
    Separate held' where
  nodup i := nodup_of_subperm (h.nodup i) (hsub i)
  unique hi hj := h.unique ((hsub _).subset hi) ((hsub _).subset hj)

/-- **Handing out a fresh token**, one that nobody holds, keeps the parties separate. -/
theorem Separate.insert (h : Separate held) {i : ι} {l : List α} {a : α}
    (hl : l.Subperm (held i)) (hi : held' i = l ++ [a])
    (hrest : ∀ j, j ≠ i → (held' j).Subperm (held j)) (hfresh : ∀ j, a ∉ held j) :
    Separate held' := by
  -- a token of the new lists is an old one in the same hands, or the fresh one
  have hmem : ∀ {j b}, b ∈ held' j → (b ∈ held j ∨ (j = i ∧ b = a)) := by
    intro j b hb
    by_cases hji : j = i
    · subst hji
      rw [hi, List.mem_append, List.mem_singleton] at hb
      exact hb.imp (fun hold => hl.subset hold) fun hnew => ⟨rfl, hnew⟩
    · exact .inl ((hrest j hji).subset hb)
  refine ⟨fun j => ?_, fun {j k b} hj hk => ?_⟩
  · by_cases hji : j = i
    · subst hji
      rw [hi]
      refine List.nodup_append.mpr ⟨nodup_of_subperm (h.nodup j) hl, List.pairwise_singleton _ a, ?_⟩
      rintro b hb c hc rfl
      rw [List.mem_singleton.mp hc] at hb
      exact hfresh j (hl.subset hb)
    · exact nodup_of_subperm (h.nodup j) (hrest j hji)
  · rcases hmem hj with hj | ⟨rfl, rfl⟩
    · rcases hmem hk with hk | ⟨rfl, rfl⟩
      · exact h.unique hj hk
      · exact absurd hj (hfresh j)
    · rcases hmem hk with hk | ⟨rfl, -⟩
      · exact absurd hk (hfresh k)
      · rfl

/-- **Taking over.** A holder that takes tokens of another one, which has none left, keeps the parties separate. -/
theorem Separate.move (h : Separate held) {i j : ι} (hj : (held' j).Subperm (held i))
    (hi : i ≠ j → held' i = []) (hrest : ∀ k, k ≠ i → k ≠ j → (held' k).Subperm (held k)) :
    Separate held' := by
  -- a token of the new lists was held by the same holder, or has gone from `i` to `j`
  have hmem : ∀ {k a}, a ∈ held' k → (a ∈ held i ∧ k = j) ∨ (a ∈ held k ∧ k ≠ i) := by
    intro k a ha
    by_cases hkj : k = j
    · subst hkj
      exact .inl ⟨hj.subset ha, rfl⟩
    · by_cases hki : k = i
      · subst hki
        rw [hi hkj] at ha
        cases ha
      · exact .inr ⟨(hrest k hki hkj).subset ha, hki⟩
  refine ⟨fun k => ?_, fun {k l a} hk hl => ?_⟩
  · by_cases hkj : k = j
    · subst hkj
      exact nodup_of_subperm (h.nodup i) hj
    · by_cases hki : k = i
      · subst hki
        rw [hi hkj]
        exact List.nodup_nil
      · exact nodup_of_subperm (h.nodup k) (hrest k hki hkj)
  · rcases hmem hk with ⟨hk, rfl⟩ | ⟨hk, hki⟩
    · rcases hmem hl with ⟨-, rfl⟩ | ⟨hl, hli⟩
      · rfl
      · exact absurd (h.unique hl hk) hli
    · rcases hmem hl with ⟨hl, -⟩ | ⟨hl, -⟩
      · exact absurd (h.unique hk hl) hki
      · exact h.unique hk hl

end Custody
