import Mathlib.Data.Multiset.Count
import Mathlib.Data.Multiset.Filter
import Mathlib.Tactic.Common

namespace KeyedRemoval

/-!
# Removing by key

A table is a multiset of entries that have keys.  A removal takes one entry with a given key out of it,
if there is one; which one is up to whoever keeps the table.  A sweep goes through a list of keys and
removes so many times under each.

* `countP_sweep` — how many entries of a kind a sweep leaves, if entries of that kind go first;
* `sweep_add` — entries that were added are swept away, and nothing else is if all others have other
  keys;
* `count_of_sweep_add` — what follows if a sweep brings the table back as it was, whichever entries go.
-/

variable {α κ : Type*} [DecidableEq α] {key : α → κ}

/-- A way to remove one entry with a given key, if there is one. -/
structure Removal (key : α → κ) where
  del : Multiset α → κ → Multiset α
  spec : ∀ t k, (∃ a ∈ t, key a = k ∧ del t k = t.erase a) ∨ ((∀ a ∈ t, key a ≠ k) ∧ del t k = t)

namespace Removal

/-- Entries of the kind `q` go first. -/
def Prefers (d : Removal key) (q : α → Prop) : Prop :=
  ∀ t k, (∃ a ∈ t, key a = k ∧ q a) → ∃ a ∈ t, key a = k ∧ q a ∧ d.del t k = t.erase a

theorem prefers_true (d : Removal key) : d.Prefers fun _ => True := by
  rintro t k ⟨a, ha, hkey, -⟩
  rcases d.spec t k with ⟨b, hb, hbkey, hdel⟩ | ⟨hnone, -⟩
  · exact ⟨b, hb, hbkey, trivial, hdel⟩
  · exact absurd hkey (hnone a ha)

/-- Entries of any kind may go first. -/
theorem exists_prefers (key : α → κ) (q : α → Prop) : ∃ d : Removal key, d.Prefers q := by
  have hchoice : ∀ t k, ∃ t' : Multiset α,
      ((∃ a ∈ t, key a = k ∧ t' = t.erase a) ∨ ((∀ a ∈ t, key a ≠ k) ∧ t' = t)) ∧
        ((∃ a ∈ t, key a = k ∧ q a) → ∃ a ∈ t, key a = k ∧ q a ∧ t' = t.erase a) := by
    intro t k
    by_cases hpreferred : ∃ a ∈ t, key a = k ∧ q a
    · obtain ⟨a, ha, hkey, hqa⟩ := hpreferred
      exact ⟨t.erase a, .inl ⟨a, ha, hkey, rfl⟩, fun _ => ⟨a, ha, hkey, hqa, rfl⟩⟩
    · by_cases hany : ∃ a ∈ t, key a = k
      · obtain ⟨a, ha, hkey⟩ := hany
        exact ⟨t.erase a, .inl ⟨a, ha, hkey, rfl⟩, fun h => absurd h hpreferred⟩
      · exact ⟨t, .inr ⟨fun a ha hkey => hany ⟨a, ha, hkey⟩, rfl⟩, fun h => absurd h hpreferred⟩
  choose del hspec hprefers using hchoice
  exact ⟨⟨del, hspec⟩, hprefers⟩

variable (d : Removal key) (t : Multiset α)

theorem del_le (k : κ) : d.del t k ≤ t := by
  rcases d.spec t k with ⟨a, -, -, hdel⟩ | ⟨-, hdel⟩
  · rw [hdel]
    exact Multiset.erase_le a t
  · rw [hdel]

/-- A removal does not change how many entries there are of a kind that the removed key does not have. -/
theorem countP_del_of_forall {q : α → Prop} [DecidablePred q] {k : κ} (hq : ∀ a, q a → key a ≠ k) :
    (d.del t k).countP q = t.countP q := by
  rcases d.spec t k with ⟨a, ha, hkey, hdel⟩ | ⟨-, hdel⟩
  · obtain ⟨rest, rfl⟩ := Multiset.exists_cons_of_mem ha
    rw [hdel, Multiset.erase_cons_head, Multiset.countP_cons_of_neg]
    exact fun h => hq a h hkey
  · rw [hdel]

variable {d} [DecidableEq κ]

/-- Of the kind that goes first, one entry fewer has the key. -/
theorem Prefers.countP_del {q : α → Prop} [DecidablePred q] (h : d.Prefers q) (k : κ) :
    (d.del t k).countP (fun a => key a = k ∧ q a) = t.countP (fun a => key a = k ∧ q a) - 1 := by
  by_cases hsome : ∃ a ∈ t, key a = k ∧ q a
  · obtain ⟨a, ha, hkey, hqa, hdel⟩ := h t k hsome
    obtain ⟨rest, rfl⟩ := Multiset.exists_cons_of_mem ha
    rw [hdel, Multiset.erase_cons_head,
      Multiset.countP_cons_of_pos (p := fun a => key a = k ∧ q a) rest ⟨hkey, hqa⟩,
      Nat.add_sub_cancel]
  · have hzero : t.countP (fun a => key a = k ∧ q a) = 0 :=
      Multiset.countP_eq_zero.mpr fun a ha hq => hsome ⟨a, ha, hq⟩
    have hle := Multiset.countP_le_of_le (p := fun a => key a = k ∧ q a) (d.del_le t k)
    omega

end Removal

/-! ### Sweeps -/

/-- Remove `m` times under each of the keys. -/
def sweep (d : Removal key) (m : ℕ) (ks : List κ) (t : Multiset α) : Multiset α :=
  ks.foldl (fun t k => (fun t => d.del t k)^[m] t) t

variable {d : Removal key} {m : ℕ} {ks : List κ} {t s : Multiset α}

theorem countP_sweep_of_forall {q : α → Prop} [DecidablePred q] (hq : ∀ a, q a → key a ∉ ks) :
    (sweep d m ks t).countP q = t.countP q := by
  -- every single removal leaves the number as it is
  refine List.foldlRecOn (motive := fun u : Multiset α => u.countP q = t.countP q) ks _ rfl
    fun u hu k hk => ?_
  refine Function.Iterate.rec (fun u : Multiset α => u.countP q = t.countP q) hu (fun v hv => ?_) m
  rw [d.countP_del_of_forall v fun a ha hkey => hq a ha (hkey ▸ hk), hv]

variable [DecidableEq κ]

theorem Removal.Prefers.countP_iterate {q : α → Prop} [DecidablePred q] (h : d.Prefers q) (k : κ)
    (m : ℕ) (t : Multiset α) :
    ((fun t => d.del t k)^[m] t).countP (fun a => key a = k ∧ q a)
      = t.countP (fun a => key a = k ∧ q a) - m := by
  induction m generalizing t with
  | zero => rfl
  | succ m ih =>
    rw [Function.iterate_succ_apply, ih, h.countP_del]
    omega

/-- **What a sweep leaves** of the entries that go first. -/
theorem countP_sweep {q : α → Prop} [DecidablePred q] (h : d.Prefers q) (hks : ks.Nodup) {k : κ}
    (hk : k ∈ ks) :
    (sweep d m ks t).countP (fun a => key a = k ∧ q a)
      = t.countP (fun a => key a = k ∧ q a) - m := by
  induction ks generalizing t with
  | nil => cases hk
  | cons k' ks ih =>
    obtain ⟨hnot, hks⟩ := List.nodup_cons.mp hks
    show (sweep d m ks ((fun t => d.del t k')^[m] t)).countP _ = _
    rcases List.mem_cons.mp hk with rfl | hk
    · rw [countP_sweep_of_forall fun a ha => ha.1 ▸ hnot]
      exact h.countP_iterate k m t
    · rw [ih hks hk]
      -- the removals under the first key do not touch the others
      have hother : (sweep d m [k'] t).countP (fun a => key a = k ∧ q a)
          = t.countP (fun a => key a = k ∧ q a) :=
        countP_sweep_of_forall fun a ha hmem => hnot (List.mem_singleton.mp hmem ▸ ha.1 ▸ hk)
      exact congrArg (· - m) hother

/-- **Sweeping what was added.** If all other entries have other keys, they are what is left. -/
theorem sweep_add (d : Removal key) (hks : ks.Nodup) (hold : ∀ a ∈ t, key a ∉ ks)
    (hnew : ∀ a ∈ s, key a ∈ ks) (hfew : ∀ k, s.countP (key · = k) ≤ m) :
    sweep d m ks (t + s) = t := by
  ext a
  by_cases ha : key a ∈ ks
  · -- under a key that is swept nothing is left
    have hcount := countP_sweep (m := m) (t := t + s) d.prefers_true hks ha
    simp only [and_true, Multiset.countP_add] at hcount
    have hnone : t.countP (key · = key a) = 0 :=
      Multiset.countP_eq_zero.mpr fun b hb hkey => hold b hb (hkey ▸ ha)
    have hzero : (sweep d m ks (t + s)).countP (key · = key a) = 0 := by
      have := hfew (key a)
      omega
    rw [Multiset.count_eq_zero.mpr fun h => hold a h ha, Multiset.count_eq_zero.mpr fun h =>
      Multiset.countP_eq_zero.mp hzero a h rfl]
  · have hcount : (sweep d m ks (t + s)).countP (a = ·) = (t + s).countP (a = ·) :=
      countP_sweep_of_forall fun b hb => hb ▸ ha
    have hnone : s.count a = 0 := Multiset.count_eq_zero.mpr fun h => ha (hnew a h)
    rw [Multiset.countP_add] at hcount
    exact hcount.trans (by rw [show s.countP (a = ·) = 0 from hnone, Nat.add_zero]; rfl)

/-- **What a sweep must have found** that brings the table back whichever entries go: the entries that
    were added have keys that were swept, there were at most `m` of them under each, and an entry that
    was there under such a key is the same as each of the `m` that were added under it. -/
theorem count_of_sweep_add (hks : ks.Nodup) (h : ∀ d : Removal key, sweep d m ks (t + s) = t) :
    (∀ a ∈ s, key a ∈ ks) ∧ (∀ k ∈ ks, s.countP (key · = k) ≤ m) ∧
      ∀ a ∈ t, key a ∈ ks → s.count a = m := by
  obtain ⟨d, -⟩ := Removal.exists_prefers key fun _ => True
  refine ⟨fun a ha => ?_, fun k hk => ?_, fun a ha hk => ?_⟩
  · by_contra hnot
    have hcount : (sweep d m ks (t + s)).countP (a = ·) = (t + s).countP (a = ·) :=
      countP_sweep_of_forall fun b hb => hb ▸ hnot
    rw [h d, Multiset.countP_add] at hcount
    have hpos : 0 < s.count a := Multiset.count_pos.mpr ha
    have hzero : s.countP (a = ·) = 0 := by omega
    exact absurd hzero hpos.ne'
  · have hcount := countP_sweep (m := m) (t := t + s) d.prefers_true hks hk
    simp only [and_true, h d, Multiset.countP_add] at hcount
    omega
  · obtain ⟨d, hd⟩ := Removal.exists_prefers key (a = ·)
    have hcount := countP_sweep (m := m) (t := t + s) hd hks hk
    have hkind : ∀ b, (key b = key a ∧ a = b) ↔ a = b := fun b =>
      and_iff_right_of_imp fun hb => hb ▸ rfl
    simp only [hkind, h d, Multiset.countP_add] at hcount
    have hpos : 0 < t.count a := Multiset.count_pos.mpr ha
    have hcount : t.count a = t.count a + s.count a - m := hcount
    omega

end KeyedRemoval
