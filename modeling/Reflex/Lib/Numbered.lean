import Mathlib.Logic.Function.Basic
import Mathlib.Tactic.Common

namespace Numbered

/-!
# A table of parties by their numbers

Parties take numbers, enter themselves into a table under these, and remove their entries again; somebody else may
remove entries as well.

* `Consistent` — the table has the entries of those that have entered themselves, apart from what was deleted;
* `Consistent.take`, `Consistent.enter`, `Consistent.leave`, `Consistent.delete` — the steps;
* `Consistent.table_iff` — what the table says, if nothing was deleted.
-/

variable {κ ι μ : Type*} {number entry : κ → Option ι} {info info' : κ → Option μ} {table : ι → Option μ}
  {deleted : ι → Prop} {k : κ} {i : ι}

/-- No two parties have one number; what is in the table belongs to a party that has entered itself; and such a
    party is in the table, if its entry was not deleted.  `info` is what a party enters. -/
structure Consistent (number entry : κ → Option ι) (info : κ → Option μ) (table : ι → Option μ)
    (deleted : ι → Prop) : Prop where
  distinct : ∀ j k i, number j = some i → number k = some i → j = k
  numbered : ∀ k i, entry k = some i → number k = some i
  listed : ∀ i m, table i = some m → ∃ k, entry k = some i ∧ info k = some m
  entered : ∀ k i, entry k = some i → table i = info k ∨ deleted i

theorem consistent_start :
    Consistent (fun _ : κ => (none : Option ι)) (fun _ => none) info (fun _ => none) deleted where
  distinct _ _ _ h := by cases h
  numbered _ _ h := by cases h
  listed _ _ h := by cases h
  entered _ _ h := by cases h

/-- Only what the parties in the table would enter matters. -/
theorem Consistent.congr_info (h : Consistent number entry info table deleted)
    (hinfo : ∀ k i, entry k = some i → info' k = info k) : Consistent number entry info' table deleted where
  distinct := h.distinct
  numbered := h.numbered
  listed i m hm := by
    obtain ⟨k, hk, hkm⟩ := h.listed i m hm
    exact ⟨k, hk, (hinfo k i hk).trans hkm⟩
  entered k i hk := hinfo k i hk ▸ h.entered k i hk

/-- What the table says about a number that was not deleted. -/
theorem Consistent.table_iff (h : Consistent number entry info table deleted) (hi : ¬ deleted i) (m : μ) :
    table i = some m ↔ ∃ k, entry k = some i ∧ info k = some m := by
  constructor
  · exact h.listed i m
  · rintro ⟨k, hk, hm⟩
    rw [(h.entered k i hk).resolve_right hi, hm]

/-! ### Steps -/

variable [DecidableEq κ]

/-- A party takes a number that nobody has. -/
theorem Consistent.take (h : Consistent number entry info table deleted) (hentry : entry k = none)
    (hfresh : ∀ j, number j ≠ some i) :
    Consistent (Function.update number k (some i)) entry info table deleted where
  distinct a b n ha hb := by
    rw [Function.update_apply] at ha hb
    split_ifs at ha hb with hak hbk hbk
    · rw [hak, hbk]
    · exact absurd (Option.some.inj ha ▸ hb) (hfresh b)
    · exact absurd (Option.some.inj hb ▸ ha) (hfresh a)
    · exact h.distinct a b n ha hb
  numbered a n ha := by
    have hak : a ≠ k := by
      rintro rfl
      rw [hentry] at ha
      cases ha
    rw [Function.update_of_ne hak]
    exact h.numbered a n ha
  listed := h.listed
  entered := h.entered

variable [DecidableEq ι]

/-- A party enters itself under its number. -/
theorem Consistent.enter (h : Consistent number entry info table deleted) (hnumber : number k = some i)
    (hentry : entry k = none) :
    Consistent number (Function.update entry k (some i)) info (Function.update table i (info k)) deleted where
  distinct := h.distinct
  numbered a n ha := by
    rw [Function.update_apply] at ha
    split_ifs at ha with hak
    · rw [hak, hnumber, Option.some.inj ha]
    · exact h.numbered a n ha
  listed n m hm := by
    rw [Function.update_apply] at hm
    split_ifs at hm with hn
    · exact ⟨k, by rw [Function.update_self, hn], hm⟩
    · obtain ⟨a, ha, ham⟩ := h.listed n m hm
      refine ⟨a, ?_, ham⟩
      rw [Function.update_of_ne, ha]
      rintro rfl
      rw [hentry] at ha
      cases ha
  entered a n ha := by
    rw [Function.update_apply] at ha
    split_ifs at ha with hak
    · rw [← Option.some.inj ha, hak, Function.update_self]
      exact .inl rfl
    · -- nobody else has the number
      have hn : n ≠ i := fun hn => hak (h.distinct a k n (h.numbered a n ha) (hn ▸ hnumber))
      rw [Function.update_of_ne hn]
      exact h.entered a n ha

/-- A party removes its entry, and has its number no more. -/
theorem Consistent.leave (h : Consistent number entry info table deleted) (hentry : entry k = some i) :
    Consistent (Function.update number k none) (Function.update entry k none) info (Function.update table i none)
      deleted where
  distinct a b n ha hb := by
    rw [Function.update_apply] at ha hb
    split_ifs at ha hb
    exact h.distinct a b n ha hb
  numbered a n ha := by
    rw [Function.update_apply] at ha ⊢
    split_ifs at ha ⊢
    exact h.numbered a n ha
  listed n m hm := by
    rw [Function.update_apply] at hm
    split_ifs at hm with hn
    obtain ⟨a, ha, ham⟩ := h.listed n m hm
    refine ⟨a, ?_, ham⟩
    rw [Function.update_of_ne, ha]
    rintro rfl
    exact hn (Option.some.inj (ha.symm.trans hentry))
  entered a n ha := by
    rw [Function.update_apply] at ha
    split_ifs at ha with hak
    have hn : n ≠ i := fun hn => hak (h.distinct a k n (h.numbered a n ha) (hn ▸ h.numbered k i hentry))
    rw [Function.update_of_ne hn]
    exact h.entered a n ha

omit [DecidableEq κ] in
/-- An entry is deleted by somebody else. -/
theorem Consistent.delete (h : Consistent number entry info table deleted) (hi : deleted i) :
    Consistent number entry info (Function.update table i none) deleted where
  distinct := h.distinct
  numbered := h.numbered
  listed n m hm := by
    rw [Function.update_apply] at hm
    split_ifs at hm
    exact h.listed n m hm
  entered a n ha := by
    by_cases hn : n = i
    · exact .inr (hn ▸ hi)
    · rw [Function.update_of_ne hn]
      exact h.entered a n ha

end Numbered
