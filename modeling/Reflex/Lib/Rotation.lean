import Mathlib.Data.List.Iterate
import Mathlib.Data.List.Nodup
import Mathlib.Data.Nat.ModEq
import Mathlib.Data.Set.Function
import Mathlib.Tactic.Common

namespace Rotation

/-!
# Going around a pool

A step goes around a pool if its members have places on a circle and the step leads from each place to
the next one.  Following it, all members come by before one comes again.

* `GoesAround.nodup_of_infix` — members that come one after the other are different, up to the size of the
  pool;
* `GoesAround.mem_between` — between two times that a member comes, all others do.
-/

variable {α : Type*} {step : α → α} {pool : Set α} {place : α → ℕ} {n : ℕ}

/-- The members have places `0` to `n - 1`, each its own, and a step goes to the next place, from the last
    one to the first. -/
structure GoesAround (step : α → α) (pool : Set α) (place : α → ℕ) (n : ℕ) : Prop where
  mapsTo : Set.MapsTo step pool pool
  lt : ∀ a ∈ pool, place a < n
  injOn : Set.InjOn place pool
  place_step : ∀ a ∈ pool, place (step a) = (place a + 1) % n

namespace GoesAround

variable {a b c : α}

theorem place_iterate (h : GoesAround step pool place n) (ha : a ∈ pool) (i : ℕ) :
    place (step^[i] a) = (place a + i) % n := by
  induction i with
  | zero => simp [Nat.mod_eq_of_lt (h.lt a ha)]
  | succ i ih =>
    rw [Function.iterate_succ_apply', h.place_step _ (h.mapsTo.iterate i ha), ih, Nat.mod_add_mod,
      Nat.add_assoc]

/-- The same member comes again after full turns. -/
theorem iterate_eq_iff (h : GoesAround step pool place n) (ha : a ∈ pool) {i j : ℕ} :
    step^[i] a = step^[j] a ↔ i ≡ j [MOD n] := by
  have hplace : place (step^[i] a) = place (step^[j] a) ↔ place a + i ≡ place a + j [MOD n] := by
    rw [h.place_iterate ha, h.place_iterate ha, Nat.ModEq]
  rw [← h.injOn.eq_iff (h.mapsTo.iterate i ha) (h.mapsTo.iterate j ha), hplace]
  exact ⟨fun hmod => hmod.add_left_cancel' _, fun hmod => hmod.add_left _⟩

/-- A stretch of the places visited is what is visited from one member on. -/
theorem exists_iterate_of_infix (h : GoesAround step pool place n) (ha : a ∈ pool) {m : ℕ} {l : List α}
    (hl : l <:+: List.iterate step a m) : ∃ b ∈ pool, l = List.iterate step b l.length := by
  obtain ⟨s, t, heq⟩ := hl
  have hm : m = s.length + (l.length + t.length) := by
    simpa [Nat.add_assoc] using (congrArg List.length heq).symm
  rw [hm, List.iterate_add, List.iterate_add, List.append_assoc] at heq
  have htail := (List.append_inj heq (by simp)).2
  exact ⟨step^[s.length] a, h.mapsTo.iterate _ ha, (List.append_inj htail (by simp)).1⟩

/-- **No member comes twice** among so many as there are. -/
theorem nodup_of_infix (h : GoesAround step pool place n) (ha : a ∈ pool) {m : ℕ} {l : List α}
    (hl : l <:+: List.iterate step a m) (hlen : l.length ≤ n) : l.Nodup := by
  obtain ⟨b, hb, heq⟩ := h.exists_iterate_of_infix ha hl
  rw [heq, ← List.range_map_iterate]
  refine List.Nodup.map_on (fun i hi j hj hij => ?_) List.nodup_range
  have hmod := (h.iterate_eq_iff hb).mp hij
  rw [List.mem_range] at hi hj
  exact hmod.eq_of_lt_of_lt (hi.trans_le hlen) (hj.trans_le hlen)

/-- Every member of the pool comes within one turn, from whichever member on. -/
theorem exists_iterate_eq (h : GoesAround step pool place n) (ha : a ∈ pool) (hb : b ∈ pool) :
    ∃ i < n, step^[i] a = b := by
  have hplace := h.lt a ha
  have hpos : 0 < n := by omega
  refine ⟨(place b + (n - place a)) % n, Nat.mod_lt _ hpos,
    h.injOn (h.mapsTo.iterate _ ha) hb ?_⟩
  rw [h.place_iterate ha, Nat.add_mod_mod,
    show place a + (place b + (n - place a)) = place b + n by omega, Nat.add_mod_right,
    Nat.mod_eq_of_lt (h.lt b hb)]

/-- **All others come in between**: a place that is visited again is visited behind every other one of the pool. -/
theorem mem_between (h : GoesAround step pool place n) (ha : a ∈ pool) {m : ℕ} {s l t : List α}
    (heq : List.iterate step a m = s ++ b :: (l ++ b :: t)) (hc : c ∈ pool) (hne : c ≠ b) : c ∈ l := by
  have hinfix : b :: (l ++ [b]) <:+: List.iterate step a m := ⟨s, t, by simp [heq]⟩
  obtain ⟨b', hb, hturn⟩ := h.exists_iterate_of_infix ha hinfix
  rw [List.length_cons, List.length_append, List.length_singleton] at hturn
  obtain ⟨rfl, hrest⟩ := List.cons.inj hturn
  rw [List.iterate_add] at hrest
  obtain ⟨hmiddle, hlast⟩ := List.append_inj hrest (by simp)
  -- it comes within a turn, and not at once
  obtain ⟨i, hi, rfl⟩ := h.exists_iterate_eq hb hc
  rcases i with _ | i
  · exact absurd rfl hne
  · have hagain : step^[l.length + 1] b = step^[0] b := (List.cons.inj hlast).1.symm
    have hfull : n ∣ l.length + 1 :=
      (Nat.modEq_zero_iff_dvd).mp ((h.iterate_eq_iff hb).mp hagain)
    have hle := Nat.le_of_dvd (Nat.succ_pos _) hfull
    rw [hmiddle, List.mem_iterate]
    exact ⟨i, by omega, rfl⟩

end GoesAround

end Rotation
