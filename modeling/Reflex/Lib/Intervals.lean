import Mathlib.Data.List.TakeWhile
import Mathlib.Data.Set.Card
import Mathlib.Order.MinMax
import Mathlib.Order.SuccPred.Basic

namespace Intervals

/-!
# Lists of closed intervals

General facts about finite lists of closed intervals `(lo, hi)` of a linear order:

* `Covers rs x` — some interval of `rs` contains `x`; it does not depend on the order of the
  list (`covers_perm`) and joining two overlapping intervals does not change it
  (`covers_join`);
* `Separated rs` — every interval is non-empty and ends before the next ones start;
* `covers_iff_getLast` — in a separated list only the last interval that starts at or below
  `x` has to be looked at;
* `carve`, `gaps`, `mergeAdjacent` — taking an interval away, the complement, and joining what overlaps
  or is adjacent, where elements have successors and predecessors, each with its `_spec`;
* `Spaced rs` — a separated list whose intervals are not adjacent either; it has one interval for every
  run of what it covers (`Spaced.ncard_runStarts`).
-/

variable {α : Type*} [LinearOrder α]

/-- Some interval of the list contains `x`. -/
def Covers (rs : List (α × α)) (x : α) : Prop := ∃ r ∈ rs, r.1 ≤ x ∧ x ≤ r.2

@[simp] theorem not_covers_nil (x : α) : ¬ Covers ([] : List (α × α)) x := by
  simp [Covers]

@[simp] theorem covers_cons (r : α × α) (rs : List (α × α)) (x : α) :
    Covers (r :: rs) x ↔ (r.1 ≤ x ∧ x ≤ r.2) ∨ Covers rs x := by
  simp [Covers]

/-- Coverage does not depend on the order of the intervals. -/
theorem covers_perm {rs ts : List (α × α)} (h : rs.Perm ts) (x : α) :
    Covers rs x ↔ Covers ts x := by
  simp only [Covers, h.mem_iff]

/-- Two intervals with nothing between them cover what their union does. -/
theorem covers_join_of_forall {a b c d : α} (hac : a ≤ c) (h : ∀ x, b < x → c ≤ x) (x : α) :
    (a ≤ x ∧ x ≤ max b d) ↔ (a ≤ x ∧ x ≤ b) ∨ (c ≤ x ∧ x ≤ d) := by
  rw [le_max_iff]
  constructor
  · rintro ⟨hax, hxb | hxd⟩
    · exact .inl ⟨hax, hxb⟩
    · -- beyond `b` the point is not below `c`
      rcases le_or_gt x b with hxb | hbx
      · exact .inl ⟨hax, hxb⟩
      · exact .inr ⟨h x hbx, hxd⟩
  · rintro (⟨hax, hxb⟩ | ⟨hcx, hxd⟩)
    · exact ⟨hax, .inl hxb⟩
    · exact ⟨hac.trans hcx, .inr hxd⟩

/-- Two intervals of which the second starts inside the first cover what their union does. -/
theorem covers_join {a b c d : α} (hac : a ≤ c) (hcb : c ≤ b) (x : α) :
    (a ≤ x ∧ x ≤ max b d) ↔ (a ≤ x ∧ x ≤ b) ∨ (c ≤ x ∧ x ≤ d) :=
  covers_join_of_forall hac (fun _ hbx => hcb.trans hbx.le) x

/-- Non-empty intervals, each ending strictly before the later ones start. -/
def Separated (rs : List (α × α)) : Prop :=
  (∀ r ∈ rs, r.1 ≤ r.2) ∧ rs.Pairwise fun a b => a.2 < b.1

theorem separated_cons {r : α × α} {rs : List (α × α)} :
    Separated (r :: rs) ↔ r.1 ≤ r.2 ∧ (∀ t ∈ rs, r.2 < t.1) ∧ Separated rs := by
  simp only [Separated, List.forall_mem_cons, List.pairwise_cons]
  constructor
  · rintro ⟨⟨hr, hrs⟩, hlt, hpw⟩
    exact ⟨hr, hlt, hrs, hpw⟩
  · rintro ⟨hr, hlt, hrs, hpw⟩
    exact ⟨⟨hr, hrs⟩, hlt, hpw⟩

/-- The starts of a separated list increase. -/
theorem Separated.pairwise_lo {rs : List (α × α)} (h : Separated rs) :
    rs.Pairwise fun a b => a.1 < b.1 := by
  refine List.Pairwise.imp_of_mem ?_ h.2
  intro a b ha _ hab
  exact (h.1 a ha).trans_lt hab

/-- **Search.** In a separated list the interval that contains `x`, if any, is the last one
    that starts at or below `x`. -/
theorem covers_iff_getLast {rs : List (α × α)} (hsep : Separated rs) (x : α) :
    Covers rs x ↔
      ∃ r, (rs.takeWhile fun r => decide (r.1 ≤ x)).getLast? = some r ∧ x ≤ r.2 := by
  induction rs with
  | nil => simp
  | cons r rs ih =>
    obtain ⟨hr, hlt, hrs⟩ := separated_cons.mp hsep
    by_cases hx : r.1 ≤ x
    · rw [List.takeWhile_cons_of_pos (by simpa using hx), covers_cons, ih hrs]
      rcases htail : (rs.takeWhile fun r => decide (r.1 ≤ x)).getLast? with _ | t
      · have hnil : (rs.takeWhile fun r => decide (r.1 ≤ x)) = [] := List.getLast?_eq_none_iff.mp htail
        simp [hnil, hx]
      · -- a later interval starts at or below `x`, so `r` already ended
        have ht : t ∈ rs.takeWhile fun r => decide (r.1 ≤ x) := List.mem_of_getLast? htail
        have htx : t.1 ≤ x := by simpa using List.mem_takeWhile_imp ht
        have hrx : r.2 < x := (hlt t ((List.takeWhile_sublist _).subset ht)).trans_le htx
        rw [List.getLast?_cons, htail]
        simp [not_le.mpr hrx]
    · -- `r` starts above `x`, and so does everything behind it
      rw [List.takeWhile_cons_of_neg (by simpa using hx)]
      simp only [List.getLast?_nil, reduceCtorEq, false_and, exists_false, iff_false, covers_cons, not_or]
      refine ⟨fun h => hx h.1, ?_⟩
      rintro ⟨t, ht, htx, _⟩
      exact hx ((hr.trans_lt (hlt t ht)).le.trans htx)

/-! ### Taking intervals away -/

theorem covers_append {rs ts : List (α × α)} {x : α} :
    Covers (rs ++ ts) x ↔ Covers rs x ∨ Covers ts x := by
  simp only [Covers, List.mem_append, or_and_right, exists_or]

theorem covers_flatMap {rs : List (α × α)} {f : α × α → List (α × α)} {x : α} :
    Covers (rs.flatMap f) x ↔ ∃ r ∈ rs, Covers (f r) x := by
  simp only [Covers, List.mem_flatMap]
  tauto

/-- **Refining.**  A separated list stays separated if every interval gives way to a separated list of
    its own parts. -/
theorem separated_flatMap {rs : List (α × α)} {f : α × α → List (α × α)} (hsep : Separated rs)
    (hf : ∀ r ∈ rs, Separated (f r) ∧ ∀ p ∈ f r, r.1 ≤ p.1 ∧ p.2 ≤ r.2) :
    Separated (rs.flatMap f) := by
  induction rs with
  | nil => exact hsep
  | cons r rs ih =>
      obtain ⟨-, hlt, hrs⟩ := separated_cons.mp hsep
      obtain ⟨⟨hsepr, hpart⟩, hrest⟩ := List.forall_mem_cons.mp hf
      have hsepRest := ih hrs hrest
      rw [List.flatMap_cons]
      refine ⟨?_, List.pairwise_append.mpr ⟨hsepr.2, hsepRest.2, fun p hp q hq => ?_⟩⟩
      · exact fun p hp => (List.mem_append.mp hp).elim (hsepr.1 p) (hsepRest.1 p)
      · -- a part of `r` ends before a part of a later interval starts
        obtain ⟨t, ht, hq⟩ := List.mem_flatMap.mp hq
        exact ((hpart p hp).2.trans_lt (hlt t ht)).trans_le ((hrest t ht).2 q hq).1

section Below

variable [PredOrder α]

/-- The elements from `a` on below `lo`. -/
def below (a lo : α) : List (α × α) := if a < lo then [(a, Order.pred lo)] else []

theorem covers_below {a lo x : α} : Covers (below a lo) x ↔ a ≤ x ∧ x < lo := by
  rw [below]
  split
  · rename_i hlt
    rw [covers_cons, or_iff_left (not_covers_nil x)]
    exact and_congr_right fun _ => Order.le_pred_iff_of_not_isMin (not_isMin_of_lt hlt)
  · rename_i hge
    exact iff_of_false (not_covers_nil x) fun h => hge (h.1.trans_lt h.2)

theorem mem_below {a lo : α} {p : α × α} (h : p ∈ below a lo) : p.1 = a ∧ a ≤ p.2 ∧ p.2 < lo := by
  rw [below] at h
  split at h
  · rename_i hlt
    obtain rfl := List.mem_singleton.mp h
    exact ⟨rfl, Order.le_pred_of_lt hlt, Order.pred_lt_of_not_isMin (not_isMin_of_lt hlt)⟩
  · cases h

theorem pairwise_below (a lo : α) {R : α × α → α × α → Prop} : (below a lo).Pairwise R := by
  rw [below]
  split
  · exact List.pairwise_singleton ..
  · exact List.Pairwise.nil

end Below

section Above

variable [SuccOrder α]

/-- The elements above `hi` up to `b`. -/
def above (hi b : α) : List (α × α) := if hi < b then [(Order.succ hi, b)] else []

theorem covers_above {hi b x : α} : Covers (above hi b) x ↔ hi < x ∧ x ≤ b := by
  rw [above]
  split
  · rename_i hlt
    rw [covers_cons, or_iff_left (not_covers_nil x)]
    exact and_congr_left fun _ => Order.succ_le_iff_of_not_isMax (not_isMax_of_lt hlt)
  · rename_i hge
    exact iff_of_false (not_covers_nil x) fun h => hge (h.1.trans_le h.2)

theorem mem_above {hi b : α} {p : α × α} (h : p ∈ above hi b) : hi < p.1 ∧ p.1 ≤ b ∧ p.2 = b := by
  rw [above] at h
  split at h
  · rename_i hlt
    obtain rfl := List.mem_singleton.mp h
    exact ⟨Order.lt_succ_of_not_isMax (not_isMax_of_lt hlt), Order.succ_le_of_lt hlt, rfl⟩
  · cases h

theorem pairwise_above (hi b : α) {R : α × α → α × α → Prop} : (above hi b).Pairwise R := by
  rw [above]
  split
  · exact List.pairwise_singleton ..
  · exact List.Pairwise.nil

end Above

section Carve

variable [SuccOrder α] [PredOrder α]

/-- An interval without the elements from `lo` to `hi`. -/
def carve (lo hi : α) (r : α × α) : List (α × α) :=
  if hi < r.1 ∨ r.2 < lo then [r] else below r.1 lo ++ above hi r.2

/-- **Carving** leaves parts of the interval, which cover the rest of it. -/
theorem carve_spec {lo hi : α} (hlohi : lo ≤ hi) {r : α × α} (hr : r.1 ≤ r.2) :
    Separated (carve lo hi r) ∧ (∀ p ∈ carve lo hi r, r.1 ≤ p.1 ∧ p.2 ≤ r.2) ∧
      ∀ x, Covers (carve lo hi r) x ↔ (r.1 ≤ x ∧ x ≤ r.2) ∧ ¬ (lo ≤ x ∧ x ≤ hi) := by
  -- an interval that does not meet the cut stays, any other leaves a part below and a part above
  by_cases hapart : hi < r.1 ∨ r.2 < lo
  · rw [carve, if_pos hapart]
    refine ⟨by simp [Separated, hr], by simp, fun x => ?_⟩
    rw [covers_cons, or_iff_left (not_covers_nil x)]
    refine ⟨fun h => ⟨h, fun hx => ?_⟩, And.left⟩
    rcases hapart with hbelow | habove
    · exact absurd (hbelow.trans_le h.1) (not_lt.mpr hx.2)
    · exact absurd (h.2.trans_lt habove) (not_lt.mpr hx.1)
  · rw [carve, if_neg hapart]
    rw [not_or, not_lt, not_lt] at hapart
    refine ⟨⟨fun p hp => ?_, ?_⟩, fun p hp => ?_, fun x => ?_⟩
    · rcases List.mem_append.mp hp with hp | hp
      · obtain ⟨heq, hle, -⟩ := mem_below hp
        rwa [heq]
      · obtain ⟨-, hle, heq⟩ := mem_above hp
        rwa [heq]
    · refine List.pairwise_append.mpr ⟨pairwise_below .., pairwise_above .., fun p hp q hq => ?_⟩
      exact ((mem_below hp).2.2.trans_le hlohi).trans (mem_above hq).1
    · rcases List.mem_append.mp hp with hp | hp
      · obtain ⟨heq, -, hlt⟩ := mem_below hp
        exact ⟨heq.ge, hlt.le.trans hapart.2⟩
      · obtain ⟨hlt, -, heq⟩ := mem_above hp
        exact ⟨hapart.1.trans hlt.le, heq.le⟩
    · rw [covers_append, covers_below, covers_above]
      constructor
      · rintro (⟨hx, hlt⟩ | ⟨hlt, hx⟩)
        · exact ⟨⟨hx, hlt.le.trans hapart.2⟩, fun h => not_lt.mpr h.1 hlt⟩
        · exact ⟨⟨hapart.1.trans hlt.le, hx⟩, fun h => not_lt.mpr h.2 hlt⟩
      · rintro ⟨⟨hlo, hhi⟩, hnot⟩
        rcases lt_or_ge x lo with hlt | hge
        · exact .inl ⟨hlo, hlt⟩
        · exact .inr ⟨not_le.mp fun hle => hnot ⟨hge, hle⟩, hhi⟩

/-- The elements that a list covers, without those of the intervals in `sub`. -/
theorem carve_foldl_spec {base sub : List (α × α)} (hsub : ∀ r ∈ sub, r.1 ≤ r.2)
    (hsep : Separated base) :
    Separated (sub.foldl (fun base r => base.flatMap (carve r.1 r.2)) base) ∧
      ∀ x, Covers (sub.foldl (fun base r => base.flatMap (carve r.1 r.2)) base) x
        ↔ Covers base x ∧ ¬ Covers sub x := by
  induction sub generalizing base with
  | nil => exact ⟨hsep, fun x => by simp⟩
  | cons r sub ih =>
      obtain ⟨hr, hrest⟩ := List.forall_mem_cons.mp hsub
      have hcarve : Separated (base.flatMap (carve r.1 r.2)) := by
        refine separated_flatMap hsep fun t ht => ?_
        obtain ⟨hsept, hpart, -⟩ := carve_spec hr (hsep.1 t ht)
        exact ⟨hsept, hpart⟩
      have hcovers : ∀ x, Covers (base.flatMap (carve r.1 r.2)) x
          ↔ Covers base x ∧ ¬ (r.1 ≤ x ∧ x ≤ r.2) := by
        intro x
        rw [covers_flatMap, Covers, ← exists_and_right]
        refine exists_congr fun t => ?_
        rw [and_assoc]
        exact and_congr_right fun ht => (carve_spec hr (hsep.1 t ht)).2.2 x
      obtain ⟨hsep', hcovers'⟩ := ih hrest hcarve
      refine ⟨hsep', fun x => ?_⟩
      rw [List.foldl_cons, hcovers', hcovers, covers_cons, not_or, and_assoc]

/-! ### The complement -/

/-- The elements from `cur` to `hi` between the intervals. -/
def gaps (hi : α) : α → List (α × α) → List (α × α)
  | cur, [] => if cur ≤ hi then [(cur, hi)] else []
  | cur, r :: rs => below cur r.1 ++ gaps hi (Order.succ r.2) rs

/-- **The complement** of a separated list.  The greatest element, if there is one, is no matter of it:
    nothing can start behind an interval that ends there. -/
theorem gaps_spec {hi cur : α} {rs : List (α × α)} (hsep : Separated rs) (hcur : ∀ r ∈ rs, cur ≤ r.1) :
    (∀ p ∈ gaps hi cur rs, p.1 ≤ p.2) ∧
      ∀ x, x ≤ hi → ¬ IsMax x → (Covers (gaps hi cur rs) x ↔ cur ≤ x ∧ ¬ Covers rs x) := by
  induction rs generalizing cur with
  | nil =>
      rw [gaps]
      split
      · rename_i hle
        exact ⟨by simpa using hle, fun x hx _ => by simp [hx]⟩
      · rename_i hgt
        refine ⟨nofun, fun x hx _ => ?_⟩
        exact iff_of_false (not_covers_nil x) fun h => hgt (h.1.trans hx)
  | cons r rs ih =>
      obtain ⟨hr, hlt, hrs⟩ := separated_cons.mp hsep
      obtain ⟨hcurr, -⟩ := List.forall_mem_cons.mp hcur
      obtain ⟨hne, hcovers⟩ := ih hrs fun t ht => Order.succ_le_of_lt (hlt t ht)
      refine ⟨fun p hp => ?_, fun x hx hmax => ?_⟩
      · -- a gap is the one below `r` or one above
        rcases List.mem_append.mp hp with hp | hp
        · obtain ⟨heq, hle, -⟩ := mem_below hp
          rwa [heq]
        · exact hne p hp
      · -- above `r` is the complement of the rest, and the rest starts above `r`
        have hsucc : Order.succ r.2 ≤ x ↔ r.2 < x := by
          refine ⟨fun h => lt_of_le_of_ne ((Order.le_succ r.2).trans h) fun heq => ?_,
            Order.succ_le_of_lt⟩
          rw [heq] at h
          exact hmax (Order.max_of_succ_le h)
        have habove : Covers rs x → r.2 < x := by
          rintro ⟨t, ht, hle, -⟩
          exact (hlt t ht).trans_le hle
        rw [gaps, covers_append, covers_below, hcovers x hx hmax, hsucc, covers_cons, not_or]
        constructor
        · rintro (⟨hcurx, hxr⟩ | ⟨hrx, hnot⟩)
          · exact ⟨hcurx, fun h => not_lt.mpr h.1 hxr,
              fun h => not_lt.mpr (hxr.le.trans hr) (habove h)⟩
          · exact ⟨hcurr.trans (hr.trans hrx.le), fun h => not_lt.mpr h.2 hrx, hnot⟩
        · rintro ⟨hcurx, hnotr, hnot⟩
          -- a point that is not covered is below `r` or above it
          rcases lt_or_ge x r.1 with hxr | hge
          · exact .inl ⟨hcurx, hxr⟩
          · exact .inr ⟨not_le.mp fun hle => hnotr ⟨hge, hle⟩, hnot⟩

end Carve

/-! ### Merging -/

section Merge

variable [SuccOrder α]

/-- Non-empty intervals in ascending order, with an element between any two. -/
def Spaced (rs : List (α × α)) : Prop :=
  (∀ r ∈ rs, r.1 ≤ r.2) ∧ rs.Pairwise fun a b => Order.succ a.2 < b.1

/-- Intervals in the order of their starts, behind `last`: what overlaps or is adjacent is joined. -/
def mergeAdjacent (last : α × α) : List (α × α) → List (α × α)
  | [] => [last]
  | r :: rs =>
      if r.1 ≤ Order.succ last.2 then mergeAdjacent (last.1, max last.2 r.2) rs
      else last :: mergeAdjacent r rs

theorem covers_join_succ {a b c d : α} (hac : a ≤ c) (hcb : c ≤ Order.succ b) (x : α) :
    (a ≤ x ∧ x ≤ max b d) ↔ (a ≤ x ∧ x ≤ b) ∨ (c ≤ x ∧ x ≤ d) :=
  covers_join_of_forall hac (fun _ hbx => hcb.trans (Order.succ_le_of_lt hbx)) x

/-- **Merging** makes a spaced list of what the intervals cover. -/
theorem mergeAdjacent_spec {last : α × α} {rs : List (α × α)} (hlast : last.1 ≤ last.2)
    (hne : ∀ r ∈ rs, r.1 ≤ r.2) (hlo : ∀ r ∈ rs, last.1 ≤ r.1)
    (hsorted : rs.Pairwise fun a b => a.1 ≤ b.1) :
    Spaced (mergeAdjacent last rs) ∧ (∀ t ∈ mergeAdjacent last rs, last.1 ≤ t.1) ∧
      ∀ x, Covers (mergeAdjacent last rs) x ↔ Covers (last :: rs) x := by
  induction rs generalizing last with
  | nil => exact ⟨⟨by simpa [mergeAdjacent] using hlast, by simp [mergeAdjacent]⟩, by simp [mergeAdjacent],
      fun x => Iff.rfl⟩
  | cons r rs ih =>
      obtain ⟨hrle, hrest⟩ := List.pairwise_cons.mp hsorted
      obtain ⟨hr, hne⟩ := List.forall_mem_cons.mp hne
      obtain ⟨hlor, hlo⟩ := List.forall_mem_cons.mp hlo
      rw [mergeAdjacent]
      split
      · rename_i htouch
        have hmax : (last.1, max last.2 r.2).1 ≤ (last.1, max last.2 r.2).2 :=
          hlast.trans (le_max_left _ _)
        obtain ⟨hspaced, hstart, hcovers⟩ := ih hmax hne hlo hrest
        refine ⟨hspaced, hstart, fun x => ?_⟩
        rw [hcovers, covers_cons, covers_cons, covers_cons, ← or_assoc]
        exact or_congr_left (covers_join_succ hlor htouch x)
      · rename_i hgap
        -- what is merged from the rest starts at `r` at the earliest
        obtain ⟨⟨hne', hspaced⟩, hstart, hcovers⟩ := ih hr hne hrle hrest
        refine ⟨⟨List.forall_mem_cons.mpr ⟨hlast, hne'⟩,
          List.pairwise_cons.mpr ⟨fun t ht => ?_, hspaced⟩⟩,
          List.forall_mem_cons.mpr ⟨le_rfl, fun t ht => hlor.trans (hstart t ht)⟩, fun x => ?_⟩
        · exact (not_le.mp hgap).trans_le (hstart t ht)
        · rw [covers_cons, covers_cons, hcovers]

/-- The elements of a set that begin a run: their predecessor is not in it. -/
def runStarts [PredOrder α] (s : Set α) : Set α := {x | x ∈ s ∧ (IsMin x ∨ Order.pred x ∉ s)}

theorem Spaced.separated {rs : List (α × α)} (h : Spaced rs) : Separated rs :=
  ⟨h.1, h.2.imp fun hlt => (Order.le_succ _).trans_lt hlt⟩

/-- Of two intervals the one that starts first ends first, with an element between them. -/
theorem Spaced.succ_lt {rs : List (α × α)} (h : Spaced rs) {t r : α × α} (ht : t ∈ rs) (hr : r ∈ rs)
    (hlt : t.1 < r.1) : Order.succ t.2 < r.1 := by
  obtain ⟨hne, hpw⟩ := h
  induction rs with
  | nil => cases ht
  | cons a rs ih =>
      obtain ⟨ha, hrs⟩ := List.pairwise_cons.mp hpw
      obtain ⟨hnea, hne⟩ := List.forall_mem_cons.mp hne
      rcases List.mem_cons.mp ht with rfl | htrs
      · rcases List.mem_cons.mp hr with rfl | hrrs
        · exact absurd hlt (lt_irrefl _)
        · exact ha r hrrs
      · rcases List.mem_cons.mp hr with rfl | hrrs
        · have hafter := (hnea.trans (Order.le_succ _)).trans_lt (ha t htrs)
          exact absurd hlt hafter.asymm
        · exact ih htrs hrrs hne hrs

/-- The intervals of a spaced list begin where the runs of what they cover do. -/
theorem Spaced.mem_runStarts_iff [PredOrder α] {rs : List (α × α)} (h : Spaced rs) (x : α) :
    x ∈ runStarts {y | Covers rs y} ↔ x ∈ rs.map Prod.fst := by
  rw [List.mem_map]
  constructor
  · rintro ⟨⟨r, hr, hlo, hhi⟩, hstart⟩
    rcases hlo.eq_or_lt with heq | hlt
    · exact ⟨r, hr, heq⟩
    · rcases hstart with hmin | hpred
      · exact absurd hlt hmin.not_lt
      · exact absurd ⟨r, hr, Order.le_pred_of_lt hlt, (Order.pred_le x).trans hhi⟩ hpred
  · rintro ⟨r, hr, rfl⟩
    refine ⟨⟨r, hr, le_rfl, h.1 r hr⟩, ?_⟩
    by_cases hmin : IsMin r.1
    · exact .inl hmin
    refine .inr fun hcov => ?_
    obtain ⟨t, ht, hlo, hhi⟩ := hcov
    have hlt : t.1 < r.1 := hlo.trans_lt (Order.pred_lt_of_not_isMin hmin)
    have hsucc : r.1 ≤ Order.succ t.2 := by
      calc r.1 ≤ Order.succ (Order.pred r.1) := Order.le_succ_pred r.1
        _ ≤ Order.succ t.2 := Order.succ_le_succ hhi
    exact absurd (h.succ_lt ht hr hlt) hsucc.not_gt

/-- **Counting.**  A spaced list has one interval for every run. -/
theorem Spaced.ncard_runStarts [PredOrder α] {rs : List (α × α)} (h : Spaced rs) :
    (runStarts {x | Covers rs x}).ncard = rs.length := by
  classical
  have hnodup : (rs.map Prod.fst).Nodup := by
    rw [List.Nodup, List.pairwise_map]
    exact h.separated.pairwise_lo.imp fun hlt => hlt.ne
  have hset : runStarts {x | Covers rs x} = ((rs.map Prod.fst).toFinset : Set α) := by
    ext x
    rw [h.mem_runStarts_iff, List.coe_toFinset, Set.mem_ofPred_eq]
  rw [hset, Set.ncard_coe_finset, List.toFinset_card_of_nodup hnodup, List.length_map]

end Merge

end Intervals
