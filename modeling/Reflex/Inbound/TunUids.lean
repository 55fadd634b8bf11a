import Reflex.Lib.Intervals
import Reflex.RustStd.Slice

namespace Reflex.Inbound.TunUids

open RustStd Intervals

/-!
# Inbounds — the user IDs that a TUN device leaves out

`build_excluded_uid_ranges` of `inbound/tun.rs`.  The arithmetic is that of a build with overflow
checks: `none` stands for an overflow.

* `subtractRanges_eq`, `complementRanges_eq` — no addition or subtraction overflows, and the loops are
  those of any order with successors and predecessors;
* `buildExcludedUidRanges_spec`, `length_buildExcludedUidRanges` — which user IDs are in the ranges, and
  how many ranges there are.
-/

/-! ### `u32` -/

/-- `u32` as an order. -/
scoped instance instLinearOrderUInt32 : LinearOrder UInt32 where
  le_refl := UInt32.le_refl
  le_trans _ _ _ := UInt32.le_trans
  le_antisymm _ _ := UInt32.le_antisymm
  le_total := UInt32.le_total
  lt_iff_le_not_ge a b := by
    rw [UInt32.not_le]
    exact ⟨fun h => ⟨UInt32.le_of_lt h, h⟩, And.right⟩
  toDecidableLE := inferInstance

/-- `u32::MAX`. -/
def u32Max : UInt32 := 0xFFFFFFFF

/-- `x - 1`. -/
def checkedPred (x : UInt32) : Option UInt32 := if x = 0 then none else some (x - 1)

/-- `x + 1`. -/
def checkedSucc (x : UInt32) : Option UInt32 := if x = u32Max then none else some (x + 1)

/-- `x.saturating_add(1)`. -/
def saturatingSucc (x : UInt32) : UInt32 := if x = u32Max then x else x + 1

theorem le_u32Max (x : UInt32) : x ≤ u32Max := by
  have := x.toNat_lt
  show x.toNat ≤ 4294967295
  omega

scoped instance instSuccOrderUInt32 : SuccOrder UInt32 where
  succ := saturatingSucc
  le_succ x := by
    unfold saturatingSucc u32Max
    split <;> grind
  max_of_succ_le {x} h y _ := by
    unfold saturatingSucc u32Max at h
    split at h
    · rename_i hx
      rw [hx]
      exact le_u32Max y
    · grind
  succ_le_of_lt {x y} h := by
    have hy := le_u32Max y
    unfold saturatingSucc
    split <;> grind [u32Max]

scoped instance instPredOrderUInt32 : PredOrder UInt32 where
  pred x := if x = 0 then x else x - 1
  pred_le x := by
    split <;> grind
  min_of_le_pred {x} h y _ := by
    split at h
    · rename_i hx
      rw [hx]
      exact UInt32.zero_le
    · grind
  le_pred_of_lt {x y} h := by
    split <;> grind

/-- An addition that is only made below the greatest value does not overflow. -/
theorem checkedSucc_eq {x y : UInt32} (h : x < y) : checkedSucc x = some (Order.succ x) := by
  have hne : x ≠ u32Max := fun heq => absurd (le_u32Max y) (not_le.mpr (heq ▸ h))
  rw [checkedSucc, if_neg hne]
  exact congrArg some (if_neg hne).symm

/-- A subtraction that is only made above zero does not overflow. -/
theorem checkedPred_eq {x y : UInt32} (h : y < x) : checkedPred x = some (Order.pred x) := by
  have hne : x ≠ 0 := fun heq => absurd (UInt32.zero_le : 0 ≤ y) (not_le.mpr (heq ▸ h))
  rw [checkedPred, if_neg hne]
  exact congrArg some (if_neg hne).symm

/-! ### Ranges -/

/-- A range `(lo, hi)` of user IDs. -/
abbrev UidRange := UInt32 × UInt32

/-- `(a, lo - 1)`, if `a < lo`. -/
def pushBelow (a lo : UInt32) : Option (List UidRange) :=
  if a < lo then (checkedPred lo).map fun e => [(a, e)] else some []

/-- `(hi + 1, b)`, if `b > hi`. -/
def pushAbove (hi b : UInt32) : Option (List UidRange) :=
  if hi < b then (checkedSucc hi).map fun s => [(s, b)] else some []

/-- A range of `base` in the loop of `subtract_ranges`. -/
def subtractRange (lo hi : UInt32) (r : UidRange) : Option (List UidRange) :=
  if hi < r.1 ∨ r.2 < lo then some [r]
  else do
    let left ← pushBelow r.1 lo
    let right ← pushAbove hi r.2
    return left ++ right

/-- `flat_map` with a range taken away. -/
def subtractFromAll (lo hi : UInt32) : List UidRange → Option (List UidRange)
  | [] => some []
  | r :: base => do
      let parts ← subtractRange lo hi r
      let rest ← subtractFromAll lo hi base
      return parts ++ rest

/-- `subtract_ranges`. -/
def subtractRanges (base : List UidRange) : List UidRange → Option (List UidRange)
  | [] => some base
  | (lo, hi) :: sub => do
      let base ← subtractFromAll lo hi base
      subtractRanges base sub

/-- The loop of `complement_ranges`. -/
def complementLoop (hi : UInt32) : UInt32 → List UidRange → Option (List UidRange)
  | cur, [] => some (if cur ≤ hi then [(cur, hi)] else [])
  | cur, (a, b) :: ranges => do
      let gap ← pushBelow cur a
      let result ← complementLoop hi (saturatingSucc b) ranges
      return gap ++ result

/-- `complement_ranges`. -/
def complementRanges (ranges : List UidRange) (lo hi : UInt32) : Option (List UidRange) :=
  complementLoop hi lo ranges

/-- The order of pairs. -/
def rangeLe (a b : UidRange) : Bool := a.1 < b.1 ∨ a.1 = b.1 ∧ a.2 ≤ b.2

/-- The loop of `merge_ranges`; `last` is the range at the end of `merged`. -/
def mergeLoop (last : UidRange) : List UidRange → List UidRange
  | [] => [last]
  | (a, b) :: ranges =>
      if a ≤ saturatingSucc last.2 then mergeLoop (last.1, max last.2 b) ranges
      else last :: mergeLoop (a, b) ranges

/-- `merge_ranges`; equal pairs cannot be told apart, so that it does not matter that the source sorts
    unstably. -/
def mergeRanges (ranges : List UidRange) : List UidRange :=
  match ranges.mergeSort rangeLe with
  | [] => []
  | r :: ranges => mergeLoop r ranges

/-- `to_sorted_ranges`. -/
def toSortedRanges (uids : List UInt32) : List UidRange :=
  (dedup (uids.mergeSort fun a b => a ≤ b)).map fun u => (u, u)

/-- `UID_MAX`. -/
def uidMax : UInt32 := u32Max - 1

/-- `build_excluded_uid_ranges`. -/
def buildExcludedUidRanges (includes excludes : List UInt32) : Option (List UidRange) :=
  if includes = [] ∧ excludes = [] then some []
  else
    let includeRanges := toSortedRanges includes
    let excludeRanges := toSortedRanges excludes
    if includeRanges ≠ [] then do
      let subtracted ← subtractRanges includeRanges excludeRanges
      let complement ← complementRanges subtracted 0 uidMax
      return mergeRanges complement
    else return mergeRanges excludeRanges

/-! ### No overflow -/

theorem pushBelow_eq (a lo : UInt32) : pushBelow a lo = some (below a lo) := by
  rw [pushBelow, below]
  split
  · rename_i hlt
    rw [checkedPred_eq hlt]
    rfl
  · rfl

theorem pushAbove_eq (hi b : UInt32) : pushAbove hi b = some (above hi b) := by
  rw [pushAbove, above]
  split
  · rename_i hlt
    rw [checkedSucc_eq hlt]
    rfl
  · rfl

theorem subtractRange_eq (lo hi : UInt32) (r : UidRange) :
    subtractRange lo hi r = some (carve lo hi r) := by
  rw [subtractRange, carve, pushBelow_eq, pushAbove_eq]
  split
  · rfl
  · rfl

theorem subtractFromAll_eq (lo hi : UInt32) (base : List UidRange) :
    subtractFromAll lo hi base = some (base.flatMap (carve lo hi)) := by
  induction base with
  | nil => rfl
  | cons r base ih =>
      rw [subtractFromAll, subtractRange_eq, ih]
      rfl

/-- **Subtraction** does not overflow, whatever the ranges are, and cuts one range after another out of the rest. -/
theorem subtractRanges_eq (base sub : List UidRange) :
    subtractRanges base sub
      = some (sub.foldl (fun base r => base.flatMap (carve r.1 r.2)) base) := by
  induction sub generalizing base with
  | nil => rfl
  | cons r sub ih =>
      rw [subtractRanges, subtractFromAll_eq]
      exact ih _

/-- **The complement** does not overflow, whatever the ranges are, and is made of the gaps between them. -/
theorem complementRanges_eq (ranges : List UidRange) (lo hi : UInt32) :
    complementRanges ranges lo hi = some (gaps hi lo ranges) := by
  rw [complementRanges]
  induction ranges generalizing lo with
  | nil => rfl
  | cons r ranges ih =>
      rw [complementLoop, pushBelow_eq, ih]
      rfl

theorem mergeLoop_eq (last : UidRange) (ranges : List UidRange) :
    mergeLoop last ranges = mergeAdjacent last ranges := by
  induction ranges generalizing last with
  | nil => rfl
  | cons r ranges ih =>
      rw [mergeLoop, mergeAdjacent, ih, ih]
      rfl

/-! ### What the ranges cover -/

theorem mem_toSortedRanges {uids : List UInt32} {r : UidRange} :
    r ∈ toSortedRanges uids ↔ r.1 ∈ uids ∧ r.2 = r.1 := by
  rw [toSortedRanges, List.mem_map]
  constructor
  · rintro ⟨u, hu, rfl⟩
    rw [mem_dedup, List.mem_mergeSort] at hu
    exact ⟨hu, rfl⟩
  · rintro ⟨hu, heq⟩
    refine ⟨r.1, ?_, Prod.ext rfl heq.symm⟩
    rwa [mem_dedup, List.mem_mergeSort]

theorem covers_toSortedRanges {uids : List UInt32} {u : UInt32} :
    Covers (toSortedRanges uids) u ↔ u ∈ uids := by
  constructor
  · rintro ⟨r, hr, hlo, hhi⟩
    obtain ⟨hmem, heq⟩ := mem_toSortedRanges.mp hr
    rw [heq] at hhi
    rwa [le_antisymm hhi hlo]
  · exact fun hu => ⟨(u, u), mem_toSortedRanges.mpr ⟨hu, rfl⟩, le_rfl, le_rfl⟩

theorem separated_toSortedRanges (uids : List UInt32) : Separated (toSortedRanges uids) := by
  refine ⟨fun r hr => (mem_toSortedRanges.mp hr).2.ge, ?_⟩
  rw [toSortedRanges, List.pairwise_map]
  have hsorted : (uids.mergeSort fun a b => a ≤ b).Pairwise (· ≤ ·) := by
    refine (List.pairwise_mergeSort ?_ ?_ uids).imp (by simp)
    · intro a b c hab hbc
      simp only [decide_eq_true_eq] at hab hbc ⊢
      exact hab.trans hbc
    · intro a b
      simpa using le_total a b
  exact pairwise_dedup (fun _ _ => le_antisymm) (fun _ _ => lt_of_le_of_ne) hsorted

/-- **Merging** makes a spaced list of what the ranges cover. -/
theorem mergeRanges_spec {ranges : List UidRange} (hne : ∀ r ∈ ranges, r.1 ≤ r.2) :
    Spaced (mergeRanges ranges) ∧ ∀ u, Covers (mergeRanges ranges) u ↔ Covers ranges u := by
  have hperm := List.mergeSort_perm ranges rangeLe
  have hsorted : (ranges.mergeSort rangeLe).Pairwise fun a b => a.1 ≤ b.1 := by
    refine (List.pairwise_mergeSort ?_ ?_ ranges).imp ?_
    · intro a b c hab hbc
      simp only [rangeLe, decide_eq_true_eq] at hab hbc ⊢
      grind
    · intro a b
      simp only [rangeLe, Bool.or_eq_true, decide_eq_true_eq]
      grind
    · intro a b hab
      simp only [rangeLe, decide_eq_true_eq] at hab
      grind
  rw [mergeRanges]
  split
  · rename_i hnil
    rw [hnil] at hperm
    obtain rfl := hperm.symm.eq_nil
    exact ⟨⟨nofun, List.Pairwise.nil⟩, fun _ => Iff.rfl⟩
  · rename_i r rest hcons
    rw [hcons] at hperm hsorted
    obtain ⟨hlo, hrest⟩ := List.pairwise_cons.mp hsorted
    have hne' : ∀ t ∈ r :: rest, t.1 ≤ t.2 := fun t ht => hne t (hperm.mem_iff.mp ht)
    obtain ⟨hr, hnerest⟩ := List.forall_mem_cons.mp hne'
    obtain ⟨hspaced, -, hcovers⟩ := mergeAdjacent_spec hr hnerest hlo hrest
    rw [mergeLoop_eq]
    exact ⟨hspaced, fun u => (hcovers u).trans (covers_perm hperm u)⟩

/-! ### The result -/

theorem toSortedRanges_eq_nil_iff {uids : List UInt32} : toSortedRanges uids = [] ↔ uids = [] := by
  simp only [List.eq_nil_iff_forall_not_mem]
  constructor
  · exact fun h u hu => h (u, u) (mem_toSortedRanges.mpr ⟨hu, rfl⟩)
  · exact fun h r hr => h r.1 (mem_toSortedRanges.mp hr).1

theorem not_isMax_of_le_uidMax {u : UInt32} (h : u ≤ uidMax) : ¬ IsMax u := by
  have hlt : u < u32Max := lt_of_le_of_lt h (by decide)
  exact not_isMax_of_lt hlt

/-- Nothing ends behind `uidMax` in the complement: what starts behind it is the greatest value. -/
theorem snd_le_uidMax {cur : UInt32} {ranges : List UidRange} {p : UidRange}
    (hp : p ∈ gaps uidMax cur ranges) : p.2 ≤ uidMax := by
  induction ranges generalizing cur with
  | nil =>
      rw [gaps] at hp
      split at hp
      · rw [List.mem_singleton.mp hp]
      · cases hp
  | cons r ranges ih =>
      rcases List.mem_append.mp hp with hp | hp
      · obtain ⟨-, -, hlt⟩ := mem_below hp
        have hmax := le_u32Max r.1
        unfold uidMax u32Max at *
        grind
      · exact ih hp

theorem toNat_lt_of_succ_lt {x y : UInt32} (h : Order.succ x < y) : x.toNat + 1 < y.toNat := by
  have h : saturatingSucc x < y := h
  have hy := le_u32Max y
  unfold saturatingSucc at h
  split at h
  · rename_i hmax
    exact absurd (hmax ▸ h) (not_lt.mpr hy)
  · rename_i hmax
    have hne : x.toNat ≠ 4294967295 := fun heq => hmax (UInt32.toNat_inj.mp heq)
    have hx := x.toNat_lt
    have hlt : (x + 1).toNat < y.toNat := h
    rw [UInt32.toNat_add, UInt32.toNat_one] at hlt
    omega

/-- **What is left** of the included user IDs. -/
theorem subtracted_spec (includes excludes : List UInt32) :
    ∃ subtracted, subtractRanges (toSortedRanges includes) (toSortedRanges excludes) = some subtracted ∧
      Separated subtracted ∧ ∀ u, Covers subtracted u ↔ u ∈ includes ∧ u ∉ excludes := by
  obtain ⟨hsep, hcovers⟩ := carve_foldl_spec (separated_toSortedRanges excludes).1
    (separated_toSortedRanges includes)
  refine ⟨_, subtractRanges_eq _ _, hsep, fun u => ?_⟩
  rw [hcovers, covers_toSortedRanges, covers_toSortedRanges]

/-- **All user IDs** but those of the ranges. -/
theorem complement_spec {ranges : List UidRange} (hsep : Separated ranges) :
    (∀ p ∈ gaps uidMax 0 ranges, p.1 ≤ p.2) ∧
      ∀ u, Covers (gaps uidMax 0 ranges) u ↔ u ≤ uidMax ∧ ¬ Covers ranges u := by
  have hzero : ∀ r ∈ ranges, (0 : UInt32) ≤ r.1 := fun _ _ => UInt32.zero_le
  obtain ⟨hne, hcovers⟩ := gaps_spec hsep hzero
  refine ⟨hne, fun u => ?_⟩
  by_cases hu : u ≤ uidMax
  · rw [hcovers u hu (not_isMax_of_le_uidMax hu), and_iff_right UInt32.zero_le, and_iff_right hu]
  · refine iff_of_false ?_ fun h => hu h.1
    rintro ⟨p, hp, -, hhi⟩
    exact hu (hhi.trans (snd_le_uidMax hp))

/-- The user IDs that are left out: all but the included ones that are not excluded, or the excluded ones
    if none are included. -/
def Excluded (includes excludes : List UInt32) (u : UInt32) : Prop :=
  includes ≠ [] ∧ u ≤ uidMax ∧ ¬ (u ∈ includes ∧ u ∉ excludes) ∨ includes = [] ∧ u ∈ excludes

/-- **The ranges** are spaced, and cover the user IDs that are left out. -/
theorem spaced_buildExcludedUidRanges (includes excludes : List UInt32) :
    ∃ ranges, buildExcludedUidRanges includes excludes = some ranges ∧ Spaced ranges ∧
      ∀ u, Covers ranges u ↔ Excluded includes excludes u := by
  by_cases hincludes : includes = []
  · subst hincludes
    have hexcludes := separated_toSortedRanges excludes
    obtain ⟨hspaced, hcovers⟩ := mergeRanges_spec hexcludes.1
    refine ⟨mergeRanges (toSortedRanges excludes), ?_, hspaced, fun u => ?_⟩
    · have hnone : toSortedRanges [] = [] := toSortedRanges_eq_nil_iff.mpr rfl
      rw [buildExcludedUidRanges]
      split
      · rename_i hnil
        rw [hnil.2, hnone, mergeRanges, List.mergeSort_nil]
      · simp only [hnone]
        rfl
    · refine (hcovers u).trans (covers_toSortedRanges.trans ?_)
      simp [Excluded]
  · obtain ⟨subtracted, hsubtract, hsep, hcovers⟩ := subtracted_spec includes excludes
    obtain ⟨hgaps, hcomplement⟩ := complement_spec hsep
    obtain ⟨hspaced, hmerge⟩ := mergeRanges_spec hgaps
    refine ⟨mergeRanges (gaps uidMax 0 subtracted), ?_, hspaced, fun u => ?_⟩
    · have hranges : toSortedRanges includes ≠ [] := mt toSortedRanges_eq_nil_iff.mp hincludes
      rw [buildExcludedUidRanges, if_neg fun h => hincludes h.1, if_pos hranges, hsubtract]
      simp only [Option.bind_eq_bind, Option.bind_some, complementRanges_eq]
      rfl
    · refine (hmerge u).trans ((hcomplement u).trans ?_)
      rw [hcovers]
      simp [Excluded, hincludes]

/-- The ranges in ascending order, with a user ID between any two, and which user IDs are in them: all
    but the included ones that are not excluded, or the excluded ones if none are included. -/
theorem buildExcludedUidRanges_spec (includes excludes : List UInt32) :
    ∃ ranges, buildExcludedUidRanges includes excludes = some ranges ∧
      (∀ r ∈ ranges, r.1 ≤ r.2) ∧ (ranges.Pairwise fun r t => r.2.toNat + 1 < t.1.toNat) ∧
      ∀ u, u ≤ uidMax → ((∃ r ∈ ranges, r.1 ≤ u ∧ u ≤ r.2) ↔
        includes ≠ [] ∧ ¬ (u ∈ includes ∧ u ∉ excludes) ∨ includes = [] ∧ u ∈ excludes) := by
  obtain ⟨ranges, hbuild, ⟨hne, hspaced⟩, hcovers⟩ := spaced_buildExcludedUidRanges includes excludes
  refine ⟨ranges, hbuild, hne, hspaced.imp toNat_lt_of_succ_lt, fun u hu => ?_⟩
  refine (hcovers u).trans ?_
  rw [Excluded, and_iff_right hu]

/-- The user IDs that are left out while the one before is not. -/
def excludedStarts (includes excludes : List UInt32) : Set UInt32 :=
  {u | Excluded includes excludes u ∧ (u = 0 ∨ ¬ Excluded includes excludes (u - 1))}

/-- **How many ranges** there are: one for every run of user IDs that are left out. -/
theorem length_buildExcludedUidRanges (includes excludes : List UInt32) :
    ∃ ranges, buildExcludedUidRanges includes excludes = some ranges ∧
      ranges.length = (excludedStarts includes excludes).ncard := by
  obtain ⟨ranges, hbuild, hspaced, hcovers⟩ := spaced_buildExcludedUidRanges includes excludes
  refine ⟨ranges, hbuild, ?_⟩
  rw [← hspaced.ncard_runStarts]
  congr 1
  ext u
  show Covers ranges u ∧ (IsMin u ∨ ¬ Covers ranges (Order.pred u)) ↔ _ ∧ (_ ∨ _)
  rw [hcovers, hcovers]
  refine and_congr_right fun _ => ?_
  by_cases hu : u = 0
  · exact iff_of_true (.inl (hu ▸ fun _ _ => UInt32.zero_le)) (.inl hu)
  · have hmin : ¬ IsMin u := fun h => hu (le_antisymm (h UInt32.zero_le) UInt32.zero_le)
    have hpred : Order.pred u = u - 1 := if_neg hu
    rw [hpred, or_iff_right hmin, or_iff_right hu]

end Reflex.Inbound.TunUids
