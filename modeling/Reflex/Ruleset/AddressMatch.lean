import Mathlib.Tactic.Order
import Reflex.Lib.Intervals
import Reflex.Lib.PrefixBlock
import Reflex.Ruleset.Matcher
import Reflex.Ruleset.RoundTrip
import Reflex.Ruleset.TextRules

namespace Reflex.Ruleset

open RustStd Intervals PrefixBlock

/-!
# Rule sets — matching addresses and ports

* `IpRanges.contains_build_iff` — sorting, merging and binary search answer whether some
  interval contains the address;
* `cidrToRange_spec` — the interval of a CIDR holds the addresses that share its prefix;
* `PortBitSet.contains_setRange` — a range of ports sets exactly its bits;
* `buildRanges_spec` / `buildPorts_spec` — what the tables of a loaded rule set answer.
-/

/-! ### Intervals -/

section Ranges

variable {α : Type} [LinearOrder α]

theorem ite_lt_eq_max (a b : α) : (if a < b then b else a) = max a b := by
  rw [max_def]
  split <;> split <;> order

theorem covers_mergeRangesGo (last : α × α) (rest : List (α × α)) (x : α)
    (hlo : ∀ r ∈ rest, last.1 ≤ r.1) (hsorted : rest.Pairwise fun a b => a.1 ≤ b.1) :
    Covers (mergeRangesGo last rest) x ↔ Covers (last :: rest) x := by
  induction rest generalizing last with
  | nil => rfl
  | cons r rest ih =>
    obtain ⟨lo, hi⟩ := r
    obtain ⟨hr, hrest⟩ := List.pairwise_cons.mp hsorted
    have hlast : last.1 ≤ lo := hlo (lo, hi) (by simp)
    rw [mergeRangesGo]
    split
    · -- overlapping intervals are joined, and the join covers both
      rename_i hoverlap
      rw [ite_lt_eq_max, ih (last.1, max last.2 hi) (fun t ht => hlo t (by simp [ht])) hrest,
        covers_cons, covers_cons, covers_cons, covers_join hlast hoverlap, or_assoc]
    · simp only [covers_cons, ih (lo, hi) hr hrest]

/-- Merging produces separated intervals, none of which starts below the first one. -/
theorem separated_mergeRangesGo (last : α × α) (rest : List (α × α)) (hlast : last.1 ≤ last.2)
    (hlo : ∀ r ∈ rest, last.1 ≤ r.1) (hne : ∀ r ∈ rest, r.1 ≤ r.2)
    (hsorted : rest.Pairwise fun a b => a.1 ≤ b.1) :
    Separated (mergeRangesGo last rest) ∧ ∀ t ∈ mergeRangesGo last rest, last.1 ≤ t.1 := by
  induction rest generalizing last with
  | nil => simp [mergeRangesGo, Separated, hlast]
  | cons r rest ih =>
    obtain ⟨lo, hi⟩ := r
    obtain ⟨hr, hrest⟩ := List.pairwise_cons.mp hsorted
    rw [List.forall_mem_cons] at hlo hne
    rw [mergeRangesGo]
    split
    · exact ih _ (by rw [ite_lt_eq_max]; exact hlast.trans (le_max_left _ _)) hlo.2 hne.2 hrest
    · -- the next interval starts behind `last`, and so does everything merged from it on
      rename_i hgap
      obtain ⟨hsep, hstart⟩ := ih (lo, hi) hne.1 hr hne.2 hrest
      refine ⟨separated_cons.mpr ⟨hlast, fun t ht => ?_, hsep⟩, ?_⟩
      · exact (not_le.mp hgap).trans_le (hstart t ht)
      · rw [List.forall_mem_cons]
        exact ⟨le_rfl, fun t ht => hlo.1.trans (hstart t ht)⟩

/-- A sorted list of non-empty intervals is merged into a separated one with the same
    coverage. -/
theorem mergeRanges_spec (rs : List (α × α)) (hne : ∀ r ∈ rs, r.1 ≤ r.2)
    (hsorted : rs.Pairwise fun a b => a.1 ≤ b.1) :
    Separated (mergeRanges rs) ∧ ∀ x, Covers (mergeRanges rs) x ↔ Covers rs x := by
  cases rs with
  | nil => simp [mergeRanges, Separated]
  | cons r rest =>
    obtain ⟨hr, hrest⟩ := List.pairwise_cons.mp hsorted
    rw [List.forall_mem_cons] at hne
    exact ⟨(separated_mergeRangesGo r rest hne.1 hr hne.2 hrest).1,
      fun x => covers_mergeRangesGo r rest x hr hrest⟩

/-- On separated intervals the binary search decides coverage. -/
theorem IpRanges.contains_iff {r : IpRanges α} (hsep : Separated r.ranges) (x : α) :
    r.contains x = true ↔ Covers r.ranges x := by
  -- Separated intervals start in increasing order, as the binary search needs it.
  have hpart : r.ranges.Pairwise fun a b => decide (b.1 ≤ x) = true → decide (a.1 ≤ x) = true := by
    refine hsep.pairwise_lo.imp fun {a b} hab hb => ?_
    simp only [decide_eq_true_eq] at hb ⊢
    exact hab.le.trans hb
  rw [covers_iff_getLast hsep, IpRanges.contains]
  by_cases hnil : r.ranges = []
  · simp [hnil]
  · rw [if_neg hnil, partitionPoint_eq hpart]
    -- the interval in front of the partition point is the last one of the `takeWhile` prefix
    have hget : ∀ i, i < (r.ranges.takeWhile fun iv => decide (iv.1 ≤ x)).length →
        r.ranges[i]? = (r.ranges.takeWhile fun iv => decide (iv.1 ≤ x))[i]? := by
      intro i hi
      conv_lhs => rw [← List.takeWhile_append_dropWhile (p := fun iv => decide (iv.1 ≤ x)) (l := r.ranges)]
      rw [List.getElem?_append_left hi]
    rcases hlen : (r.ranges.takeWhile fun iv => decide (iv.1 ≤ x)).length with _ | i
    · simp [List.length_eq_zero_iff.mp hlen]
    · rw [List.getLast?_eq_getElem?, hlen, Nat.add_sub_cancel]
      simp only [hget i (by omega)]
      simp [Option.any_eq_true]

/-- Sorted and merged intervals are separated and cover the same. -/
theorem IpRanges.build_spec (cidrs : List (α × α)) (hne : ∀ r ∈ cidrs, r.1 ≤ r.2) :
    Separated (IpRanges.build cidrs).ranges ∧
      ∀ x, Covers (IpRanges.build cidrs).ranges x ↔ Covers cidrs x := by
  -- Sorting by the lower ends, which is all that merging relies on.
  have hsorted : (cidrs.mergeSort fun a b => decide (a.1 ≤ b.1)).Pairwise fun a b => a.1 ≤ b.1 := by
    refine (List.pairwise_mergeSort ?_ ?_ cidrs).imp (by simp)
    · intro a b c hab hbc
      simp only [decide_eq_true_eq] at hab hbc ⊢
      exact hab.trans hbc
    · intro a b
      simpa using le_total a.1 b.1
  obtain ⟨hsep, hcov⟩ := mergeRanges_spec _ (fun r hr => hne r (List.mem_mergeSort.mp hr)) hsorted
  exact ⟨hsep, fun x => (hcov x).trans (covers_perm (List.mergeSort_perm cidrs _) x)⟩

/-- **Sorted, merged, searched**: the binary search over merged ranges finds exactly what one of the given ranges
    covers. -/
theorem IpRanges.contains_build_iff (cidrs : List (α × α)) (hne : ∀ r ∈ cidrs, r.1 ≤ r.2) (x : α) :
    (IpRanges.build cidrs).contains x = true ↔ Covers cidrs x := by
  obtain ⟨hsep, hcov⟩ := IpRanges.build_spec cidrs hne
  exact (IpRanges.contains_iff hsep x).trans (hcov x)

end Ranges

/-! ### CIDRs -/

/-- The addresses of the CIDR `addr/pre`: those that share its first `pre` bits. -/
def CidrContains {w : Nat} (addr : BitVec w) (pre : UInt8) (x : BitVec w) : Prop :=
  x >>> (w - pre.toNat) = addr >>> (w - pre.toNat)

instance {w : Nat} (addr : BitVec w) (pre : UInt8) (x : BitVec w) :
    Decidable (CidrContains addr pre x) := inferInstanceAs (Decidable (_ = _))

/-- Every address lies in a block of prefix length zero. -/
theorem cidrContains_zero {w : Nat} (addr x : BitVec w) : CidrContains addr 0 x := by
  simp [CidrContains, BitVec.ushiftRight_eq_zero]

/-- **One CIDR** with a prefix length in range becomes the interval of its addresses. -/
theorem cidrToRange_spec {w : Nat} (addr : BitVec w) (pre : UInt8) (hpre : pre.toNat ≤ w) :
    ∃ r, cidrToRange addr pre = some r ∧ r.1 ≤ r.2 ∧
      ∀ x, (r.1 ≤ x ∧ x ≤ r.2) ↔ CidrContains addr pre x := by
  by_cases hzero : pre = 0
  · subst hzero
    -- `/0` is the whole address space; the source treats it apart from the shift.
    have hbounds : ∀ x : BitVec w, 0 ≤ x ∧ x ≤ BitVec.allOnes w := by
      intro x
      have := x.isLt
      rw [BitVec.le_def, BitVec.le_def, BitVec.toNat_allOnes]
      exact ⟨by simp, by omega⟩
    exact ⟨_, if_pos rfl, (hbounds _).1,
      fun x => iff_of_true (hbounds x) (cidrContains_zero addr x)⟩
  · have hk : w - pre.toNat ≤ w := Nat.sub_le _ _
    exact ⟨_, by rw [cidrToRange, if_neg hzero, if_neg (by omega)], block_start_le_end addr hk,
      fun x => mem_block_iff addr x hk⟩

/-- Masking the host bits does not change the addresses of a CIDR. -/
theorem cidrContains_maskAddr {w : Nat} (addr : BitVec w) (pre : UInt8) (x : BitVec w) :
    CidrContains (maskAddr addr pre) pre x ↔ CidrContains addr pre x := by
  unfold maskAddr
  split
  · rename_i hzero
    subst hzero
    exact iff_of_true (cidrContains_zero _ x) (cidrContains_zero _ x)
  · rw [CidrContains, CidrContains, and_highMask_ushiftRight addr (Nat.sub_le _ _)]

/-- With prefix lengths in range no expansion underflows, and the intervals cover what the CIDRs
    contain. -/
theorem mapM_cidrToRange {w : Nat} (cidrs : List (BitVec w × UInt8))
    (hpre : ∀ c ∈ cidrs, c.2.toNat ≤ w) :
    ∃ ranges, (cidrs.mapM fun c => cidrToRange c.1 c.2) = some ranges ∧
      (∀ r ∈ ranges, r.1 ≤ r.2) ∧
      ∀ x, Covers ranges x ↔ ∃ c ∈ cidrs, CidrContains c.1 c.2 x := by
  induction cidrs with
  | nil => exact ⟨[], rfl, by simp, by simp⟩
  | cons c cidrs ih =>
    rw [List.forall_mem_cons] at hpre
    obtain ⟨ranges, hmap, hne, hcov⟩ := ih hpre.2
    obtain ⟨r, hr, hle, hmem⟩ := cidrToRange_spec c.1 c.2 hpre.1
    refine ⟨r :: ranges, ?_, ?_, fun x => ?_⟩
    · rw [List.mapM_cons, hr, hmap]
      rfl
    · rw [List.forall_mem_cons]
      exact ⟨hle, hne⟩
    · rw [covers_cons, hmem, hcov]
      simp

/-- **A list of CIDRs** with prefix lengths in range: the ranges contain the addresses that
    some CIDR contains. -/
theorem buildRanges_spec {w : Nat} (cidrs : List (BitVec w × UInt8))
    (hpre : ∀ c ∈ cidrs, c.2.toNat ≤ w) :
    ∃ rs, buildRanges cidrToRange cidrs = .ok rs ∧
      ∀ x, rs.contains x = true ↔ ∃ c ∈ cidrs, CidrContains c.1 c.2 x := by
  obtain ⟨ranges, hmap, hne, hcov⟩ := mapM_cidrToRange cidrs hpre
  refine ⟨IpRanges.build ranges, by rw [buildRanges, hmap], fun x => ?_⟩
  rw [IpRanges.contains_build_iff ranges hne, hcov]

/-! ### Ports -/

private theorem portMask_getLsbD (port : UInt16) (i : Nat) :
    (portMask port).getLsbD i = decide (i = port.toNat % 64) := by
  have := Nat.mod_lt port.toNat (show 0 < 64 by decide)
  rw [portMask, BitVec.getLsbD_shiftLeft]
  by_cases hi : i = port.toNat % 64
  · subst hi
    simp [this]
  · by_cases hlt : i < port.toNat % 64
    · simp [hlt, hi]
    · have : i - port.toNat % 64 ≠ 0 := by omega
      simp [hi, this]

/-- A port is contained when its bit is set. -/
theorem PortBitSet.contains_iff (s : PortBitSet) (port : UInt16) :
    s.contains port = true ↔
      (s.word port).getLsbD (port.toNat % 64) = true := by
  have hlt := Nat.mod_lt port.toNat (show 0 < 64 by decide)
  rw [contains, bne_iff_ne]
  constructor
  · intro h
    by_contra hbit
    refine h (BitVec.eq_of_getLsbD_eq fun i _ => ?_)
    rw [BitVec.getLsbD_and, portMask_getLsbD]
    by_cases hi : i = port.toNat % 64
    · subst hi
      simpa using hbit
    · simp [hi]
  · intro h hzero
    have := congrArg (fun v => v.getLsbD (port.toNat % 64)) hzero
    simp [BitVec.getLsbD_and, portMask_getLsbD, h] at this

@[simp] theorem PortBitSet.not_contains_new (port : UInt16) : PortBitSet.new.contains port = false := by
  rw [← Bool.not_eq_true, contains_iff]
  simp [new, word]

/-- **One port** sets its own bit and leaves the others as they were. -/
theorem PortBitSet.contains_set (s : PortBitSet) (p q : UInt16) :
    (s.set p).contains q = true ↔ s.contains q = true ∨ q = p := by
  -- A port is a word of the array and a bit of that word.
  have hword : (s.set p).word q
      = if portWord p = portWord q then s.word q ||| portMask p else s.word q := by
    simp only [set, word, Vector.getElem_set]
    split
    · rename_i h
      simp only [h]
    · rfl
  have hq : q = p ↔ portWord p = portWord q ∧ q.toNat % 64 = p.toNat % 64 := by
    rw [← UInt16.toNat_inj, portWord, portWord]
    omega
  rw [contains_iff, contains_iff, hword, hq]
  split
  · rename_i h
    rw [BitVec.getLsbD_or, portMask_getLsbD]
    simp [h]
  · rename_i h
    simp [h]

private theorem PortBitSet.contains_foldl_set (ps : List Nat) (s : PortBitSet) (q : UInt16) :
    (ps.foldl (fun s p => s.set (UInt16.ofNat p)) s).contains q = true ↔
      s.contains q = true ∨ ∃ p ∈ ps, q = UInt16.ofNat p := by
  induction ps generalizing s with
  | nil => simp
  | cons p ps ih =>
    rw [List.foldl_cons, ih, contains_set]
    simp [or_assoc]

/-- **A range of ports** sets exactly its bits. -/
theorem PortBitSet.contains_setRange (s : PortBitSet) (lo hi q : UInt16) :
    (s.setRange lo hi).contains q = true ↔ s.contains q = true ∨ (lo ≤ q ∧ q ≤ hi) := by
  rw [setRange, contains_foldl_set, UInt16.le_iff_toNat_le, UInt16.le_iff_toNat_le]
  refine or_congr_right ⟨?_, ?_⟩
  · -- The loop counts in `usize` from `lo` to `hi`, so it never wraps.
    rintro ⟨p, hp, rfl⟩
    rw [List.mem_range'_1] at hp
    have := hi.toNat_lt
    rw [UInt16.toNat_ofNat_of_lt' (by simp [UInt16.size]; omega)]
    omega
  · intro h
    exact ⟨q.toNat, by rw [List.mem_range'_1]; omega, by simp⟩

/-- **A list of port ranges** is compiled to a set with exactly the ports of one of them. -/
theorem buildPorts_spec (ports : List (UInt16 × UInt16)) (q : UInt16) :
    (buildPorts ports).any (fun bs => bs.contains q) = true ↔
      ∃ r ∈ ports, r.1 ≤ q ∧ q ≤ r.2 := by
  have hfold : ∀ s : PortBitSet,
      (ports.foldl (fun s r => s.setRange r.1 r.2) s).contains q = true ↔
        s.contains q = true ∨ ∃ r ∈ ports, r.1 ≤ q ∧ q ≤ r.2 := by
    induction ports with
    | nil => simp
    | cons r ports ih =>
      intro s
      rw [List.foldl_cons, ih, PortBitSet.contains_setRange]
      simp [or_assoc]
  rw [buildPorts]
  split
  · rename_i hnil
    simp [hnil]
  · rw [Option.any_some, hfold]
    simp

end Reflex.Ruleset
