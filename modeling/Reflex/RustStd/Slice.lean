import Mathlib.Tactic.Common
import Mathlib.Order.Lattice

namespace RustStd

/-!
# Rust standard library — slices

* `partitionPoint` — the binary search of `slice::partition_point`; on a list that is
  partitioned by the predicate it finds the length of the satisfying prefix
  (`partitionPoint_eq`);
* `dedup` — `Vec::dedup`, which drops repeated neighbours; after a sort it leaves a strictly
  increasing list (`pairwise_dedup`);
* `slice`, `copyFromSlice` — reading and overwriting a range;
* `EqOutside` — which positions a sequence of writes leaves as they were;
* `bind_eq_ok`, `forall₂_of_mapM_eq_ok`, `forM_eq_ok_iff` — what a successful `Result` says
  about its steps (`forall₂_of_mapM_eq_some`: an `Option`).
-/

variable {α : Type*}

/-! ### `partition_point` -/

/-- The binary search on the index range `[lo, hi)`. -/
def partitionPointGo (p : α → Bool) (xs : List α) (lo hi : Nat) : Nat :=
  if lo < hi then
    let mid := lo + (hi - lo) / 2
    if xs[mid]?.any p then partitionPointGo p xs (mid + 1) hi else partitionPointGo p xs lo mid
  else lo
termination_by hi - lo

/-- `slice::partition_point`. -/
def partitionPoint (p : α → Bool) (xs : List α) : Nat := partitionPointGo p xs 0 xs.length

/-- In a partitioned list the satisfying elements are those of the `takeWhile` prefix. -/
theorem any_getElem?_iff_lt_takeWhile {p : α → Bool} {xs : List α}
    (hpart : xs.Pairwise fun a b => p b → p a) (i : Nat) :
    xs[i]?.any p = true ↔ i < (xs.takeWhile p).length := by
  induction xs generalizing i with
  | nil => simp
  | cons x xs ih =>
    obtain ⟨hx, hxs⟩ := List.pairwise_cons.mp hpart
    by_cases hp : p x
    · cases i with
      | zero => simp [hp]
      | succ i => simpa [List.takeWhile_cons, hp] using ih hxs i
    · rw [List.takeWhile_cons_of_neg hp]
      cases i with
      | zero => simpa using hp
      | succ i =>
        rcases hi : xs[i]? with _ | y
        · simp [hi]
        · -- the head fails the predicate, so everything behind it does
          have hy : ¬ p y := fun h => hp (hx y (List.mem_of_getElem? hi) h)
          simp [hi, hy]

private theorem partitionPointGo_eq {p : α → Bool} {xs : List α}
    (hpart : xs.Pairwise fun a b => p b → p a) (lo hi : Nat)
    (hlo : lo ≤ (xs.takeWhile p).length) (hhi : (xs.takeWhile p).length ≤ hi) :
    partitionPointGo p xs lo hi = (xs.takeWhile p).length := by
  fun_induction partitionPointGo p xs lo hi with
  | case1 lo hi hlt mid hany ih =>
    -- the middle satisfies the predicate: the boundary is to its right
    have := (any_getElem?_iff_lt_takeWhile hpart mid).mp hany
    exact ih (by omega) hhi
  | case2 lo hi hlt mid hany ih =>
    -- the middle does not: the boundary is at it or to its left
    have := mt (any_getElem?_iff_lt_takeWhile hpart mid).mpr hany
    exact ih hlo (by omega)
  | case3 lo hi hlt => omega

/-- **Binary search.** On a partitioned list `partition_point` is the length of the prefix
    that satisfies the predicate. -/
theorem partitionPoint_eq {p : α → Bool} {xs : List α}
    (hpart : xs.Pairwise fun a b => p b → p a) :
    partitionPoint p xs = (xs.takeWhile p).length :=
  partitionPointGo_eq hpart 0 xs.length (Nat.zero_le _) (List.takeWhile_sublist p).length_le

/-! ### `dedup` -/

/-- `Vec::dedup`: of equal neighbours only one is kept. -/
def dedup [DecidableEq α] : List α → List α
  | [] => []
  | [x] => [x]
  | x :: y :: rest => if x = y then dedup (y :: rest) else x :: dedup (y :: rest)

@[simp] theorem mem_dedup [DecidableEq α] {x : α} {xs : List α} : x ∈ dedup xs ↔ x ∈ xs := by
  fun_induction dedup xs with
  | case1 => simp
  | case2 y => simp
  | case3 y rest ih => rw [ih]; simp
  | case4 y z rest hne ih => rw [List.mem_cons, ih]; simp

/-- Dropping repeated neighbours from a sorted list leaves a strictly sorted one. -/
theorem pairwise_dedup [DecidableEq α] {r lt : α → α → Prop}
    (hanti : ∀ a b, r a b → r b a → a = b) (hlt : ∀ a b, r a b → a ≠ b → lt a b)
    {xs : List α} (hsorted : xs.Pairwise r) : (dedup xs).Pairwise lt := by
  fun_induction dedup xs with
  | case1 => exact List.Pairwise.nil
  | case2 x => exact List.pairwise_singleton _ _
  | case3 y rest ih => exact ih hsorted.of_cons
  | case4 x y rest hne ih =>
    obtain ⟨hx, hrest⟩ := List.pairwise_cons.mp hsorted
    refine List.pairwise_cons.mpr ⟨fun z hz => ?_, ih hrest⟩
    rw [mem_dedup] at hz
    refine hlt x z (hx z hz) ?_
    -- an equal element further on would squeeze `y` between two copies of `x`
    rintro rfl
    rcases List.mem_cons.mp hz with rfl | hz
    · exact hne rfl
    · exact hne (hanti x y (hx y (by simp)) ((List.pairwise_cons.mp hrest).1 x hz))

/-! ### `Result` and `Option` -/

variable {ε α β : Type}

/-- The `?` operator: both steps succeeded. -/
theorem bind_eq_ok {x : Except ε α} {f : α → Except ε β} {b : β} :
    x >>= f = .ok b ↔ ∃ a, x = .ok a ∧ f a = .ok b := by
  rcases x with e | a
  · simp [bind, Except.bind]
  · simp [bind, Except.bind]

/-- Collecting into a `Result`: every element succeeded. -/
theorem forall₂_of_mapM_eq_ok {f : α → Except ε β} {l : List α} {l' : List β}
    (h : l.mapM f = .ok l') : List.Forall₂ (fun a b => f a = .ok b) l l' := by
  induction l generalizing l' with
  | nil =>
    obtain rfl : [] = l' := Except.ok.inj h
    exact .nil
  | cons a l ih =>
    rw [List.mapM_cons] at h
    obtain ⟨b, hb, hrest⟩ := bind_eq_ok.mp h
    obtain ⟨bs, hbs, hl'⟩ := bind_eq_ok.mp hrest
    obtain rfl : b :: bs = l' := Except.ok.inj hl'
    exact .cons hb (ih hbs)

/-- Collecting into an `Option`: every element is there. -/
theorem forall₂_of_mapM_eq_some {f : α → Option β} {l : List α} {l' : List β}
    (h : l.mapM f = some l') : List.Forall₂ (fun a b => f a = some b) l l' := by
  induction l generalizing l' with
  | nil =>
    obtain rfl : [] = l' := Option.some.inj h
    exact .nil
  | cons a l ih =>
    simp only [List.mapM_cons, Option.bind_eq_bind, Option.bind_eq_some_iff] at h
    obtain ⟨b, hb, bs, hbs, h⟩ := h
    obtain rfl : b :: bs = l' := Option.some.inj h
    exact .cons hb (ih hbs)

/-- A loop of checks: every element passed. -/
theorem forall_of_forM_eq_ok {f : α → Except ε Unit} {l : List α} (h : l.forM f = .ok ()) :
    ∀ x ∈ l, f x = .ok () := by
  induction l with
  | nil => exact fun x hx => absurd hx List.not_mem_nil
  | cons a l ih =>
    have h : (f a >>= fun _ => l.forM f) = .ok () := h
    obtain ⟨_, ha, hl⟩ := bind_eq_ok.mp h
    intro x hx
    rcases List.mem_cons.mp hx with rfl | hx
    · exact ha
    · exact ih hl x hx

/-- A loop of checks passes exactly if every element does. -/
theorem forM_eq_ok_iff {f : α → Except ε Unit} {l : List α} : l.forM f = .ok () ↔ ∀ x ∈ l, f x = .ok () := by
  refine ⟨forall_of_forM_eq_ok, fun h => ?_⟩
  induction l with
  | nil => rfl
  | cons a l ih =>
    exact bind_eq_ok.mpr ⟨(), h a List.mem_cons_self, ih fun x hx => h x (List.mem_cons_of_mem a hx)⟩

/-- Two checks, one behind the other, succeed exactly if both do. -/
theorem andThen_eq_ok {x : Except ε Unit} {y : Except ε β} {b : β} :
    (x >>= fun _ => y) = .ok b ↔ x = .ok () ∧ y = .ok b :=
  bind_eq_ok.trans ⟨fun ⟨_, hx, hy⟩ => ⟨hx, hy⟩, fun ⟨hx, hy⟩ => ⟨(), hx, hy⟩⟩

/-- A loop that succeeded: what every round preserves holds at its end. -/
theorem foldlM_ok_induction {f : β → α → Except ε β} {P : β → Prop}
    (hf : ∀ b a b', f b a = .ok b' → P b → P b') {l : List α} {b b' : β}
    (h : l.foldlM f b = .ok b') (hb : P b) : P b' := by
  induction l generalizing b with
  | nil =>
    obtain rfl : b = b' := Except.ok.inj h
    exact hb
  | cons a l ih =>
    rw [List.foldlM_cons] at h
    obtain ⟨c, hc, hl⟩ := bind_eq_ok.mp h
    exact ih hl (hf b a c hc hb)

/-- A result that succeeds with a value that satisfies `p`. -/
theorem exists_eq_ok_of_any {x : Except ε α} {p : α → Bool} (h : x.toOption.any p = true) :
    ∃ a, x = .ok a ∧ p a = true := by
  rcases x with e | a
  · cases h
  · exact ⟨a, rfl, h⟩

/-! ### Ranges of bytes -/

/-- `bs.windows(pat.len()).position(|w| w == pat)`: where `pat` first stands. -/
def windowsPosition [DecidableEq α] (pat : List α) : List α → Option Nat
  | [] => none
  | b :: bs => if pat <+: b :: bs then some 0 else (windowsPosition pat bs).map (· + 1)

theorem windowsPosition_eq_some [DecidableEq α] {pat bs : List α} {i : Nat}
    (h : windowsPosition pat bs = some i) :
    pat <+: bs.drop i ∧ ∀ j < i, ¬ pat <+: bs.drop j := by
  induction bs generalizing i with
  | nil => cases h
  | cons b bs ih =>
    rw [windowsPosition] at h
    split at h
    · rename_i hpre
      obtain rfl := Option.some.inj h
      exact ⟨hpre, fun j hj => absurd hj (Nat.not_lt_zero j)⟩
    · rename_i hpre
      obtain ⟨k, hk, rfl⟩ := Option.map_eq_some_iff.mp h
      obtain ⟨hat, hbefore⟩ := ih hk
      refine ⟨hat, fun j hj => ?_⟩
      cases j with
      | zero => exact hpre
      | succ j => exact hbefore j (by omega)

theorem windowsPosition_eq_none [DecidableEq α] {pat bs : List α} (hpat : pat ≠ [])
    (h : windowsPosition pat bs = none) (i : Nat) : ¬ pat <+: bs.drop i := by
  induction bs generalizing i with
  | nil => simpa using hpat
  | cons b bs ih =>
    rw [windowsPosition] at h
    split at h
    · cases h
    · rename_i hpre
      cases i with
      | zero => exact hpre
      | succ i => exact ih (Option.map_eq_none_iff.mp h) i

/-- `&bs[pos..pos + len]`. -/
def slice (bs : List α) (pos len : Nat) : List α := (bs.drop pos).take len

/-- `bs[pos..pos + new.len()].copy_from_slice(&new)`. -/
def copyFromSlice (bs : List α) (pos : Nat) (new : List α) : List α :=
  bs.take pos ++ new ++ bs.drop (pos + new.length)

@[simp] theorem length_copyFromSlice {bs new : List α} {pos : Nat} (h : pos + new.length ≤ bs.length) :
    (copyFromSlice bs pos new).length = bs.length := by
  simp only [copyFromSlice, List.length_append, List.length_take, List.length_drop]
  omega

theorem length_slice {bs : List α} {pos len : Nat} (h : pos + len ≤ bs.length) :
    (slice bs pos len).length = len := by
  rw [slice, List.length_take, List.length_drop]
  omega

/-- A range that ends within the first part does not depend on the second. -/
theorem slice_append_left {front rest : List α} {pos len : Nat} (h : pos + len ≤ front.length) :
    slice (front ++ rest) pos len = slice front pos len := by
  rw [slice, slice, List.drop_append_of_le_length (by omega),
    List.take_append_of_le_length (by rw [List.length_drop]; omega)]

/-- The range between a front of the right length and the rest. -/
theorem slice_middle {front mid rest : List α} {pos len : Nat} (hfront : front.length = pos)
    (hmid : mid.length = len) : slice (front ++ (mid ++ rest)) pos len = mid := by
  rw [slice, List.drop_left' hfront, List.take_left' hmid]

/-- The range between two parts is overwritten. -/
theorem copyFromSlice_middle {front old new rest : List α} {pos : Nat} (hfront : front.length = pos)
    (hold : old.length = new.length) :
    copyFromSlice (front ++ (old ++ rest)) pos new = front ++ new ++ rest := by
  have hdrop : (front ++ (old ++ rest)).drop (pos + new.length) = rest := by
    rw [← List.append_assoc]
    exact List.drop_left' (by rw [List.length_append, hfront, hold])
  rw [copyFromSlice, hdrop, List.take_left' hfront]

/-- What was written to a range is read back from it. -/
theorem slice_copyFromSlice_self {bs new : List α} {pos len : Nat} (hpos : pos ≤ bs.length)
    (hlen : new.length = len) : slice (copyFromSlice bs pos new) pos len = new := by
  have htake : (bs.take pos).length = pos := List.length_take_of_le hpos
  rw [slice, copyFromSlice, List.append_assoc, List.drop_append_of_le_length (by omega),
    List.drop_eq_nil_of_le (by omega), List.nil_append, ← hlen, List.take_left]

/-- A range in front of what was written is as before. -/
theorem slice_copyFromSlice_before {bs new : List α} {pos pos' len : Nat} (hpos : pos ≤ bs.length)
    (h : pos' + len ≤ pos) : slice (copyFromSlice bs pos new) pos' len = slice bs pos' len := by
  have htake : (bs.take pos).length = pos := List.length_take_of_le hpos
  rw [slice, copyFromSlice, List.append_assoc, List.drop_append_of_le_length (by omega),
    List.take_append_of_le_length (by rw [List.length_drop]; omega), slice, List.drop_take,
    List.take_take, Nat.min_eq_left (by omega)]

/-- Everything behind what was written is as before. -/
theorem drop_copyFromSlice_after {bs new : List α} {pos n : Nat} (hpos : pos ≤ bs.length)
    (h : pos + new.length ≤ n) : (copyFromSlice bs pos new).drop n = bs.drop n := by
  have hfront : (bs.take pos ++ new).length = pos + new.length := by
    rw [List.length_append, List.length_take_of_le hpos]
  obtain ⟨k, rfl⟩ := Nat.exists_eq_add_of_le h
  rw [copyFromSlice, List.drop_append, List.drop_eq_nil_of_le (by omega), List.nil_append,
    List.drop_drop, hfront, Nat.add_sub_cancel_left]

/-- A range behind what was written is as before. -/
theorem slice_copyFromSlice_after {bs new : List α} {pos pos' len : Nat} (hpos : pos ≤ bs.length)
    (h : pos + new.length ≤ pos') : slice (copyFromSlice bs pos new) pos' len = slice bs pos' len := by
  rw [slice, slice, drop_copyFromSlice_after hpos h]

/-- Writing behind a front that is then left out is writing into the rest. -/
theorem drop_copyFromSlice {bs new : List α} {n k : Nat} (hpos : n + k ≤ bs.length) :
    (copyFromSlice bs (n + k) new).drop n = copyFromSlice (bs.drop n) k new := by
  have hfront : n ≤ (bs.take (n + k)).length := by
    rw [List.length_take_of_le hpos]
    exact Nat.le_add_right n k
  rw [copyFromSlice, copyFromSlice, List.append_assoc, List.drop_append_of_le_length hfront,
    List.drop_take, Nat.add_sub_cancel_left, List.drop_drop, Nat.add_assoc, List.append_assoc]

/-- Everything in front of what was written is as before. -/
theorem take_copyFromSlice_before {bs new : List α} {pos n : Nat} (hpos : pos ≤ bs.length)
    (h : n ≤ pos) : (copyFromSlice bs pos new).take n = bs.take n := by
  have hslice : slice (copyFromSlice bs pos new) 0 n = slice bs 0 n :=
    slice_copyFromSlice_before hpos (by omega)
  simpa only [slice, List.drop_zero] using hslice

/-- Writing inside a front that is then taken is writing into the front. -/
theorem take_copyFromSlice {bs new : List α} {pos n : Nat} (hpos : pos ≤ bs.length)
    (h : pos + new.length ≤ n) :
    (copyFromSlice bs pos new).take n = copyFromSlice (bs.take n) pos new := by
  have hfront : (bs.take pos ++ new).length = pos + new.length := by
    rw [List.length_append, List.length_take_of_le hpos]
  obtain ⟨k, rfl⟩ := Nat.exists_eq_add_of_le h
  rw [copyFromSlice, copyFromSlice, List.take_take, Nat.min_eq_left (by omega), ← hfront,
    List.take_length_add_append, List.drop_take, Nat.add_sub_cancel_left]

/-- An element outside what was written is as before. -/
theorem getElem?_copyFromSlice {bs new : List α} {pos i : Nat} (hpos : pos ≤ bs.length)
    (h : i < pos ∨ pos + new.length ≤ i) : (copyFromSlice bs pos new)[i]? = bs[i]? := by
  rcases h with hbefore | hafter
  · have htake : (copyFromSlice bs pos new).take pos = bs.take pos :=
      take_copyFromSlice_before hpos (le_refl pos)
    rw [← List.getElem?_take_of_lt hbefore, htake, List.getElem?_take_of_lt hbefore]
  · have hdrop := congrArg (·[0]?) (drop_copyFromSlice_after hpos hafter)
    simpa only [List.getElem?_drop, Nat.add_zero] using hdrop

/-- A range with what is in front of it and what is behind it. -/
theorem take_append_slice_append_drop (bs : List α) (pos len : Nat) :
    bs.take pos ++ (slice bs pos len ++ bs.drop (pos + len)) = bs := by
  rw [slice, ← List.drop_drop, List.take_append_drop, List.take_append_drop]

/-! ### What stays as it is -/

/-- From `bs` to `bs'` only elements at positions in `changed` change, and no position appears or
    disappears. -/
structure EqOutside (changed : Nat → Prop) (bs bs' : List α) : Prop where
  length_eq : bs'.length = bs.length
  getElem?_eq : ∀ i, ¬ changed i → bs'[i]? = bs[i]?

namespace EqOutside

variable {changed changed' : Nat → Prop} {bs bs' bs'' : List α}

theorem trans (h : EqOutside changed bs bs') (h' : EqOutside changed' bs' bs'') :
    EqOutside (fun i => changed i ∨ changed' i) bs bs'' where
  length_eq := h'.length_eq.trans h.length_eq
  getElem?_eq i hi :=
    (h'.getElem?_eq i fun hc => hi (.inr hc)).trans (h.getElem?_eq i fun hc => hi (.inl hc))

theorem mono (h : EqOutside changed bs bs') (hsub : ∀ i, changed i → changed' i) :
    EqOutside changed' bs bs' where
  length_eq := h.length_eq
  getElem?_eq i hi := h.getElem?_eq i fun hc => hi (hsub i hc)

/-- What is behind all changes is the same. -/
theorem drop_eq (h : EqOutside changed bs bs') {n : Nat} (hn : ∀ i, n ≤ i → ¬ changed i) :
    bs'.drop n = bs.drop n := by
  apply List.ext_getElem?
  intro i
  rw [List.getElem?_drop, List.getElem?_drop]
  exact h.getElem?_eq _ (hn _ (Nat.le_add_right n i))

/-- A range in which nothing may have changed is the same. -/
theorem slice_eq (h : EqOutside changed bs bs') {pos len : Nat}
    (hn : ∀ i, pos ≤ i → i < pos + len → ¬ changed i) : slice bs' pos len = slice bs pos len := by
  apply List.ext_getElem?
  intro i
  rw [slice, slice]
  by_cases hi : i < len
  · rw [List.getElem?_take_of_lt hi, List.getElem?_take_of_lt hi, List.getElem?_drop,
      List.getElem?_drop]
    exact h.getElem?_eq _ (hn _ (by omega) (by omega))
  · rw [List.getElem?_take_eq_none (by omega), List.getElem?_take_eq_none (by omega)]

end EqOutside

theorem eqOutside_copyFromSlice {bs new : List α} {pos len : Nat} (hlen : new.length = len)
    (h : pos + len ≤ bs.length) :
    EqOutside (fun i => pos ≤ i ∧ i < pos + len) bs (copyFromSlice bs pos new) where
  length_eq := length_copyFromSlice (hlen ▸ h)
  getElem?_eq i hi := getElem?_copyFromSlice (by omega) (by omega)

end RustStd
