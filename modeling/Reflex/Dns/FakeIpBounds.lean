import Reflex.Dns.FakeIpFile
import Reflex.Dns.FakeIpRange

namespace Reflex.Dns

open RustStd Experimental

/-!
# DNS — where the FakeIP cursor leads

`allocate_v4` and `allocate_v6` of `dns/upstream.rs`, over any sequence of calls from any start of
`new_with_cache`.  The cursor leaves a range of one address and the last two addresses of the
address space at once.  A row of the cache file for the largest address of all sends it back to 0,
unless another row of the range comes behind it.

* `Pool` — one family of a store, and what an allocation does to it;
* `restored_cases` — where the start leaves the cursor;
* `Pool.Run.covered_of_fine`, `Pool.Run.exists_uncovered` — runs that stay inside, and runs that do
  not;
* `allocations_contained_iff` — when every address that is returned is one of its range.
-/

variable {w : Nat}

/-! ### One family of a store -/

/-- The range, the cursor and the addresses of the domains. -/
structure Pool (w : Nat) where
  net : Option (BitVec w × BitVec w)
  current : Option (BitVec w)
  domainTo : Str → Option (BitVec w)

/-- The address is one of the range. -/
def Covers (net : BitVec w × BitVec w) (a : BitVec w) : Prop := net.1 ≤ a ∧ a ≤ net.2

instance (net : BitVec w × BitVec w) (a : BitVec w) : Decidable (Covers net a) :=
  inferInstanceAs (Decidable (_ ∧ _))

/-- The address that is given out when the cursor stands at `cur`. -/
def nextAddr (net : BitVec w × BitVec w) (cur : BitVec w) : BitVec w :=
  if net.2 ≤ ipNext cur then ipNext net.1 else ipNext cur

namespace Pool

/-- What an allocation for a domain may leave and return: the address the domain has, a new one, or
    none. -/
inductive Allocates (p : Pool w) (domain : Str) : Pool w → Option (BitVec w) → Prop
  | existing {a : BitVec w} (hdomain : p.domainTo domain = some a) :
      Allocates p domain p (some a)
  | fresh {net : BitVec w × BitVec w} {cur : BitVec w} {domainTo : Str → Option (BitVec w)}
      (hdomain : p.domainTo domain = none) (hnet : p.net = some net) (hcur : p.current = some cur)
      (hnew : ∀ d a, domainTo d = some a → a = nextAddr net cur ∨ p.domainTo d = some a) :
      Allocates p domain ⟨p.net, some (nextAddr net cur), domainTo⟩ (some (nextAddr net cur))
  | exhausted (hdomain : p.domainTo domain = none) (hnone : p.net = none ∨ p.current = none) :
      Allocates p domain p none

/-- Allocations one after the other, and what they return. -/
inductive Run : Pool w → List Str → List (Option (BitVec w)) → Prop
  | nil (p : Pool w) : Run p [] []
  | cons {p p' : Pool w} {d : Str} {ds : List Str} {r : Option (BitVec w)}
      {rs : List (Option (BitVec w))} (hstep : p.Allocates d p' r) (hrest : Run p' ds rs) :
      Run p (d :: ds) (r :: rs)

/-- The pool of an allocation, as a value. -/
def after (p : Pool w) (al : Option (Allocation w)) : Pool w :=
  match al with
  | some al => ⟨p.net, al.current, al.domainTo⟩
  | none => p

/-- **One allocation**, in either family, as the code computes it, is one of those that the bounds are proved for. -/
theorem allocates_allocate (toIp : BitVec w → IpAddr) (addrToDomain : IpAddr → Option Str)
    (p : Pool w) (domain : Str) :
    p.Allocates domain
      (p.after (allocate toIp p.net p.current p.domainTo addrToDomain domain))
      ((allocate toIp p.net p.current p.domainTo addrToDomain domain).map (·.addr)) := by
  rcases hdomain : p.domainTo domain with _ | a
  · rcases hnet : p.net with _ | net
    · rw [allocate, hdomain]
      exact .exhausted hdomain (.inl hnet)
    · rcases hcur : p.current with _ | cur
      · rw [allocate, hdomain]
        exact .exhausted hdomain (.inr hcur)
      · obtain ⟨start, last⟩ := net
        rw [allocate, hdomain]
        simp only [Option.bind_eq_bind, Option.bind_some, Option.pure_def, Option.map_some, after]
        refine .fresh hdomain hnet hcur fun d a hd => ?_
        -- the new pair, or one that was there and was not released
        rcases Transition.update_eq_some hd with ⟨-, ha⟩ | ⟨-, hd⟩
        · exact .inl ha
        · refine .inr ?_
          rcases howner : addrToDomain (toIp (if last ≤ ipNext cur then ipNext start else ipNext cur))
            with _ | oldDomain <;> simp only [howner] at hd
          · exact hd
          · by_cases hne : d = oldDomain
            · rw [hne, Function.update_self] at hd
              cases hd
            · rwa [Function.update_of_ne hne] at hd
  · rw [FakeIpStore.allocate_existing hdomain]
    exact .existing hdomain

/-! ### Runs of allocations -/

/-- The domains have addresses of the range. -/
def Held (p : Pool w) : Prop :=
  ∀ d a, p.domainTo d = some a → ∃ net, p.net = some net ∧ Covers net a

end Pool

/-- The cursor is where the next address is one of the range, and so on: at an address the range
    gives out, or anywhere in a range that begins at 0 or 1 and ends at the largest address. -/
def Fine (net : BitVec w × BitVec w) (cur : BitVec w) : Prop :=
  Given net cur ∨ (net.1.toNat ≤ 1 ∧ net.2 = BitVec.allOnes w ∧ cur ≠ BitVec.allOnes w)

theorem Given.covers {net : BitVec w × BitVec w} {a : BitVec w} (h : Given net a) : Covers net a :=
  ⟨BitVec.le_of_lt h.1, h.2.1⟩

theorem le_allOnes (a : BitVec w) : a ≤ BitVec.allOnes w := by
  show a.toNat ≤ (BitVec.allOnes w).toNat
  rw [BitVec.toNat_allOnes]
  have := a.isLt
  omega

/-- The largest address wraps around to zero, as in `wrapping_add`. -/
theorem ipNext_allOnes : ipNext (BitVec.allOnes w) = 0 := by
  rw [ipNext, ← BitVec.neg_one_eq_allOnes]
  exact BitVec.add_left_neg 1#w

/-- The next address and the one behind it are others, from two bits on. -/
theorem ipNext_ne (hw : 2 ≤ w) (a : BitVec w) : ipNext a ≠ a ∧ ipNext (ipNext a) ≠ a := by
  have hpow : 2 ^ 2 ≤ 2 ^ w := Nat.pow_le_pow_right (by decide) hw
  have hone : (1#w).toNat = 1 := by
    rw [BitVec.toNat_ofNat, Nat.mod_eq_of_lt (by omega)]
  constructor
  · intro h
    have hzero := congrArg BitVec.toNat (BitVec.add_right_eq_self.mp h)
    rw [BitVec.toNat_ofNat, Nat.zero_mod] at hzero
    exact absurd (hone.symm.trans hzero) (by decide)
  · intro h
    have htwo : a + (1#w + 1#w) = a := by
      rw [← BitVec.add_assoc]
      exact h
    have hzero := congrArg BitVec.toNat (BitVec.add_right_eq_self.mp htwo)
    rw [BitVec.toNat_add, hone, BitVec.toNat_ofNat, Nat.zero_mod, Nat.mod_eq_of_lt (by omega)]
      at hzero
    omega

theorem toNat_lt_of_ne_allOnes {a : BitVec w} (h : a ≠ BitVec.allOnes w) : a.toNat + 1 < 2 ^ w := by
  by_contra hlast
  refine h (BitVec.eq_of_toNat_eq ?_)
  rw [BitVec.toNat_allOnes]
  have := a.isLt
  omega

/-- **A usable range is not left**: the address behind the cursor is in the range, and the cursor is fine there
    again. -/
theorem fine_next {net : BitVec w × BitVec w} {cur : BitVec w} (husable : UsableNet net)
    (hfine : Fine net cur) : Fine net (nextAddr net cur) ∧ Covers net (nextAddr net cur) := by
  unfold nextAddr
  split
  · exact ⟨.inl (given_first husable), (given_first husable).covers⟩
  · rename_i hlt
    rcases hfine with hgiven | ⟨hstart, hlast, hcur⟩
    · exact ⟨.inl (given_next husable hgiven hlt), (given_next husable hgiven hlt).covers⟩
    · have hnext := toNat_ipNext (toNat_lt_of_ne_allOnes hcur)
      have hbelow : (ipNext cur).toNat < net.2.toNat := BitVec.not_le.mp hlt
      refine ⟨.inr ⟨hstart, hlast, fun heq => ?_⟩, ?_, BitVec.le_of_lt (BitVec.not_le.mp hlt)⟩
      · rw [hlast, heq] at hbelow
        exact absurd hbelow (Nat.lt_irrefl _)
      · show net.1.toNat ≤ (ipNext cur).toNat
        omega

namespace Pool

variable {p p' : Pool w} {ds : List Str} {rs : List (Option (BitVec w))}

/-- The cursor of a usable range is fine. -/
def Safe (p : Pool w) : Prop :=
  ∀ net cur, p.net = some net → p.current = some cur → UsableNet net ∧ Fine net cur

/-- **Runs that stay inside**: the cursor is fine, or no domain needs a new address. -/
theorem Run.covered_of_fine (hrun : p.Run ds rs) (hheld : p.Held)
    (hsafe : p.Safe ∨ ∀ d ∈ ds, p.domainTo d ≠ none) {a : BitVec w} (ha : some a ∈ rs) :
    ∃ net, p.net = some net ∧ Covers net a := by
  induction hrun with
  | nil p => cases ha
  | cons hstep hrest ih =>
      cases hstep with
      | existing hdomain =>
          rcases List.mem_cons.mp ha with heq | ha
          · obtain rfl := Option.some.inj heq
            exact hheld _ _ hdomain
          · exact ih hheld (hsafe.imp_right fun h d hd => h d (List.mem_cons_of_mem _ hd)) ha
      | fresh hdomain hnet hcur hnew =>
          obtain hsafe := hsafe.resolve_right fun h => h _ (List.mem_cons_self ..) hdomain
          -- a fresh address is the next one, and leaves the cursor fine
          obtain ⟨husable, hfine⟩ := hsafe _ _ hnet hcur
          obtain ⟨hfine', hcovers⟩ := fine_next husable hfine
          rcases List.mem_cons.mp ha with heq | ha
          · rw [Option.some.inj heq]
            exact ⟨_, hnet, hcovers⟩
          · refine ih (fun d a hd => ?_) (.inl fun net' cur' hnet' hcur' => ?_) ha
            · rcases hnew d a hd with rfl | hold
              · exact ⟨_, hnet, hcovers⟩
              · exact hheld d a hold
            · obtain rfl := Option.some.inj (hnet.symm.trans hnet')
              obtain rfl := Option.some.inj hcur'
              exact ⟨husable, hfine'⟩
      | exhausted hdomain hnone =>
          rcases List.mem_cons.mp ha with heq | ha
          · cases heq
          · exact ih hheld (hsafe.imp_right fun h d hd => h d (List.mem_cons_of_mem _ hd)) ha

/-- **Runs that do not**: the first new address is outside. -/
theorem Run.exists_uncovered (hrun : p.Run ds rs) {net : BitVec w × BitVec w} {cur : BitVec w}
    (hnet : p.net = some net) (hcur : p.current = some cur)
    (hout : ¬ Covers net (nextAddr net cur)) {d : Str} (hd : d ∈ ds)
    (hdomain : p.domainTo d = none) : ∃ a, some a ∈ rs ∧ ¬ Covers net a := by
  induction hrun with
  | nil p => cases hd
  | cons hstep hrest ih =>
      cases hstep with
      | existing hexisting =>
          rcases List.mem_cons.mp hd with rfl | hd
          · rw [hdomain] at hexisting
            cases hexisting
          · obtain ⟨a, ha, hnot⟩ := ih hnet hcur hd hdomain
            exact ⟨a, List.mem_cons_of_mem _ ha, hnot⟩
      | fresh hfresh hnet' hcur' hnew =>
          obtain rfl := Option.some.inj (hnet.symm.trans hnet')
          obtain rfl := Option.some.inj (hcur.symm.trans hcur')
          exact ⟨_, List.mem_cons_self .., hout⟩
      | exhausted hfresh hnone =>
          rcases hnone with hnone | hnone
          · rw [hnet] at hnone
            cases hnone
          · rw [hcur] at hnone
            cases hnone

end Pool

/-! ### Where the start leaves the cursor -/

/-- The last row of the file whose address is one of the range. -/
def lastRow (net : BitVec w × BitVec w) (rows : List (BitVec w × Str)) : Option (BitVec w) :=
  ((rows.map Prod.fst).filter fun a => Covers net a).getLast?

/-- The range has room: it is usable, and where it does not begin at 0 or 1 the rows of the file do
    not send the cursor back to 0. -/
def Roomy (net : BitVec w × BitVec w) (rows : List (BitVec w × Str)) : Prop :=
  UsableNet net ∧ (lastRow net rows = some (BitVec.allOnes w) → net.1.toNat ≤ 1)

instance (net : BitVec w × BitVec w) (rows : List (BitVec w × Str)) : Decidable (Roomy net rows) :=
  inferInstanceAs (Decidable (_ ∧ (_ → _)))

namespace Pool

/-- One row of the file, in the family of its address. -/
def restoreRow (p : Pool w) (row : BitVec w × Str) : Pool w :=
  if p.net.any fun net => decide (Covers net row.1) then
    { p with
      domainTo := Function.update p.domainTo row.2 (some row.1)
      current := p.current.map fun cur => if cur ≤ row.1 then ipNext row.1 else cur }
  else p

/-- A new pool. -/
def new (net : Option (BitVec w × BitVec w)) : Pool w :=
  ⟨net, net.map fun net => ipNext net.1, fun _ => none⟩

/-- What `new_with_cache` makes of the rows of one family. -/
def restored (net : Option (BitVec w × BitVec w)) (rows : List (BitVec w × Str)) : Pool w :=
  { rows.foldl restoreRow (new net) with
    current := FakeIpStore.rewind net (rows.foldl restoreRow (new net)).current }

/-- A row outside of the range is skipped. -/
theorem restoreRow_of_not_covers {p : Pool w} {net : BitVec w × BitVec w} (hnet : p.net = some net)
    {row : BitVec w × Str} (h : ¬ Covers net row.1) : p.restoreRow row = p := by
  rw [restoreRow, hnet, Option.any_some, decide_eq_false h]
  exact if_neg Bool.false_ne_true

theorem restoreRow_of_covers {p : Pool w} {net : BitVec w × BitVec w} (hnet : p.net = some net)
    {row : BitVec w × Str} (h : Covers net row.1) :
    p.restoreRow row = { p with
      domainTo := Function.update p.domainTo row.2 (some row.1)
      current := p.current.map fun cur => if cur ≤ row.1 then ipNext row.1 else cur } := by
  rw [restoreRow, hnet, Option.any_some]
  exact if_pos (decide_eq_true h)

theorem restoreRow_net (p : Pool w) (row : BitVec w × Str) : (p.restoreRow row).net = p.net := by
  rw [restoreRow]
  split
  · rfl
  · rfl

theorem foldl_restoreRow_net (p : Pool w) (rows : List (BitVec w × Str)) :
    (rows.foldl restoreRow p).net = p.net :=
  List.foldlRecOn (motive := fun q => q.net = p.net) rows restoreRow rfl
    fun q hq row _ => (restoreRow_net q row).trans hq

/-- The addresses that were restored are of the range. -/
theorem held_restored (net : Option (BitVec w × BitVec w)) (rows : List (BitVec w × Str)) :
    (restored net rows).Held := by
  have hfold : (rows.foldl restoreRow (new net)).Held := by
    refine List.foldlRecOn rows restoreRow (fun d a hd => (nomatch hd)) fun q hq row _ => ?_
    rcases hnet : q.net with _ | n
    · have hskip : q.restoreRow row = q := by
        rw [restoreRow, hnet]
        exact if_neg Bool.false_ne_true
      rw [hskip]
      exact hq
    · by_cases hcovers : Covers n row.1
      · rw [restoreRow_of_covers hnet hcovers]
        intro d a hd
        rcases Transition.update_eq_some hd with ⟨-, rfl⟩ | ⟨-, hd⟩
        · exact ⟨n, hnet, hcovers⟩
        · exact hq d a hd
      · rw [restoreRow_of_not_covers hnet hcovers]
        exact hq
  exact hfold

/-- The cursor behind the rows of a range of several addresses: it wraps around just when the last of
    them is the largest address. -/
theorem current_foldl {net : BitVec w × BitVec w} (hlt : net.1 < net.2)
    (rows : List (BitVec w × Str)) :
    ∃ c, (rows.foldl restoreRow (new (some net))).current = some c ∧
      if lastRow net rows = some (BitVec.allOnes w) then c.toNat = 0
      else net.1.toNat < c.toNat ∧ c.toNat ≤ net.2.toNat + 1 := by
  have hlt' : net.1.toNat < net.2.toNat := hlt
  induction rows using List.reverseRecOn with
  | nil =>
      have hnext := toNat_ipNext (a := net.1) (by have := net.2.isLt; omega)
      refine ⟨ipNext net.1, rfl, ?_⟩
      rw [if_neg (by simp [lastRow])]
      omega
  | append_singleton rows row ih =>
      obtain ⟨c, hc, hcase⟩ := ih
      rw [List.foldl_append, List.foldl_cons, List.foldl_nil]
      have hnet := foldl_restoreRow_net (new (some net)) rows
      -- a row outside the range is passed over
      by_cases hcovers : Covers net row.1
      · have hlast : lastRow net (rows ++ [row]) = some row.1 := by
          simp [lastRow, hcovers]
        rw [restoreRow_of_covers hnet hcovers, hlast]
        refine ⟨_, congrArg (Option.map _) hc, ?_⟩
        dsimp only
        have hlow : net.1.toNat ≤ row.1.toNat := hcovers.1
        have hhigh : row.1.toNat ≤ net.2.toNat := hcovers.2
        have hsize := net.2.isLt
        -- behind the largest address the cursor wraps to zero
        by_cases hall : row.1 = BitVec.allOnes w
        · rw [hall, if_pos rfl, if_pos (le_allOnes c), ipNext_allOnes]
          rfl
        · rw [if_neg (fun h => hall (Option.some.inj h))]
          have hnext := toNat_ipNext (toNat_lt_of_ne_allOnes hall)
          split
          · omega
          · rename_i hbehind
            have hbelow : row.1.toNat < c.toNat := BitVec.not_le.mp hbehind
            split at hcase
            · omega
            · omega
      · have hlast : lastRow net (rows ++ [row]) = lastRow net rows := by
          simp [lastRow, hcovers]
        rw [restoreRow_of_not_covers hnet hcovers, hlast]
        exact ⟨c, hc, hcase⟩

/-- In a range of one address the cursor stays behind it. -/
theorem current_foldl_single {start : BitVec w} (rows : List (BitVec w × Str)) :
    (rows.foldl restoreRow (new (some (start, start)))).current = some (ipNext start) := by
  induction rows using List.reverseRecOn with
  | nil => rfl
  | append_singleton rows row ih =>
      rw [List.foldl_append, List.foldl_cons, List.foldl_nil]
      have hnet := foldl_restoreRow_net (new (some (start, start))) rows
      by_cases hcovers : Covers (start, start) row.1
      · have hrow : row.1 = start := BitVec.le_antisymm hcovers.2 hcovers.1
        rw [restoreRow_of_covers hnet hcovers]
        show Option.map _ (rows.foldl restoreRow (new (some (start, start)))).current = _
        rw [ih, Option.map_some, hrow]
        split
        · rfl
        · rfl
      · rw [restoreRow_of_not_covers hnet hcovers]
        exact ih

theorem covers_lastRow {net : BitVec w × BitVec w} {rows : List (BitVec w × Str)} {a : BitVec w}
    (h : lastRow net rows = some a) : Covers net a :=
  of_decide_eq_true (List.mem_filter.mp (List.mem_of_getLast? h)).2

/-- The start of a range of one address. -/
private theorem restored_single (hw : 2 ≤ w) (start : BitVec w) (rows : List (BitVec w × Str)) :
    (restored (some (start, start)) rows).current = some (ipNext start) ∧
      ¬ Covers (start, start) (nextAddr (start, start) (ipNext start)) := by
  refine ⟨?_, fun hcovers => ?_⟩
  · rw [restored, current_foldl_single]
    exact ite_self _
  · -- the next address is one or two behind the only one
    obtain ⟨hone, htwo⟩ := ipNext_ne hw start
    have hsame : nextAddr (start, start) (ipNext start) = start :=
      BitVec.le_antisymm hcovers.2 hcovers.1
    rw [nextAddr] at hsame
    split at hsame
    · exact hone hsame
    · exact htwo hsame

/-- The start of a range of several addresses, with the largest one in its last row. -/
private theorem restored_wrapped {net : BitVec w × BitVec w} (hlt : net.1 < net.2) (hw : 2 ≤ w)
    {rows : List (BitVec w × Str)} (hlast : lastRow net rows = some (BitVec.allOnes w)) :
    ∃ cur, (restored (some net) rows).current = some cur ∧
      ((Roomy net rows ∧ Fine net cur) ∨
        (¬ Roomy net rows ∧ ¬ Covers net (nextAddr net cur))) := by
  have hpow : 2 ^ 2 ≤ 2 ^ w := Nat.pow_le_pow_right (by decide) hw
  have hend : net.2 = BitVec.allOnes w :=
    BitVec.le_antisymm (le_allOnes _) (covers_lastRow hlast).2
  have hsize : net.2.toNat = 2 ^ w - 1 := by rw [hend, BitVec.toNat_allOnes]
  obtain ⟨c, hc, hcase⟩ := current_foldl hlt rows
  have hzero : c.toNat = 0 := by rwa [if_pos hlast] at hcase
  have hnext : (ipNext c).toNat = 1 := by rw [toNat_ipNext (by omega), hzero]
  have hahead : ¬ net.2 ≤ ipNext c := fun h => by
    have : net.2.toNat ≤ (ipNext c).toNat := h
    omega
  refine ⟨c, ?_, ?_⟩
  · rw [restored, hc]
    refine if_neg fun h => ?_
    have : net.2.toNat ≤ c.toNat := of_decide_eq_true h
    omega
  · by_cases hstart : net.1.toNat ≤ 1
    · have husable : UsableNet net := ⟨hlt, fun h => ?_⟩
      · refine .inl ⟨⟨husable, fun _ => hstart⟩, .inr ⟨hstart, hend, fun h => ?_⟩⟩
        have := congrArg BitVec.toNat h
        rw [BitVec.toNat_allOnes] at this
        omega
      · have := congrArg BitVec.toNat h.1
        rw [toNat_ipNext (by omega)] at this
        omega
    · refine .inr ⟨fun h => hstart (h.2 hlast), fun hcovers => hstart ?_⟩
      rw [nextAddr, if_neg hahead] at hcovers
      have : net.1.toNat ≤ (ipNext c).toNat := hcovers.1
      omega

/-- The start of a range of several addresses, with another address in its last row, or no row. -/
private theorem restored_unwrapped {net : BitVec w × BitVec w} (hlt : net.1 < net.2) (hw : 2 ≤ w)
    {rows : List (BitVec w × Str)} (hlast : lastRow net rows ≠ some (BitVec.allOnes w)) :
    ∃ cur, (restored (some net) rows).current = some cur ∧
      ((Roomy net rows ∧ Fine net cur) ∨
        (¬ Roomy net rows ∧ ¬ Covers net (nextAddr net cur))) := by
  have hpow : 2 ^ 2 ≤ 2 ^ w := Nat.pow_le_pow_right (by decide) hw
  obtain ⟨c, hc, hcase⟩ := current_foldl hlt rows
  rw [if_neg hlast] at hcase
  obtain ⟨hlow, hhigh⟩ := hcase
  have hrewind : (restored (some net) rows).current
      = if net.2 ≤ c then some (ipNext net.1) else some c := by
    rw [restored, hc]
    simp only [FakeIpStore.rewind, Option.any_some, decide_eq_true_eq]
  by_cases husable : UsableNet net
  · have hroomy : Roomy net rows := ⟨husable, fun h => absurd h hlast⟩
    by_cases hbehind : net.2 ≤ c
    · exact ⟨_, hrewind.trans (if_pos hbehind), .inl ⟨hroomy, .inl (given_first husable)⟩⟩
    · refine ⟨_, hrewind.trans (if_neg hbehind), .inl ⟨hroomy, .inl ⟨hlow, ?_, fun h => ?_⟩⟩⟩
      · exact BitVec.le_of_lt (BitVec.not_le.mp hbehind)
      · exact absurd (le_of_eq h.symm) hbehind
  · -- the last two addresses of all: the cursor stands at the last one, and the next is 0
    obtain ⟨hnext, hend⟩ := not_not.mp fun h => husable ⟨hlt, h⟩
    have hsize : net.2.toNat = 2 ^ w - 1 := by rw [hend, BitVec.toNat_allOnes]
    have hstart : (ipNext net.1).toNat = net.1.toNat + 1 := toNat_ipNext (by
      have : net.1.toNat < net.2.toNat := hlt
      omega)
    rw [hnext] at hstart
    have hbehind : net.2 ≤ c := by
      show net.2.toNat ≤ c.toNat
      omega
    refine ⟨_, hrewind.trans (if_pos hbehind), .inr ⟨fun h => husable h.1, fun hcovers => ?_⟩⟩
    have hzero : (0 : BitVec w).toNat = 0 := BitVec.toNat_zero
    rw [hnext, nextAddr, hend, ipNext_allOnes, ← hend, if_neg fun h => ?_] at hcovers
    · have : net.1.toNat ≤ (0 : BitVec w).toNat := hcovers.1
      omega
    · have : net.2.toNat ≤ (0 : BitVec w).toNat := h
      omega

/-- **Where the start leaves the cursor**: in a roomy range at a fine place, in any other where the
    next address is outside. -/
theorem restored_cases {net : BitVec w × BitVec w} (hle : net.1 ≤ net.2) (hw : 2 ≤ w)
    (rows : List (BitVec w × Str)) :
    ∃ cur, (restored (some net) rows).current = some cur ∧
      ((Roomy net rows ∧ Fine net cur) ∨
        (¬ Roomy net rows ∧ ¬ Covers net (nextAddr net cur))) := by
  rcases lt_or_eq_of_le hle with hlt | heq
  · by_cases hlast : lastRow net rows = some (BitVec.allOnes w)
    · exact restored_wrapped hlt hw hlast
    · exact restored_unwrapped hlt hw hlast
  · obtain ⟨start, last⟩ := net
    obtain rfl : start = last := heq
    obtain ⟨hcur, hout⟩ := restored_single hw start rows
    exact ⟨_, hcur, .inr ⟨fun h => absurd h.1.1 (lt_irrefl _), hout⟩⟩

end Pool

/-! ### Stores -/

/-- A range that is accepted begins at its smallest address. -/
theorem le_of_parseCidrRange {fromStr : Str → Option (BitVec w)} {family s : Str}
    {net : BitVec w × BitVec w} (h : parseCidrRange fromStr family s = .ok net) : net.1 ≤ net.2 := by
  unfold parseCidrRange at h
  split at h
  · cases h
  · split at h
    · cases h
    · split at h
      · cases h
      · split at h
        · obtain rfl := Except.ok.inj h
          show BitVec.toNat _ ≤ BitVec.toNat (_ ||| _)
          rw [BitVec.toNat_or]
          exact Nat.left_le_or
        · cases h

/-- The rows with IPv4 addresses, and those with IPv6 addresses. -/
def rowsV4 (records : List (IpAddr × Str)) : List (Ipv4Addr × Str) :=
  records.filterMap fun
    | (.v4 a, d) => some (a, d)
    | (.v6 _, _) => none

def rowsV6 (records : List (IpAddr × Str)) : List (Ipv6Addr × Str) :=
  records.filterMap fun
    | (.v4 _, _) => none
    | (.v6 a, d) => some (a, d)

/-- The rows that `new_with_cache` reads. -/
def cachedRecords (cacheFile : Option CacheFile) (cacheReader : Option Database) :
    List (IpAddr × Str) :=
  match cacheReader, cacheFile with
  | some db, some file => if file.storeFakeip then loadAllFakeip db else []
  | _, _ => []

namespace FakeIpStore

/-- The families of a store. -/
def pool4 (store : FakeIpStore) : Pool 32 :=
  ⟨store.inet4Net, store.inner.inet4Current, store.inner.domainToV4⟩

def pool6 (store : FakeIpStore) : Pool 128 :=
  ⟨store.inet6Net, store.inner.inet6Current, store.inner.domainToV6⟩

theorem pools_restoreRecord (store : FakeIpStore) (ip : IpAddr) (domain : Str) :
    (store.restoreRecord (ip, domain)).pool4
        = (rowsV4 [(ip, domain)]).foldl Pool.restoreRow store.pool4 ∧
      (store.restoreRecord (ip, domain)).pool6
        = (rowsV6 [(ip, domain)]).foldl Pool.restoreRow store.pool6 := by
  cases ip with
  | v4 a =>
      refine ⟨?_, ?_⟩
      · show _ = store.pool4.restoreRow (a, domain)
        rw [restoreRecord, Pool.restoreRow]
        split
        · rename_i hcovers
          exact (if_pos hcovers).symm
        · rename_i hcovers
          exact (if_neg hcovers).symm
      · rw [restoreRecord]
        split
        · rfl
        · rfl
  | v6 a =>
      refine ⟨?_, ?_⟩
      · rw [restoreRecord]
        split
        · rfl
        · rfl
      · show _ = store.pool6.restoreRow (a, domain)
        rw [restoreRecord, Pool.restoreRow]
        split
        · rename_i hcovers
          exact (if_pos hcovers).symm
        · rename_i hcovers
          exact (if_neg hcovers).symm

theorem pools_foldl_restoreRecord (store : FakeIpStore) (records : List (IpAddr × Str)) :
    (records.foldl restoreRecord store).pool4
        = (rowsV4 records).foldl Pool.restoreRow store.pool4 ∧
      (records.foldl restoreRecord store).pool6
        = (rowsV6 records).foldl Pool.restoreRow store.pool6 := by
  induction records generalizing store with
  | nil => exact ⟨rfl, rfl⟩
  | cons r records ih =>
      obtain ⟨ip, domain⟩ := r
      obtain ⟨h4, h6⟩ := pools_restoreRecord store ip domain
      obtain ⟨ih4, ih6⟩ := ih (store.restoreRecord (ip, domain))
      rw [List.foldl_cons, ih4, ih6, h4, h6, ← List.foldl_append, ← List.foldl_append, rowsV4, rowsV4,
        rowsV4, rowsV6, rowsV6, rowsV6, ← List.filterMap_append, ← List.filterMap_append]
      exact ⟨rfl, rfl⟩

/-- A new store has a new pool for either family. -/
theorem pools_new {cfg : FakeIpConfig} {store : FakeIpStore} (h : new cfg = .ok store) :
    store.pool4 = Pool.new store.inet4Net ∧ store.pool6 = Pool.new store.inet6Net := by
  constructor
  · rw [pool4, new_inner h]
    rfl
  · rw [pool6, new_inner h]
    rfl

/-- The range of a family, if there is one, is not empty. -/
private theorem le_of_parsed {parse : Str → Except Str (BitVec w × BitVec w)}
    (hparse : ∀ {s : Str} {net : BitVec w × BitVec w}, parse s = .ok net → net.1 ≤ net.2)
    {range : Option Str} {parsed : Option (BitVec w × BitVec w)}
    (h : range.mapM parse = .ok parsed) : ∀ net, parsed = some net → net.1 ≤ net.2 := by
  rintro net rfl
  cases range with
  | none => cases h
  | some s =>
      obtain ⟨net', hnet, hsome⟩ := bind_eq_ok.mp h
      obtain rfl := Option.some.inj (Except.ok.inj hsome)
      exact hparse hnet

theorem le_of_new {cfg : FakeIpConfig} {store : FakeIpStore} (h : new cfg = .ok store) :
    (∀ net, store.inet4Net = some net → net.1 ≤ net.2) ∧
      ∀ net, store.inet6Net = some net → net.1 ≤ net.2 := by
  obtain ⟨inet4Net, h4, h⟩ := bind_eq_ok.mp h
  obtain ⟨inet6Net, h6, h⟩ := bind_eq_ok.mp h
  split at h
  · cases h
  · obtain rfl := Except.ok.inj h
    exact ⟨le_of_parsed le_of_parseCidrRange h4, le_of_parsed le_of_parseCidrRange h6⟩

end FakeIpStore

/-- Without rows a new pool is left as it is. -/
theorem Pool.restored_nil (net : Option (BitVec w × BitVec w)) :
    Pool.restored net [] = Pool.new net := by
  rcases net with _ | net
  · rfl
  · show (⟨_, FakeIpStore.rewind (some net) (some (ipNext net.1)), _⟩ : Pool w) = _
    rw [show FakeIpStore.rewind (some net) (some (ipNext net.1)) = some (ipNext net.1) from ite_self _]
    rfl

namespace FakeIpStore

/-- A store as it is started with the records of the cache file, family by family. -/
structure Started (store : FakeIpStore) (records : List (IpAddr × Str)) : Prop where
  pool4 : store.pool4 = Pool.restored store.inet4Net (rowsV4 records)
  pool6 : store.pool6 = Pool.restored store.inet6Net (rowsV6 records)
  le4 : ∀ net, store.inet4Net = some net → net.1 ≤ net.2
  le6 : ∀ net, store.inet6Net = some net → net.1 ≤ net.2

theorem started_new {cfg : FakeIpConfig} {store : FakeIpStore} (h : new cfg = .ok store) :
    store.Started [] := by
  obtain ⟨h4, h6⟩ := pools_new h
  obtain ⟨hle4, hle6⟩ := le_of_new h
  exact ⟨h4.trans (Pool.restored_nil _).symm, h6.trans (Pool.restored_nil _).symm, hle4, hle6⟩

/-- **A start** with the records that the cache file has for it. -/
theorem started_newWithCache {cfg : FakeIpConfig} {cacheFile : Option CacheFile}
    {cacheReader : Option Database} {store : FakeIpStore}
    (h : newWithCache cfg cacheFile cacheReader = .ok store) :
    store.Started (cachedRecords cacheFile cacheReader) := by
  obtain ⟨fresh, hnew, h⟩ := bind_eq_ok.mp h
  -- without a file to read from, the store is a new one
  have hplain : store = fresh → cachedRecords cacheFile cacheReader = [] →
      store.Started (cachedRecords cacheFile cacheReader) := by
    rintro rfl hrecords
    rw [hrecords]
    exact started_new hnew
  rcases cacheReader with _ | db
  · exact hplain (Except.ok.inj h).symm rfl
  · rcases cacheFile with _ | file
    · exact hplain (Except.ok.inj h).symm rfl
    · dsimp only at h
      split at h
      · rename_i hon
        obtain rfl := Except.ok.inj h
        have hrecords : cachedRecords (some file) (some db) = loadAllFakeip db := if_pos hon
        obtain ⟨hnew4, hnew6⟩ := pools_new hnew
        obtain ⟨hle4, hle6⟩ := le_of_new hnew
        obtain ⟨h4, h6⟩ := pools_foldl_restoreRecord fresh (loadAllFakeip db)
        obtain ⟨hnet4, hnet6⟩ := restore_nets fresh (loadAllFakeip db)
        rw [hrecords]
        refine ⟨?_, ?_, hnet4 ▸ hle4, hnet6 ▸ hle6⟩
        · -- the rows of a family are restored into its own pool, and the cursor is set back at the end
          show ({ ((loadAllFakeip db).foldl restoreRecord fresh).pool4 with
            current := rewind ((loadAllFakeip db).foldl restoreRecord fresh).pool4.net
              ((loadAllFakeip db).foldl restoreRecord fresh).pool4.current } : Pool 32) = _
          rw [h4, hnew4, hnet4, Pool.foldl_restoreRow_net]
          rfl
        · show ({ ((loadAllFakeip db).foldl restoreRecord fresh).pool6 with
            current := rewind ((loadAllFakeip db).foldl restoreRecord fresh).pool6.net
              ((loadAllFakeip db).foldl restoreRecord fresh).pool6.current } : Pool 128) = _
          rw [h6, hnew6, hnet6, Pool.foldl_restoreRow_net]
          rfl
      · rename_i hoff
        exact hplain (Except.ok.inj h).symm (if_neg hoff)

end FakeIpStore

/-! ### Sequences of allocations -/

/-- A call of `allocate_v4` or `allocate_v6`. -/
inductive AllocateOp where
  | v4 (domain : Str)
  | v6 (domain : Str)
  deriving DecidableEq, Repr

namespace FakeIpStore

/-- One call of `allocate_v4` or `allocate_v6`. -/
def allocateOp (store : FakeIpStore) : AllocateOp → FakeIpStore × Option IpAddr
  | .v4 domain => ((store.allocateV4 domain).1, (store.allocateV4 domain).2.map .v4)
  | .v6 domain => ((store.allocateV6 domain).1, (store.allocateV6 domain).2.map .v6)

/-- What the calls return, one after the other. -/
def allocations (store : FakeIpStore) : List AllocateOp → List (Option IpAddr)
  | [] => []
  | op :: ops => (store.allocateOp op).2 :: (store.allocateOp op).1.allocations ops

/-- The domains that addresses of a family are asked for. -/
def domainsV4 (ops : List AllocateOp) : List Str :=
  ops.filterMap fun
    | .v4 d => some d
    | .v6 _ => none

def domainsV6 (ops : List AllocateOp) : List Str :=
  ops.filterMap fun
    | .v4 _ => none
    | .v6 d => some d

/-- `allocate_v4` is an allocation in its family and leaves the other alone. -/
theorem allocateV4_pools (store : FakeIpStore) (domain : Str) :
    store.pool4.Allocates domain (store.allocateV4 domain).1.pool4 (store.allocateV4 domain).2 ∧
      (store.allocateV4 domain).1.pool6 = store.pool6 := by
  have hstep := Pool.allocates_allocate .v4 store.inner.addrToDomain store.pool4 domain
  dsimp only [pool4] at hstep
  rcases hal : allocate .v4 store.inet4Net store.inner.inet4Current store.inner.domainToV4
      store.inner.addrToDomain domain with _ | al
  · rw [hal] at hstep
    rw [allocateV4, hal]
    exact ⟨hstep, rfl⟩
  · rw [hal] at hstep
    rw [allocateV4, hal]
    exact ⟨hstep, rfl⟩

theorem allocateV6_pools (store : FakeIpStore) (domain : Str) :
    store.pool6.Allocates domain (store.allocateV6 domain).1.pool6 (store.allocateV6 domain).2 ∧
      (store.allocateV6 domain).1.pool4 = store.pool4 := by
  have hstep := Pool.allocates_allocate .v6 store.inner.addrToDomain store.pool6 domain
  dsimp only [pool6] at hstep
  rcases hal : allocate .v6 store.inet6Net store.inner.inet6Current store.inner.domainToV6
      store.inner.addrToDomain domain with _ | al
  · rw [hal] at hstep
    rw [allocateV6, hal]
    exact ⟨hstep, rfl⟩
  · rw [hal] at hstep
    rw [allocateV6, hal]
    exact ⟨hstep, rfl⟩

/-- **The calls, family by family.** A run of the store is one of each pool, with the same addresses. -/
theorem runs_allocations (store : FakeIpStore) (ops : List AllocateOp) :
    ∃ rs4 rs6, store.pool4.Run (domainsV4 ops) rs4 ∧ store.pool6.Run (domainsV6 ops) rs6 ∧
      (∀ a, some (.v4 a) ∈ store.allocations ops ↔ some a ∈ rs4) ∧
      ∀ a, some (.v6 a) ∈ store.allocations ops ↔ some a ∈ rs6 := by
  induction ops generalizing store with
  | nil => exact ⟨[], [], .nil _, .nil _, fun a => by simp [allocations], fun a => by simp [allocations]⟩
  | cons op ops ih =>
      obtain ⟨rs4, rs6, hrun4, hrun6, h4, h6⟩ := ih (store.allocateOp op).1
      cases op with
      | v4 domain =>
          -- a call for one family is a step of its pool, and no step of the other
          obtain ⟨hstep, hother⟩ := store.allocateV4_pools domain
          refine ⟨(store.allocateV4 domain).2 :: rs4, rs6, .cons hstep hrun4, hother ▸ hrun6,
            fun a => ?_, fun a => ?_⟩
          · rw [allocations, List.mem_cons, h4, List.mem_cons]
            refine or_congr_left ?_
            rcases hr : (store.allocateV4 domain).2 with _ | b <;> simp [allocateOp, hr]
          · rw [allocations, List.mem_cons, h6]
            refine or_iff_right fun h => ?_
            rcases hr : (store.allocateV4 domain).2 with _ | b <;> simp [allocateOp, hr] at h
      | v6 domain =>
          obtain ⟨hstep, hother⟩ := store.allocateV6_pools domain
          refine ⟨rs4, (store.allocateV6 domain).2 :: rs6, hother ▸ hrun4, .cons hstep hrun6,
            fun a => ?_, fun a => ?_⟩
          · rw [allocations, List.mem_cons, h4]
            refine or_iff_right fun h => ?_
            rcases hr : (store.allocateV6 domain).2 with _ | b <;> simp [allocateOp, hr] at h
          · rw [allocations, List.mem_cons, h6, List.mem_cons]
            refine or_congr_left ?_
            rcases hr : (store.allocateV6 domain).2 with _ | b <;> simp [allocateOp, hr]

theorem mem_domainsV4 {ops : List AllocateOp} {d : Str} : d ∈ domainsV4 ops ↔ .v4 d ∈ ops := by
  rw [domainsV4, List.mem_filterMap]
  constructor
  · rintro ⟨op, hop, hd⟩
    cases op with
    | v4 domain =>
        obtain rfl := Option.some.inj hd
        exact hop
    | v6 domain => cases hd
  · exact fun hop => ⟨_, hop, rfl⟩

theorem mem_domainsV6 {ops : List AllocateOp} {d : Str} : d ∈ domainsV6 ops ↔ .v6 d ∈ ops := by
  rw [domainsV6, List.mem_filterMap]
  constructor
  · rintro ⟨op, hop, hd⟩
    cases op with
    | v4 domain => cases hd
    | v6 domain =>
        obtain rfl := Option.some.inj hd
        exact hop
  · exact fun hop => ⟨_, hop, rfl⟩

theorem contains_v4 {store : FakeIpStore} {a : Ipv4Addr} :
    store.contains (.v4 a) = true ↔ ∃ net, store.inet4Net = some net ∧ Covers net a := by
  rw [contains, Option.any_eq_true]
  exact exists_congr fun net => and_congr_right' decide_eq_true_iff

theorem contains_v6 {store : FakeIpStore} {a : Ipv6Addr} :
    store.contains (.v6 a) = true ↔ ∃ net, store.inet6Net = some net ∧ Covers net a := by
  rw [contains, Option.any_eq_true]
  exact exists_congr fun net => and_congr_right' decide_eq_true_iff

end FakeIpStore

/-- **Runs from a start**, in one family: all addresses are covered exactly when the range is roomy
    or no new address is asked for. -/
theorem Pool.Run.covered_iff {net : Option (BitVec w × BitVec w)}
    (hle : ∀ n, net = some n → n.1 ≤ n.2) (hw : 2 ≤ w) {rows : List (BitVec w × Str)}
    {ds : List Str} {rs : List (Option (BitVec w))} (hrun : (Pool.restored net rows).Run ds rs) :
    (∀ a, some a ∈ rs → ∃ n, net = some n ∧ Covers n a) ↔
      ∀ n, net = some n → (∃ d ∈ ds, (Pool.restored net rows).domainTo d = none) →
        Roomy n rows := by
  have hnet : (Pool.restored net rows).net = net := Pool.foldl_restoreRow_net _ rows
  constructor
  · rintro hall n rfl ⟨d, hd, hdomain⟩
    obtain ⟨cur, hcur, ⟨hroomy, -⟩ | ⟨-, hout⟩⟩ := Pool.restored_cases (hle n rfl) hw rows
    · exact hroomy
    · obtain ⟨a, ha, hnot⟩ := hrun.exists_uncovered hnet hcur hout hd hdomain
      obtain ⟨n', hn', hcovers⟩ := hall a ha
      rw [← Option.some.inj hn'] at hcovers
      exact absurd hcovers hnot
  · intro hroomy a ha
    rw [← hnet]
    refine hrun.covered_of_fine (Pool.held_restored net rows) ?_ ha
    by_cases hnew : ∃ d ∈ ds, (Pool.restored net rows).domainTo d = none
    · refine .inl fun n cur hn hcur => ?_
      obtain rfl : net = some n := hnet.symm.trans hn
      obtain ⟨cur', hcur', ⟨hr, hfine⟩ | ⟨hr, -⟩⟩ := Pool.restored_cases (hle n rfl) hw rows
      · obtain rfl := Option.some.inj (hcur.symm.trans hcur')
        exact ⟨hr.1, hfine⟩
      · exact absurd (hroomy n rfl hnew) hr
    · exact .inr fun d hd hdomain => hnew ⟨d, hd, hdomain⟩

namespace FakeIpStore

/-- **Every address is one of its range**, in every sequence of allocations after any start of an
    accepted configuration, exactly when each range in which a domain gets a new address is roomy. -/
theorem allocations_contained_iff {cfg : FakeIpConfig} {cacheFile : Option CacheFile}
    {cacheReader : Option Database} {store : FakeIpStore}
    (h : newWithCache cfg cacheFile cacheReader = .ok store) (ops : List AllocateOp) :
    (∀ ip, some ip ∈ store.allocations ops → store.contains ip = true) ↔
      (∀ net, store.inet4Net = some net →
        (∃ d, .v4 d ∈ ops ∧ store.inner.domainToV4 d = none) →
          Roomy net (rowsV4 (cachedRecords cacheFile cacheReader))) ∧
      ∀ net, store.inet6Net = some net →
        (∃ d, .v6 d ∈ ops ∧ store.inner.domainToV6 d = none) →
          Roomy net (rowsV6 (cachedRecords cacheFile cacheReader)) := by
  obtain ⟨hpool4, hpool6, hle4, hle6⟩ := started_newWithCache h
  obtain ⟨rs4, rs6, hrun4, hrun6, h4, h6⟩ := store.runs_allocations ops
  have htable4 : ∀ d, store.inner.domainToV4 d = store.pool4.domainTo d := fun _ => rfl
  have htable6 : ∀ d, store.inner.domainToV6 d = store.pool6.domainTo d := fun _ => rfl
  simp only [htable4, htable6, ← mem_domainsV4, ← mem_domainsV6]
  rw [hpool4] at hrun4 ⊢
  rw [hpool6] at hrun6 ⊢
  rw [← hrun4.covered_iff hle4 (by decide), ← hrun6.covered_iff hle6 (by decide)]
  constructor
  · intro hall
    exact ⟨fun a ha => contains_v4.mp (hall _ ((h4 a).mpr ha)),
      fun a ha => contains_v6.mp (hall _ ((h6 a).mpr ha))⟩
  · rintro ⟨hall4, hall6⟩ (a | a) ha
    · exact contains_v4.mpr (hall4 a ((h4 a).mp ha))
    · exact contains_v6.mpr (hall6 a ((h6 a).mp ha))

/-- Two domains in a range of four addresses. -/
theorem allocations_contained_iff_small :
    ∃ store, newWithCache smallConfig none none = .ok store ∧
      ∀ ip, some ip ∈ store.allocations [.v4 "a".toList, .v4 "b".toList, .v4 "a".toList] →
        store.contains ip = true := by
  obtain ⟨store, hnew, hnet⟩ := exists_eq_ok_of_any (x := newWithCache smallConfig none none)
    (p := fun store => decide (store.inet4Net = some (0xC6120000, 0xC6120003) ∧
      store.inet6Net = none)) (by decide)
  obtain ⟨h4, h6⟩ := of_decide_eq_true hnet
  refine ⟨store, hnew, (allocations_contained_iff hnew _).mpr ⟨?_, ?_⟩⟩
  · rintro net hsome -
    obtain rfl := Option.some.inj (h4.symm.trans hsome)
    decide
  · rintro net hsome -
    rw [h6] at hsome
    cases hsome

/-- In a range of one address the first answer is the address behind it. -/
theorem allocations_single :
    ∃ store, newWithCache { inet4Range := some "198.18.0.1/32".toList } none none = .ok store ∧
      store.allocations [.v4 "a".toList] = [some (.v4 0xC6120002)] ∧
      store.contains (.v4 0xC6120002) = false := by
  obtain ⟨store, hnew, hall⟩ := exists_eq_ok_of_any
    (x := newWithCache { inet4Range := some "198.18.0.1/32".toList } none none)
    (p := fun store => decide (store.allocations [.v4 "a".toList] = [some (.v4 0xC6120002)] ∧
      store.contains (.v4 0xC6120002) = false)) (by decide)
  exact ⟨store, hnew, of_decide_eq_true hall⟩

end FakeIpStore

end Reflex.Dns
