import Reflex.RustStd.Num
import Reflex.Lib.Transition
import Mathlib.Data.List.Infix
import Mathlib.Data.List.Nodup
import Mathlib.Data.List.Perm.Subperm

namespace Reflex.Provider

open RustStd

/-!
# Providers — the node lists and their names

`ProviderManager` of `provider/mod.rs` with the parts of the outbound configuration it reads.  A
subscription is a list of named outbounds; the manager gives every node a tag of its own, over all
providers, and the groups expand the lists they refer to.

* `allocUniqueTag_notMem` — the search for a free suffix ends with a free tag;
* `mem_nameNodes` — a renamed node carries its tag;
* `mem_expand` — what a group is given passed its filters.

The settings of a protocol are a type `κ`: the manager only reads and sets tags.
-/

/-! ### Configuration -/

/-- `ProviderRef`. -/
structure ProviderRef where
  tags : List Str := []
  excludeFilter : List Str := []
  filter : List Str := []
  deriving DecidableEq, Repr

/-- `SelectorOutboundConfig`. -/
structure SelectorOutboundConfig where
  tag : Str
  outbounds : List Str := []
  providers : Option ProviderRef := none
  default : Option Str := none
  deriving DecidableEq, Repr

/-- `UrlTestOutboundConfig`, without what it is probed with. -/
structure UrlTestOutboundConfig where
  tag : Str
  outbounds : List Str := []
  providers : Option ProviderRef := none
  deriving DecidableEq, Repr

/-- `OutboundConfig`: the outbounds of the protocols, direct and block have a tag and their
    settings. -/
inductive OutboundConfig (κ : Type) where
  | leaf (tag : Str) (settings : κ)
  | selector (c : SelectorOutboundConfig)
  | urlTest (c : UrlTestOutboundConfig)
  deriving DecidableEq, Repr

namespace OutboundConfig

variable {κ : Type}

/-- `OutboundConfig::tag`. -/
def tag : OutboundConfig κ → Str
  | .leaf tag _ => tag
  | .selector c => c.tag
  | .urlTest c => c.tag

/-- `OutboundConfig::child_outbounds`. -/
def childOutbounds : OutboundConfig κ → List Str
  | .leaf _ _ => []
  | .selector c => c.outbounds
  | .urlTest c => c.outbounds

/-- `OutboundConfig::group_providers`. -/
def groupProviders : OutboundConfig κ → Option ProviderRef
  | .leaf _ _ => none
  | .selector c => c.providers
  | .urlTest c => c.providers

/-- `OutboundConfig::group_default`. -/
def groupDefault : OutboundConfig κ → Option Str
  | .selector c => c.default
  | _ => none

/-- `OutboundConfig::is_group`. -/
def isGroup : OutboundConfig κ → Bool
  | .leaf _ _ => false
  | _ => true

/-- `set_outbound_tag`. -/
def setTag (tag : Str) : OutboundConfig κ → OutboundConfig κ
  | .leaf _ settings => .leaf tag settings
  | .selector c => .selector { c with tag }
  | .urlTest c => .urlTest { c with tag }

@[simp] theorem tag_setTag (t : Str) (c : OutboundConfig κ) : (c.setTag t).tag = t := by
  cases c <;> rfl

end OutboundConfig

/-- `str::contains`. -/
def contains (s kw : Str) : Bool := decide (kw <:+: s)

/-- `ProviderRef::matches`; `lower` is `str::to_lowercase`. -/
def ProviderRef.matches (lower : Str → Str) (r : ProviderRef) (name : Str) : Bool :=
  if r.excludeFilter.any fun kw => contains (lower name) (lower kw) then false
  else r.filter.isEmpty || r.filter.any fun kw => contains (lower name) (lower kw)

/-! ### Names -/

/-- `format!("{name}_{i}")`. -/
def numbered (name : Str) (i : Nat) : Str := name ++ '_' :: display i

/-- The loop of `alloc_unique_tag` from the suffix `i` on, for at most `fuel` rounds.

    The suffix is a `u32` in the source and a number without bound here.  The two agree as long as fewer than
    `2 ^ 32 - 1` tags are in use: a suffix is passed over only for a tag that has it. -/
def allocSuffix (name : Str) (global : List Str) : Nat → Nat → Str
  | 0, i => numbered name i
  | fuel + 1, i =>
      if numbered name i ∈ global then allocSuffix name global fuel (i + 1) else numbered name i

/-- `alloc_unique_tag`.  There are more suffixes than tags in use, so the loop ends within as many
    rounds. -/
def allocUniqueTag (name : Str) (global : List Str) : Str :=
  if name ∈ global then allocSuffix name global global.length 1 else name

theorem numbered_injective (name : Str) : Function.Injective (numbered name) := by
  intro i j h
  have hdisplay : display i = display j := (List.cons.inj (List.append_cancel_left h)).2
  have hparse := congrArg (parseUint (max i j)) hdisplay
  rw [parseUint_display _ _ (le_max_left i j), parseUint_display _ _ (le_max_right i j)] at hparse
  exact Option.some.inj hparse

/-- The loop goes on only while the candidates are in use. -/
theorem mem_of_allocSuffix_mem {name : Str} {global : List Str} {fuel i : Nat}
    (h : allocSuffix name global fuel i ∈ global) {j : Nat} (hij : i ≤ j) (hj : j ≤ i + fuel) :
    numbered name j ∈ global := by
  induction fuel generalizing i with
  | zero =>
      have hji : j = i := by omega
      rw [hji]
      exact h
  | succ fuel ih =>
      rw [allocSuffix] at h
      split at h
      · rename_i hused
        rcases Nat.eq_or_lt_of_le hij with rfl | hlt
        · exact hused
        · exact ih h hlt (by omega)
      · contradiction

/-- **A tag that is allocated** was free. -/
theorem allocUniqueTag_notMem (name : Str) (global : List Str) :
    allocUniqueTag name global ∉ global := by
  rw [allocUniqueTag]
  split
  · intro h
    -- otherwise there would be one candidate more in use than tags
    have hsub : ((List.range (global.length + 1)).map fun k => numbered name (1 + k)) ⊆ global := by
      intro tag htag
      obtain ⟨k, hk, rfl⟩ := List.mem_map.mp htag
      have hk' := List.mem_range.mp hk
      exact mem_of_allocSuffix_mem h (by omega) (by omega)
    have hnodup : ((List.range (global.length + 1)).map fun k => numbered name (1 + k)).Nodup := by
      refine List.Nodup.map ?_ List.nodup_range
      intro k l hkl
      have := numbered_injective name hkl
      omega
    have hlen := (List.Nodup.subperm hnodup hsub).length_le
    rw [List.length_map, List.length_range] at hlen
    omega
  · assumption

/-! ### The manager -/

/-- `ProviderNodes`. -/
abbrev ProviderNodes (κ : Type) := List (Str × OutboundConfig κ)

/-- `ProviderManager`: the providers that have a channel, the lists that were stored, the tags in use
    and the lists that an update has named but not stored yet. -/
structure ProviderManager (κ : Type) where
  senders : List Str
  nodes : Str → Option (ProviderNodes κ) := fun _ => none
  globalTags : List Str := []
  named : Str → Option (ProviderNodes κ) := fun _ => none

namespace ProviderManager

variable {κ : Type}

/-- The loop of `dedup_name` over the new nodes. -/
def nameNodes (global : List Str) : ProviderNodes κ → ProviderNodes κ × List Str
  | [] => ([], global)
  | (name, ob) :: raw =>
      let tag := allocUniqueTag name global
      let rest := nameNodes (tag :: global) raw
      ((tag, ob.setTag tag) :: rest.1, rest.2)

/-- The first critical section of `update_nodes`, `dedup_name`: the old tags are released and the
    new nodes named. -/
def dedupName (m : ProviderManager κ) (provider : Str) (raw : ProviderNodes κ) :
    ProviderManager κ :=
  let old := ((m.nodes provider).getD []).map Prod.fst
  let result := nameNodes (m.globalTags.filter (· ∉ old)) raw
  { m with globalTags := result.2, named := Function.update m.named provider (some result.1) }

/-- The second critical section of `update_nodes`: the named nodes are stored. -/
def insertNodes (m : ProviderManager κ) (provider : Str) (named : ProviderNodes κ) :
    ProviderManager κ :=
  { m with
    nodes := Function.update m.nodes provider (some named)
    named := Function.update m.named provider none }

/-- `ProviderManager::expand`. -/
def expand (lower : Str → Str) (m : ProviderManager κ) (pref : ProviderRef) : ProviderNodes κ :=
  pref.tags.flatMap fun ptag =>
    ((m.nodes ptag).getD []).filter fun node => pref.matches lower node.1

/-- A renamed node carries its tag. -/
theorem mem_nameNodes {global : List Str} {raw : ProviderNodes κ} {node : Str × OutboundConfig κ}
    (h : node ∈ (nameNodes global raw).1) : node.2.tag = node.1 := by
  induction raw generalizing global with
  | nil => cases h
  | cons entry raw ih =>
      rcases List.mem_cons.mp h with rfl | h
      · exact OutboundConfig.tag_setTag _ _
      · exact ih h

/-- Every node carries its tag, in the lists that are stored and in those that will be. -/
structure Tagged (m : ProviderManager κ) : Prop where
  nodes : ∀ provider stored, m.nodes provider = some stored → ∀ node ∈ stored, node.2.tag = node.1
  named : ∀ provider named, m.named provider = some named → ∀ node ∈ named, node.2.tag = node.1

theorem tagged_dedupName {m : ProviderManager κ} (hm : m.Tagged) (provider : Str)
    (raw : ProviderNodes κ) : (m.dedupName provider raw).Tagged where
  nodes := hm.nodes
  named p named h := by
    obtain ⟨-, rfl⟩ | ⟨-, h⟩ := Transition.update_eq_some h
    · exact fun node => mem_nameNodes
    · exact hm.named p named h

theorem tagged_insertNodes {m : ProviderManager κ} (hm : m.Tagged) {provider : Str}
    {named : ProviderNodes κ} (h : m.named provider = some named) :
    (m.insertNodes provider named).Tagged where
  nodes p stored hp := by
    obtain ⟨-, rfl⟩ | ⟨-, hp⟩ := Transition.update_eq_some hp
    · exact hm.named provider _ h
    · exact hm.nodes p stored hp
  named p stored hp := by
    have hp : Function.update m.named provider none p = some stored := hp
    by_cases hpp : p = provider
    · rw [hpp, Function.update_self] at hp
      cases hp
    · rw [Function.update_of_ne hpp] at hp
      exact hm.named p stored hp

/-- What a group is given is stored under one of its providers and passes its filters. -/
theorem mem_expand {lower : Str → Str} {m : ProviderManager κ} {pref : ProviderRef}
    {node : Str × OutboundConfig κ} :
    node ∈ m.expand lower pref ↔
      ∃ ptag ∈ pref.tags, ∃ stored, m.nodes ptag = some stored ∧ node ∈ stored ∧
        pref.matches lower node.1 = true := by
  rw [expand, List.mem_flatMap]
  constructor
  · rintro ⟨ptag, hptag, hnode⟩
    obtain ⟨hstored, hmatches⟩ := List.mem_filter.mp hnode
    cases hnodes : m.nodes ptag with
    | none =>
        rw [hnodes] at hstored
        cases hstored
    | some stored =>
        rw [hnodes] at hstored
        exact ⟨ptag, hptag, stored, hnodes, hstored, hmatches⟩
  · rintro ⟨ptag, hptag, stored, hnodes, hnode, hmatches⟩
    refine ⟨ptag, hptag, List.mem_filter.mpr ⟨?_, hmatches⟩⟩
    rw [hnodes]
    exact hnode

end ProviderManager

end Reflex.Provider
