import Reflex.Lib.Outcome
import Reflex.Lib.Toposort
import Reflex.Provider.Groups
import Mathlib.Data.Finset.Card
import Mathlib.Data.List.AList

namespace Reflex.Provider

open RustStd Relation Outcome Toposort

/-!
# Providers — groups that contain themselves

`validate_outbound_group_cycles` of `config/mod.rs` walks through the groups, depth first.  The
recursion gets fuel; the order in which the map yields its keys is an argument.

* `GroupEdge` — a group lists a group;
* `Explored` — the invariant of the walk: what is visited can be put in an order in which members
  come first, and what is being visited leads to the tag at hand;
* `visit_terminates` — the walk from one tag, with fuel for the groups that are not being visited;
* `validateOutboundGroupCycles_correct` — all groups, in any order.
-/

variable {κ : Type}

/-! ### The code -/

/-- The map of the groups' members, by the tags of the groups.  A later group replaces an earlier
    one. -/
def groupGraph (outbounds : List (OutboundConfig κ)) : AList fun _ : Str => List Str :=
  (outbounds.filter (·.isGroup)).foldl (fun graph ob => graph.insert ob.tag ob.childOutbounds) ∅

/-- The sets that `visit` changes. -/
structure Colours where
  visiting : Finset Str
  visited : Finset Str

/-- The error of `visit`. -/
def cycleMessage (tag : Str) : Str := "outbound group cycle detected at '".toList ++ tag ++ "'".toList

/-- `visit`. -/
def visit (graph : AList fun _ : Str => List Str) : Nat → Colours → Str → ExceptT Str Option Colours
  | 0, _, _ => ExceptT.mk none
  | fuel + 1, c, tag =>
      if tag ∈ c.visited then pure c
      else if tag ∈ c.visiting then throw (cycleMessage tag)
      else do
        let c := { c with visiting := insert tag c.visiting }
        let c ← match graph.lookup tag with
          | some children =>
              children.foldlM
                (fun c child => if child ∈ graph then visit graph fuel c child else pure c) c
          | none => pure c
        pure { visiting := c.visiting.erase tag, visited := insert tag c.visited }

/-- `validate_outbound_group_cycles`, with the keys of the map in the order `keys`. -/
def validateOutboundGroupCycles (fuel : Nat) (keys : List Str)
    (outbounds : List (OutboundConfig κ)) : ExceptT Str Option Unit := do
  let _ ← keys.foldlM (visit (groupGraph outbounds) fuel) { visiting := ∅, visited := ∅ }
  pure ()

/-! ### The graph of the groups -/

/-- The outbounds have a group `a` that lists the tag of the group `b`. -/
def GroupEdge (outbounds : List (OutboundConfig κ)) (a b : Str) : Prop :=
  ∃ g ∈ outbounds, g.isGroup ∧ g.tag = a ∧ b ∈ g.childOutbounds ∧
    ∃ child ∈ outbounds, child.isGroup ∧ child.tag = b

section Graph

variable {outbounds : List (OutboundConfig κ)}

theorem groupGraph_concat_group {ob : OutboundConfig κ} (h : ob.isGroup) :
    groupGraph (outbounds ++ [ob]) = (groupGraph outbounds).insert ob.tag ob.childOutbounds := by
  simp [groupGraph, List.filter_append, h]

theorem groupGraph_concat_leaf {ob : OutboundConfig κ} (h : ¬ ob.isGroup) :
    groupGraph (outbounds ++ [ob]) = groupGraph outbounds := by
  simp [groupGraph, List.filter_append, h]

/-- The keys are the tags of the groups. -/
theorem mem_groupGraph {tag : Str} :
    tag ∈ groupGraph outbounds ↔ ∃ g ∈ outbounds, g.isGroup ∧ g.tag = tag := by
  induction outbounds using List.reverseRecOn with
  | nil => simp [groupGraph]
  | append_singleton outbounds ob ih =>
    simp only [List.mem_append, List.mem_singleton, or_and_right, exists_or, exists_eq_left]
    by_cases hgroup : ob.isGroup
    · rw [groupGraph_concat_group hgroup, AList.mem_insert, ih, eq_comm, or_comm]
      simp only [hgroup, true_and]
    · rw [groupGraph_concat_leaf hgroup, ih]
      simp only [hgroup, Bool.false_eq_true, false_and, or_false]

/-- If the tags are distinct, every group is entered with its own members. -/
theorem lookup_groupGraph (hnodup : (outbounds.map OutboundConfig.tag).Nodup) {tag : Str}
    {children : List Str} :
    (groupGraph outbounds).lookup tag = some children
      ↔ ∃ g ∈ outbounds, g.isGroup ∧ g.tag = tag ∧ g.childOutbounds = children := by
  induction outbounds using List.reverseRecOn with
  | nil => simp [groupGraph]
  | append_singleton outbounds ob ih =>
    rw [List.map_append, List.map_singleton] at hnodup
    obtain ⟨hnodup, -, hdisjoint⟩ := List.nodup_append.mp hnodup
    have hother : ∀ g ∈ outbounds, g.tag ≠ ob.tag := fun g hg =>
      hdisjoint _ (List.mem_map_of_mem hg) _ (List.mem_singleton_self _)
    simp only [List.mem_append, List.mem_singleton, or_and_right, exists_or, exists_eq_left]
    by_cases hgroup : ob.isGroup
    · rw [groupGraph_concat_group hgroup]
      by_cases htag : tag = ob.tag
      · subst htag
        rw [AList.lookup_insert, Option.some_inj]
        constructor
        · exact fun h => .inr ⟨hgroup, rfl, h⟩
        · rintro (⟨g, hg, -, htag, -⟩ | ⟨-, -, h⟩)
          · exact absurd htag (hother g hg)
          · exact h
      · rw [AList.lookup_insert_ne htag, ih hnodup]
        simp only [Ne.symm htag, false_and, and_false, or_false]
    · rw [groupGraph_concat_leaf hgroup, ih hnodup]
      simp only [hgroup, Bool.false_eq_true, false_and, or_false]

/-- An edge leads from a key, to one of its entries that is a key as well. -/
theorem groupEdge_iff (hnodup : (outbounds.map OutboundConfig.tag).Nodup) {a b : Str} :
    GroupEdge outbounds a b
      ↔ ∃ children, (groupGraph outbounds).lookup a = some children ∧ b ∈ children ∧
          b ∈ groupGraph outbounds := by
  simp only [GroupEdge, lookup_groupGraph hnodup, mem_groupGraph]
  constructor
  · rintro ⟨g, hg, hgroup, htag, hb, hchild⟩
    exact ⟨_, ⟨g, hg, hgroup, htag, rfl⟩, hb, hchild⟩
  · rintro ⟨_, ⟨g, hg, hgroup, htag, rfl⟩, hb, hchild⟩
    exact ⟨g, hg, hgroup, htag, hb, hchild⟩

end Graph

/-! ### The walk -/

section Walk

variable {graph : AList fun _ : Str => List Str} {R : Str → Str → Prop}

/-- What holds between the visits.  The visited tags can be listed so that everything comes behind
    the members it has. -/
structure Explored (graph : AList fun _ : Str => List Str) (R : Str → Str → Prop) (c : Colours) :
    Prop where
  keys : ∀ tag ∈ c.visiting, tag ∈ graph
  sorted : ∃ order, Sorted R order ∧ ∀ tag, tag ∈ c.visited ↔ tag ∈ order

/-- What a visit of the tags `tags` leaves behind. -/
structure VisitedFrom (graph : AList fun _ : Str => List Str) (R : Str → Str → Prop) (c : Colours)
    (tags : List Str) (c' : Colours) : Prop where
  visiting : c'.visiting = c.visiting
  explored : Explored graph R c'
  grows : c.visited ⊆ c'.visited
  visited : ∀ tag ∈ tags, tag ∈ c'.visited

/-- The error names a tag on a cycle. -/
def NamesCycle (R : Str → Str → Prop) (message : Str) : Prop :=
  ∃ tag, message = cycleMessage tag ∧ TransGen R tag tag

theorem Explored.refl {c : Colours} (h : Explored graph R c) : VisitedFrom graph R c [] c :=
  ⟨rfl, h, subset_rfl, fun _ ht => absurd ht List.not_mem_nil⟩

theorem VisitedFrom.trans {c c' c'' : Colours} {done tags : List Str}
    (h : VisitedFrom graph R c done c') (h' : VisitedFrom graph R c' tags c'') :
    VisitedFrom graph R c (done ++ tags) c'' where
  visiting := h'.visiting.trans h.visiting
  explored := h'.explored
  grows := h.grows.trans h'.grows
  visited := List.forall_mem_append.mpr ⟨fun t ht => h'.grows (h.visited t ht), h'.visited⟩

theorem Explored.card_le {c : Colours} (h : Explored graph R c) :
    c.visiting.card ≤ graph.keys.length := by
  have hsub : c.visiting ⊆ graph.keys.toFinset := fun t ht =>
    List.mem_toFinset.mpr (AList.mem_keys.mp (h.keys t ht))
  exact (Finset.card_le_card hsub).trans (List.toFinset_card_le _)

/-- A key starts being visited, and what has been explored so far stays so. -/
theorem Explored.enter {c : Colours} {tag : Str} (h : Explored graph R c) (htag : tag ∈ graph) :
    Explored graph R { c with visiting := insert tag c.visiting } := by
  refine ⟨fun t ht => ?_, h.sorted⟩
  rcases Finset.mem_insert.mp ht with rfl | ht
  · exact htag
  · exact h.keys t ht

/-- A tag may be entered as visited once its members have been. -/
theorem Explored.finish {c : Colours} {tag : Str} (h : Explored graph R c)
    (hmembers : ∀ b, R tag b → b ∈ c.visited) :
    Explored graph R { visiting := c.visiting.erase tag, visited := insert tag c.visited } := by
  refine ⟨fun t ht => h.keys t (Finset.mem_of_mem_erase ht), ?_⟩
  obtain ⟨order, hsorted, hvisited⟩ := h.sorted
  by_cases htag : tag ∈ order
  · refine ⟨order, hsorted, fun t => ?_⟩
    rw [Finset.insert_eq_of_mem ((hvisited tag).mpr htag)]
    exact hvisited t
  · refine ⟨order ++ [tag], hsorted.snoc htag fun b hb => (hvisited b).mp (hmembers b hb), ?_⟩
    intro t
    rw [Finset.mem_insert, List.mem_append, List.mem_singleton, hvisited, or_comm]

/-- A tag is left behind when the members it leads to have been visited. -/
theorem VisitedFrom.finish {c c' : Colours} {tag : Str} {members : List Str}
    (h : VisitedFrom graph R { c with visiting := insert tag c.visiting } members c')
    (hnot : tag ∉ c.visiting) (hmembers : ∀ b, R tag b → b ∈ members) :
    VisitedFrom graph R c [tag]
      { visiting := c'.visiting.erase tag, visited := insert tag c'.visited } where
  visiting := by
    rw [h.visiting]
    exact Finset.erase_insert hnot
  explored := h.explored.finish fun b hb => h.visited b (hmembers b hb)
  grows := h.grows.trans (Finset.subset_insert _ _)
  visited := List.forall_mem_singleton.mpr (Finset.mem_insert_self _ _)

/-- The loop over the members of a tag, of which those that are keys are visited. -/
theorem members_terminates {c : Colours} (hc : Explored graph R c) (children : List Str)
    (next : Colours → Str → ExceptT Str Option Colours)
    (hnext : ∀ b child, Explored graph R b → b.visiting = c.visiting → child ∈ children →
      child ∈ graph → Terminates (VisitedFrom graph R b [child]) (NamesCycle R) (next b child)) :
    Terminates (VisitedFrom graph R c (children.filter (· ∈ graph))) (NamesCycle R)
      (children.foldlM (fun c child => if child ∈ graph then next c child else pure c) c) := by
  refine Terminates.foldlM (I := fun done c' =>
    VisitedFrom graph R c (done.filter (· ∈ graph)) c') hc.refl ?_
  intro done child rest b hsplit hb
  have hchild : child ∈ children := hsplit ▸ List.mem_append_right _ List.mem_cons_self
  by_cases hgroup : child ∈ graph
  · rw [if_pos hgroup, List.filter_append, List.filter_singleton, decide_eq_true hgroup]
    exact (hnext b child hb.explored hb.visiting hchild hgroup).imp (fun b' hb' => hb.trans hb')
      fun e he => he
  · rw [if_neg hgroup, List.filter_append, List.filter_singleton, decide_eq_false hgroup]
    simpa using terminates_pure hb

/-- **The walk from one tag.**  It comes to an end if there is fuel for every key that is not being
    visited.  Induction on the fuel: the members of a tag are visited with one less, while the tag
    itself is being visited. -/
theorem visit_terminates
    (hR : ∀ a b, R a b ↔ ∃ children, graph.lookup a = some children ∧ b ∈ children ∧ b ∈ graph)
    {fuel : Nat} {c : Colours} {tag : Str} (hc : Explored graph R c) (htag : tag ∈ graph)
    (hpath : ∀ t ∈ c.visiting, TransGen R t tag)
    (hfuel : graph.keys.length < fuel + c.visiting.card) :
    Terminates (VisitedFrom graph R c [tag]) (NamesCycle R) (visit graph fuel c tag) := by
  induction fuel generalizing c tag with
  | zero =>
    have hle := hc.card_le
    omega
  | succ fuel ih =>
    rw [visit]
    split_ifs with hvisited hvisiting
    · exact terminates_pure ⟨rfl, hc, subset_rfl, List.forall_mem_singleton.mpr hvisited⟩
    · exact terminates_throw ⟨tag, rfl, hpath tag hvisiting⟩
    · obtain ⟨children, hchildren⟩ := Option.isSome_iff_exists.mp (AList.lookup_isSome.mpr htag)
      simp only [hchildren]
      refine (members_terminates (hc.enter htag) children (visit graph fuel) ?_).bind fun c' hc' =>
        terminates_pure (hc'.finish hvisiting fun b hb => ?_)
      · intro b child hb hvisitingb hchild hgroup
        refine ih hb hgroup (fun t ht => ?_) ?_
        · -- everything that is being visited leads to the members that are groups
          have hedge : R tag child := (hR tag child).mpr ⟨children, hchildren, hchild, hgroup⟩
          rw [hvisitingb] at ht
          rcases Finset.mem_insert.mp ht with rfl | ht
          · exact .single hedge
          · exact .tail (hpath t ht) hedge
        · rw [hvisitingb, Finset.card_insert_of_notMem hvisiting]
          omega
      · obtain ⟨_, hlookup, hmem, hgroup⟩ := (hR tag b).mp hb
        obtain rfl := Option.some.inj (hchildren.symm.trans hlookup)
        exact List.mem_filter.mpr ⟨hmem, decide_eq_true hgroup⟩

/-- **The walk through all keys**, in whatever order they come, ends: all of them are visited, or the error names a
    tag on a cycle. -/
theorem foldlM_visit_terminates
    (hR : ∀ a b, R a b ↔ ∃ children, graph.lookup a = some children ∧ b ∈ children ∧ b ∈ graph)
    {fuel : Nat} (hfuel : graph.keys.length < fuel) {keys : List Str}
    (hkeys : ∀ tag ∈ keys, tag ∈ graph) :
    Terminates (VisitedFrom graph R { visiting := ∅, visited := ∅ } keys) (NamesCycle R)
      (keys.foldlM (visit graph fuel) { visiting := ∅, visited := ∅ }) := by
  have hinit : Explored graph R { visiting := ∅, visited := ∅ } :=
    ⟨fun _ ht => absurd ht (Finset.notMem_empty _), [], sorted_nil, fun t => by simp⟩
  refine Terminates.foldlM (I := VisitedFrom graph R _) hinit.refl ?_
  intro done tag rest b hsplit hb
  have htag : tag ∈ graph := hkeys tag (hsplit ▸ List.mem_append_right _ List.mem_cons_self)
  refine (visit_terminates hR hb.explored htag ?_ (by omega)).imp (fun b' hb' => hb.trans hb')
    fun e he => he
  rw [hb.visiting]
  exact fun t ht => absurd ht (Finset.notMem_empty t)

end Walk

/-! ### All groups -/

/-- For outbounds with distinct tags, in whatever order the map yields its keys, the check comes to
    an end with a recursion that is no deeper than there are groups and one more.  It accepts the
    groups exactly if none of them contains itself, through however many others, and what it refuses
    it refuses for a tag on a cycle. -/
theorem validateOutboundGroupCycles_correct (outbounds : List (OutboundConfig κ))
    (hnodup : (outbounds.map OutboundConfig.tag).Nodup) (keys : List Str)
    (hkeys : keys.Perm (groupGraph outbounds).keys) (fuel : Nat)
    (hfuel : (groupGraph outbounds).keys.length < fuel) :
    ∃ r, (validateOutboundGroupCycles fuel keys outbounds).run = some r ∧
      (r = .ok () ↔ ∀ tag, ¬ TransGen (GroupEdge outbounds) tag tag) ∧
      ∀ message, r = .error message →
        ∃ tag, message = cycleMessage tag ∧ TransGen (GroupEdge outbounds) tag tag := by
  have hmem : ∀ tag ∈ keys, tag ∈ groupGraph outbounds :=
    fun tag htag => AList.mem_keys.mpr (hkeys.mem_iff.mp htag)
  have hwalk := foldlM_visit_terminates (fun a b => groupEdge_iff hnodup) hfuel hmem
  have hall : Terminates (fun _ => ∀ tag, ¬ TransGen (GroupEdge outbounds) tag tag)
      (NamesCycle (GroupEdge outbounds)) (validateOutboundGroupCycles fuel keys outbounds) := by
    refine hwalk.bind fun c hc => terminates_pure fun tag hcycle => ?_
    obtain ⟨order, hsorted, hvisited⟩ := hc.explored.sorted
    -- a tag on a cycle has an edge, so that it is a key
    obtain ⟨b, hedge, -⟩ := TransGen.head'_iff.mp hcycle
    obtain ⟨children, hlookup, -⟩ := (groupEdge_iff hnodup).mp hedge
    have htag : tag ∈ groupGraph outbounds := AList.lookup_isSome.mp (by rw [hlookup]; rfl)
    have hkey : tag ∈ keys := hkeys.mem_iff.mpr (AList.mem_keys.mp htag)
    exact hsorted.acyclic ((hvisited tag).mp (hc.visited tag hkey)) hcycle
  obtain ⟨r, hr, hends⟩ := hall
  refine ⟨r, hr, ⟨?_, ?_⟩, ?_⟩
  · rintro rfl
    exact hends
  · intro hacyclic
    rcases r with message | _
    · obtain ⟨tag, -, hcycle⟩ := hends
      exact absurd hcycle (hacyclic tag)
    · rfl
  · rintro message rfl
    exact hends

/-- Two groups that list each other, and a third one that lists the first. -/
def mutualGroups : List (OutboundConfig Unit) :=
  [.leaf "direct".toList (), .selector { tag := "top".toList, outbounds := ["a".toList] },
    .selector { tag := "a".toList, outbounds := ["direct".toList, "b".toList] },
    .urlTest { tag := "b".toList, outbounds := ["a".toList] }]

theorem validateOutboundGroupCycles_mutualGroups :
    ∃ r, (validateOutboundGroupCycles 4 (groupGraph mutualGroups).keys mutualGroups).run = some r ∧
      (r = .ok () ↔ ∀ tag, ¬ TransGen (GroupEdge mutualGroups) tag tag) ∧
      ∀ message, r = .error message →
        ∃ tag, message = cycleMessage tag ∧ TransGen (GroupEdge mutualGroups) tag tag :=
  validateOutboundGroupCycles_correct mutualGroups (by decide) _ (List.Perm.refl _) 4
    (by decide)

/-- The error depends on where the walk starts. -/
example : (validateOutboundGroupCycles 4 ["top".toList, "b".toList, "a".toList] mutualGroups).run
      = some (.error (cycleMessage "a".toList)) ∧
    (validateOutboundGroupCycles 4 ["b".toList, "a".toList, "top".toList] mutualGroups).run
      = some (.error (cycleMessage "b".toList)) := by decide

/-- A group may be listed twice. -/
example : (validateOutboundGroupCycles 4 ["a".toList, "b".toList, "c".toList]
    [.selector { tag := "a".toList, outbounds := ["b".toList, "c".toList] },
      .selector { tag := "b".toList, outbounds := ["c".toList] },
      (.selector { tag := "c".toList, outbounds := [] } : OutboundConfig Unit)]).run
    = some (.ok ()) := by decide

end Reflex.Provider
