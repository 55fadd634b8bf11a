import Reflex.Provider.GroupCycles
import Reflex.Provider.SelectorLife
import Reflex.Lib.Toposort
import Mathlib.Data.List.Chain

namespace Reflex.Provider

open RustStd Transition Relation

/-!
# Providers — where a group ends

A connection that is given to a group is given on to the outbound that the group has selected, which may be a
group again; `lookup_outbound` finds it in the registry.

* `dial` — the outbounds on the way, until one is no group;
* `Picks` — what the groups select in every state of a run: a configured member, or an outbound that is no
  group;
* `dial_leaf` — if no group contains itself, the way ends, with an outbound that is no group.
-/

variable {κ : Type}

/-- `current_tag` of a group. -/
def Outbound.currentTag : Outbound κ → Option Str
  | .leaf _ _ => none
  | .selector g => some g.currentTag
  | .urlTest g => some (g.selected.getD (g.allTags.head?.getD []))

namespace State

/-- `handle_tcp` and `connect_tcp` through the groups: the tag of the outbound that opens the connection, or the
    error of `lookup_outbound`.  Each group on the way takes one unit of fuel. -/
def dial (s : State κ) : Nat → Str → Option (Except Str Str)
  | 0, _ => none
  | fuel + 1, tag =>
      match s.lookupOutbound tag with
      | .error e => some (.error e)
      | .ok ob =>
          match ob.currentTag with
          | none => some (.ok tag)
          | some child => s.dial fuel child

/-- A configured outbound that is no group. -/
def IsLeaf (s : State κ) (tag : Str) : Prop := ∃ settings, .leaf tag settings ∈ s.configured

/-- The groups were given nodes that are configured as well, as outbounds that are no groups; and a url-test
    group has selected a configured member or such an outbound. -/
structure Picks (s : State κ) : Prop where
  provided : ∀ group g, s.outbounds group = some g → ∀ node ∈ g.provided, s.IsLeaf node.1
  selected : ∀ group g, s.outbounds group = some (.urlTest g) →
    ∀ tag ∈ g.selected, tag ∈ g.config.outbounds ∨ s.IsLeaf tag

/-- What a step gives to a group: nodes that are configured outbounds and no groups; a probe finds one of these
    or a configured member, even one that is not listed any more. -/
def GivesLeaves (s : State κ) : Action κ → Prop
  | .refresh i => ∀ w nodes, s.watchers[i]? = some w → w.held = some nodes → ∀ node ∈ nodes, s.IsLeaf node.1
  | .probed group child => ∀ g, s.outbounds group = some (.urlTest g) → child ∈ g.config.outbounds ∨ s.IsLeaf child
  | _ => True

/-- Every group lists something. -/
def Populated (s : State κ) : Prop :=
  ∀ group g, s.outbounds group = some g → g.config.isGroup = true → g.allTags ≠ []

/-- Groups with a configured member always list something. -/
theorem populated_of_members {s : State κ} (hs : s.Wired)
    (h : ∀ cfg ∈ s.configured, cfg.isGroup = true → cfg.childOutbounds ≠ []) : s.Populated := by
  intro group g hg hgroup hnone
  have hconfigured := ((hs.registry group g.config).mp ⟨g, hg, rfl⟩).1
  obtain ⟨child, rest, hchildren⟩ := List.exists_cons_of_ne_nil (h g.config hconfigured hgroup)
  have hmem : child ∈ g.allTags := (hs.lists group g hg child).mpr (.inl (hchildren ▸ List.mem_cons_self))
  rw [hnone] at hmem
  cases hmem

/-! ### What the groups select -/

variable {s s' : State κ} {lower : Str → Str}

/-- An outbound takes the place of one that it was made of. -/
theorem picks_replace (hp : s.Picks) {group : Str} {ob : Outbound κ}
    (hprovided : ∀ node ∈ ob.provided, s.IsLeaf node.1)
    (hselected : ∀ g, ob = .urlTest g → ∀ tag ∈ g.selected, tag ∈ g.config.outbounds ∨ s.IsLeaf tag) :
    (s.replace group ob).Picks where
  provided t g hg := by
    obtain ⟨-, rfl⟩ | ⟨-, hg⟩ := update_eq_some hg
    · exact hprovided
    · exact hp.provided t g hg
  selected t g hg := by
    obtain ⟨-, hob⟩ | ⟨-, hg⟩ := update_eq_some hg
    · exact hselected g hob.symm
    · exact hp.selected t g hg

/-- A step leaves the configuration as it is. -/
theorem configured_step (hs : s.Wired) {a : Action κ} (h : s.step lower a = some s') :
    s'.configured = s.configured := by
  obtain ⟨i, w, nodes, ob, -, -, -, -, -, rfl⟩ | ⟨-, manager, watchers, -, -, rfl⟩ |
    ⟨-, group, ob, ob', -, -, rfl⟩ := step_cases hs h
  · rfl
  · rfl
  · rfl

/-- The step lemma: who is selected is a member of the group, or one of the nodes that it was given. -/
theorem picks_step (hs : s.Wired) {a : Action κ} (h : s.step lower a = some s') (hgives : s.GivesLeaves a)
    (hp : s.Picks) : s'.Picks := by
  -- what a group lists is a configured member or a node
  have hlisted {group : Str} {g : Outbound κ} (hg : s.outbounds group = some g) {tag : Str}
      (htag : tag ∈ g.allTags) : tag ∈ g.config.childOutbounds ∨ s.IsLeaf tag := by
    rcases (hs.lists group g hg tag).mp htag with hchild | ⟨cfg, hnode⟩
    · exact .inl hchild
    · exact .inr (hp.provided group g hg _ hnode)
  cases a with
  | dedupName provider raw =>
    rw [step] at h
    split at h
    · obtain rfl := Option.some.inj h
      exact ⟨hp.provided, hp.selected⟩
    · cases h
  | insertNodes provider =>
    obtain ⟨named, -, h⟩ := Option.bind_eq_some_iff.mp h
    obtain rfl := Option.some.inj h
    exact ⟨hp.provided, hp.selected⟩
  | expand i =>
    obtain ⟨w, -, h⟩ := Option.bind_eq_some_iff.mp h
    split at h
    · obtain rfl := Option.some.inj h
      exact ⟨hp.provided, hp.selected⟩
    · cases h
  | refresh i =>
    obtain ⟨w, hw, h⟩ := Option.bind_eq_some_iff.mp h
    obtain ⟨nodes, hnodes, h⟩ := Option.bind_eq_some_iff.mp h
    obtain ⟨ob, hob, hgroup⟩ := hs.groups w (List.mem_of_getElem? hw)
    simp only [hob] at h
    obtain rfl := Option.some.inj h
    have hp' : ({ s with watchers := s.watchers.set i { w with held := none } } : State κ).Picks :=
      ⟨hp.provided, hp.selected⟩
    refine picks_replace hp' ?_ ?_
    · rw [Outbound.provided_refreshProviderNodes hgroup]
      exact hgives w nodes hw hnodes
    · intro g hg tag htag
      -- the selected tag stays, or nothing is selected any more
      cases ob with
      | leaf t settings => cases hg
      | selector g₀ => cases hg
      | urlTest g₀ =>
        obtain rfl := Outbound.urlTest.inj hg
        exact hp.selected w.group g₀ hob tag (Option.mem_filter_iff.mp htag).1
  | select group child =>
    obtain ⟨ob, hob, h⟩ := Option.bind_eq_some_iff.mp h
    split at h
    · rename_i ob' hselect
      obtain rfl := Option.some.inj h
      obtain ⟨-, -, hprovided⟩ := Outbound.selectChild_ok hselect
      refine picks_replace hp (fun node hnode => hp.provided group ob hob node (hprovided ▸ hnode)) ?_
      rintro g rfl tag htag
      cases ob with
      | leaf t settings => cases hselect
      | selector g₀ =>
        rw [Outbound.selectChild] at hselect
        split at hselect <;> cases hselect
      | urlTest g₀ =>
        rw [Outbound.selectChild] at hselect
        split at hselect
        · rename_i hmem
          obtain rfl := Outbound.urlTest.inj (Except.ok.inj hselect)
          obtain rfl := Option.some.inj htag
          exact hlisted hob hmem
        · cases hselect
    · cases h
  | probed group child =>
    rw [step] at h
    split at h
    · rename_i g₀ hg₀
      obtain rfl := Option.some.inj h
      refine picks_replace hp (fun node hnode => hp.provided group (.urlTest g₀) hg₀ node hnode) ?_
      rintro g hg tag htag
      obtain rfl := Outbound.urlTest.inj hg
      obtain rfl := Option.some.inj htag
      exact hgives g₀ hg₀
    · cases h

/-- **The invariant** of a run in which the groups are given leaves. -/
theorem picks_run (hs : s.Wired) (hp : s.Picks) {actions : List (Action κ)}
    (hrun : run (step lower) s actions = some s') (hguard : Guarded (step lower) GivesLeaves s actions) :
    s'.Wired ∧ s'.Picks ∧ s'.configured = s.configured := by
  have hstep : ∀ t a t', step lower t a = some t' → t.GivesLeaves a →
      (t.Wired ∧ t.Picks ∧ t.configured = s.configured) →
      t'.Wired ∧ t'.Picks ∧ t'.configured = s.configured := by
    rintro t a t' h hgives ⟨ht, htp, hconfigured⟩
    exact ⟨wired_step h ht, picks_step ht h hgives htp, (configured_step ht h).trans hconfigured⟩
  exact invariant_of_run hstep hrun hguard ⟨hs, hp, rfl⟩

/-- A url-test group that is new has selected nothing. -/
theorem selected_new {construct : OutboundConfig κ → Except Str Unit} {loadSelected : Str → Option Str}
    {cfg : OutboundConfig κ} {g : UrlTest κ} (h : Outbound.new construct loadSelected cfg = .ok (.urlTest g)) :
    g.selected = none := by
  obtain ⟨_, -, h⟩ := bind_eq_ok.mp h
  cases cfg with
  | leaf tag settings => cases h
  | selector c => cases h
  | urlTest c =>
    obtain ⟨_, -, h⟩ := bind_eq_ok.mp h
    obtain rfl := Outbound.urlTest.inj (Except.ok.inj h)
    rfl

/-- At the start the groups have no nodes, and the url-test groups have selected nothing. -/
theorem picks_start {construct : OutboundConfig κ → Except Str Unit} {loadSelected : Str → Option Str}
    {config : Config κ} (h : start construct loadSelected config = .ok s) :
    s.Picks ∧ s.configured = config.outbounds := by
  obtain ⟨_, -, h⟩ := bind_eq_ok.mp h
  obtain ⟨outbounds, hbuilt, h⟩ := bind_eq_ok.mp h
  obtain rfl := Except.ok.inj h
  refine ⟨⟨fun group g hg node hnode => ?_, fun group g hg tag htag => ?_⟩, rfl⟩
  · obtain ⟨-, hnone⟩ := (fromConfigFull_new hbuilt hg).resolve_right (fun h => by cases h)
    rw [hnone] at hnode
    cases hnode
  · obtain ⟨cfg, hnew⟩ := (fromConfigFull_built hbuilt hg).resolve_right (fun h => by cases h)
    rw [selected_new hnew] at htag
    cases htag

/-! ### The way -/

/-- The outbound that a group has selected: a configured member, or one that is no group. -/
theorem currentTag_cases (hs : s.Wired) (hp : s.Picks) {group : Str} {g : Outbound κ}
    (hg : s.outbounds group = some g) (hlists : g.allTags ≠ []) {child : Str} (h : g.currentTag = some child) :
    child ∈ g.config.childOutbounds ∨ s.IsLeaf child := by
  have hlisted {tag : Str} (htag : tag ∈ g.allTags) : tag ∈ g.config.childOutbounds ∨ s.IsLeaf tag := by
    rcases (hs.lists group g hg tag).mp htag with hchild | ⟨cfg, hnode⟩
    · exact .inl hchild
    · exact .inr (hp.provided group g hg _ hnode)
  have hfirst : g.allTags.head?.getD [] ∈ g.allTags := by
    obtain ⟨t, ts, hts⟩ := List.exists_cons_of_ne_nil hlists
    rw [hts]
    exact List.mem_cons_self
  cases g with
  | leaf t settings => cases h
  | selector g =>
    obtain rfl := Option.some.inj h
    refine hlisted ?_
    show g.currentTag ∈ g.allTags
    unfold Selector.currentTag
    split_ifs with hmem
    · exact hmem
    · exact hfirst
  | urlTest g =>
    obtain rfl := Option.some.inj h
    cases hselected : g.selected with
    | none => exact hlisted hfirst
    | some tag => exact hp.selected group g hg tag hselected

/-- Outbounds with one tag have one configuration. -/
theorem Wired.config_eq (hs : s.Wired) {cfg cfg' : OutboundConfig κ} (h : cfg ∈ s.configured)
    (h' : cfg' ∈ s.configured) (htag : cfg.tag = cfg'.tag) : cfg = cfg' := by
  obtain ⟨ob, hob, rfl⟩ := (hs.registry cfg'.tag cfg).mpr ⟨h, htag⟩
  obtain ⟨ob', hob', rfl⟩ := (hs.registry cfg'.tag cfg').mpr ⟨h', rfl⟩
  rw [hob] at hob'
  rw [Option.some.inj hob']

/-- The way from a leaf, and from a group. -/
theorem dial_leaf_step {fuel : Nat} {tag : Str} {ob : Outbound κ} (hob : s.outbounds tag = some ob)
    (h : ob.currentTag = none) : s.dial (fuel + 1) tag = some (.ok tag) := by
  rw [dial, lookupOutbound_ok.mpr hob]
  simp only [h]

theorem dial_group_step {fuel : Nat} {tag child : Str} {ob : Outbound κ} (hob : s.outbounds tag = some ob)
    (h : ob.currentTag = some child) : s.dial (fuel + 1) tag = s.dial fuel child := by
  rw [dial, lookupOutbound_ok.mpr hob]
  simp only [h]

/-- Either the way ends, with an outbound that is no group, or it leads through as many groups as there is
    fuel, each of which lists the next one. -/
theorem dial_or_path (hs : s.Wired) (hp : s.Picks) (hlists : s.Populated) (fuel : Nat) {tag : Str}
    (htag : ∃ cfg ∈ s.configured, cfg.tag = tag) :
    (∃ leaf, s.dial fuel tag = some (.ok leaf) ∧ s.IsLeaf leaf) ∨
      ∃ path : List Str, path.length = fuel ∧ path.IsChain (GroupEdge s.configured) ∧
        (∀ t ∈ path, t ∈ (s.configured.filter (·.isGroup)).map OutboundConfig.tag) ∧ ∀ t ∈ path.head?, t = tag := by
  induction fuel generalizing tag with
  | zero => exact .inr ⟨[], rfl, .nil, fun t ht => absurd ht List.not_mem_nil, fun t ht => by cases ht⟩
  | succ fuel ih =>
    obtain ⟨cfg, hcfg, rfl⟩ := htag
    obtain ⟨ob, hob, rfl⟩ := (hs.registry cfg.tag cfg).mpr ⟨hcfg, rfl⟩
    cases hcurrent : ob.currentTag with
    | none =>
      -- what has no current tag is a leaf, and the dial ends there
      rw [dial_leaf_step hob hcurrent]
      cases ob with
      | leaf t settings => exact .inl ⟨t, rfl, settings, hcfg⟩
      | selector g => cases hcurrent
      | urlTest g => cases hcurrent
    | some child =>
      rw [dial_group_step hob hcurrent]
      have hgroup : ob.config.isGroup = true := by
        cases ob with
        | leaf t settings => cases hcurrent
        | selector g => rfl
        | urlTest g => rfl
      -- a group dials a configured member or a node of a provider, both of which are configured
      have hpicks := currentTag_cases hs hp hob (hlists _ ob hob hgroup) hcurrent
      have hchild : ∃ c ∈ s.configured, c.tag = child := by
        rcases hpicks with hmember | ⟨settings, hleaf⟩
        · exact hs.children ob.config hcfg child hmember
        · exact ⟨_, hleaf, rfl⟩
      -- the rest of the way ends at a leaf, or is a path with one group more in front
      rcases ih hchild with hends | ⟨path, hlen, hpath, hgroups, hhead⟩
      · exact .inl hends
      · refine .inr ⟨ob.config.tag :: path, by rw [List.length_cons, hlen], ?_, ?_, fun t ht => ?_⟩
        · -- the next one on the path is a group, and therefore a configured member
          refine hpath.cons fun t ht => ?_
          obtain rfl := hhead t ht
          obtain ⟨c, hc, hctag⟩ := List.mem_map.mp (hgroups t (List.mem_of_mem_head? ht))
          obtain ⟨hc, hcgroup⟩ := List.mem_filter.mp hc
          rcases hpicks with hmember | ⟨settings, hleaf⟩
          · exact ⟨ob.config, hcfg, hgroup, rfl, hmember, c, hc, hcgroup, hctag⟩
          · rw [hs.config_eq hc hleaf hctag] at hcgroup
            cases hcgroup
        · exact List.forall_mem_cons.mpr ⟨List.mem_map_of_mem (List.mem_filter.mpr ⟨hcfg, hgroup⟩), hgroups⟩
        · exact (Option.some.inj ht).symm

/-- More steps than any way through the groups has: one for each group, and one for the leaf. -/
def dialFuel (s : State κ) : Nat := (s.configured.filter (·.isGroup)).length + 1

/-- Without cycles the way from a configured outbound ends, with an outbound that is no group. -/
theorem dial_leaf (hs : s.Wired) (hp : s.Picks) (hlists : s.Populated)
    (hacyclic : ∀ tag, ¬ TransGen (GroupEdge s.configured) tag tag) {tag : Str}
    (htag : ∃ cfg ∈ s.configured, cfg.tag = tag) :
    ∃ leaf, s.dial s.dialFuel tag = some (.ok leaf) ∧ s.IsLeaf leaf := by
  rcases dial_or_path hs hp hlists s.dialFuel htag with hends | ⟨path, hlen, hpath, hgroups, -⟩
  · exact hends
  · have hbound := Toposort.length_le_of_isChain hacyclic hpath hgroups
    rw [List.length_map, hlen, dialFuel] at hbound
    omega

end State

end Reflex.Provider
