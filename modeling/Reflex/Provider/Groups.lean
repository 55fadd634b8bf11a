import Reflex.Provider.Manager
import Reflex.RustStd.Slice

namespace Reflex.Provider

open RustStd Transition

/-!
# Providers — the groups that list their nodes

The outbounds are built once, from the configured ones, and the groups look their members up among
these.  Tasks add the nodes of the providers to the groups that refer to them, as tags: from the
configurations that came with the nodes nothing is built.

* `fromConfigFull_ok` — the registry holds the configured outbounds;
* `step_cases` — what the steps of the tasks do, from which every invariant follows;
* `tagsResolve_iff` — the listed tags resolve as long as every node given to a group is configured
  as well;
* `listed_tags_resolve_iff` — and so in every state of a run, under any order of the tasks.

The channels, locks and updates are steps of their own.  What a url-test group finds the fastest is
not modelled: it selects any tag.  Checks of a protocol's settings are a parameter, and cycles of
groups are not looked for.
-/

/-! ### Outbounds -/

/-- `Config`, the providers by their tags. -/
structure Config (κ : Type) where
  providers : List Str
  outbounds : List (OutboundConfig κ)

/-- `SelectorOutbound`.  The nodes it was given last are kept whole: the code keeps their tags. -/
structure Selector (κ : Type) where
  config : SelectorOutboundConfig
  allTags : List Str
  selected : Str
  provided : ProviderNodes κ := []
  deriving DecidableEq, Repr

/-- `UrlTestOutbound`, with the nodes it was given last. -/
structure UrlTest (κ : Type) where
  config : UrlTestOutboundConfig
  allTags : List Str
  selected : Option Str := none
  provided : ProviderNodes κ := []
  deriving DecidableEq, Repr

/-- An outbound; one that is no group is known by what it was built from. -/
inductive Outbound (κ : Type) where
  | leaf (tag : Str) (settings : κ)
  | selector (g : Selector κ)
  | urlTest (g : UrlTest κ)
  deriving DecidableEq, Repr

variable {κ : Type}

/-- The members in `refresh_provider_nodes`: the configured ones that are still there, then the
    others. -/
def refreshTags (outbounds all tags : List Str) : List Str :=
  tags.foldl (fun newAll tag => if tag ∈ newAll then newAll else newAll ++ [tag])
    (outbounds.filter (· ∈ all))

/-- `SelectorOutbound::refresh_provider_nodes`. -/
def Selector.refreshProviderNodes (nodes : ProviderNodes κ) (g : Selector κ) : Selector κ :=
  let newAll := refreshTags g.config.outbounds g.allTags (nodes.map Prod.fst)
  { g with
    allTags := newAll
    selected :=
      if g.selected ≠ [] ∧ g.selected ∉ newAll then newAll.head?.getD g.selected else g.selected
    provided := nodes }

/-- `UrlTestOutbound::refresh_provider_nodes`. -/
def UrlTest.refreshProviderNodes (nodes : ProviderNodes κ) (g : UrlTest κ) : UrlTest κ :=
  let newAll := refreshTags g.config.outbounds g.allTags (nodes.map Prod.fst)
  { g with allTags := newAll, selected := g.selected.filter (· ∈ newAll), provided := nodes }

namespace Outbound

/-- The configuration an outbound was built from. -/
def config : Outbound κ → OutboundConfig κ
  | .leaf tag settings => .leaf tag settings
  | .selector g => .selector g.config
  | .urlTest g => .urlTest g.config

/-- The tags a group lists, `all_tags`. -/
def allTags : Outbound κ → List Str
  | .leaf _ _ => []
  | .selector g => g.allTags
  | .urlTest g => g.allTags

/-- The nodes a group was given last. -/
def provided : Outbound κ → ProviderNodes κ
  | .leaf _ _ => []
  | .selector g => g.provided
  | .urlTest g => g.provided

/-- The watcher gives the nodes to a group and leaves other outbounds alone. -/
def refreshProviderNodes (nodes : ProviderNodes κ) : Outbound κ → Outbound κ
  | .leaf tag settings => .leaf tag settings
  | .selector g => .selector (g.refreshProviderNodes nodes)
  | .urlTest g => .urlTest (g.refreshProviderNodes nodes)

/-- `Outbound::select_child`: `set_selected` and `force_selected`. -/
def selectChild (tag : Str) : Outbound κ → Except Str (Outbound κ)
  | .leaf name _ => .error ("outbound '".toList ++ name ++ "' is not selectable".toList)
  | .selector g =>
      if tag ∈ g.allTags then .ok (.selector { g with selected := tag })
      else .error ("selector '".toList ++ g.config.tag ++ "' does not contain outbound '".toList
        ++ tag ++ "'".toList)
  | .urlTest g =>
      if tag ∈ g.allTags then .ok (.urlTest { g with selected := some tag })
      else .error ("url-test '".toList ++ g.config.tag ++ "' does not contain outbound '".toList
        ++ tag ++ "'".toList)

end Outbound

/-! ### Start -/

/-- `anyhow::ensure!`. -/
def ensure (cond : Bool) (message : Str) : Except Str Unit :=
  if cond then .ok () else .error message

/-- `validate_outbound_group`. -/
def validateOutboundGroup (tags providerTags : List Str) (ob : OutboundConfig κ) :
    Except Str Unit := do
  if !ob.isGroup then return ()
  let pref := ob.groupProviders.getD {}
  ensure (!ob.childOutbounds.isEmpty || !pref.tags.isEmpty)
    ("outbound '".toList ++ ob.tag ++ "': both outbounds and providers are empty".toList)
  ob.childOutbounds.forM fun child => do
    ensure (child ≠ ob.tag)
      ("outbound group cannot reference itself: '".toList ++ child ++ "'".toList)
    ensure (child ∈ tags)
      ("outbound group references unknown outbound '".toList ++ child ++ "'".toList)
  pref.tags.forM fun ptag =>
    ensure (ptag ∈ providerTags)
      ("outbound '".toList ++ ob.tag ++ "' references unknown provider '".toList ++ ptag
        ++ "'".toList)
  ob.groupDefault.toList.forM fun default =>
    ensure (default ∈ ob.childOutbounds)
      ("selector default '".toList ++ default ++ "' is not listed in outbounds".toList)

/-- A loop of `Config::validate` that refuses a tag it has seen. -/
def ensureDistinct (message : Str) : List Str → List Str → Except Str Unit
  | _, [] => .ok ()
  | seen, tag :: tags => do
      ensure (tag ∉ seen) (message ++ tag ++ "'".toList)
      ensureDistinct message (tag :: seen) tags

/-- The checks of `Config::validate` on providers and groups. -/
def Config.validate (config : Config κ) : Except Str Unit := do
  let tags := config.outbounds.map OutboundConfig.tag
  ensureDistinct "duplicate provider tag: '".toList [] config.providers
  ensureDistinct "duplicate outbound tag: '".toList [] tags
  config.outbounds.forM (validateOutboundGroup tags config.providers)

/-- The constructor of an outbound.  `construct` checks the settings; `loadSelected` is the cache
    file. -/
def Outbound.new (construct : OutboundConfig κ → Except Str Unit)
    (loadSelected : Str → Option Str) (cfg : OutboundConfig κ) : Except Str (Outbound κ) := do
  construct cfg
  match cfg with
  | .leaf tag settings => return .leaf tag settings
  | .selector c =>
      let saved := (loadSelected c.tag).filter (· ∈ c.outbounds)
      let selected := (saved <|> c.default <|> c.outbounds.head?).getD []
      return .selector { config := c, allTags := c.outbounds, selected }
  | .urlTest c =>
      ensure (!c.outbounds.isEmpty || !(c.providers.getD {}).tags.isEmpty)
        ("url-test outbound '".toList ++ c.tag ++ "': outbounds is empty".toList)
      return .urlTest { config := c, allTags := c.outbounds }

/-- `OutboundManager::from_config_full`, the loop over the configured outbounds. -/
def fromConfigFull (construct : OutboundConfig κ → Except Str Unit)
    (loadSelected : Str → Option Str) :
    List (OutboundConfig κ) → (Str → Option (Outbound κ)) → Except Str (Str → Option (Outbound κ))
  | [], map => .ok map
  | cfg :: configs, map =>
      if (map cfg.tag).isSome then
        .error ("duplicate outbound tag: '".toList ++ cfg.tag ++ "'".toList)
      else do
        let ob ← Outbound.new construct loadSelected cfg
        fromConfigFull construct loadSelected configs (Function.update map cfg.tag (some ob))

/-- A task that expands the providers of a group: a watcher of one of them, or the expansion that is
    made at the start, which waits for nothing. -/
structure Watcher (κ : Type) where
  group : Str
  pref : ProviderRef
  source : Option Str
  changed : Bool
  /-- The nodes it has expanded and not given to the group yet. -/
  held : Option (ProviderNodes κ) := none

/-- The tasks for one configured outbound. -/
def watchersOf (senders : List Str) (cfg : OutboundConfig κ) : List (Watcher κ) :=
  match cfg.groupProviders with
  | some pref =>
      if pref.tags = [] then []
      else
        (pref.tags.filter (· ∈ senders)).map
            (fun ptag => { group := cfg.tag, pref, source := some ptag, changed := false })
          ++ [{ group := cfg.tag, pref, source := none, changed := true }]
  | none => []

/-- The configured outbounds, those that were built, the providers and the tasks. -/
structure State (κ : Type) where
  configured : List (OutboundConfig κ)
  outbounds : Str → Option (Outbound κ)
  manager : ProviderManager κ
  watchers : List (Watcher κ)

namespace State

/-- The state before the first list of a provider is loaded. -/
def start (construct : OutboundConfig κ → Except Str Unit) (loadSelected : Str → Option Str)
    (config : Config κ) : Except Str (State κ) := do
  config.validate
  let outbounds ← fromConfigFull construct loadSelected config.outbounds fun _ => none
  return { configured := config.outbounds, outbounds
           manager := { senders := config.providers }
           watchers := config.outbounds.flatMap (watchersOf config.providers) }

/-- `lookup_outbound`. -/
def lookupOutbound (s : State κ) (tag : Str) : Except Str (Outbound κ) :=
  match s.outbounds tag with
  | some ob => .ok ob
  | none => .error ("outbound '".toList ++ tag ++ "' not found".toList)

/-! ### Steps -/

/-- An outbound changes its state in place. -/
def replace (s : State κ) (tag : Str) (ob : Outbound κ) : State κ :=
  { s with outbounds := Function.update s.outbounds tag (some ob) }

/-- The steps of the tasks and of the API. -/
inductive Action (κ : Type) where
  /-- A provider's task names the nodes it has loaded. -/
  | dedupName (provider : Str) (raw : ProviderNodes κ)
  /-- It stores them and sends to the provider's channel. -/
  | insertNodes (provider : Str)
  /-- A watcher that has been notified expands the providers of its group. -/
  | expand (i : Nat)
  /-- It gives the nodes to the group. -/
  | refresh (i : Nat)
  /-- `OutboundManager::select`. -/
  | select (group child : Str)
  /-- A url-test group has finished probing. -/
  | probed (group child : Str)

/-- One step; `lower` is `str::to_lowercase`. -/
def step (lower : Str → Str) (s : State κ) : Action κ → Option (State κ)
  | .dedupName provider raw =>
      -- there is one task for each provider
      if provider ∈ s.manager.senders ∧ s.manager.named provider = none then
        some { s with manager := s.manager.dedupName provider raw }
      else none
  | .insertNodes provider => do
      let named ← s.manager.named provider
      return { s with
               manager := s.manager.insertNodes provider named
               watchers := s.watchers.map fun w =>
                 if w.source = some provider then { w with changed := true } else w }
  | .expand i => do
      let w ← s.watchers[i]?
      if w.changed ∧ w.held = none then
        let held := some (s.manager.expand lower w.pref)
        return { s with watchers := s.watchers.set i { w with changed := false, held } }
      else none
  | .refresh i => do
      let w ← s.watchers[i]?
      let nodes ← w.held
      let s := { s with watchers := s.watchers.set i { w with held := none } }
      match s.outbounds w.group with
      | some ob => return s.replace w.group (ob.refreshProviderNodes nodes)
      | none => return s
  | .select group child => do
      let ob ← s.outbounds group
      match ob.selectChild child with
      | .ok ob => return s.replace group ob
      | .error _ => none
  | .probed group child =>
      match s.outbounds group with
      | some (.urlTest g) => some (s.replace group (.urlTest { g with selected := some child }))
      | _ => none

end State

/-! ### What the start has checked -/

theorem of_ensure_ok {cond : Bool} {message : Str} (h : ensure cond message = .ok ()) :
    cond = true := by
  cases cond with
  | true => rfl
  | false => cases h

/-- The members of a group that was accepted are known. -/
theorem childOutbounds_known {tags providerTags : List Str} {ob : OutboundConfig κ}
    (h : validateOutboundGroup tags providerTags ob = .ok ()) :
    ∀ child ∈ ob.childOutbounds, child ∈ tags := by
  intro child hchild
  cases hgroup : ob.isGroup with
  | false =>
      cases ob with
      | leaf tag settings => exact absurd hchild List.not_mem_nil
      | selector c => cases hgroup
      | urlTest c => cases hgroup
  | true =>
      rw [validateOutboundGroup, hgroup] at h
      obtain ⟨_, -, h⟩ := bind_eq_ok.mp h
      obtain ⟨_, hchildren, -⟩ := bind_eq_ok.mp h
      obtain ⟨_, -, hknown⟩ := bind_eq_ok.mp (forall_of_forM_eq_ok hchildren child hchild)
      exact of_decide_eq_true (of_ensure_ok hknown)

/-- The tasks of an outbound are there for a group, and hold nothing at first. -/
theorem mem_watchersOf {senders : List Str} {cfg : OutboundConfig κ} {w : Watcher κ}
    (h : w ∈ watchersOf senders cfg) :
    w.held = none ∧ w.group = cfg.tag ∧ cfg.isGroup = true := by
  have hgroup : ∀ pref, cfg.groupProviders = some pref → cfg.isGroup = true := by
    intro pref hpref
    cases cfg with
    | leaf tag settings => cases hpref
    | selector c => rfl
    | urlTest c => rfl
  rw [watchersOf] at h
  split at h
  · rename_i pref hpref
    split at h
    · cases h
    · rcases List.mem_append.mp h with h | h
      · obtain ⟨ptag, -, rfl⟩ := List.mem_map.mp h
        exact ⟨rfl, rfl, hgroup pref hpref⟩
      · obtain rfl := List.mem_singleton.mp h
        exact ⟨rfl, rfl, hgroup pref hpref⟩
  · cases h

/-- A new outbound is built from its configuration, lists its configured members and has been given
    no nodes. -/
theorem Outbound.new_ok {construct : OutboundConfig κ → Except Str Unit}
    {loadSelected : Str → Option Str} {cfg : OutboundConfig κ} {ob : Outbound κ}
    (h : Outbound.new construct loadSelected cfg = .ok ob) :
    ob.config = cfg ∧ ob.allTags = cfg.childOutbounds ∧ ob.provided = [] := by
  obtain ⟨_, -, h⟩ := bind_eq_ok.mp h
  cases cfg with
  | leaf tag settings =>
      obtain rfl := Except.ok.inj h
      exact ⟨rfl, rfl, rfl⟩
  | selector c =>
      obtain rfl := Except.ok.inj h
      exact ⟨rfl, rfl, rfl⟩
  | urlTest c =>
      obtain ⟨_, -, h⟩ := bind_eq_ok.mp h
      obtain rfl := Except.ok.inj h
      exact ⟨rfl, rfl, rfl⟩

/-- **The registry.** The outbounds that are found are those built from the list, beside what was
    there before. -/
theorem fromConfigFull_ok {construct : OutboundConfig κ → Except Str Unit}
    {loadSelected : Str → Option Str} {configs : List (OutboundConfig κ)}
    {map result : Str → Option (Outbound κ)}
    (h : fromConfigFull construct loadSelected configs map = .ok result) (tag : Str)
    (cfg : OutboundConfig κ) :
    (∃ ob, result tag = some ob ∧ ob.config = cfg) ↔
      (cfg ∈ configs ∧ cfg.tag = tag) ∨ ∃ ob, map tag = some ob ∧ ob.config = cfg := by
  induction configs generalizing map with
  | nil =>
      obtain rfl := Except.ok.inj h
      simp
  | cons c configs ih =>
      rw [fromConfigFull] at h
      split at h
      · cases h
      · rename_i hfree
        obtain ⟨ob, hob, h⟩ := bind_eq_ok.mp h
        rw [ih h]
        have hconfig := (Outbound.new_ok hob).1
        have hnone : map c.tag = none := by
          rwa [Bool.not_eq_true, Option.isSome_eq_false_iff, Option.isNone_iff_eq_none] at hfree
        by_cases htag : tag = c.tag
        · -- nothing was there under this tag, and now it is the new one
          rw [htag, Function.update_self, hnone]
          simp only [Option.some.injEq, exists_eq_left', reduceCtorEq, false_and, exists_false,
            or_false, List.mem_cons, hconfig]
          constructor
          · rintro (⟨hmem, htag⟩ | rfl)
            · exact ⟨.inr hmem, htag⟩
            · exact ⟨.inl rfl, rfl⟩
          · rintro ⟨rfl | hmem, htag⟩
            · exact .inr rfl
            · exact .inl ⟨hmem, htag⟩
        · -- under another tag the map is as it was
          rw [Function.update_of_ne htag, List.mem_cons]
          constructor
          · rintro (⟨hmem, hcfg⟩ | hmap)
            · exact .inl ⟨.inr hmem, hcfg⟩
            · exact .inr hmap
          · rintro (⟨rfl | hmem, hcfg⟩ | hmap)
            · exact absurd hcfg.symm htag
            · exact .inl ⟨hmem, hcfg⟩
            · exact .inr hmap

/-- What is found in the registry was built by `new`, or was there before. -/
theorem fromConfigFull_built {construct : OutboundConfig κ → Except Str Unit}
    {loadSelected : Str → Option Str} {configs : List (OutboundConfig κ)}
    {map result : Str → Option (Outbound κ)}
    (h : fromConfigFull construct loadSelected configs map = .ok result) {tag : Str}
    {ob : Outbound κ} (hob : result tag = some ob) :
    (∃ cfg, Outbound.new construct loadSelected cfg = .ok ob) ∨ map tag = some ob := by
  induction configs generalizing map with
  | nil =>
      obtain rfl := Except.ok.inj h
      exact .inr hob
  | cons c configs ih =>
      rw [fromConfigFull] at h
      split at h
      · cases h
      · obtain ⟨ob', hnew, h⟩ := bind_eq_ok.mp h
        rcases ih h with hbuilt | hupdate
        · exact .inl hbuilt
        · obtain ⟨-, rfl⟩ | ⟨-, hmap⟩ := update_eq_some hupdate
          · exact .inl ⟨c, hnew⟩
          · exact .inr hmap

/-- What was built has its configured members, and no nodes. -/
theorem fromConfigFull_new {construct : OutboundConfig κ → Except Str Unit}
    {loadSelected : Str → Option Str} {configs : List (OutboundConfig κ)}
    {map result : Str → Option (Outbound κ)}
    (h : fromConfigFull construct loadSelected configs map = .ok result) {tag : Str}
    {ob : Outbound κ} (hob : result tag = some ob) :
    (ob.allTags = ob.config.childOutbounds ∧ ob.provided = []) ∨ map tag = some ob := by
  refine (fromConfigFull_built h hob).imp_left ?_
  rintro ⟨cfg, hnew⟩
  obtain ⟨hconfig, htags, hprovided⟩ := Outbound.new_ok hnew
  rw [← hconfig] at htags
  exact ⟨htags, hprovided⟩

/-! ### What the steps preserve -/

theorem mem_foldl_push {tag : Str} {tags acc : List Str} :
    tag ∈ tags.foldl (fun newAll tag => if tag ∈ newAll then newAll else newAll ++ [tag]) acc ↔
      tag ∈ acc ∨ tag ∈ tags := by
  induction tags generalizing acc with
  | nil => simp
  | cons t tags ih =>
      rw [List.foldl_cons, ih, List.mem_cons]
      split
      · rename_i ht
        constructor
        · rintro (h | h)
          · exact .inl h
          · exact .inr (.inr h)
        · rintro (h | rfl | h)
          · exact .inl h
          · exact .inl ht
          · exact .inr h
      · rw [List.mem_append, List.mem_singleton, or_assoc]

theorem mem_refreshTags {outbounds all tags : List Str} {tag : Str} :
    tag ∈ refreshTags outbounds all tags ↔ (tag ∈ outbounds ∧ tag ∈ all) ∨ tag ∈ tags := by
  rw [refreshTags, mem_foldl_push, List.mem_filter, decide_eq_true_eq]

namespace Outbound

/-- A group lists its configured members and the nodes it was given. -/
def ListsMembers (g : Outbound κ) : Prop :=
  ∀ tag, tag ∈ g.allTags ↔ tag ∈ g.config.childOutbounds ∨ ∃ cfg, (tag, cfg) ∈ g.provided

@[simp] theorem config_refreshProviderNodes (nodes : ProviderNodes κ) (g : Outbound κ) :
    (g.refreshProviderNodes nodes).config = g.config := by
  cases g <;> rfl

/-- A group has been given what it was refreshed with. -/
theorem provided_refreshProviderNodes {nodes : ProviderNodes κ} {g : Outbound κ}
    (h : g.config.isGroup = true) : (g.refreshProviderNodes nodes).provided = nodes := by
  cases g with
  | leaf tag settings => cases h
  | selector g => rfl
  | urlTest g => rfl

/-- The configured members stay: they were listed before. -/
theorem listsMembers_refreshTags {outbounds all : List Str} (h : ∀ tag ∈ outbounds, tag ∈ all)
    (nodes : ProviderNodes κ) (tag : Str) :
    tag ∈ refreshTags outbounds all (nodes.map Prod.fst) ↔
      tag ∈ outbounds ∨ ∃ cfg, (tag, cfg) ∈ nodes := by
  rw [mem_refreshTags, List.mem_map]
  constructor
  · rintro (⟨htag, -⟩ | ⟨⟨_, cfg⟩, hnode, rfl⟩)
    · exact .inl htag
    · exact .inr ⟨cfg, hnode⟩
  · rintro (htag | ⟨cfg, hnode⟩)
    · exact .inl ⟨htag, h tag htag⟩
    · exact .inr ⟨(tag, cfg), hnode, rfl⟩

theorem listsMembers_refreshProviderNodes {g : Outbound κ} (hg : g.ListsMembers)
    (nodes : ProviderNodes κ) : (g.refreshProviderNodes nodes).ListsMembers := by
  have hall : ∀ tag ∈ g.config.childOutbounds, tag ∈ g.allTags :=
    fun tag htag => (hg tag).mpr (.inl htag)
  cases g with
  | leaf tag settings => exact hg
  | selector g => exact listsMembers_refreshTags hall nodes
  | urlTest g => exact listsMembers_refreshTags hall nodes

/-- A selection changes nothing but what is selected: configuration, members and nodes are as they were. -/
theorem selectChild_ok {tag : Str} {g g' : Outbound κ} (h : g.selectChild tag = .ok g') :
    g'.config = g.config ∧ g'.allTags = g.allTags ∧ g'.provided = g.provided := by
  cases g with
  | leaf name settings => cases h
  | selector g =>
      rw [selectChild] at h
      split at h
      · obtain rfl := Except.ok.inj h
        exact ⟨rfl, rfl, rfl⟩
      · cases h
  | urlTest g =>
      rw [selectChild] at h
      split at h
      · obtain rfl := Except.ok.inj h
        exact ⟨rfl, rfl, rfl⟩
      · cases h

end Outbound

namespace State

/-- The invariant: the registry holds the configured outbounds, whose members are configured; groups
    list what they should; nodes carry their tags; and tasks work for groups. -/
structure Wired (s : State κ) : Prop where
  registry : ∀ tag cfg, (∃ ob, s.outbounds tag = some ob ∧ ob.config = cfg) ↔
    cfg ∈ s.configured ∧ cfg.tag = tag
  children : ∀ cfg ∈ s.configured, ∀ child ∈ cfg.childOutbounds, ∃ c ∈ s.configured, c.tag = child
  lists : ∀ tag g, s.outbounds tag = some g → g.ListsMembers
  provided : ∀ tag g, s.outbounds tag = some g → ∀ node ∈ g.provided, node.2.tag = node.1
  tagged : s.manager.Tagged
  held : ∀ w ∈ s.watchers, ∀ nodes, w.held = some nodes → ∀ node ∈ nodes, node.2.tag = node.1
  groups : ∀ w ∈ s.watchers, ∃ g, s.outbounds w.group = some g ∧ g.config.isGroup = true

theorem replace_self (s : State κ) (tag : Str) (ob : Outbound κ) :
    (s.replace tag ob).outbounds tag = some ob :=
  Function.update_self ..

theorem replace_of_ne (s : State κ) {tag t : Str} (ob : Outbound κ) (h : t ≠ tag) :
    (s.replace tag ob).outbounds t = s.outbounds t :=
  Function.update_of_ne h ..

/-- An outbound takes the place of one built from the same configuration. -/
theorem wired_replace {s : State κ} (hs : s.Wired) {tag : Str} {ob ob' : Outbound κ}
    (hob : s.outbounds tag = some ob) (hconfig : ob'.config = ob.config)
    (hlists : ob'.ListsMembers) (hprovided : ∀ node ∈ ob'.provided, node.2.tag = node.1) :
    (s.replace tag ob').Wired where
  registry t cfg := by
    show _ ↔ cfg ∈ s.configured ∧ cfg.tag = t
    -- the configuration under a tag does not change
    rw [← hs.registry t cfg]
    by_cases ht : t = tag
    · rw [ht, replace_self, hob]
      simp only [Option.some.injEq, exists_eq_left', hconfig]
    · rw [replace_of_ne s ob' ht]
  children := hs.children
  lists t g hg := by
    obtain ⟨-, rfl⟩ | ⟨-, hg⟩ := update_eq_some hg
    · exact hlists
    · exact hs.lists t g hg
  provided t g hg := by
    obtain ⟨-, rfl⟩ | ⟨-, hg⟩ := update_eq_some hg
    · exact hprovided
    · exact hs.provided t g hg
  tagged := hs.tagged
  held := hs.held
  groups w hw := by
    obtain ⟨g, hg, hgroup⟩ := hs.groups w hw
    by_cases ht : w.group = tag
    · rw [ht, hob] at hg
      obtain rfl := Option.some.inj hg
      exact ⟨ob', by rw [ht, replace_self], by rw [hconfig, hgroup]⟩
    · exact ⟨g, by rw [replace_of_ne s ob' ht, hg], hgroup⟩

/-- What the tasks are after a step: they work for the same groups, and what they hold carries its
    tags. -/
def KeepsTasks (s : State κ) (watchers : List (Watcher κ)) : Prop :=
  ∀ w ∈ watchers, (∃ w₀ ∈ s.watchers, w.group = w₀.group) ∧
    ∀ nodes, w.held = some nodes → ∀ node ∈ nodes, node.2.tag = node.1

theorem keepsTasks_self {s : State κ} (hs : s.Wired) : s.KeepsTasks s.watchers :=
  fun w hw => ⟨⟨w, hw, rfl⟩, hs.held w hw⟩

/-- One task changes and stays a task of its group, with nodes that stand under their own tags if it holds any. -/
theorem keepsTasks_set {s : State κ} (hs : s.Wired) {i : Nat} {w w' : Watcher κ}
    (hw : s.watchers[i]? = some w) (hgroup : w'.group = w.group)
    (hheld : ∀ nodes, w'.held = some nodes → ∀ node ∈ nodes, node.2.tag = node.1) :
    s.KeepsTasks (s.watchers.set i w') := by
  intro v hv
  rcases List.mem_or_eq_of_mem_set hv with hv | rfl
  · exact keepsTasks_self hs v hv
  · exact ⟨⟨w, List.mem_of_getElem? hw, hgroup⟩, hheld⟩

/-- The lists of the providers and the tasks change. -/
theorem wired_tasks {s : State κ} (hs : s.Wired) {manager : ProviderManager κ}
    {watchers : List (Watcher κ)} (hmanager : manager.Tagged) (hwatchers : s.KeepsTasks watchers) :
    ({ s with manager, watchers } : State κ).Wired where
  registry := hs.registry
  children := hs.children
  lists := hs.lists
  provided := hs.provided
  tagged := hmanager
  held w hw := (hwatchers w hw).2
  groups w hw := by
    obtain ⟨w₀, hw₀, hgroup⟩ := (hwatchers w hw).1
    rw [hgroup]
    exact hs.groups w₀ hw₀

/-- **The start** is wired: everything that was configured is in the registry, and the groups have their configured
    members. -/
theorem wired_start {construct : OutboundConfig κ → Except Str Unit}
    {loadSelected : Str → Option Str} {config : Config κ} {s : State κ}
    (h : start construct loadSelected config = .ok s) : s.Wired := by
  obtain ⟨_, hvalidate, h⟩ := bind_eq_ok.mp h
  obtain ⟨outbounds, hbuilt, h⟩ := bind_eq_ok.mp h
  obtain rfl := Except.ok.inj h
  -- validation has checked the references of the groups
  obtain ⟨_, -, hvalidate⟩ := bind_eq_ok.mp hvalidate
  obtain ⟨_, -, hgroups⟩ := bind_eq_ok.mp hvalidate
  -- the registry has the configured outbounds, and these are as they were made
  have hregistry : ∀ tag cfg, (∃ ob, outbounds tag = some ob ∧ ob.config = cfg) ↔
      cfg ∈ config.outbounds ∧ cfg.tag = tag := by
    intro tag cfg
    rw [fromConfigFull_ok hbuilt]
    simp
  have hnew : ∀ tag ob, outbounds tag = some ob →
      ob.allTags = ob.config.childOutbounds ∧ ob.provided = [] := by
    intro tag ob hob
    exact (fromConfigFull_new hbuilt hob).resolve_right (fun h => (nomatch h))
  have hwatchers : ∀ w ∈ config.outbounds.flatMap (watchersOf config.providers), w.held = none ∧
      ∃ cfg ∈ config.outbounds, w.group = cfg.tag ∧ cfg.isGroup = true := by
    intro w hw
    obtain ⟨cfg, hcfg, hw⟩ := List.mem_flatMap.mp hw
    obtain ⟨hheld, htag, hgroup⟩ := mem_watchersOf hw
    exact ⟨hheld, cfg, hcfg, htag, hgroup⟩
  exact {
    registry := hregistry
    children := by
      intro cfg hcfg child hchild
      have hknown := childOutbounds_known (forall_of_forM_eq_ok hgroups cfg hcfg) child hchild
      exact List.mem_map.mp hknown
    lists := by
      intro tag g hg t
      obtain ⟨htags, hprovided⟩ := hnew tag g hg
      rw [htags, hprovided]
      simp
    provided := by
      intro tag g hg node hnode
      rw [(hnew tag g hg).2] at hnode
      cases hnode
    tagged := ⟨fun p stored hp => (nomatch hp), fun p named hp => (nomatch hp)⟩
    held := by
      intro w hw nodes hnodes
      rw [(hwatchers w hw).1] at hnodes
      cases hnodes
    groups := by
      intro w hw
      obtain ⟨-, cfg, hcfg, htag, hgroup⟩ := hwatchers w hw
      obtain ⟨ob, hob, rfl⟩ := (hregistry w.group cfg).mpr ⟨hcfg, htag.symm⟩
      exact ⟨ob, hob, hgroup⟩ }

variable {lower : Str → Str} {s s' : State κ}

/-- **What a step can do.** A task gives what it holds to its group; or the lists of the providers
    and the tasks change; or an outbound has another member selected. -/
theorem step_cases (hs : s.Wired) {a : Action κ} (h : s.step lower a = some s') :
    (∃ i w nodes ob, a = .refresh i ∧ s.watchers[i]? = some w ∧ w.held = some nodes ∧
      s.outbounds w.group = some ob ∧ ob.config.isGroup = true ∧
      s' = ({ s with watchers := s.watchers.set i { w with held := none } } : State κ).replace
        w.group (ob.refreshProviderNodes nodes)) ∨
    ((∀ i, a ≠ .refresh i) ∧ ∃ manager watchers, manager.Tagged ∧ s.KeepsTasks watchers ∧
      s' = { s with manager, watchers }) ∨
    ((∀ i, a ≠ .refresh i) ∧ ∃ group ob ob', s.outbounds group = some ob ∧
      (ob'.config = ob.config ∧ ob'.allTags = ob.allTags ∧ ob'.provided = ob.provided) ∧
      s' = s.replace group ob') := by
  cases a with
  | dedupName provider raw =>
      rw [step] at h
      split at h
      · obtain rfl := Option.some.inj h
        refine .inr (.inl ⟨fun i hi => (nomatch hi), _, _, ?_, keepsTasks_self hs, rfl⟩)
        exact ProviderManager.tagged_dedupName hs.tagged provider raw
      · cases h
  | insertNodes provider =>
      obtain ⟨named, hnamed, h⟩ := Option.bind_eq_some_iff.mp h
      obtain rfl := Option.some.inj h
      refine .inr (.inl ⟨fun i hi => (nomatch hi), _, _, ?_, ?_, rfl⟩)
      · exact ProviderManager.tagged_insertNodes hs.tagged hnamed
      · intro v hv
        -- a notification changes neither the group nor what is held
        obtain ⟨w, hw, rfl⟩ := List.mem_map.mp hv
        split
        · exact ⟨⟨w, hw, rfl⟩, hs.held w hw⟩
        · exact keepsTasks_self hs w hw
  | expand i =>
      obtain ⟨w, hw, h⟩ := Option.bind_eq_some_iff.mp h
      split at h
      · obtain rfl := Option.some.inj h
        refine .inr (.inl ⟨fun i hi => (nomatch hi), _, _, hs.tagged, ?_, rfl⟩)
        refine keepsTasks_set hs hw ?_ ?_
        · rfl
        · intro nodes hnodes node hnode
          obtain rfl := Option.some.inj hnodes
          obtain ⟨ptag, -, stored, hstored, hnode, -⟩ := ProviderManager.mem_expand.mp hnode
          exact hs.tagged.nodes ptag stored hstored node hnode
      · cases h
  | refresh i =>
      obtain ⟨w, hw, h⟩ := Option.bind_eq_some_iff.mp h
      obtain ⟨nodes, hnodes, h⟩ := Option.bind_eq_some_iff.mp h
      obtain ⟨ob, hob, hgroup⟩ := hs.groups w (List.mem_of_getElem? hw)
      simp only [hob] at h
      exact .inl ⟨i, w, nodes, ob, rfl, hw, hnodes, hob, hgroup, (Option.some.inj h).symm⟩
  | select group child =>
      obtain ⟨ob, hob, h⟩ := Option.bind_eq_some_iff.mp h
      split at h
      · rename_i ob' hselect
        obtain rfl := Option.some.inj h
        exact .inr (.inr ⟨fun i hi => (nomatch hi), group, ob, ob', hob,
          Outbound.selectChild_ok hselect, rfl⟩)
      · cases h
  | probed group child =>
      rw [step] at h
      split at h
      · rename_i g hg
        obtain rfl := Option.some.inj h
        exact .inr (.inr ⟨fun i hi => (nomatch hi), group, .urlTest g,
          .urlTest { g with selected := some child }, hg, ⟨rfl, rfl, rfl⟩, rfl⟩)
      · cases h

/-- **The invariant** is kept by every step, whether of a task, of a manager or of a group. -/
theorem wired_step {a : Action κ} (h : s.step lower a = some s') (hs : s.Wired) : s'.Wired := by
  obtain ⟨i, w, nodes, ob, -, hw, hnodes, hob, hgroup, rfl⟩ |
    ⟨-, manager, watchers, hmanager, hwatchers, rfl⟩ |
    ⟨-, group, ob, ob', hob, ⟨hconfig, htags, hprovided⟩, rfl⟩ := step_cases hs h
  · have hs' : ({ s with watchers := s.watchers.set i { w with held := none } } : State κ).Wired :=
      wired_tasks hs hs.tagged (keepsTasks_set hs hw rfl fun nodes hnodes => (nomatch hnodes))
    refine wired_replace hs' hob (Outbound.config_refreshProviderNodes nodes ob)
      (Outbound.listsMembers_refreshProviderNodes (hs.lists w.group ob hob) nodes) ?_
    rw [Outbound.provided_refreshProviderNodes hgroup]
    exact hs.held w (List.mem_of_getElem? hw) nodes hnodes
  · exact wired_tasks hs hmanager hwatchers
  · refine wired_replace hs hob hconfig ?_ ?_
    · intro tag
      rw [htags, hconfig, hprovided]
      exact hs.lists group ob hob tag
    · rw [hprovided]
      exact hs.provided group ob hob

/-! ### Listed tags -/

/-- A configuration a listed tag stands for: that of a node the group was given, or that of a
    configured member. -/
def StandsFor (s : State κ) (g : Outbound κ) (tag : Str) (cfg : OutboundConfig κ) : Prop :=
  (tag, cfg) ∈ g.provided ∨ (tag ∈ g.config.childOutbounds ∧ cfg ∈ s.configured ∧ cfg.tag = tag)

/-- Every tag a group lists stands for a configuration, and is found to be an outbound that was built
    from it. -/
def TagsResolve (s : State κ) : Prop :=
  ∀ group g, s.outbounds group = some g → ∀ tag ∈ g.allTags,
    (∃ cfg, s.StandsFor g tag cfg) ∧
      ∀ cfg, s.StandsFor g tag cfg → ∃ ob, s.lookupOutbound tag = .ok ob ∧ ob.config = cfg

/-- What a group is given is configured as an outbound, too. -/
def NodesConfigured (s : State κ) : Action κ → Prop
  | .refresh i => ∀ w nodes, s.watchers[i]? = some w → w.held = some nodes →
      ∀ node ∈ nodes, node.2 ∈ s.configured
  | _ => True

/-- The nodes that were given to the groups are configured outbounds. -/
def ProvidedConfigured (s : State κ) : Prop :=
  ∀ group g, s.outbounds group = some g → ∀ node ∈ g.provided, node.2 ∈ s.configured

theorem lookupOutbound_ok {tag : Str} {ob : Outbound κ} :
    s.lookupOutbound tag = .ok ob ↔ s.outbounds tag = some ob := by
  rw [lookupOutbound]
  cases s.outbounds tag with
  | none => exact ⟨fun h => (nomatch h), fun h => (nomatch h)⟩
  | some ob' => exact ⟨fun h => congrArg some (Except.ok.inj h),
      fun h => congrArg Except.ok (Option.some.inj h)⟩

/-- **Listed tags** resolve just when the nodes given to the groups are configured outbounds. -/
theorem tagsResolve_iff (hs : s.Wired) : s.TagsResolve ↔ s.ProvidedConfigured := by
  constructor
  · rintro h group g hg ⟨tag, cfg⟩ hnode
    have hlisted := (hs.lists group g hg tag).mpr (.inr ⟨cfg, hnode⟩)
    obtain ⟨ob, hob, hcfg⟩ := (h group g hg tag hlisted).2 cfg (.inl hnode)
    exact ((hs.registry tag cfg).mp ⟨ob, lookupOutbound_ok.mp hob, hcfg⟩).1
  · intro h group g hg tag htag
    constructor
    · rcases (hs.lists group g hg tag).mp htag with hchild | ⟨cfg, hnode⟩
      · -- a configured member is configured itself
        have hconfig := ((hs.registry group g.config).mp ⟨g, hg, rfl⟩).1
        obtain ⟨cfg, hcfg, htag⟩ := hs.children g.config hconfig tag hchild
        exact ⟨cfg, .inr ⟨hchild, hcfg, htag⟩⟩
      · exact ⟨cfg, .inl hnode⟩
    · intro cfg hstands
      have hcfg : cfg ∈ s.configured ∧ cfg.tag = tag := by
        rcases hstands with hnode | ⟨-, hcfg⟩
        · exact ⟨h group g hg _ hnode, hs.provided group g hg _ hnode⟩
        · exact hcfg
      obtain ⟨ob, hob, hconfig⟩ := (hs.registry tag cfg).mpr hcfg
      exact ⟨ob, lookupOutbound_ok.mpr hob, hconfig⟩

theorem nodesConfigured_of_ne {a : Action κ} (ha : ∀ i, a ≠ .refresh i) : s.NodesConfigured a := by
  cases a with
  | refresh i => exact absurd rfl (ha i)
  | _ => trivial

/-- One step: a refresh keeps the tags resolving just when its nodes are configured, and the other
    steps always do. -/
theorem providedConfigured_step {a : Action κ} (h : s.step lower a = some s') (hs : s.Wired)
    (hgood : s.ProvidedConfigured) : s.NodesConfigured a ↔ s'.ProvidedConfigured := by
  obtain ⟨i, w, nodes, ob, rfl, hw, hnodes, hob, hgroup, rfl⟩ |
    ⟨ha, manager, watchers, -, -, rfl⟩ |
    ⟨ha, group, ob, ob', hob, ⟨-, -, hprovided⟩, rfl⟩ := step_cases hs h
  · constructor
    · intro hguard group g hg
      obtain ⟨-, rfl⟩ | ⟨-, hg⟩ := update_eq_some hg
      · rw [Outbound.provided_refreshProviderNodes hgroup]
        exact hguard w nodes hw hnodes
      · exact hgood group g hg
    · intro hafter w' nodes' hw' hnodes' node hnode
      obtain rfl := Option.some.inj (hw.symm.trans hw')
      obtain rfl := Option.some.inj (hnodes.symm.trans hnodes')
      refine hafter w.group _ (replace_self ..) node ?_
      rw [Outbound.provided_refreshProviderNodes hgroup]
      exact hnode
  · exact ⟨fun _ => hgood, fun _ => nodesConfigured_of_ne ha⟩
  · refine ⟨fun _ t g hg => ?_, fun _ => nodesConfigured_of_ne ha⟩
    obtain ⟨-, rfl⟩ | ⟨-, hg⟩ := update_eq_some hg
    · rw [hprovided]
      exact hgood group ob hob
    · exact hgood t g hg

/-- **Groups with providers.** In a run from the start every tag a group lists resolves to an outbound
    built from its own configuration, in every state on the way, if and only if the groups are only
    given nodes that are configured as outbounds besides. -/
theorem listed_tags_resolve_iff {construct : OutboundConfig κ → Except Str Unit}
    {loadSelected : Str → Option Str} {config : Config κ}
    (hstart : start construct loadSelected config = .ok s) {actions : List (Action κ)}
    (hrun : run (step lower) s actions = some s') :
    Guarded (step lower) NodesConfigured s actions ↔
      ∀ past rest t, actions = past ++ rest → run (step lower) s past = some t →
        t.TagsResolve := by
  have hs := wired_start hstart
  have hgood : ∀ (t : State κ) a t', t.step lower a = some t' → t.Wired → t.TagsResolve →
      (t.NodesConfigured a ↔ t'.TagsResolve) := by
    intro t a t' ht hwired hresolve
    rw [tagsResolve_iff (wired_step ht hwired)]
    exact providedConfigured_step ht hwired ((tagsResolve_iff hwired).mp hresolve)
  have hfirst : s.TagsResolve := by
    rw [tagsResolve_iff hs]
    intro group g hg node hnode
    obtain ⟨_, -, hstart⟩ := bind_eq_ok.mp hstart
    obtain ⟨outbounds, hbuilt, hstart⟩ := bind_eq_ok.mp hstart
    obtain rfl := Except.ok.inj hstart
    obtain ⟨-, hnone⟩ := (fromConfigFull_new hbuilt hg).resolve_right (fun h => (nomatch h))
    rw [hnone] at hnode
    cases hnode
  exact guarded_iff_always (fun t a t' ht hwired => wired_step ht hwired) hgood hrun hs hfirst

end State

/-! ### A subscription -/

/-- A selector with the direct outbound and the nodes of a subscription; block is configured, but is
    no member.  The settings of an outbound are its server. -/
def exampleConfig : Config Str where
  providers := ["sub".toList]
  outbounds := [.leaf "direct".toList [], .leaf "block".toList [],
    .selector { tag := "proxy".toList, outbounds := ["direct".toList]
                providers := some { tags := ["sub".toList], excludeFilter := ["expired".toList] } }]

/-- The subscription is loaded and given to the selector. -/
def subscribed (raw : ProviderNodes Str) : List (State.Action Str) :=
  [.dedupName "sub".toList raw, .insertNodes "sub".toList, .expand 0, .refresh 0]

namespace State

/-- The first node is excluded, and the second is the direct outbound once more. -/
theorem listed_tags_resolve_direct :
    ∃ s s', start (fun _ => .ok ()) (fun _ => none) exampleConfig = .ok s ∧
      run (step toAsciiLowercase) s
          (subscribed [("Expired".toList, .leaf "Expired".toList "jp.example".toList),
            ("direct".toList, .leaf "direct".toList [])]) = some s' ∧ s'.TagsResolve := by
  obtain ⟨s, s', hstart, hrun, hguard⟩ :
      ∃ s s', start (fun _ => .ok ()) (fun _ => none) exampleConfig = .ok s ∧
        run (step toAsciiLowercase) s
            (subscribed [("Expired".toList, .leaf "Expired".toList "jp.example".toList),
              ("direct".toList, .leaf "direct".toList [])]) = some s' ∧
        Guarded (step toAsciiLowercase) NodesConfigured s
            (subscribed [("Expired".toList, .leaf "Expired".toList "jp.example".toList),
              ("direct".toList, .leaf "direct".toList [])]) := by
    refine ⟨_, _, rfl, rfl, trivial, fun s₁ h₁ => ⟨trivial, fun s₂ h₂ => ⟨trivial, fun s₃ h₃ =>
      ⟨?_, fun _ _ => trivial⟩⟩⟩⟩
    obtain rfl := Option.some.inj h₁
    obtain rfl := Option.some.inj h₂
    obtain rfl := Option.some.inj h₃
    intro w nodes hw hnodes
    obtain rfl := Option.some.inj hw
    obtain rfl := Option.some.inj hnodes
    decide
  refine ⟨s, s', hstart, hrun, ?_⟩
  exact (listed_tags_resolve_iff hstart hrun).mp hguard _ [] s' (List.append_nil _).symm hrun

/-- A node with a name of its own is not found, and one called like block is blocked. -/
theorem provider_nodes_not_dialled :
    ∃ s s', start (fun _ => .ok ()) (fun _ => none) exampleConfig = .ok s ∧
      run (step toAsciiLowercase) s
          (subscribed [("jp".toList, .leaf "jp".toList "jp.example".toList),
            ("block".toList, .leaf "block".toList "us.example".toList)]) = some s' ∧
      ((s'.outbounds "proxy".toList).map fun g => g.allTags)
        = some ["direct".toList, "jp".toList, "block".toList] ∧
      s'.lookupOutbound "jp".toList = .error "outbound 'jp' not found".toList ∧
      s'.lookupOutbound "block".toList = .ok (.leaf "block".toList []) ∧
      ¬ s'.TagsResolve := by
  refine ⟨_, _, rfl, rfl, by decide, rfl, rfl, ?_⟩
  intro h
  -- the first node is listed, and whatever it stands for is not found
  obtain ⟨⟨cfg, hcfg⟩, hresolve⟩ := h "proxy".toList _ rfl "jp".toList (by decide)
  obtain ⟨ob, hob, -⟩ := hresolve cfg hcfg
  cases hob

end State

end Reflex.Provider
