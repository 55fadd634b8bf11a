import Reflex.Provider.Manager

namespace Reflex.Provider

open RustStd

/-!
# Providers — updates of several providers

`update_nodes` of `provider/mod.rs` has two critical sections: under the lock of `global_tags` the
old tags of the provider are released and the new nodes are named, and under that of `nodes` the
named nodes are stored.  The updates of different providers interleave between them.

* `owned` — the nodes a provider holds names for: those it has named and not stored yet, or else
  those it has stored;
* `Partition` — the invariant: the tags in use are those of the owned nodes, each of them once;
* `nameNodes_congr` — the names depend on the tags in use, not on the order they came in;
* `updates_settled` — what holds whenever no update is in progress.
-/

/-! ### Names -/

/-- The search stops at the first suffix that is free. -/
theorem allocSuffix_eq_numbered (name : Str) (global : List Str) (fuel i : Nat) :
    ∃ k, allocSuffix name global fuel i = numbered name k ∧ i ≤ k ∧
      ∀ j, i ≤ j → j < k → numbered name j ∈ global := by
  induction fuel generalizing i with
  | zero => exact ⟨i, rfl, le_rfl, fun j hij hji => absurd hij (Nat.not_le.mpr hji)⟩
  | succ fuel ih =>
      rw [allocSuffix]
      split
      · rename_i hused
        obtain ⟨k, hk, hik, hbelow⟩ := ih (i + 1)
        refine ⟨k, hk, by omega, fun j hij hjk => ?_⟩
        rcases Nat.eq_or_lt_of_le hij with rfl | hlt
        · exact hused
        · exact hbelow j hlt hjk
      · exact ⟨i, rfl, le_rfl, fun j hij hji => absurd hij (Nat.not_le.mpr hji)⟩

/-- **Which tag is allocated** depends on the set of tags in use only. -/
theorem allocUniqueTag_congr {name : Str} {global global' : List Str}
    (h : ∀ tag, tag ∈ global ↔ tag ∈ global') :
    allocUniqueTag name global = allocUniqueTag name global' := by
  have hfree := allocUniqueTag_notMem name global
  have hfree' := allocUniqueTag_notMem name global'
  rw [allocUniqueTag] at hfree hfree' ⊢
  rw [allocUniqueTag]
  by_cases hname : name ∈ global
  · have hname' := (h name).mp hname
    rw [if_pos hname] at hfree ⊢
    rw [if_pos hname'] at hfree' ⊢
    obtain ⟨k, hk, hpos, hbelow⟩ := allocSuffix_eq_numbered name global global.length 1
    obtain ⟨k', hk', hpos', hbelow'⟩ := allocSuffix_eq_numbered name global' global'.length 1
    rw [hk] at hfree ⊢
    rw [hk'] at hfree' ⊢
    -- each is the least free suffix of the same set
    rcases Nat.lt_trichotomy k k' with hlt | rfl | hlt
    · exact absurd ((h _).mpr (hbelow' k hpos hlt)) hfree
    · rfl
    · exact absurd ((h _).mp (hbelow k' hpos' hlt)) hfree'
  · rw [if_neg hname, if_neg fun hname' => hname ((h name).mpr hname')]

namespace ProviderManager

variable {κ : Type}

/-- The tags of a list of nodes. -/
def tags (nodes : ProviderNodes κ) : List Str := nodes.map Prod.fst

theorem mem_snd_nameNodes {global : List Str} {raw : ProviderNodes κ} {tag : Str} :
    tag ∈ (nameNodes global raw).2 ↔ tag ∈ tags (nameNodes global raw).1 ∨ tag ∈ global := by
  induction raw generalizing global with
  | nil => simp [nameNodes, tags]
  | cons entry raw ih =>
      simp only [nameNodes, ih, tags, List.map_cons, List.mem_cons]
      tauto

/-- The tags that the nodes of an update are given were free before. -/
theorem notMem_of_mem_nameNodes {global : List Str} {raw : ProviderNodes κ} {tag : Str}
    (h : tag ∈ tags (nameNodes global raw).1) : tag ∉ global := by
  induction raw generalizing global with
  | nil => cases h
  | cons entry raw ih =>
      rcases List.mem_cons.mp h with rfl | h
      · exact allocUniqueTag_notMem _ _
      · exact fun hglobal => ih h (List.mem_cons_of_mem _ hglobal)

theorem nodup_nameNodes (global : List Str) (raw : ProviderNodes κ) :
    (tags (nameNodes global raw).1).Nodup := by
  induction raw generalizing global with
  | nil => exact List.nodup_nil
  | cons entry raw ih =>
      refine List.nodup_cons.mpr ⟨fun hmem => ?_, ih _⟩
      exact notMem_of_mem_nameNodes hmem (List.mem_cons_self ..)

/-- **The names** depend on the set of tags in use only. -/
theorem nameNodes_congr {global global' : List Str} (h : ∀ tag, tag ∈ global ↔ tag ∈ global')
    (raw : ProviderNodes κ) : (nameNodes global raw).1 = (nameNodes global' raw).1 := by
  induction raw generalizing global global' with
  | nil => rfl
  | cons entry raw ih =>
      obtain ⟨name, ob⟩ := entry
      have htag : allocUniqueTag name global = allocUniqueTag name global' := allocUniqueTag_congr h
      have hmem : ∀ tag, tag ∈ allocUniqueTag name global' :: global ↔
          tag ∈ allocUniqueTag name global' :: global' := by
        intro tag
        rw [List.mem_cons, List.mem_cons, h]
      simp only [nameNodes, htag, ih hmem]

/-- A node is the raw node under its own name or under a numbered one, and carries it. -/
def Renamed (raw node : Str × OutboundConfig κ) : Prop :=
  node.2 = raw.2.setTag node.1 ∧ (node.1 = raw.1 ∨ ∃ i, node.1 = numbered raw.1 i)

theorem renamed_nameNodes (global : List Str) (raw : ProviderNodes κ) :
    List.Forall₂ Renamed raw (nameNodes global raw).1 := by
  induction raw generalizing global with
  | nil => exact .nil
  | cons entry raw ih =>
      refine .cons ⟨rfl, ?_⟩ (ih _)
      show allocUniqueTag entry.1 global = entry.1 ∨ _
      rw [allocUniqueTag]
      split
      · obtain ⟨k, hk, -⟩ := allocSuffix_eq_numbered entry.1 global global.length 1
        exact .inr ⟨k, hk⟩
      · exact .inl rfl

/-! ### Critical sections -/

/-- The two critical sections of an update. -/
inductive Section (κ : Type) where
  /-- an update of the provider starts: `dedup_name` -/
  | dedup (provider : Str) (raw : ProviderNodes κ)
  /-- the update stores what it has named -/
  | insert (provider : Str)

/-- `ProviderManager::new`. -/
def new (senders : List Str) : ProviderManager κ := { senders }

/-- One critical section.  A provider has one update in progress at a time; those of different
    providers interleave. -/
def step (m : ProviderManager κ) : Section κ → Option (ProviderManager κ)
  | .dedup provider raw =>
      if m.named provider = none then some (m.dedupName provider raw) else none
  | .insert provider => (m.named provider).map fun named => m.insertNodes provider named

/-- No update is between its two critical sections. -/
def Quiet (m : ProviderManager κ) : Prop := ∀ provider, m.named provider = none

/-- The nodes a provider holds tags for. -/
def owned (m : ProviderManager κ) (provider : Str) : ProviderNodes κ :=
  (m.named provider).getD ((m.nodes provider).getD [])

theorem owned_of_none {m : ProviderManager κ} {provider : Str} (h : m.named provider = none) :
    m.owned provider = (m.nodes provider).getD [] := by
  rw [owned, h]
  rfl

/-- The tags that `dedup_name` finds in use, once those of the provider are released. -/
def others (m : ProviderManager κ) (provider : Str) : List Str :=
  m.globalTags.filter (· ∉ ((m.nodes provider).getD []).map Prod.fst)

theorem named_dedupName (m : ProviderManager κ) (provider : Str) (raw : ProviderNodes κ) :
    (m.dedupName provider raw).named provider = some (nameNodes (m.others provider) raw).1 :=
  Function.update_self ..

/-- An update changes what its own provider owns. -/
theorem owned_dedupName (m : ProviderManager κ) (provider : Str) (raw : ProviderNodes κ) :
    (m.dedupName provider raw).owned
      = Function.update m.owned provider (nameNodes (m.others provider) raw).1 := by
  funext q
  by_cases hq : q = provider
  · rw [hq, Function.update_self, owned, named_dedupName]
    rfl
  · rw [Function.update_of_ne hq]
    show ((Function.update m.named provider _) q).getD _ = _
    rw [Function.update_of_ne hq]
    rfl

/-- Storing what is named changes nothing of what is owned. -/
theorem owned_insertNodes {m : ProviderManager κ} {provider : Str} {named : ProviderNodes κ}
    (h : m.named provider = some named) : (m.insertNodes provider named).owned = m.owned := by
  funext q
  by_cases hq : q = provider
  · rw [hq, owned, owned, h]
    show ((Function.update m.named provider none) provider).getD
      (((Function.update m.nodes provider (some named)) provider).getD []) = _
    rw [Function.update_self, Function.update_self]
    rfl
  · show ((Function.update m.named provider none) q).getD
      (((Function.update m.nodes provider (some named)) q).getD []) = _
    rw [Function.update_of_ne hq, Function.update_of_ne hq]
    rfl

/-- **The tags in use** are those of the owned nodes, each of them once. -/
structure Partition (m : ProviderManager κ) : Prop where
  mem : ∀ tag, tag ∈ m.globalTags ↔ ∃ provider, tag ∈ tags (m.owned provider)
  nodup : ∀ provider, (tags (m.owned provider)).Nodup
  disjoint : ∀ p q tag, tag ∈ tags (m.owned p) → tag ∈ tags (m.owned q) → p = q

theorem partition_new (senders : List Str) : (new senders : ProviderManager κ).Partition where
  mem _ := ⟨fun h => (nomatch h), fun ⟨_, h⟩ => (nomatch h)⟩
  nodup _ := List.nodup_nil
  disjoint _ _ _ h := nomatch h

/-- Once a provider has released its tags, those of the others are in use. -/
theorem Partition.mem_others {m : ProviderManager κ} (hm : m.Partition) {provider : Str}
    (h : m.named provider = none) (tag : Str) :
    tag ∈ m.others provider ↔ ∃ q, q ≠ provider ∧ tag ∈ tags (m.owned q) := by
  rw [others, List.mem_filter, decide_eq_true_eq, hm.mem]
  have howned : tags (m.owned provider) = ((m.nodes provider).getD []).map Prod.fst := by
    rw [owned_of_none h]
    rfl
  rw [← howned]
  constructor
  · rintro ⟨⟨q, hq⟩, hnot⟩
    refine ⟨q, fun heq => ?_, hq⟩
    rw [heq] at hq
    exact hnot hq
  · rintro ⟨q, hne, hq⟩
    exact ⟨⟨q, hq⟩, fun hp => hne (hm.disjoint q provider tag hq hp)⟩

theorem Partition.dedupName {m : ProviderManager κ} (hm : m.Partition) {provider : Str}
    (h : m.named provider = none) (raw : ProviderNodes κ) :
    (m.dedupName provider raw).Partition := by
  have hothers := hm.mem_others h
  refine ⟨fun tag => ?_, fun q => ?_, fun p q tag hp hq => ?_⟩
  · show tag ∈ (nameNodes (m.others provider) raw).2 ↔ _
    -- in use are the tags of the others and the new ones
    rw [mem_snd_nameNodes, hothers, owned_dedupName]
    constructor
    · rintro (hnew | ⟨q, hne, hq⟩)
      · exact ⟨provider, by rw [Function.update_self]; exact hnew⟩
      · exact ⟨q, by rw [Function.update_of_ne hne]; exact hq⟩
    · rintro ⟨q, hq⟩
      by_cases hne : q = provider
      · rw [hne, Function.update_self] at hq
        exact .inl hq
      · rw [Function.update_of_ne hne] at hq
        exact .inr ⟨q, hne, hq⟩
  · rw [owned_dedupName]
    by_cases hq : q = provider
    · rw [hq, Function.update_self]
      exact nodup_nameNodes _ _
    · rw [Function.update_of_ne hq]
      exact hm.nodup q
  · -- a new tag was not in use by the others
    have hfree : ∀ r, r ≠ provider → tag ∈ tags (m.owned r) →
        tag ∉ tags (nameNodes (m.others provider) raw).1 := by
      intro r hr hmem hnew
      exact notMem_of_mem_nameNodes hnew ((hothers tag).mpr ⟨r, hr, hmem⟩)
    -- the new tags are different among each other
    rw [owned_dedupName] at hp hq
    by_cases hpp : p = provider
    · by_cases hqp : q = provider
      · rw [hpp, hqp]
      · rw [hpp, Function.update_self] at hp
        rw [Function.update_of_ne hqp] at hq
        exact absurd hp (hfree q hqp hq)
    · rw [Function.update_of_ne hpp] at hp
      by_cases hqp : q = provider
      · rw [hqp, Function.update_self] at hq
        exact absurd hq (hfree p hpp hp)
      · rw [Function.update_of_ne hqp] at hq
        exact hm.disjoint p q tag hp hq

theorem Partition.insertNodes {m : ProviderManager κ} (hm : m.Partition) {provider : Str}
    {named : ProviderNodes κ} (h : m.named provider = some named) :
    (m.insertNodes provider named).Partition := by
  refine ⟨?_, ?_, ?_⟩
  · rw [owned_insertNodes h]
    exact hm.mem
  · rw [owned_insertNodes h]
    exact hm.nodup
  · rw [owned_insertNodes h]
    exact hm.disjoint

/-- What a critical section does: it names the nodes of an update, or it stores the nodes that were named. -/
theorem step_cases {m m' : ProviderManager κ} {e : Section κ} (h : m.step e = some m') :
    (∃ provider raw, e = .dedup provider raw ∧ m.named provider = none ∧
      m' = m.dedupName provider raw) ∨
    (∃ provider named, e = .insert provider ∧ m.named provider = some named ∧
      m' = m.insertNodes provider named) := by
  cases e with
  | dedup provider raw =>
      simp only [step, Option.ite_none_right_eq_some, Option.some.injEq] at h
      exact .inl ⟨provider, raw, rfl, h.1, h.2.symm⟩
  | insert provider =>
      obtain ⟨named, hnamed, rfl⟩ := Option.map_eq_some_iff.mp h
      exact .inr ⟨provider, named, rfl, hnamed, rfl⟩

theorem partition_of_run {senders : List Str} {m : ProviderManager κ}
    {sections : List (Section κ)} (hrun : Transition.run step (new senders) sections = some m) :
    m.Partition := by
  refine Transition.invariant_of_steps (fun t e t' ht hinv => ?_) hrun (partition_new senders)
  obtain ⟨provider, raw, -, hnone, rfl⟩ | ⟨provider, named, -, hnamed, rfl⟩ := step_cases ht
  · exact hinv.dedupName hnone raw
  · exact hinv.insertNodes hnamed

theorem tagged_of_run {senders : List Str} {m : ProviderManager κ}
    {sections : List (Section κ)} (hrun : Transition.run step (new senders) sections = some m) :
    m.Tagged := by
  refine Transition.invariant_of_steps (fun t e t' ht hinv => ?_) hrun
    ⟨fun _ _ h => (nomatch h), fun _ _ h => (nomatch h)⟩
  obtain ⟨provider, raw, -, hnone, rfl⟩ | ⟨provider, named, -, hnamed, rfl⟩ := step_cases ht
  · exact tagged_dedupName hinv provider raw
  · exact tagged_insertNodes hinv hnamed

/-! ### The last update of a provider -/

/-- The nodes of an update on their way: named, or stored already. -/
def Underway (provider : Str) (nodes : ProviderNodes κ) (m : ProviderManager κ) : Prop :=
  m.named provider = some nodes ∨ (m.named provider = none ∧ m.nodes provider = some nodes)

/-- Until its next update, a provider keeps its nodes. -/
theorem underway_of_run {provider : Str} {nodes : ProviderNodes κ} {m m' : ProviderManager κ}
    {sections : List (Section κ)} (hrun : Transition.run step m sections = some m')
    (hlast : ∀ raw, Section.dedup provider raw ∉ sections) (h : m.Underway provider nodes) :
    m'.Underway provider nodes := by
  have hguard : Transition.Guarded step (fun _ e => ∀ raw, e ≠ Section.dedup provider raw) m
      sections :=
    Transition.guarded_of_forall (fun e he _ raw heq => hlast raw (by rw [← heq]; exact he)) m
  refine Transition.invariant_of_run (fun t e t' ht hother h => ?_) hrun hguard h
  obtain ⟨q, raw, rfl, hnone, rfl⟩ | ⟨q, named, rfl, hnamed, rfl⟩ := step_cases ht
  · -- another provider names its nodes
    have hne : provider ≠ q := fun heq => hother raw (by rw [heq])
    have hnamed : (t.dedupName q raw).named provider = t.named provider :=
      Function.update_of_ne hne _ _
    rw [Underway, hnamed]
    exact h
  · by_cases heq : provider = q
    · obtain rfl := heq
      have hnodes : named = nodes := by
        rcases h with h | ⟨h, -⟩
        · exact Option.some.inj (hnamed.symm.trans h)
        · rw [hnamed] at h
          cases h
      obtain rfl := hnodes
      exact .inr ⟨Function.update_self .., Function.update_self ..⟩
    · have hnamed' : (t.insertNodes q named).named provider = t.named provider :=
        Function.update_of_ne heq _ _
      have hnodes' : (t.insertNodes q named).nodes provider = t.nodes provider :=
        Function.update_of_ne heq _ _
      rw [Underway, hnamed', hnodes']
      exact h

/-- **An update again.** If the others own what they owned at the last update, the same raw nodes
    are named as they were then. -/
theorem nameNodes_others {m m₀ : ProviderManager κ} (hm : m.Partition) (hm₀ : m₀.Partition)
    {provider : Str} (h : m.named provider = none) (h₀ : m₀.named provider = none)
    (hsame : ∀ q, q ≠ provider → m.owned q = m₀.owned q) (raw : ProviderNodes κ) :
    (nameNodes (m.others provider) raw).1 = (nameNodes (m₀.others provider) raw).1 := by
  refine nameNodes_congr (fun tag => ?_) raw
  rw [hm.mem_others h, hm₀.mem_others h₀]
  refine exists_congr fun q => and_congr_right fun hq => ?_
  rw [hsame q hq]

/-! ### Between updates -/

/-- The stored tags are distinct, within a provider and between providers; they are the tags in use;
    and every node carries its tag. -/
structure Settled (m : ProviderManager κ) : Prop where
  nodup : ∀ provider stored, m.nodes provider = some stored → (tags stored).Nodup
  distinct : ∀ p q stored stored' tag, m.nodes p = some stored → m.nodes q = some stored' →
    tag ∈ tags stored → tag ∈ tags stored' → p = q
  global : ∀ tag, tag ∈ m.globalTags ↔
    ∃ provider stored, m.nodes provider = some stored ∧ tag ∈ tags stored
  keyed : ∀ provider stored, m.nodes provider = some stored → ∀ node ∈ stored, node.2.tag = node.1

/-- The nodes of the update `raw` are all there; and the same update again, if the others own what
    they owned in `m₀`, where it was made, stores the same nodes. -/
structure Kept (m₀ m : ProviderManager κ) (provider : Str) (raw : ProviderNodes κ) : Prop where
  stored : ∃ stored, m.nodes provider = some stored ∧ List.Forall₂ Renamed raw stored
  again : (∀ q, q ≠ provider → m.owned q = m₀.owned q) →
    ∃ m', Transition.run step m [.dedup provider raw, .insert provider] = some m' ∧
      m'.nodes provider = m.nodes provider

theorem owned_of_stored {m : ProviderManager κ} (hquiet : m.Quiet) {provider : Str}
    {stored : ProviderNodes κ} (h : m.nodes provider = some stored) : m.owned provider = stored := by
  rw [owned_of_none (hquiet provider), h]
  rfl

theorem Partition.settled {m : ProviderManager κ} (hm : m.Partition) (htagged : m.Tagged)
    (hquiet : m.Quiet) : m.Settled where
  nodup provider stored h := by
    have hnodup := hm.nodup provider
    rwa [owned_of_stored hquiet h] at hnodup
  distinct p q stored stored' tag hp hq htag htag' := by
    refine hm.disjoint p q tag ?_ ?_
    · rwa [owned_of_stored hquiet hp]
    · rwa [owned_of_stored hquiet hq]
  global tag := by
    rw [hm.mem]
    constructor
    · rintro ⟨provider, htag⟩
      rw [owned_of_none (hquiet provider)] at htag
      rcases hnodes : m.nodes provider with _ | stored
      · rw [hnodes] at htag
        cases htag
      · rw [hnodes] at htag
        exact ⟨provider, stored, hnodes, htag⟩
    · rintro ⟨provider, stored, hnodes, htag⟩
      exact ⟨provider, by rwa [owned_of_stored hquiet hnodes]⟩
  keyed := htagged.nodes

/-- **Updates.** After every sequence of critical sections, whenever no update is in progress: the
    stored tags are pairwise distinct and just the tags in use, every node carries its tag, the last
    update of each provider has lost no node, and the same update again, while the others are
    unchanged, yields the same nodes. -/
theorem updates_settled (senders : List Str) (sections : List (Section κ)) (m : ProviderManager κ)
    (hrun : Transition.run step (new senders) sections = some m) (hquiet : m.Quiet) :
    m.Settled ∧
      ∀ before provider raw after m₀, sections = before ++ .dedup provider raw :: after →
        (∀ raw', Section.dedup provider raw' ∉ after) →
        Transition.run step (new senders) before = some m₀ → m₀.Kept m provider raw := by
  have hm := partition_of_run hrun
  refine ⟨hm.settled (tagged_of_run hrun) hquiet, ?_⟩
  intro before provider raw after m₀ hsections hlast hbefore
  have hm₀ := partition_of_run hbefore
  -- the run goes through the state of the last update
  rw [hsections] at hrun
  obtain ⟨m₀', hm₀', hrest⟩ := Transition.run_append_eq_some.mp hrun
  obtain rfl := Option.some.inj (hbefore.symm.trans hm₀')
  obtain ⟨m₁, hm₁, hafter⟩ := Option.bind_eq_some_iff.mp hrest
  simp only [step, Option.ite_none_right_eq_some, Option.some.injEq] at hm₁
  obtain ⟨hnone₀, rfl⟩ := hm₁
  have hstored : m.nodes provider = some (nameNodes (m₀.others provider) raw).1 := by
    rcases underway_of_run hafter hlast (.inl (m₀.named_dedupName provider raw)) with h | h
    · rw [hquiet provider] at h
      cases h
    · exact h.2
  refine ⟨⟨_, hstored, renamed_nameNodes _ _⟩, fun hsame => ?_⟩
  have hnames := nameNodes_others hm hm₀ (hquiet provider) hnone₀ hsame raw
  have hfirst : m.step (.dedup provider raw) = some (m.dedupName provider raw) :=
    if_pos (hquiet provider)
  have hsecond : (m.dedupName provider raw).step (.insert provider)
      = some ((m.dedupName provider raw).insertNodes provider (nameNodes (m.others provider) raw).1) :=
    by rw [step, named_dedupName]; rfl
  refine ⟨(m.dedupName provider raw).insertNodes provider (nameNodes (m.others provider) raw).1,
    ?_, ?_⟩
  · rw [Transition.run, hfirst, Option.bind_some, Transition.run, hsecond]
    rfl
  · rw [hstored, ← hnames]
    exact Function.update_self ..

/-- Two providers with a node of the same name: the second is named while the first is not stored
    yet, and stored before it. -/
def twoUpdates : List (Section Unit) :=
  [.dedup ['p'] [(['a'], .leaf ['a'] ())], .dedup ['q'] [(['a'], .leaf ['a'] ())], .insert ['q'],
    .insert ['p']]

theorem updates_settled_two :
    ∃ m, Transition.run step (new []) twoUpdates = some m ∧ m.Quiet ∧ m.Settled ∧
      m.nodes ['p'] = some [(['a'], .leaf ['a'] ())] ∧
      m.nodes ['q'] = some [("a_1".toList, .leaf "a_1".toList ())] := by
  obtain ⟨m, hrun⟩ : ∃ m, Transition.run step (new []) twoUpdates = some m := ⟨_, rfl⟩
  have hm := Option.some.inj (hrun.symm.trans rfl)
  have hquiet : m.Quiet := by
    intro provider
    rw [hm]
    show Function.update (Function.update (Function.update (Function.update (fun _ => none) ['p'] _)
      ['q'] _) ['q'] none) ['p'] none provider = none
    simp only [Function.update_apply]
    split_ifs <;> rfl
  refine ⟨m, hrun, hquiet, (updates_settled [] twoUpdates m hrun hquiet).1, ?_, ?_⟩
  · rw [hm]
    rfl
  · rw [hm]
    rfl

end ProviderManager

end Reflex.Provider
