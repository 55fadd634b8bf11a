import Reflex.Outbound.UrlTest

namespace Reflex.Outbound

open RustStd Transition

/-!
# Outbounds — who selects in a url-test group

The selection of `UrlTestOutbound` of `outbound/group.rs` lock by lock.  `refresh_provider_nodes` holds the
lock of `all_tags` while it reads and clears `selected`; `force_selected` gives it back before it writes; a
probe round has a copy of `all_tags` from when it was spawned, and reads and writes `selected` under two
locks.  When a round starts, and which flag it wins, is in the module on probes: here it can start at any
time.

* `select_eq_choose` — a round that nothing comes between selects as described there;
* `choose_respects` — what it does with a selection that it has read;
* `kept_of_reads` — so no manual selection is lost to a round that has read it, in any run;
* `calm_iff_good` — which steps keep the current tag among the members and respect a manual selection;
* `good_iff` — so in every state of a run, exactly if every step meets `Calm`.
-/

/-! ### The group -/

/-- How far a refresh is: it has the lock of `all_tags`, it has found that the selection has to go, and it
    is about to store the new list. -/
inductive RefreshStage where
  | locked
  | clearing
  | committing
  deriving DecidableEq

/-- A call of `refresh_provider_nodes`, with `new_all`. -/
structure Refresh where
  newAll : List Str
  stage : RefreshStage
  deriving DecidableEq

/-- Where a probe round is: it measures, or it has read the selection and knows what it will write. -/
inductive RoundStage where
  | probing
  | chosen (current : Option Str) (new : Str) (measured : List (Str × Option UInt64))
  deriving DecidableEq

/-- A probe round, with the `all_tags` it was spawned with, and the manual selection that was made since
    then and still stands. -/
structure Round where
  allTags : List Str
  stage : RoundStage
  manual : Option Str
  deriving DecidableEq

/-- A round has written over a manual selection. -/
structure Publication where
  manual : Str
  new : Str
  measured : List (Str × Option UInt64)
  deriving DecidableEq

/-- `UrlTestOutbound` with the refresh that has the lock, the calls of `force_selected` behind their check,
    and the probe rounds; and what rounds have written over manual selections. -/
structure UrlTestRace where
  group : UrlTestOutbound
  tolerance : UInt64
  refresh : Option Refresh := none
  forcing : Nat → Option Str := fun _ => none
  rounds : Nat → Option Round := fun _ => none
  published : List Publication := []

/-- What a thread or a round does, up to the next lock. -/
inductive RaceAction where
  /-- `refresh_provider_nodes` takes the lock of `all_tags`, -/
  | lock (nodes : List Str)
  /-- reads the selection, -/
  | read
  /-- clears it, -/
  | clear
  /-- and stores the new list. -/
  | commit
  /-- `force_selected` looks for the tag, -/
  | check (c : Nat) (tag : Str)
  /-- and selects it. -/
  | force (c : Nat)
  /-- `current_tag` spawns a round, -/
  | spawn (i : Nat)
  /-- which has measured and reads the selection, -/
  | choose (i : Nat) (measured : List (Str × Option UInt64))
  /-- and writes it. -/
  | publish (i : Nat)

/-- The best of the nodes that were reached. -/
def best (measured : List (Str × Option UInt64)) : Option (Str × UInt64) :=
  (measured.filterMap fun (tag, latency) => latency.map fun l => (tag, l)).argmin fun p => p.2.toNat

/-- What a round will write, if it has reached a node. -/
def choose (tolerance : UInt64) (measured : List (Str × Option UInt64)) (current : Option Str) :
    Option Str :=
  (best measured).map fun (bestTag, bestLatency) =>
    match current with
    | none => bestTag
    | some cur =>
        match (measured.lookup cur).join with
        | some l => if l ≤ bestLatency + tolerance then cur else bestTag
        | none => bestTag

/-- The node failed its probe, or is worse than the best by more than the tolerance. -/
def Lost (tolerance : UInt64) (measured : List (Str × Option UInt64)) (tag : Str) : Prop :=
  match measured.lookup tag with
  | some none => True
  | some (some l) => ∃ b ∈ best measured, b.2.toNat + tolerance.toNat < l.toNat
  | none => False

/-- The best latency and the tolerance add up without overflow. -/
def NoOverflow (tolerance : UInt64) (measured : List (Str × Option UInt64)) : Prop :=
  ∀ b ∈ best measured, b.2.toNat + tolerance.toNat < 2 ^ 64

/-- A round whose halves nothing comes between selects as one step. -/
theorem select_eq_choose (tolerance : UInt64) (measured : List (Str × Option UInt64))
    (selected : Option Str) :
    UrlTestGroup.select tolerance measured selected = (choose tolerance measured selected <|> selected) := by
  unfold UrlTestGroup.select choose
  dsimp only
  change (match best measured with
    | none => selected
    | some (bestTag, bestLatency) => _) = _
  cases best measured with
  | none => rfl
  | some b =>
    cases selected with
    | none => rfl
    | some cur =>
      dsimp only [Option.map_some]
      cases (measured.lookup cur).join with
      | none => rfl
      | some l =>
        dsimp only
        split <;> rfl

/-- **A selection that was read** and measured is kept, unless it is lost. -/
theorem choose_respects {tolerance : UInt64} {measured : List (Str × Option UInt64)} {allTags : List Str}
    {tag new : Str} (hchoose : choose tolerance measured (some tag) = some new)
    (hmeasured : (measured.map Prod.fst).Perm allTags.dedup) (htag : tag ∈ allTags)
    (hflow : NoOverflow tolerance measured) : new = tag ∨ Lost tolerance measured tag := by
  have hkey : tag ∈ measured.map Prod.fst := hmeasured.mem_iff.mpr (List.mem_dedup.mpr htag)
  obtain ⟨latency, hlatency⟩ : ∃ latency, measured.lookup tag = some latency := by
    refine Option.isSome_iff_exists.mp (List.lookup_isSome_iff.mpr ?_)
    obtain ⟨entry, hentry, rfl⟩ := List.mem_map.mp hkey
    exact ⟨entry, hentry, beq_self_eq_true _⟩
  obtain ⟨b, hb, hnew⟩ := Option.map_eq_some_iff.mp hchoose
  rw [Lost, hlatency]
  dsimp only at hnew
  rw [hlatency] at hnew
  cases latency with
  | none => exact .inr trivial
  | some l =>
    dsimp only [Option.join_some] at hnew
    split at hnew
    · exact .inl hnew.symm
    · rename_i hworse
      refine .inr ⟨b, hb, ?_⟩
      rw [UInt64.le_iff_toNat_le, UInt64.toNat_add, Nat.mod_eq_of_lt (hflow b hb)] at hworse
      exact Nat.lt_of_not_le hworse

namespace UrlTestRace

/-- `UrlTestOutbound::new`, with the tolerance of the configuration. -/
def new (tag : Str) (outbounds : List Str) (tolerance : UInt64) : UrlTestRace :=
  { group := { tag, outbounds, allTags := outbounds, selected := none }, tolerance }

/-- A write to `selected`; a manual one stands for all the rounds that run. -/
def write (s : UrlTestRace) (selected manual : Option Str) : UrlTestRace :=
  { s with
    group := { s.group with selected }
    rounds := fun i => (s.rounds i).map fun round => { round with manual } }

/-- One step: a refresh, a manual selection or a round does what it does up to the next lock. -/
def step (s : UrlTestRace) : RaceAction → Option UrlTestRace
  | .lock nodes =>
      if s.refresh = none then
        some { s with
          refresh := some ⟨Provider.refreshTags s.group.outbounds s.group.allTags nodes, .locked⟩ }
      else none
  | .read =>
      match s.refresh with
      | some ⟨newAll, .locked⟩ =>
          let keeps := ∀ cur ∈ s.group.selected, cur ∈ newAll
          some { s with refresh := some ⟨newAll, if keeps then .committing else .clearing⟩ }
      | _ => none
  | .clear =>
      match s.refresh with
      | some ⟨newAll, .clearing⟩ =>
          some { s.write none none with refresh := some ⟨newAll, .committing⟩ }
      | _ => none
  | .commit =>
      match s.refresh with
      | some ⟨newAll, .committing⟩ =>
          some { s with group := { s.group with allTags := newAll }, refresh := none }
      | _ => none
  | .check c tag =>
      if s.refresh = none ∧ s.forcing c = none ∧ tag ∈ s.group.allTags then
        some { s with forcing := Function.update s.forcing c (some tag) }
      else none
  | .force c =>
      match s.forcing c with
      | some tag =>
          some { s.write (some tag) (some tag) with forcing := Function.update s.forcing c none }
      | none => none
  | .spawn i =>
      if s.refresh = none ∧ s.rounds i = none then
        some { s with rounds := Function.update s.rounds i (some ⟨s.group.allTags, .probing, none⟩) }
      else none
  | .choose i measured =>
      match s.rounds i with
      | some ⟨allTags, .probing, manual⟩ =>
          -- the map has one entry for each tag
          if (measured.map Prod.fst).Perm allTags.dedup then
            let round := (choose s.tolerance measured s.group.selected).map fun new =>
              (⟨allTags, .chosen s.group.selected new measured, manual⟩ : Round)
            some { s with rounds := Function.update s.rounds i round }
          else none
      | _ => none
  | .publish i =>
      match s.rounds i with
      | some ⟨_, .chosen _ new measured, manual⟩ =>
          let s := s.write (some new) none
          some { s with
            rounds := Function.update s.rounds i none
            published := s.published ++ manual.toList.map fun manual => ⟨manual, new, measured⟩ }
      | _ => none

/-! ### What is asked -/

/-- What `current_tag` returns is a member, as long as there are members; and a round that wrote over a
    manual selection wrote the same, or that was lost.  A call that finds nothing selected takes the first
    member after that, so it is at its second lock that it is looked at. -/
structure Good (s : UrlTestRace) : Prop where
  member : s.group.allTags ≠ [] → s.group.currentTag ∈ s.group.allTags
  manual : ∀ p ∈ s.published, p.new = p.manual ∨ Lost s.tolerance p.measured p.manual

/-- A round has read the manual selection and probed it, and the latency that it compares it with does not overflow. -/
def HasRead (tolerance : UInt64) (allTags : List Str) (current : Option Str) (measured : List (Str × Option UInt64))
    (manual : Str) : Prop :=
  current = some manual ∧ manual ∈ allTags ∧ NoOverflow tolerance measured

/-- A round respects a manual selection if it has read and measured it, if it writes the same, or if that
    was lost. -/
def Respects (tolerance : UInt64) (allTags : List Str) (current : Option Str) (new : Str)
    (measured : List (Str × Option UInt64)) (manual : Str) : Prop :=
  HasRead tolerance allTags current measured manual ∨ new = manual ∨ Lost tolerance measured manual

/-- The condition on a step: a tag that is written to `selected` is still a member, and so is the selected
    one in a list that is stored; and a round respects the manual selection that it writes over. -/
def Calm (s : UrlTestRace) : RaceAction → Prop
  | .force c => ∀ tag ∈ s.forcing c, s.group.allTags ≠ [] → tag ∈ s.group.allTags
  | .publish i => ∀ round ∈ s.rounds i, match round.stage with
      | .probing => True
      | .chosen current new measured => (s.group.allTags ≠ [] → new ∈ s.group.allTags) ∧
          ∀ manual ∈ round.manual, Respects s.tolerance round.allTags current new measured manual
  | .commit => ∀ refresh ∈ s.refresh, refresh.newAll ≠ [] →
      ∀ tag ∈ s.group.selected, tag ∈ refresh.newAll
  | _ => True

/-- A round that writes over a manual selection has read it.  What the round then writes is not looked at. -/
def Reads (s : UrlTestRace) : RaceAction → Prop
  | .publish i => ∀ round ∈ s.rounds i, match round.stage with
      | .probing => True
      | .chosen current _ measured =>
          ∀ manual ∈ round.manual, HasRead s.tolerance round.allTags current measured manual
  | _ => True

/-- What a round has chosen it has chosen so, and a manual selection that stands is the selection. -/
structure Inv (s : UrlTestRace) : Prop where
  chosen : ∀ i round current new measured, s.rounds i = some round →
    round.stage = .chosen current new measured →
      choose s.tolerance measured current = some new ∧
        (measured.map Prod.fst).Perm round.allTags.dedup
  manual : ∀ i round, s.rounds i = some round → ∀ manual ∈ round.manual, s.group.selected = some manual

/-! ### One step -/

variable {s s' : UrlTestRace}

/-- The current tag is a member exactly if the selected one is. -/
theorem currentTag_mem_iff {g : UrlTestOutbound} (h : g.allTags ≠ []) :
    g.currentTag ∈ g.allTags ↔ ∀ tag ∈ g.selected, tag ∈ g.allTags := by
  unfold UrlTestOutbound.currentTag
  cases hselected : g.selected with
  | some tag => simp
  | none =>
    obtain ⟨first, rest, hall⟩ := List.exists_cons_of_ne_nil h
    simp [hall]

theorem rounds_write {selected manual : Option Str} {i : Nat} {round : Round}
    (h : (s.write selected manual).rounds i = some round) :
    ∃ old, s.rounds i = some old ∧ round = { old with manual } := by
  obtain ⟨old, hold, rfl⟩ := Option.map_eq_some_iff.mp h
  exact ⟨old, hold, rfl⟩

theorem inv_new (tag : Str) (outbounds : List Str) (tolerance : UInt64) :
    (new tag outbounds tolerance).Inv := ⟨nofun, nofun⟩

/-- A write leaves the rounds what they have chosen. -/
theorem Inv.write (hs : s.Inv) {selected manual : Option Str} (h : ∀ m ∈ manual, selected = some m) :
    (s.write selected manual).Inv := by
  refine ⟨fun i round current new measured hround hstage => ?_, fun i round hround m hm => ?_⟩
  · obtain ⟨old, hold, rfl⟩ := rounds_write hround
    exact hs.chosen i old current new measured hold hstage
  · obtain ⟨old, -, rfl⟩ := rounds_write hround
    exact h m hm

/-- A round is taken out, or comes in or goes on with what is right of it. -/
theorem Inv.update (hs : s.Inv) (i : Nat) {round : Option Round}
    (hchosen : ∀ r ∈ round, ∀ current new measured, r.stage = .chosen current new measured →
      choose s.tolerance measured current = some new ∧ (measured.map Prod.fst).Perm r.allTags.dedup)
    (hmanual : ∀ r ∈ round, ∀ m ∈ r.manual, s.group.selected = some m) :
    Inv { s with rounds := Function.update s.rounds i round } := by
  refine ⟨fun j r current new measured hr hstage => ?_, fun j r hr m hm => ?_⟩
  · dsimp only at hr
    by_cases hj : j = i
    · rw [hj, Function.update_self] at hr
      exact hchosen r hr current new measured hstage
    · rw [Function.update_of_ne hj] at hr
      exact hs.chosen j r current new measured hr hstage
  · dsimp only at hr
    by_cases hj : j = i
    · rw [hj, Function.update_self] at hr
      exact hmanual r hr m hm
    · rw [Function.update_of_ne hj] at hr
      exact hs.manual j r hr m hm

/-- **What a round publishes** is the tag that it has chosen, over whatever is selected by then. -/
theorem publish_cases {i : Nat} (h : s.step (.publish i) = some s') :
    ∃ allTags current new measured manual,
      s.rounds i = some ⟨allTags, .chosen current new measured, manual⟩ ∧
      s' = { s.write (some new) none with
        rounds := Function.update (s.write (some new) none).rounds i none
        published := s.published ++ manual.toList.map fun manual => ⟨manual, new, measured⟩ } := by
  rw [step] at h
  split at h
  · rename_i allTags current new measured manual hround
    exact ⟨allTags, current, new, measured, manual, hround, (Option.some.inj h).symm⟩
  · cases h

theorem commit_cases (h : s.step .commit = some s') :
    ∃ newAll, s.refresh = some ⟨newAll, .committing⟩ ∧
      s' = { s with group := { s.group with allTags := newAll }, refresh := none } := by
  rw [step] at h
  split at h
  · rename_i newAll hrefresh
    exact ⟨newAll, hrefresh, (Option.some.inj h).symm⟩
  · cases h

theorem force_cases {c : Nat} (h : s.step (.force c) = some s') :
    ∃ tag, s.forcing c = some tag ∧
      s' = { s.write (some tag) (some tag) with forcing := Function.update s.forcing c none } := by
  rw [step] at h
  split at h
  · rename_i tag htag
    exact ⟨tag, htag, (Option.some.inj h).symm⟩
  · cases h

theorem clear_cases (h : s.step .clear = some s') :
    ∃ newAll, s' = { s.write none none with refresh := some ⟨newAll, .committing⟩ } := by
  rw [step] at h
  split at h
  · rename_i newAll hrefresh
    exact ⟨newAll, (Option.some.inj h).symm⟩
  · cases h

theorem choose_cases {i : Nat} {measured : List (Str × Option UInt64)}
    (h : s.step (.choose i measured) = some s') :
    ∃ allTags manual, s.rounds i = some ⟨allTags, .probing, manual⟩ ∧
      (measured.map Prod.fst).Perm allTags.dedup ∧
      s' = { s with
        rounds := Function.update s.rounds i
          ((choose s.tolerance measured s.group.selected).map fun new =>
            ⟨allTags, .chosen s.group.selected new measured, manual⟩) } := by
  rw [step] at h
  split at h
  · rename_i allTags manual hround
    obtain ⟨hperm, h⟩ := Option.ite_none_right_eq_some.mp h
    exact ⟨allTags, manual, hround, hperm, (Option.some.inj h).symm⟩
  · cases h

/-- **The other steps** write nothing that is asked about. -/
theorem quiet_of_step {a : RaceAction} (h : s.step a = some s') (hcommit : a ≠ .commit)
    (hclear : a ≠ .clear) (hforce : ∀ c, a ≠ .force c) (hpublish : ∀ i, a ≠ .publish i) :
    s'.group = s.group ∧ s'.published = s.published ∧ s'.tolerance = s.tolerance := by
  cases a with
  | lock nodes =>
    obtain ⟨-, h⟩ := Option.ite_none_right_eq_some.mp h
    obtain rfl := Option.some.inj h
    exact ⟨rfl, rfl, rfl⟩
  | read =>
    rw [step] at h
    split at h
    · obtain rfl := Option.some.inj h
      exact ⟨rfl, rfl, rfl⟩
    · cases h
  | clear => exact absurd rfl hclear
  | commit => exact absurd rfl hcommit
  | check c tag =>
    obtain ⟨-, h⟩ := Option.ite_none_right_eq_some.mp h
    obtain rfl := Option.some.inj h
    exact ⟨rfl, rfl, rfl⟩
  | force c => exact absurd rfl (hforce c)
  | spawn i =>
    obtain ⟨-, h⟩ := Option.ite_none_right_eq_some.mp h
    obtain rfl := Option.some.inj h
    exact ⟨rfl, rfl, rfl⟩
  | choose i measured =>
    obtain ⟨allTags, manual, -, -, rfl⟩ := choose_cases h
    exact ⟨rfl, rfl, rfl⟩
  | publish i => exact absurd rfl (hpublish i)

theorem Inv.step (hs : s.Inv) {a : RaceAction} (h : s.step a = some s') : s'.Inv := by
  cases a with
  | lock nodes =>
    obtain ⟨-, h⟩ := Option.ite_none_right_eq_some.mp h
    obtain rfl := Option.some.inj h
    exact ⟨hs.chosen, hs.manual⟩
  | read =>
    rw [UrlTestRace.step] at h
    split at h
    · obtain rfl := Option.some.inj h
      exact ⟨hs.chosen, hs.manual⟩
    · cases h
  | clear =>
    obtain ⟨newAll, rfl⟩ := clear_cases h
    -- clearing the selection takes the manual one away as well
    have hwrite : (s.write none none).Inv := hs.write nofun
    exact ⟨hwrite.chosen, hwrite.manual⟩
  | commit =>
    obtain ⟨newAll, -, rfl⟩ := commit_cases h
    exact ⟨hs.chosen, hs.manual⟩
  | check c tag =>
    obtain ⟨-, h⟩ := Option.ite_none_right_eq_some.mp h
    obtain rfl := Option.some.inj h
    exact ⟨hs.chosen, hs.manual⟩
  | force c =>
    obtain ⟨tag, -, rfl⟩ := force_cases h
    have hwrite : (s.write (some tag) (some tag)).Inv := hs.write fun _ hm => hm
    exact ⟨hwrite.chosen, hwrite.manual⟩
  | spawn i =>
    obtain ⟨-, h⟩ := Option.ite_none_right_eq_some.mp h
    obtain rfl := Option.some.inj h
    refine hs.update i ?_ ?_
    · rintro r hr current new measured hstage
      obtain rfl := Option.some.inj hr
      cases hstage
    · rintro r hr m hm
      obtain rfl := Option.some.inj hr
      cases hm
  | choose i measured =>
    obtain ⟨allTags, manual, hround, hperm, rfl⟩ := choose_cases h
    refine hs.update i ?_ ?_
    · rintro r hr current new measured' hstage
      -- the round remembers what it has chosen by
      obtain ⟨new', hnew, rfl⟩ := Option.map_eq_some_iff.mp hr
      obtain ⟨rfl, rfl, rfl⟩ := RoundStage.chosen.inj hstage
      exact ⟨hnew, hperm⟩
    · rintro r hr m hm
      obtain ⟨new', -, rfl⟩ := Option.map_eq_some_iff.mp hr
      exact hs.manual i _ hround m hm
  | publish i =>
    obtain ⟨allTags, current, new, measured, manual, -, rfl⟩ := publish_cases h
    have hwrite : (s.write (some new) none).Inv := hs.write nofun
    -- a write without a manual selection, and the round is over
    have hupdate : Inv { s.write (some new) none with
        rounds := Function.update (s.write (some new) none).rounds i none } := hwrite.update i nofun nofun
    exact ⟨hupdate.chosen, hupdate.manual⟩

/-- Nothing that is asked about has changed. -/
theorem Good.of_eq (hgood : s.Good) (hgroup : s'.group = s.group) (hpublished : s'.published = s.published)
    (htolerance : s'.tolerance = s.tolerance) : s'.Good := by
  refine ⟨?_, ?_⟩
  · rw [hgroup]
    exact hgood.member
  · rw [hpublished, htolerance]
    exact hgood.manual

/-- A round respects a manual selection exactly if it writes the same, or that was lost. -/
theorem respects_iff {tolerance : UInt64} {allTags : List Str} {current : Option Str} {new manual : Str}
    {measured : List (Str × Option UInt64)} (hchoose : choose tolerance measured current = some new)
    (hmeasured : (measured.map Prod.fst).Perm allTags.dedup) :
    Respects tolerance allTags current new measured manual ↔
      new = manual ∨ Lost tolerance measured manual := by
  constructor
  · rintro (⟨rfl, hmem, hflow⟩ | hkept)
    · exact choose_respects hchoose hmeasured hmem hflow
    · exact hkept
  · exact .inr

/-- **The condition** is what keeps the state good. -/
theorem calm_iff_good {a : RaceAction} (h : s.step a = some s') (hs : s.Inv) (hgood : s.Good) :
    s.Calm a ↔ s'.Good := by
  cases a with
  | clear =>
    obtain ⟨newAll, rfl⟩ := clear_cases h
    -- without a selection the first member is the current one
    refine iff_of_true trivial ⟨fun hne => ?_, hgood.manual⟩
    exact (currentTag_mem_iff hne).mpr nofun
  | commit =>
    obtain ⟨newAll, hrefresh, rfl⟩ := commit_cases h
    constructor
    · intro hcalm
      refine ⟨fun hne => (currentTag_mem_iff hne).mpr ?_, hgood.manual⟩
      exact hcalm _ hrefresh hne
    · intro hgood' refresh hrefresh' hne
      obtain rfl := Option.some.inj (hrefresh.symm.trans hrefresh')
      exact (currentTag_mem_iff (g := { s.group with allTags := newAll }) hne).mp (hgood'.member hne)
  | force c =>
    obtain ⟨tag, htag, rfl⟩ := force_cases h
    constructor
    · intro hcalm
      refine ⟨fun hne => (currentTag_mem_iff hne).mpr ?_, hgood.manual⟩
      rintro tag' htag'
      obtain rfl := Option.some.inj htag'
      exact hcalm tag htag hne
    · intro hgood' tag' htag' hne
      obtain rfl := Option.some.inj (htag.symm.trans htag')
      exact hgood'.member hne
  | publish i =>
    obtain ⟨allTags, current, new, measured, manual, hround, rfl⟩ := publish_cases h
    obtain ⟨hchoose, hmeasured⟩ := hs.chosen i _ current new measured hround rfl
    constructor
    · intro hcalm
      obtain ⟨hmember, hrespects⟩ := hcalm _ hround
      refine ⟨hmember, fun p hp => ?_⟩
      -- what was published before is as it was; the new entry is that of this round
      rcases List.mem_append.mp hp with hold | hnew
      · exact hgood.manual p hold
      · obtain ⟨m, hm, rfl⟩ := List.mem_map.mp hnew
        exact (respects_iff hchoose hmeasured).mp (hrespects m (Option.mem_toList.mp hm))
    · intro hgood' round hround'
      obtain rfl := Option.some.inj (hround.symm.trans hround')
      refine ⟨hgood'.member, fun m hm => (respects_iff hchoose hmeasured).mpr ?_⟩
      exact hgood'.manual ⟨m, new, measured⟩
        (List.mem_append_right _ (List.mem_map.mpr ⟨m, Option.mem_toList.mpr hm, rfl⟩))
  -- the other steps write no selection
  | _ =>
    obtain ⟨hgroup, hpublished, htolerance⟩ := quiet_of_step h nofun nofun nofun nofun
    exact iff_of_true trivial (hgood.of_eq hgroup hpublished htolerance)

/-- The step lemma for the manual selections alone. -/
theorem kept_step {a : RaceAction} (h : s.step a = some s') (hs : s.Inv) (hreads : s.Reads a)
    (hkept : ∀ p ∈ s.published, p.new = p.manual ∨ Lost s.tolerance p.measured p.manual) :
    ∀ p ∈ s'.published, p.new = p.manual ∨ Lost s'.tolerance p.measured p.manual := by
  cases a with
  | clear =>
    obtain ⟨newAll, rfl⟩ := clear_cases h
    exact hkept
  | commit =>
    obtain ⟨newAll, -, rfl⟩ := commit_cases h
    exact hkept
  | force c =>
    obtain ⟨tag, -, rfl⟩ := force_cases h
    exact hkept
  | publish i =>
    obtain ⟨allTags, current, new, measured, manual, hround, rfl⟩ := publish_cases h
    obtain ⟨hchoose, hmeasured⟩ := hs.chosen i _ current new measured hround rfl
    intro p hp
    rcases List.mem_append.mp hp with hold | hnew
    · exact hkept p hold
    · obtain ⟨m, hm, rfl⟩ := List.mem_map.mp hnew
      obtain ⟨rfl, hmem, hflow⟩ := hreads _ hround m (Option.mem_toList.mp hm)
      exact choose_respects hchoose hmeasured hmem hflow
  | _ =>
    obtain ⟨-, hpublished, htolerance⟩ := quiet_of_step h nofun nofun nofun nofun
    rw [hpublished, htolerance]
    exact hkept

/-- **Reading is enough.** If every round has read the manual selections that it writes over, it keeps them, or they
    are lost, whatever else it does and whether or not the tags are members. -/
theorem kept_of_reads {tag : Str} {outbounds : List Str} {tolerance : UInt64} {actions : List RaceAction}
    (hrun : run step (new tag outbounds tolerance) actions = some s)
    (hguard : Guarded step Reads (new tag outbounds tolerance) actions) :
    ∀ p ∈ s.published, p.new = p.manual ∨ Lost s.tolerance p.measured p.manual := by
  have hstep : ∀ s a s', step s a = some s' → s.Reads a →
      (s.Inv ∧ ∀ p ∈ s.published, p.new = p.manual ∨ Lost s.tolerance p.measured p.manual) →
      s'.Inv ∧ ∀ p ∈ s'.published, p.new = p.manual ∨ Lost s'.tolerance p.measured p.manual :=
    fun _ _ _ h hreads hs => ⟨hs.1.step h, kept_step h hs.1 hreads hs.2⟩
  exact (invariant_of_run hstep hrun hguard ⟨inv_new tag outbounds tolerance, nofun⟩).2

/-- **Selecting.** In every run of refreshes, manual selections and probe rounds: what `current_tag`
    returns is a member, and no round writes over a manual selection that was made while it ran and is not
    lost, in every state, exactly if every step is calm. -/
theorem good_iff {tag : Str} {outbounds : List Str} {tolerance : UInt64} {actions : List RaceAction}
    (hrun : run step (new tag outbounds tolerance) actions = some s) :
    Guarded step Calm (new tag outbounds tolerance) actions ↔
      ∀ before after t, actions = before ++ after →
        run step (new tag outbounds tolerance) before = some t → t.Good := by
  have hinv : ∀ s a s', step s a = some s' → s.Inv → s'.Inv := fun _ _ _ h hs => hs.step h
  have hgood : ∀ s a s', step s a = some s' → s.Inv → s.Good → (s.Calm a ↔ s'.Good) :=
    fun _ _ _ h hs hgood => calm_iff_good h hs hgood
  refine guarded_iff_always hinv hgood hrun (inv_new tag outbounds tolerance) ⟨fun hne => ?_, nofun⟩
  exact (currentTag_mem_iff hne).mpr nofun

/-- A manual selection is made before the round reads it, and is kept. -/
def forcedBefore : List RaceAction :=
  [.spawn 0, .check 0 ['b'], .force 0, .choose 0 [(['a'], some 10), (['b'], some 12)], .publish 0]

theorem good_forcedBefore :
    Guarded step Calm (new ['g'] [['a'], ['b']] 5) forcedBefore ↔
      ∀ before after t, forcedBefore = before ++ after →
        run step (new ['g'] [['a'], ['b']] 5) before = some t → t.Good := by
  obtain ⟨s, hs⟩ : ∃ s, run step (new ['g'] [['a'], ['b']] 5) forcedBefore = some s := ⟨_, rfl⟩
  exact good_iff hs

/-- What a round measures in the second race. -/
def measuredTwo : List (Str × Option UInt64) := [(['a'], some 10), (['b'], some 12)]

/-- **Two races.** A node is taken out while a round measures it, and is selected afterwards; and a manual
    selection that is within the tolerance, made after the round has read the selection, is written over. -/
theorem not_good :
    (∃ s, run step (new ['g'] [['a']] 5) [.lock [['b']], .read, .commit, .spawn 0, .lock [], .read, .commit,
          .choose 0 [(['a'], none), (['b'], some 10)], .publish 0] = some s ∧
        s.group.allTags = [['a']] ∧ s.group.currentTag = ['b'] ∧ ¬ s.Good) ∧
      ∃ s, run step (new ['g'] [['a'], ['b']] 5) [.spawn 0, .check 0 ['b'], .choose 0 measuredTwo, .force 0,
          .publish 0] = some s ∧
        s.published = [⟨['b'], ['a'], measuredTwo⟩] ∧ ¬ s.Good := by
  constructor
  · refine ⟨_, rfl, rfl, rfl, fun hgood => ?_⟩
    exact absurd (hgood.member (by decide)) (by decide)
  · refine ⟨_, rfl, rfl, fun hgood => ?_⟩
    rcases hgood.manual ⟨['b'], ['a'], measuredTwo⟩ (List.mem_singleton_self _) with hsame | hlost
    · exact absurd hsame (by decide)
    · obtain ⟨b, hb, hworse⟩ : ∃ b ∈ best measuredTwo, b.2.toNat + 5 < 12 := hlost
      obtain rfl : (['a'], 10) = b := Option.some.inj hb
      exact absurd hworse (by decide)

end UrlTestRace

end Reflex.Outbound
