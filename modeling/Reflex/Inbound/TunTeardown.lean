import Mathlib.Data.Int.CardIntervalMod
import Reflex.Inbound.TunRules
import Reflex.Lib.KeyedRemoval

namespace Reflex.Inbound.TunRules

open RustStd TunUids KeyedRemoval

/-!
# Inbounds — taking the policy rules of a TUN device down

`platform::teardown` of `inbound/tun.rs` on Linux, behind a `setup` with the same configuration.  It
reads the last priorities from the file that `setup` has left, and deletes three times under every
priority from `iproute2_rule_index` to the last one or the anchor's, in both families.  A system's rules
are a multiset for each family, and which of several rules of one priority is deleted first is up to the
kernel.

* `restored_eq` — family by family, setting up adds the rules and taking down sweeps the priorities;
* `restores_iff` — the rules are what they were before exactly when the rules of `setup` lie in the swept
  priorities and no other rule does.
-/

/-! ### `teardown` -/

/-- The commands that `teardown` runs. -/
inductive TeardownCommand
  | routeFlush (v : IpVersion) (table : UInt32)
  | ruleDel (v : IpVersion) (priority : UInt32)

/-- The arguments that `ip` is run with. -/
def TeardownCommand.args : TeardownCommand → List Str
  | .routeFlush v table =>
      v.args ++ ["route".toList, "flush".toList, "table".toList, display table.toNat]
  | .ruleDel v priority =>
      v.args ++ ["rule".toList, "del".toList, "priority".toList, display priority.toNat]

/-- What `setup` has recorded in the file: the priorities behind the last ones of both families, and that
    of the anchor.  Without a file of three numbers it is guessed. -/
def recorded (cfg : TunInboundConfig) (stateFile : Option Str) : UInt32 × UInt32 × UInt32 :=
  let fallback := (cfg.iproute2RuleIndex + 120, cfg.iproute2RuleIndex + 120,
    cfg.iproute2RuleIndex + 100)
  match stateFile with
  | some s =>
      match (splitWhitespace s).filterMap parseU32 with
      | [p4Max, p6Max, nopPrio] => (p4Max, p6Max, nopPrio)
      | _ => fallback
  | none => fallback

/-- `first..=last`. -/
def priorities (first last : UInt32) : List UInt32 :=
  (List.range' first.toNat (last.toNat + 1 - first.toNat)).map UInt32.ofNat

/-- The loop over the priorities of a family: each is deleted three times. -/
def deletions (v : IpVersion) (first last : UInt32) : List TeardownCommand :=
  (priorities first last).flatMap fun prio => List.replicate 3 (.ruleDel v prio)

/-- `teardown`. -/
def teardown (cfg : TunInboundConfig) (stateFile : Option Str) : List TeardownCommand :=
  let (p4Max, p6Max, nopPrio) := recorded cfg stateFile
  [.routeFlush .v4 cfg.iproute2TableIndex, .routeFlush .v6 cfg.iproute2TableIndex]
    ++ deletions .v4 cfg.iproute2RuleIndex (max p4Max nopPrio)
    ++ deletions .v6 cfg.iproute2RuleIndex (max p6Max nopPrio)

/-! ### The rules of the system -/

/-- A rule as the system lists it: its priority and all else that is said about it. -/
structure SystemRule where
  priority : UInt32
  args : List Str
  deriving DecidableEq, Repr

/-- The rules that the system has for each family; a rule may be there more than once. -/
abbrev RuleTables := IpVersion → Multiset SystemRule

/-- A rule of `setup`, once it is added. -/
def Rule.installed (r : Rule) : SystemRule := ⟨r.priority, r.selector ++ r.action.args⟩

/-- What a command of `setup` does to the rules. -/
def Command.run (tables : RuleTables) : Command → RuleTables
  | .ruleAdd v rule => Function.update tables v (rule.installed ::ₘ tables v)
  | _ => tables

/-- What a command of `teardown` does to the rules: `ip rule del` removes one of the priority, if there
    is one. -/
def TeardownCommand.run (ipRule : Removal SystemRule.priority) (tables : RuleTables) :
    TeardownCommand → RuleTables
  | .ruleDel v prio => Function.update tables v (ipRule.del (tables v) prio)
  | .routeFlush .. => tables

/-- The rules behind `setup` and `teardown`.  There is no file from before, and none afterwards if
    `setup` could not write it. -/
def restored (cfg : TunInboundConfig) (ifName : Str) (written : Bool)
    (ipRule : Removal SystemRule.priority) (tables : RuleTables) : Option RuleTables :=
  (setup cfg ifName).map fun s =>
    (teardown cfg (if written then some (s.stateFile cfg).2 else none)).foldl
      (TeardownCommand.run ipRule) (s.commands.foldl Command.run tables)

/-! ### The file -/

/-- The file is read back as it was written. -/
theorem recorded_stateFile (cfg : TunInboundConfig) (s : Setup) :
    recorded cfg (some (s.stateFile cfg).2) = (s.p4, s.p6, nopPrio cfg) := by
  have hword : ∀ n : UInt32, ∀ c ∈ display n.toNat, isWhitespace c = false :=
    fun n c hc => isWhitespace_of_mem_display hc
  have hne : ∀ n : UInt32, display n.toNat ≠ [] := fun n => Nat.toDigits_ne_nil
  have hspace : isWhitespace ' ' = true := by decide
  have htext : (s.stateFile cfg).2
      = display s.p4.toNat ++ ' ' :: (display s.p6.toNat ++ ' ' :: display (nopPrio cfg).toNat) :=
    List.append_assoc ..
  have hwords : splitWhitespace (s.stateFile cfg).2
      = [display s.p4.toNat, display s.p6.toNat, display (nopPrio cfg).toNat] := by
    rw [htext, splitWhitespace_append_cons (hword s.p4) (hne s.p4) hspace,
      splitWhitespace_append_cons (hword s.p6) (hne s.p6) hspace,
      splitWhitespace_eq_singleton (hword _) (hne _)]
  simp only [recorded, hwords, List.filterMap_cons, List.filterMap_nil, parseU32_display]

/-- The next priority of a family, behind all its rules. -/
theorem next_setup {cfg : TunInboundConfig} {ifName : Str} {s : Setup}
    (h : setup cfg ifName = some s) (v : IpVersion) :
    s.next v = cfg.iproute2RuleIndex + UInt32.ofNat (ruleCount cfg v) := by
  obtain ⟨uids, huids, hlen⟩ := length_buildExcludedUidRanges cfg.includeUid cfg.excludeUid
  rw [setup, huids] at h
  obtain rfl := Option.some.inj h
  obtain ⟨hnext, -⟩ := adds_businessRules cfg ifName (parseAddresses cfg) uids v
    (setupRoutes cfg ifName (parseAddresses cfg))
  rw [length_ruleBodies hlen] at hnext
  -- the anchor takes no priority of its own
  cases v
  · exact hnext
  · exact hnext

/-- The last priority that `teardown` deletes under in a family. -/
noncomputable def lastSwept (cfg : TunInboundConfig) (written : Bool) (v : IpVersion) : UInt32 :=
  max (if written then cfg.iproute2RuleIndex + UInt32.ofNat (ruleCount cfg v)
    else cfg.iproute2RuleIndex + 120) (cfg.iproute2RuleIndex + 100)

theorem teardown_eq {cfg : TunInboundConfig} {ifName : Str} {s : Setup}
    (h : setup cfg ifName = some s) (written : Bool) :
    teardown cfg (if written then some (s.stateFile cfg).2 else none)
      = [.routeFlush .v4 cfg.iproute2TableIndex, .routeFlush .v6 cfg.iproute2TableIndex]
        ++ deletions .v4 cfg.iproute2RuleIndex (lastSwept cfg written .v4)
        ++ deletions .v6 cfg.iproute2RuleIndex (lastSwept cfg written .v6) := by
  cases written with
  | false => rfl
  | true =>
    rw [if_pos rfl, teardown, recorded_stateFile, lastSwept, lastSwept, ← next_setup h,
      ← next_setup h]
    rfl

/-! ### Family by family -/

/-- Setting up adds the rules of a family. -/
theorem foldl_command_run (v : IpVersion) (commands : List Command) (tables : RuleTables) :
    commands.foldl Command.run tables v
      = tables v + ((commands.filterMap (Command.rule? v)).map Rule.installed : Multiset _) := by
  induction commands generalizing tables with
  | nil => simp
  | cons command commands ih =>
    rw [List.foldl_cons, ih, List.filterMap_cons]
    cases command with
    | linkUp ifName => rfl
    | routeAdd w dst via ifName table => rfl
    | ruleAdd w rule =>
      by_cases hw : w = v
      · subst hw
        simp [Command.run, Command.rule?, ← Multiset.cons_coe, Multiset.add_cons]
      · simp [Command.run, Command.rule?, hw, Function.update_of_ne (Ne.symm hw)]

/-- The loop over the priorities of a family sweeps its rules, and no others. -/
theorem foldl_deletions (ipRule : Removal SystemRule.priority) (v w : IpVersion)
    (first last : UInt32) (tables : RuleTables) :
    (deletions w first last).foldl (TeardownCommand.run ipRule) tables v
      = if w = v then sweep ipRule 3 (priorities first last) (tables v) else tables v := by
  rw [deletions, List.foldl_flatMap]
  induction priorities first last generalizing tables with
  | nil => simp [sweep]
  | cons prio prios ih =>
    rw [List.foldl_cons, ih]
    by_cases hw : w = v
    · subst hw
      simp [sweep, TeardownCommand.run, List.replicate_succ]
    · simp [hw, TeardownCommand.run, List.replicate_succ, Function.update_of_ne (Ne.symm hw)]

/-- The rules that `setup` adds in a family, as the system then has them. -/
def added (cfg : TunInboundConfig) (ifName : Str) (uids : List UidRange) (v : IpVersion) :
    List SystemRule :=
  (number cfg.iproute2RuleIndex (ruleBodies cfg ifName (parseAddresses cfg) uids v)
    ++ if (parseAddresses cfg).has v then [anchor cfg] else []).map Rule.installed

/-- **Family by family**: what `setup` and `teardown` make of the rules. -/
theorem restored_eq (cfg : TunInboundConfig) (ifName : Str) :
    ∃ uids, uids.length = (excludedStarts cfg.includeUid cfg.excludeUid).ncard ∧
      ∀ written ipRule tables, ∃ tables', restored cfg ifName written ipRule tables = some tables' ∧
        ∀ v, tables' v = sweep ipRule 3 (priorities cfg.iproute2RuleIndex (lastSwept cfg written v))
          (tables v + (added cfg ifName uids v : Multiset _)) := by
  obtain ⟨uids, s, -, hlen, hsetup, hrules⟩ := setup_rules cfg ifName
  refine ⟨uids, hlen, fun written ipRule tables => ?_⟩
  refine ⟨_, by rw [restored, hsetup, Option.map_some], fun v => ?_⟩
  rw [teardown_eq hsetup, List.foldl_append, List.foldl_append, foldl_deletions, foldl_deletions,
    added, ← hrules v, Setup.rules, ← foldl_command_run]
  cases v <;> rfl

/-! ### The priorities of `setup` -/

theorem mem_priorities {first last prio : UInt32} :
    prio ∈ priorities first last ↔ first ≤ prio ∧ prio ≤ last := by
  have hprio := prio.toNat_lt
  have hlast := last.toNat_lt
  rw [priorities, List.mem_map, UInt32.le_iff_toNat_le, UInt32.le_iff_toNat_le]
  constructor
  · rintro ⟨n, hn, rfl⟩
    rw [List.mem_range'_1] at hn
    have hword : n < 2 ^ 32 := by omega
    rw [UInt32.toNat_ofNat_of_lt' hword]
    omega
  · intro h
    exact ⟨prio.toNat, List.mem_range'_1.mpr (by omega), UInt32.ofNat_toNat⟩

theorem nodup_priorities (first last : UInt32) : (priorities first last).Nodup := by
  have hlast := last.toNat_lt
  refine List.Nodup.map_on (fun m hm n hn heq => ?_) List.nodup_range'
  rw [List.mem_range'_1] at hm hn
  have hm' : m < 2 ^ 32 := by omega
  have hn' : n < 2 ^ 32 := by omega
  have hnat := congrArg UInt32.toNat heq
  rwa [UInt32.toNat_ofNat_of_lt' hm', UInt32.toNat_ofNat_of_lt' hn'] at hnat

/-- How many of the numbered rules have a priority: one for each time around, and one more for those that
    the last time reaches. -/
theorem countP_number (first prio : UInt32) (bodies : List RuleBody) :
    ((number first bodies).map Rule.installed).countP (·.priority = prio)
      = bodies.length / 2 ^ 32
        + if (prio - first).toNat < bodies.length % 2 ^ 32 then 1 else 0 := by
  have hcount : ((number first bodies).map Rule.installed).countP (·.priority = prio)
      = bodies.length.count (· ≡ (prio - first).toNat [MOD 2 ^ 32]) := by
    induction bodies using List.reverseRecOn with
    | nil => rfl
    | append_singleton bodies body ih =>
      -- the last rule has the priority exactly if its index is the distance, up to full turns
      have hlast : first + UInt32.ofNat bodies.length = prio
          ↔ bodies.length ≡ (prio - first).toNat [MOD 2 ^ 32] := by
        rw [Nat.ModEq, Nat.mod_eq_of_lt (prio - first).toNat_lt, ← UInt32.toNat_ofNat',
          UInt32.toNat_inj, UInt32.eq_sub_iff_add_eq, UInt32.add_comm]
      have hsnoc : number first (bodies ++ [body])
          = number first bodies ++ [⟨body, first + UInt32.ofNat bodies.length⟩] := by
        rw [number_append]
        simp [number]
      rw [hsnoc, List.map_append, List.countP_append, ih, List.length_append, List.length_singleton,
        Nat.count_succ]
      simp [Rule.installed, hlast]
  rw [hcount, Nat.count_modEq_card _ (by decide), Nat.mod_eq_of_lt (prio - first).toNat_lt]

/-- A business rule is told from the anchor by its arguments. -/
theorem args_ne_nil {cfg : TunInboundConfig} {ifName : Str} {addrs : AddrInfo} {uids : List UidRange}
    {v : IpVersion} {first : UInt32} {r : Rule}
    (h : r ∈ number first (ruleBodies cfg ifName addrs uids v)) : r.installed.args ≠ [] := by
  have haction := (action_of_mem_ruleBodies cfg ifName addrs (mem_number h)).1
  have hargs : r.action.args ≠ [] := by
    cases hr : r.action with
    | nop => exact absurd hr haction
    | goto target => simp [Action.args]
    | lookup table => simp [Action.args]
    | lookupSuppress table => simp [Action.args]
    | unreachable => simp [Action.args]
  exact fun hnil => hargs (List.append_eq_nil_iff.mp hnil).2

/-- A family with addresses has rules, one without has one at most. -/
theorem ruleCount_of_has (cfg : TunInboundConfig) (v : IpVersion) :
    ((parseAddresses cfg).has v = true → 0 < ruleCount cfg v) ∧
      ((parseAddresses cfg).has v = false → ruleCount cfg v ≤ 1) := by
  refine ⟨fun hv => ?_, fun hv => ?_⟩
  · rw [ruleCount, if_pos (((parseAddresses cfg).has_iff v).mp hv)]
    omega
  · have hnone : ¬ ((parseAddresses cfg).networks v).length ≠ 0 := fun h =>
      absurd (((parseAddresses cfg).has_iff v).mpr h) (by simp [hv])
    rw [ruleCount, if_neg hnone]
    split <;> omega

/-! ### Restoring the rules -/

/-- The rules of a family are restored: no other rule has a priority that is swept, and those of `setup`
    have; or they take up every priority twice, but for the last one. -/
structure Exclusive (cfg : TunInboundConfig) (written : Bool) (v : IpVersion)
    (table : Multiset SystemRule) : Prop where
  free : ∀ r ∈ table,
    ¬ (cfg.iproute2RuleIndex ≤ r.priority ∧ r.priority ≤ lastSwept cfg written v)
  covered : ruleCount cfg v = 0 ∨
    (cfg.iproute2RuleIndex.toNat + ruleCount cfg v ≤ (lastSwept cfg written v).toNat + 1 ∧
      ((parseAddresses cfg).has v = true →
        cfg.iproute2RuleIndex.toNat + 100 ≤ (lastSwept cfg written v).toNat)) ∨
    (written = true ∧ cfg.iproute2RuleIndex = 0 ∧ ruleCount cfg v = 2 ^ 33 - 1)

/-- A sweep from 0 to the end follows the recorded priorities, and they end there. -/
theorem written_of_le_lastSwept {cfg : TunInboundConfig} {v : IpVersion} {written : Bool}
    (hfirst : cfg.iproute2RuleIndex = 0) (h : 2 ^ 32 - 1 ≤ (lastSwept cfg written v).toNat) :
    written = true ∧ ruleCount cfg v % 2 ^ 32 = 2 ^ 32 - 1 := by
  cases written with
  | false =>
    have hlast : lastSwept cfg false v = 120 := by
      rw [lastSwept, hfirst]
      rfl
    rw [hlast] at h
    exact absurd h (by decide)
  | true =>
    refine ⟨rfl, ?_⟩
    rw [lastSwept, hfirst, if_pos rfl] at h
    rcases max_choice (0 + UInt32.ofNat (ruleCount cfg v)) (0 + 100 : UInt32) with hmax | hmax
    · rw [hmax, UInt32.zero_add, UInt32.toNat_ofNat'] at h
      omega
    · rw [hmax] at h
      exact absurd h (by decide)

section Family

variable {cfg : TunInboundConfig} {ifName : Str} {uids : List UidRange} {v : IpVersion}

variable (huids : uids.length = (excludedStarts cfg.includeUid cfg.excludeUid).ncard)

include huids in
/-- How many of them have a priority. -/
theorem countP_added (prio : UInt32) :
    (added cfg ifName uids v).countP (·.priority = prio)
      = ruleCount cfg v / 2 ^ 32
        + (if (prio - cfg.iproute2RuleIndex).toNat < ruleCount cfg v % 2 ^ 32 then 1 else 0)
        + if (parseAddresses cfg).has v = true ∧ nopPrio cfg = prio then 1 else 0 := by
  rw [added, List.map_append, List.countP_append, countP_number, length_ruleBodies huids]
  congr 1
  cases (parseAddresses cfg).has v with
  | false => rfl
  | true => simp [anchor, Rule.installed, List.countP_cons]

include huids in
/-- What holds of the priorities of the rules that `setup` adds: they go up by one from `iproute2_rule_index` on, and
    the last one, where the family has an address, is 100 behind it. -/
theorem forall_mem_added {P : UInt32 → Prop} :
    (∀ r ∈ added cfg ifName uids v, P r.priority) ↔
      (∀ i < ruleCount cfg v, P (cfg.iproute2RuleIndex + UInt32.ofNat i)) ∧
        ((parseAddresses cfg).has v = true → P (nopPrio cfg)) := by
  rw [added, List.map_append, List.forall_mem_append]
  refine and_congr ?_ ?_
  · rw [← length_ruleBodies huids ifName v, List.forall_mem_map, number]
    constructor
    · intro h i hi
      exact h _ (List.mem_mapIdx.mpr ⟨i, hi, rfl⟩)
    · intro h r hr
      obtain ⟨i, hi, rfl⟩ := List.mem_mapIdx.mp hr
      exact h i hi
  · cases (parseAddresses cfg).has v with
    | false => simp
    | true => simp [anchor, Rule.installed]

include huids in
/-- Where the rules lie if all are swept, and no more than three under one priority. -/
theorem covered_of_swept {written : Bool}
    (hin : ∀ r ∈ added cfg ifName uids v, cfg.iproute2RuleIndex ≤ r.priority ∧
      r.priority ≤ lastSwept cfg written v)
    (hfew : ∀ prio, cfg.iproute2RuleIndex ≤ prio ∧ prio ≤ lastSwept cfg written v →
      (added cfg ifName uids v).countP (·.priority = prio) ≤ 3) :
    ruleCount cfg v = 0 ∨
      (cfg.iproute2RuleIndex.toNat + ruleCount cfg v ≤ (lastSwept cfg written v).toNat + 1 ∧
        ((parseAddresses cfg).has v = true →
          cfg.iproute2RuleIndex.toNat + 100 ≤ (lastSwept cfg written v).toNat)) ∨
      (written = true ∧ cfg.iproute2RuleIndex = 0 ∧ ruleCount cfg v = 2 ^ 33 - 1) := by
  obtain ⟨hbody, hanchor⟩ := (forall_mem_added (P := fun prio => cfg.iproute2RuleIndex ≤ prio ∧
    prio ≤ lastSwept cfg written v) huids).mp hin
  simp only [UInt32.le_iff_toNat_le, UInt32.toNat_add, UInt32.toNat_ofNat'] at hbody
  have hbase := cfg.iproute2RuleIndex.toNat_lt
  have hlast := (lastSwept cfg written v).toNat_lt
  by_cases hnone : ruleCount cfg v = 0
  · exact .inl hnone
  · by_cases hwrap : cfg.iproute2RuleIndex.toNat + ruleCount cfg v ≤ 2 ^ 32
    · refine .inr (.inl ⟨?_, fun hv => ?_⟩)
      · have hfinal := hbody (ruleCount cfg v - 1) (by omega)
        omega
      · obtain ⟨hfirst, hle⟩ := hanchor hv
        rw [UInt32.le_iff_toNat_le, nopPrio, UInt32.toNat_add, show (100 : UInt32).toNat = 100 from rfl]
          at hfirst hle
        omega
    · -- the rules wrap around, so that the sweep must begin at 0 and reach the end
      have hzero : cfg.iproute2RuleIndex.toNat = 0 := by
        by_contra hpos
        have hwrapped := hbody (2 ^ 32 - cfg.iproute2RuleIndex.toNat) (by omega)
        omega
      have hend := hbody (2 ^ 32 - 1) (by omega)
      have hfirst : cfg.iproute2RuleIndex = 0 := UInt32.toNat_inj.mp hzero
      have hv : (parseAddresses cfg).has v = true := by
        by_contra hv
        have := (ruleCount_of_has cfg v).2 (by simpa using hv)
        omega
      have hall : 2 ^ 32 - 1 ≤ (lastSwept cfg written v).toNat := by omega
      obtain ⟨hwritten, hmod⟩ := written_of_le_lastSwept hfirst hall
      refine .inr (.inr ⟨hwritten, hfirst, ?_⟩)
      -- the anchor shares its priority with a rule of each turn
      have h100 : (100 : UInt32).toNat = 100 := rfl
      have hswept : cfg.iproute2RuleIndex ≤ 100 ∧ 100 ≤ lastSwept cfg written v := by
        rw [UInt32.le_iff_toNat_le, UInt32.le_iff_toNat_le, h100]
        omega
      have hanchorCount := hfew 100 hswept
      have hdistance : (100 - cfg.iproute2RuleIndex).toNat < ruleCount cfg v % 2 ^ 32 := by
        rw [hmod, hfirst]
        decide
      have hnop : nopPrio cfg = 100 := by
        rw [nopPrio, hfirst]
        rfl
      rw [countP_added huids, if_pos hdistance, if_pos ⟨hv, hnop⟩] at hanchorCount
      omega

theorem Exclusive.ruleCount_lt {written : Bool} {table : Multiset SystemRule}
    (h : Exclusive cfg written v table) : ruleCount cfg v < 2 ^ 33 := by
  have hlast := (lastSwept cfg written v).toNat_lt
  rcases h.covered with hnone | ⟨hfit, -⟩ | ⟨-, -, hturns⟩
  · omega
  · omega
  · omega

include huids in
/-- With fewer than two full turns, an entry that was added three times would be the anchor and another
    rule. -/
theorem count_added_ne (hturns : ruleCount cfg v < 2 ^ 33) (r : SystemRule) :
    (added cfg ifName uids v).count r ≠ 3 := by
  intro hthree
  rw [added, List.map_append, List.count_append] at hthree
  set rules := number cfg.iproute2RuleIndex (ruleBodies cfg ifName (parseAddresses cfg) uids v)
  set anchors := if (parseAddresses cfg).has v then [anchor cfg] else [] with hanchors
  have hrules : (rules.map Rule.installed).count r ≤ 2 := by
    have hle : (rules.map Rule.installed).count r
        ≤ (rules.map Rule.installed).countP (·.priority = r.priority) :=
      List.countP_mono_left fun t _ ht => by simp [beq_iff_eq.mp ht]
    rw [countP_number, length_ruleBodies huids] at hle
    split at hle <;> omega
  have hone : (anchors.map Rule.installed).count r ≤ 1 := by
    refine List.count_le_length.trans ?_
    rw [List.length_map, hanchors]
    split <;> simp
  have hrule : r ∈ rules.map Rule.installed := List.count_pos_iff.mp (by omega)
  have hanchor : r ∈ anchors.map Rule.installed := List.count_pos_iff.mp (by omega)
  obtain ⟨t, ht, rfl⟩ := List.mem_map.mp hrule
  refine args_ne_nil ht ?_
  rw [hanchors] at hanchor
  split at hanchor
  · rw [List.mem_singleton.mp hanchor]
    rfl
  · cases hanchor

include huids in
/-- Where the rules are covered, all of them are swept. -/
theorem Exclusive.swept {written : Bool} {table : Multiset SystemRule}
    (h : Exclusive cfg written v table) :
    ∀ r ∈ added cfg ifName uids v, cfg.iproute2RuleIndex ≤ r.priority ∧
      r.priority ≤ lastSwept cfg written v := by
  refine (forall_mem_added (P := fun prio => cfg.iproute2RuleIndex ≤ prio ∧
    prio ≤ lastSwept cfg written v) huids).mpr ?_
  have hlast := (lastSwept cfg written v).toNat_lt
  have h100 : (100 : UInt32).toNat = 100 := rfl
  simp only [nopPrio, UInt32.le_iff_toNat_le, UInt32.toNat_add, UInt32.toNat_ofNat', h100]
  rcases h.covered with hnone | ⟨hfit, hanchor⟩ | ⟨rfl, hfirst, hturns⟩
  · refine ⟨fun i hi => by omega, fun hv => ?_⟩
    have := (ruleCount_of_has cfg v).1 hv
    omega
  · refine ⟨fun i hi => ?_, fun hv => ?_⟩
    · omega
    · have := hanchor hv
      omega
  · -- the sweep goes through all priorities
    have hall : (lastSwept cfg true v).toNat = 2 ^ 32 - 1 := by
      rw [lastSwept, hfirst, hturns]
      decide
    have hzero : cfg.iproute2RuleIndex.toNat = 0 := by
      rw [hfirst]
      rfl
    refine ⟨fun i hi => ?_, fun hv => ?_⟩
    · omega
    · omega

include huids in
/-- **One family.**  Its rules are restored, whichever the kernel deletes first, exactly if it has the
    swept priorities to itself. -/
theorem sweep_added_iff (ifName : Str) (written : Bool) (v : IpVersion)
    (table : Multiset SystemRule) :
    (∀ ipRule : Removal SystemRule.priority,
        sweep ipRule 3 (priorities cfg.iproute2RuleIndex (lastSwept cfg written v))
          (table + (added cfg ifName uids v : Multiset _)) = table) ↔
      Exclusive cfg written v table := by
  constructor
  · intro h
    obtain ⟨hin, hfew, hold⟩ := count_of_sweep_add (nodup_priorities _ _) h
    simp only [Multiset.mem_coe, mem_priorities, Multiset.coe_countP, Multiset.coe_count]
      at hin hfew hold
    have hcovered := covered_of_swept huids hin hfew
    have hempty : Exclusive cfg written v 0 := ⟨by simp, hcovered⟩
    have hturns := hempty.ruleCount_lt
    exact ⟨fun r hr hswept => count_added_ne huids hturns r (hold r hr hswept), hcovered⟩
  · intro h ipRule
    refine sweep_add ipRule (nodup_priorities _ _) (fun r hr hswept => ?_) (fun r hr => ?_)
      fun prio => ?_
    · exact h.free r hr (mem_priorities.mp hswept)
    · exact mem_priorities.mpr (h.swept huids r hr)
    · have hturns := h.ruleCount_lt
      rw [Multiset.coe_countP, countP_added huids]
      split <;> split <;> omega

end Family

/-- The rules are what they were if each family's are. -/
theorem restored_eq_some_iff (cfg : TunInboundConfig) (ifName : Str) :
    ∃ uids, uids.length = (excludedStarts cfg.includeUid cfg.excludeUid).ncard ∧
      ∀ written ipRule tables, restored cfg ifName written ipRule tables = some tables ↔
        ∀ v, sweep ipRule 3 (priorities cfg.iproute2RuleIndex (lastSwept cfg written v))
          (tables v + (added cfg ifName uids v : Multiset _)) = tables v := by
  obtain ⟨uids, huids, hrestored⟩ := restored_eq cfg ifName
  refine ⟨uids, huids, fun written ipRule tables => ?_⟩
  obtain ⟨tables', hsome, heq⟩ := hrestored written ipRule tables
  rw [hsome, Option.some.injEq, funext_iff]
  exact forall_congr' fun v => by rw [heq v]

/-- **Setting up and taking down.**  The rules of the system are what they were, whichever rule of a
    priority the kernel deletes first, exactly if each family has the swept priorities to itself. -/
theorem restores_iff (cfg : TunInboundConfig) (ifName : Str) (written : Bool) (tables : RuleTables) :
    (∀ ipRule, restored cfg ifName written ipRule tables = some tables) ↔
      ∀ v, Exclusive cfg written v (tables v) := by
  obtain ⟨uids, huids, hrestored⟩ := restored_eq_some_iff cfg ifName
  have hfamily := fun v => sweep_added_iff huids ifName written v (tables v)
  rw [← forall_congr' hfamily, forall_comm]
  exact forall_congr' fun ipRule => hrestored written ipRule tables

/-- A rule that somebody else has put between those of a device. -/
def foreignRule : SystemRule := ⟨9050, ["lookup".toList, "100".toList]⟩

/-- With the priorities of the default configuration, that rule is deleted. -/
theorem not_restored_foreignRule :
    ¬ ∀ ipRule : Removal SystemRule.priority,
      restored { address := ["172.19.0.1/30".toList] } "tun0".toList true ipRule
        (fun _ => {foreignRule}) = some fun _ => {foreignRule} := by
  intro h
  set cfg : TunInboundConfig := { address := ["172.19.0.1/30".toList] }
  obtain ⟨uids, huids, hrestored⟩ := restored_eq_some_iff cfg "tun0".toList
  have hswept := fun ipRule => (hrestored true ipRule _).mp (h ipRule) .v4
  have hexclusive := (sweep_added_iff huids "tun0".toList true .v4 {foreignRule}).mp hswept
  refine hexclusive.free foreignRule (Multiset.mem_singleton_self _) ⟨by decide, ?_⟩
  -- the priority of the anchor is behind it
  have hanchor : foreignRule.priority ≤ cfg.iproute2RuleIndex + 100 := by decide
  exact UInt32.le_trans hanchor (le_max_right _ _)

end Reflex.Inbound.TunRules
