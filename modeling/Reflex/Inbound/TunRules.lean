import Reflex.Inbound.TunUids
import Reflex.RustStd.NetDisplay

namespace Reflex.Inbound.TunRules

open RustStd TunUids

/-!
# Inbounds — the policy rules of a TUN device

`platform::setup` of `inbound/tun.rs` on Linux, up to what `ip` makes of the commands it is run with.
Priorities are `u32`s and wrap around, as they do in a release build.

Every rule takes the next priority of its address family, from `iproute2_rule_index` on; the rules that
let packets pass jump to an anchor, a rule without an action, whose priority is fixed in advance.

* `setup_rules` — the rules of a family, one priority behind the other, and its anchor;
* `anchored_iff` — the anchor is behind the rules exactly when there are at most a hundred of them, and
  its priority is a `u32`.
-/

/-! ### Configuration -/

/-- `TunInboundConfig`, as far as `setup` reads it. -/
structure TunInboundConfig where
  address : List Str
  iproute2TableIndex : UInt32 := 2022
  iproute2RuleIndex : UInt32 := 9000
  strictRoute : Bool := false
  includeInterface : List Str := []
  excludeInterface : List Str := []
  includeUid : List UInt32 := []
  excludeUid : List UInt32 := []

/-- `parse_addr_prefix`. -/
def parseAddrPrefix (s : Str) : Option (IpAddr × UInt8) := do
  let (ipStr, lenStr) ← splitOnce '/' s
  let ip ← IpAddr.fromStr ipStr
  let prefixLen ← parseU8 lenStr
  let maxLen := match ip with | .v4 _ => 32 | .v6 _ => 128
  if prefixLen > maxLen then none else some (ip, prefixLen)

/-- The address families: the commands of `ip` and those of `ip6`. -/
inductive IpVersion
  | v4
  | v6
  deriving DecidableEq, Repr

/-- `AddrInfo`. -/
structure AddrInfo where
  inet4 : List (Ipv4Addr × UInt8)
  inet6 : List (Ipv6Addr × UInt8)

/-- `parse_addresses`. -/
def parseAddresses (cfg : TunInboundConfig) : AddrInfo where
  inet4 := cfg.address.filterMap fun s =>
    match parseAddrPrefix s with
    | some (.v4 ip, pl) => some (ip, pl)
    | _ => none
  inet6 := cfg.address.filterMap fun s =>
    match parseAddrPrefix s with
    | some (.v6 ip, pl) => some (ip, pl)
    | _ => none

/-- The shared body of `v4_network` and `v6_network`.  A shift by all the bits, for the prefix length zero,
    shifts by none. -/
def network {w : Nat} (ip : BitVec w) (pl : UInt8) : BitVec w :=
  ip &&& ~~~((1#w <<< ((w - min pl.toNat w) % w)) - 1#w)

/-- `v4_network`. -/
def v4Network (ip : Ipv4Addr) (pl : UInt8) : Ipv4Addr := network ip pl

/-- `v6_network`. -/
def v6Network (ip : Ipv6Addr) (pl : UInt8) : Ipv6Addr := network ip pl

namespace AddrInfo

/-- The networks of a family, as the rules name them. -/
def networks (addrs : AddrInfo) : IpVersion → List Str
  | .v4 => addrs.inet4.map fun a => (v4Network a.1 a.2).display ++ '/' :: display a.2.toNat
  | .v6 => addrs.inet6.map fun a => (v6Network a.1 a.2).display ++ '/' :: display a.2.toNat

/-- `has_v4` and `has_v6`. -/
def has (addrs : AddrInfo) : IpVersion → Bool
  | .v4 => !addrs.inet4.isEmpty
  | .v6 => !addrs.inet6.isEmpty

theorem has_iff (addrs : AddrInfo) (v : IpVersion) :
    addrs.has v = true ↔ (addrs.networks v).length ≠ 0 := by
  cases v
  · simp [has, networks]
  · simp [has, networks]

end AddrInfo

/-! ### Commands -/

/-- What a policy rule does. -/
inductive Action
  | goto (target : UInt32)
  | lookup (table : UInt32)
  | lookupSuppress (table : UInt32)
  | unreachable
  /-- The action of the anchor. -/
  | nop
  deriving DecidableEq, Repr

/-- The arguments for the action of a rule. -/
def Action.args : Action → List Str
  | .goto target => ["goto".toList, display target.toNat]
  | .lookup table => ["lookup".toList, display table.toNat]
  | .lookupSuppress table =>
      ["lookup".toList, display table.toNat, "suppress_prefixlength".toList, "0".toList]
  | .unreachable => ["type".toList, "unreachable".toList]
  | .nop => []

/-- A policy rule without its priority: the arguments that select packets, and the action. -/
structure RuleBody where
  selector : List Str
  action : Action
  deriving DecidableEq, Repr

/-- A policy rule. -/
structure Rule extends RuleBody where
  priority : UInt32
  deriving DecidableEq, Repr

/-- The commands that `setup` runs. -/
inductive Command
  | linkUp (ifName : Str)
  | routeAdd (v : IpVersion) (dst via ifName : Str) (table : UInt32)
  | ruleAdd (v : IpVersion) (rule : Rule)

/-- `ip` or `ip6`: the arguments for the family. -/
def IpVersion.args : IpVersion → List Str
  | .v4 => []
  | .v6 => ["-6".toList]

/-- The arguments that `ip` is run with. -/
def Command.args : Command → List Str
  | .linkUp ifName => ["link".toList, "set".toList, ifName, "up".toList]
  | .routeAdd v dst via ifName table =>
      v.args ++ ["route".toList, "add".toList, dst, "via".toList, via, "dev".toList, ifName,
        "table".toList, display table.toNat]
  | .ruleAdd v rule =>
      v.args ++ ["rule".toList, "add".toList, "priority".toList, display rule.priority.toNat]
        ++ rule.selector ++ rule.action.args

/-! ### `setup` -/

/-- The variables of `setup`: the next priorities, and the commands so far. -/
structure Setup where
  p4 : UInt32
  p6 : UInt32
  commands : List Command

namespace Setup

/-- A rule with the next priority of its family. -/
def addRule (s : Setup) (v : IpVersion) (body : RuleBody) : Setup :=
  match v with
  | .v4 => { s with p4 := s.p4 + 1, commands := s.commands ++ [.ruleAdd .v4 ⟨body, s.p4⟩] }
  | .v6 => { s with p6 := s.p6 + 1, commands := s.commands ++ [.ruleAdd .v6 ⟨body, s.p6⟩] }

/-- A rule of a family, under a condition. -/
def addRuleIf (s : Setup) (cond : Bool) (v : IpVersion) (body : RuleBody) : Setup :=
  if cond then s.addRule v body else s

/-- A rule in each family that has addresses. -/
def addRules (s : Setup) (addrs : AddrInfo) (body : RuleBody) : Setup :=
  (s.addRuleIf (addrs.has .v4) .v4 body).addRuleIf (addrs.has .v6) .v6 body

/-- The rules of a loop over what selects their packets. -/
def addAll (s : Setup) (v : IpVersion) (bodies : List RuleBody) : Setup :=
  bodies.foldl (fun s body => s.addRule v body) s

end Setup

section Steps

variable (cfg : TunInboundConfig) (ifName : Str) (addrs : AddrInfo)

/-- `nop_prio`. -/
def nopPrio : UInt32 := cfg.iproute2RuleIndex + 100

/-- The default routes of the table, and the priorities to begin with. -/
def setupRoutes : Setup where
  p4 := cfg.iproute2RuleIndex
  p6 := cfg.iproute2RuleIndex
  commands :=
    let route v dst via : Command := .routeAdd v dst via ifName cfg.iproute2TableIndex
    [.linkUp ifName]
      ++ (match addrs.inet4 with
        | (gwIp, _) :: _ => [route .v4 "0.0.0.0/0".toList (gwIp + 1).display]
        | [] => [])
      ++ (match addrs.inet6 with
        | (gwIp, _) :: _ => [route .v6 "::/0".toList (gwIp + 1).display]
        | [] => [])

/-- The rule for a range of user IDs. -/
def uidRule (range : UidRange) : RuleBody where
  selector := ["uidrange".toList, display range.1.toNat ++ '-' :: display range.2.toNat]
  action := .goto (nopPrio cfg)

/-- Step 1: the excluded ranges of user IDs, in the families with addresses. -/
def uidRules (uids : List UidRange) (s : Setup) : Setup :=
  uids.foldl (fun s range => s.addRules addrs (uidRule cfg range)) s

/-- A rule for the packets that come in from an interface. -/
def iifRule (iface : Str) (action : Action) : RuleBody where
  selector := ["iif".toList, iface]
  action

/-- Step 2: the listed interfaces, and no others, or all interfaces but the listed ones. -/
def interfaceRules (s : Setup) : Setup :=
  if cfg.includeInterface ≠ [] then
    (cfg.includeInterface.foldl
      (fun s iface => s.addRules addrs (iifRule iface (.lookup cfg.iproute2TableIndex))) s).addRules
      addrs ⟨[], .goto (nopPrio cfg)⟩
  else
    cfg.excludeInterface.foldl
      (fun s iface => s.addRules addrs (iifRule iface (.goto (nopPrio cfg)))) s

/-- Step 3: with strict routing, nothing goes out in a family without addresses. -/
def strictRules (s : Setup) : Setup :=
  if cfg.strictRoute then
    (s.addRuleIf (!addrs.has .v4) .v4 ⟨[], .unreachable⟩).addRuleIf (!addrs.has .v6) .v6
      ⟨[], .unreachable⟩
  else s

/-- A rule for the packets to a network of the device. -/
def toRule (net : Str) : RuleBody := ⟨["to".toList, net], .lookup cfg.iproute2TableIndex⟩

/-- Step 4: the networks of the device itself, in either family. -/
def subnetRules (s : Setup) : Setup :=
  (s.addAll .v4 ((addrs.networks .v4).map (toRule cfg))).addAll .v6
    ((addrs.networks .v6).map (toRule cfg))

/-- What does not come from the host itself. -/
def notLo : List Str := ["not".toList, "iif".toList, "lo".toList]

/-- Step 5: the table of the device is looked up with its default routes left out. -/
def suppressRules (s : Setup) : Setup :=
  s.addRules addrs ⟨notLo, .lookupSuppress cfg.iproute2TableIndex⟩

/-- Step 6: what leaves the device is not sent back to it. -/
def selfRules (s : Setup) : Setup := s.addRules addrs (iifRule ifName (.goto (nopPrio cfg)))

/-- A rule for the packets that the host itself sends from a network of the device. -/
def fromRule (net : Str) : RuleBody :=
  ⟨["iif".toList, "lo".toList, "from".toList, net], .lookup cfg.iproute2TableIndex⟩

/-- Step 7, in one family: what is left goes to the table of the device. -/
def lookupRules (v : IpVersion) (s : Setup) : Setup :=
  if addrs.has v then
    (s.addRule v ⟨notLo, .lookup cfg.iproute2TableIndex⟩).addAll v
      ((addrs.networks v).map (fromRule cfg))
  else s

/-- Steps 1 to 7, in which the priorities go up by one with every rule. -/
def businessRules (uids : List UidRange) (s : Setup) : Setup :=
  let s := uidRules cfg addrs uids s
  let s := interfaceRules cfg addrs s
  let s := strictRules cfg addrs s
  let s := subnetRules cfg addrs s
  let s := suppressRules cfg addrs s
  let s := selfRules cfg ifName addrs s
  let s := lookupRules cfg addrs .v4 s
  lookupRules cfg addrs .v6 s

/-- The anchor, a rule that does nothing, at the priority that others jump to. -/
def anchor : Rule := ⟨⟨[], .nop⟩, nopPrio cfg⟩

/-- Step 8, in one family: the anchor where the family has addresses. -/
def anchorCommands (v : IpVersion) : List Command :=
  if addrs.has v then [.ruleAdd v (anchor cfg)] else []

/-- Step 8: the anchors are added last, with no priority of their own taken. -/
def anchorRules (s : Setup) : Setup :=
  { s with commands := s.commands ++ anchorCommands cfg addrs .v4 ++ anchorCommands cfg addrs .v6 }

end Steps

/-- `setup`: the commands, and the priorities behind the last ones used. -/
def setup (cfg : TunInboundConfig) (ifName : Str) : Option Setup :=
  let addrs := parseAddresses cfg
  (buildExcludedUidRanges cfg.includeUid cfg.excludeUid).map fun excludedUids =>
    anchorRules cfg addrs (businessRules cfg ifName addrs excludedUids (setupRoutes cfg ifName addrs))

/-- The file that `setup` leaves for `teardown`: its name and its text. -/
def Setup.stateFile (s : Setup) (cfg : TunInboundConfig) : Str × Str :=
  ("/tmp/reflex-tun-".toList ++ display cfg.iproute2TableIndex.toNat ++ ".state".toList,
    display s.p4.toNat ++ ' ' :: display s.p6.toNat ++ ' ' :: display (nopPrio cfg).toNat)

/-! ### Priorities -/

/-- Rules that take one priority each, one behind the other. -/
def number (prio : UInt32) (bodies : List RuleBody) : List Rule :=
  bodies.mapIdx fun i body => ⟨body, prio + UInt32.ofNat i⟩

theorem number_append (prio : UInt32) (bodies more : List RuleBody) :
    number prio (bodies ++ more)
      = number prio bodies ++ number (prio + UInt32.ofNat bodies.length) more := by
  rw [number, List.mapIdx_append]
  refine congrArg _ (congrArg (List.mapIdx · more) ?_)
  funext i body
  rw [UInt32.add_assoc, ← UInt32.ofNat_add, Nat.add_comm]

theorem mem_number {prio : UInt32} {bodies : List RuleBody} {r : Rule} (h : r ∈ number prio bodies) :
    r.toRuleBody ∈ bodies := by
  obtain ⟨i, hi, rfl⟩ := List.mem_mapIdx.mp h
  exact List.getElem_mem hi

/-- The priorities stay below `prio + room` exactly when there are at most `room` rules, and the addition
    does not wrap around. -/
theorem number_lt_iff (prio room : UInt32) (bodies : List RuleBody) :
    (∀ r ∈ number prio bodies, r.priority < prio + room)
      ↔ bodies.length = 0 ∨ prio.toNat + room.toNat < 2 ^ 32 ∧ bodies.length ≤ room.toNat := by
  have hprio := prio.toNat_lt
  have hroom := room.toNat_lt
  constructor
  · intro h
    have hget : ∀ i, i < bodies.length → i < 2 ^ 32 →
        (prio.toNat + i) % 2 ^ 32 < (prio.toNat + room.toNat) % 2 ^ 32 := by
      intro i hi hword
      have hlt := UInt32.lt_iff_toNat_lt.mp (h _ (List.mem_mapIdx.mpr ⟨i, hi, rfl⟩))
      rwa [UInt32.toNat_add, UInt32.toNat_add, UInt32.toNat_ofNat_of_lt' hword] at hlt
    by_cases hnone : bodies.length = 0
    · exact .inl hnone
    · -- the first rule shows that nothing wraps around, and the rule after `room` others has the limit
      have hfirst := hget 0 (by omega) (by omega)
      have hwrap : prio.toNat + room.toNat < 2 ^ 32 := by omega
      refine .inr ⟨hwrap, Nat.le_of_not_lt fun hlong => ?_⟩
      exact absurd (hget room.toNat hlong hroom) (lt_irrefl _)
  · rintro (hnone | ⟨hwrap, hfit⟩) r hr
    · rw [List.length_eq_zero_iff.mp hnone] at hr
      cases hr
    · obtain ⟨i, hi, rfl⟩ := List.mem_mapIdx.mp hr
      have hword : i < 2 ^ 32 := by omega
      rw [UInt32.lt_iff_toNat_lt, UInt32.toNat_add, UInt32.toNat_add, UInt32.toNat_ofNat_of_lt' hword]
      omega

/-- As many priorities as a word has values are distinct. -/
theorem pairwise_number {prio : UInt32} {bodies : List RuleBody} (h : bodies.length ≤ 2 ^ 32) :
    (number prio bodies).Pairwise fun r t => r.priority ≠ t.priority := by
  rw [List.pairwise_iff_getElem]
  intro i j hi hj hij heq
  rw [number, List.length_mapIdx] at hi hj
  simp only [number, List.getElem_mapIdx] at heq
  have hi' : i < 2 ^ 32 := by omega
  have hj' : j < 2 ^ 32 := by omega
  have hnat := congrArg UInt32.toNat ((UInt32.add_right_inj prio).mp heq)
  rw [UInt32.toNat_ofNat_of_lt' hi', UInt32.toNat_ofNat_of_lt' hj'] at hnat
  omega

/-! ### The rules of a family -/

/-- The rule of a family that a command adds. -/
def Command.rule? (v : IpVersion) : Command → Option Rule
  | .ruleAdd v' rule => if v' = v then some rule else none
  | _ => none

namespace Setup

/-- The rules that the commands add in a family, in their order. -/
def rules (s : Setup) (v : IpVersion) : List Rule := s.commands.filterMap (Command.rule? v)

/-- The priority that the next rule of a family gets. -/
def next (s : Setup) : IpVersion → UInt32
  | .v4 => s.p4
  | .v6 => s.p6

/-- From `s` to `s'` a family gets the rules of `bodies`, with the next priorities. -/
def Adds (v : IpVersion) (s s' : Setup) (bodies : List RuleBody) : Prop :=
  s'.next v = s.next v + UInt32.ofNat bodies.length ∧
    s'.rules v = s.rules v ++ number (s.next v) bodies

variable {v : IpVersion} {s s' s'' : Setup}

theorem Adds.refl (v : IpVersion) (s : Setup) : Adds v s s [] :=
  ⟨(UInt32.add_zero _).symm, (List.append_nil _).symm⟩

theorem Adds.trans {bodies more : List RuleBody} (h : Adds v s s' bodies) (h' : Adds v s' s'' more) :
    Adds v s s'' (bodies ++ more) := by
  obtain ⟨hnext, hrules⟩ := h
  obtain ⟨hnext', hrules'⟩ := h'
  refine ⟨?_, ?_⟩
  · rw [hnext', hnext, List.length_append, UInt32.ofNat_add, UInt32.add_assoc]
  · rw [hrules', hrules, hnext, number_append, List.append_assoc]

/-- **A loop** in which each round adds its rule, or none does. -/
theorem Adds.foldl {α : Type} {cond : Prop} [Decidable cond] {f : Setup → α → Setup}
    {body : α → RuleBody} (h : ∀ s x, Adds v s (f s x) (if cond then [body x] else [])) (xs : List α)
    (s : Setup) : Adds v s (xs.foldl f s) (if cond then xs.map body else []) := by
  induction xs generalizing s with
  | nil => simpa using Adds.refl v s
  | cons x xs ih =>
      have hcons := (h s x).trans (ih (f s x))
      rw [List.foldl_cons]
      by_cases hcond : cond
      · simp only [if_pos hcond] at hcons ⊢
        exact hcons
      · simpa only [if_neg hcond, List.append_nil] using hcons

theorem adds_addRule (v : IpVersion) (s : Setup) (w : IpVersion) (body : RuleBody) :
    Adds v s (s.addRule w body) (if w = v then [body] else []) := by
  have hnumber : number (s.next v) [body] = [⟨body, s.next v⟩] := by
    show [(⟨body, s.next v + 0⟩ : Rule)] = _
    rw [UInt32.add_zero]
  cases v <;> cases w
  · rw [if_pos rfl]
    exact ⟨rfl, by rw [hnumber]; exact List.filterMap_append ..⟩
  · rw [if_neg (by decide)]
    exact ⟨(UInt32.add_zero _).symm, List.filterMap_append ..⟩
  · rw [if_neg (by decide)]
    exact ⟨(UInt32.add_zero _).symm, List.filterMap_append ..⟩
  · rw [if_pos rfl]
    exact ⟨rfl, by rw [hnumber]; exact List.filterMap_append ..⟩

theorem adds_addRuleIf (v : IpVersion) (s : Setup) (cond : Bool) (w : IpVersion) (body : RuleBody) :
    Adds v s (s.addRuleIf cond w body) (if w = v ∧ cond then [body] else []) := by
  cases cond with
  | false => simpa [addRuleIf] using Adds.refl v s
  | true => simpa [addRuleIf] using adds_addRule v s w body

theorem adds_addRules (v : IpVersion) (addrs : AddrInfo) (s : Setup) (body : RuleBody) :
    Adds v s (s.addRules addrs body) (if addrs.has v then [body] else []) := by
  have h := (adds_addRuleIf v s (addrs.has .v4) .v4 body).trans
    (adds_addRuleIf v _ (addrs.has .v6) .v6 body)
  cases v
  · simpa [addRules] using h
  · simpa [addRules] using h

theorem adds_addAll (v : IpVersion) (s : Setup) (w : IpVersion) (bodies : List RuleBody) :
    Adds v s (s.addAll w bodies) (if w = v then bodies else []) := by
  have h := Adds.foldl (fun s body => adds_addRule v s w body) bodies s
  rwa [List.map_id'] at h

theorem adds_loop {α : Type} (v : IpVersion) (addrs : AddrInfo) (body : α → RuleBody) (xs : List α)
    (s : Setup) :
    Adds v s (xs.foldl (fun s x => s.addRules addrs (body x)) s)
      (if addrs.has v then xs.map body else []) :=
  Adds.foldl (fun s x => adds_addRules v addrs s (body x)) xs s

end Setup

section Steps

variable (cfg : TunInboundConfig) (ifName : Str) (addrs : AddrInfo)

/-- The rules of step 2: the included interfaces, or else the excluded ones. -/
def interfaceBodies : List RuleBody :=
  if cfg.includeInterface ≠ [] then
    cfg.includeInterface.map (iifRule · (.lookup cfg.iproute2TableIndex))
      ++ [⟨[], .goto (nopPrio cfg)⟩]
  else cfg.excludeInterface.map (iifRule · (.goto (nopPrio cfg)))

theorem adds_interfaceRules (v : IpVersion) (s : Setup) :
    Setup.Adds v s (interfaceRules cfg addrs s)
      (if addrs.has v then interfaceBodies cfg else []) := by
  rw [interfaceRules, interfaceBodies]
  split
  · have h := (Setup.adds_loop v addrs (iifRule · (.lookup cfg.iproute2TableIndex))
      cfg.includeInterface s).trans (Setup.adds_addRules v addrs _ ⟨[], .goto (nopPrio cfg)⟩)
    by_cases hv : addrs.has v = true
    · simpa only [if_pos hv] using h
    · simpa only [if_neg hv, List.append_nil] using h
  · exact Setup.adds_loop v addrs (iifRule · (.goto (nopPrio cfg))) cfg.excludeInterface s

theorem adds_strictRules (v : IpVersion) (s : Setup) :
    Setup.Adds v s (strictRules cfg addrs s)
      (if addrs.has v then [] else if cfg.strictRoute then [⟨[], .unreachable⟩] else []) := by
  rw [strictRules]
  split
  · have h := (Setup.adds_addRuleIf v s (!addrs.has .v4) .v4 ⟨[], .unreachable⟩).trans
      (Setup.adds_addRuleIf v _ (!addrs.has .v6) .v6 ⟨[], .unreachable⟩)
    cases v
    · cases hv : addrs.has .v4 <;> simpa [hv] using h
    · cases hv : addrs.has .v6 <;> simpa [hv] using h
  · simpa using Setup.Adds.refl v s

theorem adds_subnetRules (v : IpVersion) (s : Setup) :
    Setup.Adds v s (subnetRules cfg addrs s) ((addrs.networks v).map (toRule cfg)) := by
  have h : Setup.Adds v s (subnetRules cfg addrs s) _ :=
    (Setup.adds_addAll v s .v4 ((addrs.networks .v4).map (toRule cfg))).trans
      (Setup.adds_addAll v _ .v6 ((addrs.networks .v6).map (toRule cfg)))
  cases v
  · simpa using h
  · simpa using h

theorem adds_lookupRules (v w : IpVersion) (s : Setup) :
    Setup.Adds v s (lookupRules cfg addrs w s)
      (if w = v ∧ addrs.has v then
        ⟨notLo, .lookup cfg.iproute2TableIndex⟩ :: (addrs.networks v).map (fromRule cfg)
      else []) := by
  rw [lookupRules]
  split
  · rename_i hw
    have h := (Setup.adds_addRule v s w ⟨notLo, .lookup cfg.iproute2TableIndex⟩).trans
      (Setup.adds_addAll v _ w ((addrs.networks w).map (fromRule cfg)))
    by_cases hwv : w = v
    · subst hwv
      simpa [hw] using h
    · simpa [hwv] using h
  · rename_i hw
    have hnone : ¬ (w = v ∧ addrs.has v = true) := fun h => hw (h.1 ▸ h.2)
    rw [if_neg hnone]
    exact Setup.Adds.refl v s

/-- The rules of a family, without their priorities and the anchor. -/
def ruleBodies (uids : List UidRange) (v : IpVersion) : List RuleBody :=
  if addrs.has v then
    uids.map (uidRule cfg) ++ interfaceBodies cfg ++ (addrs.networks v).map (toRule cfg)
      ++ [⟨notLo, .lookupSuppress cfg.iproute2TableIndex⟩, iifRule ifName (.goto (nopPrio cfg)),
        ⟨notLo, .lookup cfg.iproute2TableIndex⟩]
      ++ (addrs.networks v).map (fromRule cfg)
  else if cfg.strictRoute then [⟨[], .unreachable⟩] else []

theorem adds_businessRules (uids : List UidRange) (v : IpVersion) (s : Setup) :
    Setup.Adds v s (businessRules cfg ifName addrs uids s) (ruleBodies cfg ifName addrs uids v) := by
  have h : Setup.Adds v s (businessRules cfg ifName addrs uids s) _ :=
    ((((((Setup.adds_loop v addrs (uidRule cfg) uids s).trans
      (adds_interfaceRules cfg addrs v _)).trans
      (adds_strictRules cfg addrs v _)).trans
      (adds_subnetRules cfg addrs v _)).trans
      (Setup.adds_addRules v addrs _ ⟨notLo, .lookupSuppress cfg.iproute2TableIndex⟩)).trans
      (Setup.adds_addRules v addrs _ (iifRule ifName (.goto (nopPrio cfg))))).trans
      ((adds_lookupRules cfg addrs v .v4 _).trans (adds_lookupRules cfg addrs v .v6 _))
  by_cases hv : addrs.has v = true
  · cases v <;> simpa [ruleBodies, hv] using h
  · -- a family without addresses has no networks either
    have hnets : addrs.networks v = [] := by
      have := (addrs.has_iff v).not.mp hv
      exact List.length_eq_zero_iff.mp (not_not.mp this)
    simpa [ruleBodies, hv, hnets] using h

theorem rules_anchorRules (v : IpVersion) (s : Setup) :
    (anchorRules cfg addrs s).rules v = s.rules v ++ if addrs.has v then [anchor cfg] else [] := by
  have hown : ∀ w, (anchorCommands cfg addrs w).filterMap (Command.rule? v)
      = if w = v ∧ addrs.has w then [anchor cfg] else [] := by
    intro w
    rw [anchorCommands]
    cases hw : addrs.has w with
    | false => simp
    | true =>
        by_cases hwv : w = v
        · simp [Command.rule?, if_pos hwv]
        · simp [Command.rule?, hwv]
  rw [Setup.rules, anchorRules, List.filterMap_append, List.filterMap_append, List.append_assoc, hown,
    hown]
  cases v
  · simp [Setup.rules]
  · simp [Setup.rules]

/-- What the rules jump to: only families with an anchor have rules that jump. -/
theorem action_of_mem_ruleBodies {uids : List UidRange} {v : IpVersion} {body : RuleBody}
    (h : body ∈ ruleBodies cfg ifName addrs uids v) :
    body.action ≠ .nop ∧
      ∀ target, body.action = .goto target → target = nopPrio cfg ∧ addrs.has v = true := by
  by_cases hv : addrs.has v = true
  · have hcases : body.action = .goto (nopPrio cfg) ∨ body.action = .lookup cfg.iproute2TableIndex ∨
        body.action = .lookupSuppress cfg.iproute2TableIndex := by
      simp only [ruleBodies, interfaceBodies, if_pos hv, List.mem_append, List.mem_map,
        List.mem_cons, List.not_mem_nil, or_false] at h
      rcases h with (((⟨_, -, rfl⟩ | h) | ⟨_, -, rfl⟩) | rfl | rfl | rfl) | ⟨_, -, rfl⟩
      · exact .inl rfl
      · split at h
        · rcases List.mem_append.mp h with h | h
          · obtain ⟨_, -, rfl⟩ := List.mem_map.mp h
            exact .inr (.inl rfl)
          · rw [List.mem_singleton.mp h]
            exact .inl rfl
        · obtain ⟨_, -, rfl⟩ := List.mem_map.mp h
          exact .inl rfl
      · exact .inr (.inl rfl)
      · exact .inr (.inr rfl)
      · exact .inl rfl
      · exact .inr (.inl rfl)
      · exact .inr (.inl rfl)
    rcases hcases with haction | haction | haction
    · simp [haction, hv]
    · simp [haction]
    · simp [haction]
  · rw [ruleBodies, if_neg hv] at h
    split at h
    · rw [List.mem_singleton.mp h]
      simp
    · cases h

end Steps

/-- **The rules of a family**: one priority behind the other, and the anchor. -/
theorem setup_rules (cfg : TunInboundConfig) (ifName : Str) :
    ∃ uids s, buildExcludedUidRanges cfg.includeUid cfg.excludeUid = some uids ∧
      uids.length = (excludedStarts cfg.includeUid cfg.excludeUid).ncard ∧
      setup cfg ifName = some s ∧
      ∀ v, s.rules v
        = number cfg.iproute2RuleIndex (ruleBodies cfg ifName (parseAddresses cfg) uids v)
          ++ if (parseAddresses cfg).has v then [anchor cfg] else [] := by
  obtain ⟨uids, huids, hlen⟩ := length_buildExcludedUidRanges cfg.includeUid cfg.excludeUid
  set addrs := parseAddresses cfg with haddrs
  set s := businessRules cfg ifName addrs uids (setupRoutes cfg ifName addrs) with hs
  refine ⟨uids, anchorRules cfg addrs s, huids, hlen, ?_, fun v => ?_⟩
  · rw [setup, huids]
    rfl
  · obtain ⟨-, hrules⟩ := adds_businessRules cfg ifName addrs uids v (setupRoutes cfg ifName addrs)
    have hnone : (setupRoutes cfg ifName addrs).rules v = [] := by
      rw [Setup.rules, setupRoutes]
      rcases addrs.inet4 with _ | ⟨a, _⟩ <;> rcases addrs.inet6 with _ | ⟨b, _⟩ <;>
        rfl
    have hnext : (setupRoutes cfg ifName addrs).next v = cfg.iproute2RuleIndex := by
      cases v <;> rfl
    rw [hnone, hnext, List.nil_append] at hrules
    rw [rules_anchorRules, hrules]

/-! ### The anchor -/

/-- What the priorities of a family are for: no two rules share one, the anchor is behind all others, and
    what jumps to it jumps forward, to a rule that exists. -/
structure Anchored (rules : List Rule) (nop : UInt32) : Prop where
  distinct : rules.Pairwise fun r t => r.priority ≠ t.priority
  before : ∀ r ∈ rules, r.action ≠ .nop → r.priority < nop
  forward : ∀ r ∈ rules, ∀ target, r.action = .goto target →
    r.priority < target ∧ ∃ t ∈ rules, t.priority = target ∧ t.action = .nop

/-- How many interface rules each family with addresses has. -/
def interfaceCount (cfg : TunInboundConfig) : Nat :=
  if cfg.includeInterface ≠ [] then cfg.includeInterface.length + 1
  else cfg.excludeInterface.length

/-- How many rules a family has without the anchor, by the lists of the configuration. -/
noncomputable def ruleCount (cfg : TunInboundConfig) (v : IpVersion) : Nat :=
  let addresses := ((parseAddresses cfg).networks v).length
  if addresses ≠ 0 then
    (excludedStarts cfg.includeUid cfg.excludeUid).ncard + interfaceCount cfg + 2 * addresses + 3
  else if cfg.strictRoute then 1 else 0

theorem length_ruleBodies {cfg : TunInboundConfig} {uids : List UidRange}
    (huids : uids.length = (excludedStarts cfg.includeUid cfg.excludeUid).ncard) (ifName : Str)
    (v : IpVersion) :
    (ruleBodies cfg ifName (parseAddresses cfg) uids v).length = ruleCount cfg v := by
  have hifaces : (interfaceBodies cfg).length = interfaceCount cfg := by
    rw [interfaceBodies, interfaceCount]
    split <;> simp
  rw [ruleBodies, ruleCount]
  by_cases hv : (parseAddresses cfg).has v = true
  · rw [if_pos hv, if_pos (((parseAddresses cfg).has_iff v).mp hv)]
    simp only [List.length_append, List.length_map, List.length_cons, List.length_nil, hifaces, huids]
    omega
  · rw [if_neg hv, if_neg (mt ((parseAddresses cfg).has_iff v).mpr hv)]
    split <;> rfl

/-- **One family.**  Its anchor is behind its rules exactly when there are at most a hundred of them, and
    the priority of the anchor is a `u32`. -/
theorem anchored_iff {cfg : TunInboundConfig} {addrs : AddrInfo} {uids : List UidRange} {ifName : Str}
    {v : IpVersion} {rules : List Rule}
    (hrules : rules = number cfg.iproute2RuleIndex (ruleBodies cfg ifName addrs uids v)
      ++ if addrs.has v then [anchor cfg] else []) :
    Anchored rules (nopPrio cfg) ↔ (ruleBodies cfg ifName addrs uids v).length = 0 ∨
      cfg.iproute2RuleIndex.toNat + 100 < 2 ^ 32 ∧
        (ruleBodies cfg ifName addrs uids v).length ≤ 100 := by
  set bodies := ruleBodies cfg ifName addrs uids v with hbodies
  have hlt := number_lt_iff cfg.iproute2RuleIndex 100 bodies
  -- the numbered rules jump to the anchor or decide; the anchor does neither
  have haction : ∀ r ∈ number cfg.iproute2RuleIndex bodies, r.action ≠ .nop ∧
      ∀ target, r.action = .goto target → target = nopPrio cfg ∧ addrs.has v = true :=
    fun r hr => action_of_mem_ruleBodies cfg ifName addrs (mem_number hr)
  have hanchor : ∀ r ∈ (if addrs.has v then [anchor cfg] else []), r = anchor cfg := by
    intro r hr
    split at hr
    · exact List.mem_singleton.mp hr
    · cases hr
  -- the rules are in front of the anchor exactly if their priorities are less than its
  refine Iff.trans ⟨fun h => ?_, fun h => ?_⟩ hlt
  · intro r hr
    exact h.before r (hrules ▸ List.mem_append_left _ hr) (haction r hr).1
  · have hshort : bodies.length ≤ 2 ^ 32 := by
      rcases hlt.mp h with hnone | ⟨-, hfit⟩
      · omega
      · have hfit : bodies.length ≤ 100 := hfit
        omega
    subst hrules
    refine ⟨List.pairwise_append.mpr ⟨pairwise_number hshort, ?_, fun r hr t ht => ?_⟩,
      fun r hr hnop => ?_, fun r hr target htarget => ?_⟩
    · split
      · exact List.pairwise_singleton ..
      · exact List.Pairwise.nil
    · rw [hanchor t ht]
      exact UInt32.ne_of_lt (h r hr)
    · rcases List.mem_append.mp hr with hr | hr
      · exact h r hr
      · rw [hanchor r hr] at hnop
        exact absurd rfl hnop
    · rcases List.mem_append.mp hr with hr | hr
      · obtain ⟨rfl, hv⟩ := (haction r hr).2 target htarget
        refine ⟨h r hr, anchor cfg, List.mem_append_right _ ?_, rfl, rfl⟩
        rw [if_pos hv]
        exact List.mem_singleton_self _
      · rw [hanchor r hr] at htarget
        cases htarget

/-- In every family the anchor is behind the rules exactly when no family has more than a hundred, and the
    priority of the anchor is a `u32`; a family without rules is left out. -/
theorem setup_anchored_iff (cfg : TunInboundConfig) (ifName : Str) :
    ∃ s, setup cfg ifName = some s ∧
      ((∀ v, Anchored (s.rules v) (nopPrio cfg)) ↔
        ∀ v, ruleCount cfg v = 0 ∨
          cfg.iproute2RuleIndex.toNat + 100 < 2 ^ 32 ∧ ruleCount cfg v ≤ 100) := by
  obtain ⟨uids, s, -, huids, hsetup, hrules⟩ := setup_rules cfg ifName
  refine ⟨s, hsetup, forall_congr' fun v => ?_⟩
  rw [anchored_iff (hrules v), length_ruleBodies huids]

/-- One IPv4 address and ninety-six excluded interfaces. -/
def crowdedConfig : TunInboundConfig where
  address := ["172.19.0.1/30".toList]
  excludeInterface := List.replicate 96 "eth0".toList

/-- The last rule has the priority of the anchor. -/
theorem crowdedConfig_not_anchored :
    ∃ s, setup crowdedConfig "tun0".toList = some s ∧
      ¬ Anchored (s.rules .v4) (nopPrio crowdedConfig) := by
  obtain ⟨uids, s, hbuild, -, hsetup, hrules⟩ := setup_rules crowdedConfig "tun0".toList
  refine ⟨s, hsetup, fun h => ?_⟩
  have hnone : buildExcludedUidRanges [] [] = some [] := rfl
  obtain rfl := Option.some.inj (hbuild.symm.trans hnone)
  have hcount : (ruleBodies crowdedConfig "tun0".toList (parseAddresses crowdedConfig) [] .v4).length
      = 101 := by
    decide
  rw [anchored_iff (hrules .v4), hcount] at h
  omega

end Reflex.Inbound.TunRules
