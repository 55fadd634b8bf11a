import Reflex.Inbound.Mixed
import Reflex.Router.Basic

namespace Reflex.Routing

open RustStd Ruleset FirstMatch Inbound ByteStream

/-!
# Router — address literals

A client of the mixed inbound can ask for one socket address in two ways: by a SOCKS5 request that
carries its bytes, or by an HTTP `CONNECT` that carries its text.  The first becomes a socket target,
the second a domain target, in the brackets of its text if it is an IPv6 address.

* `parseHttpConnect_literal`, `reads_readSocks5Addr_literal` — the two targets;
* `matches_ne_iff` — the rules that tell them apart;
* `literal_alike_iff` — when both are routed alike and denote the same address.
-/

/-! ### The two requests -/

/-- A `CONNECT` request for `addr`; behind the authority stand the version and the headers. -/
def connectRequest (addr : SocketAddr) (rest : Str) : Str :=
  "CONNECT".toList ++ ' ' :: (addr.display ++ ' ' :: rest)

/-- The host in the text of a socket address. -/
def literalHost : IpAddr → Str
  | .v4 ip => ip.display
  | .v6 ip => '[' :: ip.display ++ [']']

/-- The address type of a SOCKS5 request for `ip`. -/
def socks5Atyp : IpAddr → UInt8
  | .v4 _ => 0x01
  | .v6 _ => 0x04

/-- The address and the port of a SOCKS5 request. -/
def socks5Addr (addr : SocketAddr) : Bytes :=
  match addr.ip with
  | .v4 ip => ip.octets ++ beBytes 2 addr.port.toNat
  | .v6 ip => ip.octets ++ beBytes 2 addr.port.toNat

theorem display_eq_literalHost (addr : SocketAddr) :
    addr.display = literalHost addr.ip ++ ':' :: display addr.port.toNat := by
  obtain ⟨ip | ip, port⟩ := addr
  · rfl
  · simp [SocketAddr.display, literalHost]

theorem hostPort_literal (addr : SocketAddr) (dflt : UInt16) :
    hostPort dflt addr.display = .domain (literalHost addr.ip) addr.port := by
  have hcolon : ':' ∉ display addr.port.toNat := by
    intro h
    have := isDigit_of_mem_display h
    revert this
    decide
  rw [hostPort, display_eq_literalHost, rsplitOnce_append hcolon]
  dsimp only
  rw [portOr, parseU16_display]
  rfl

/-- **`CONNECT`** keeps the text of the address as a domain. -/
theorem parseHttpConnect_literal (addr : SocketAddr) (rest : Str) :
    parseHttpConnect (connectRequest addr rest)
      = .ok (.domain (literalHost addr.ip) addr.port) := by
  have hspace : ' ' ∉ addr.display := addr.notMem_display (by decide)
  have hfeed : '\n' ∉ "CONNECT".toList ++ ' ' :: addr.display := by
    rw [List.mem_append, List.mem_cons, not_or, not_or]
    exact ⟨by decide, by decide, addr.notMem_display (by decide)⟩
  obtain ⟨rest', hline⟩ := headD_lines_append hfeed rest
  rw [List.append_assoc, List.cons_append, List.append_assoc, List.cons_append] at hline
  have hmethod := splitOnce_append (c := ' ') (s := "CONNECT".toList) (by decide)
    (addr.display ++ ' ' :: rest')
  have hlower : toAsciiLowercase "CONNECT".toList = "connect".toList := by decide
  unfold parseHttpConnect connectRequest
  rw [hline]
  simp only [hmethod, splitOnce_append hspace, hlower]
  exact (if_pos trivial).trans (congrArg Except.ok (hostPort_literal addr 443))

/-- **SOCKS5** has its own types for addresses, and a literal is read as the address itself and never as a name. -/
theorem reads_readSocks5Addr_literal (addr : SocketAddr) :
    Reads (readSocks5Addr (socks5Atyp addr.ip)) (socks5Addr addr) (.socket addr) := by
  obtain ⟨ip | ip, port⟩ := addr
  · refine (reads_readExact _ ip.length_octets).bind ?_
    refine (reads_readPort port).bind_nil (reads_pure ?_)
    rw [Ipv4Addr.ofOctets_octets]
  · refine (reads_readExact _ ip.length_octets).bind ?_
    refine (reads_readPort port).bind_nil (reads_pure ?_)
    rw [Ipv6Addr.ofOctets_octets]

/-! ### What a target denotes -/

/-- The socket address a target stands for without any name service: a domain that is an address,
    as `resolve_domain` takes it, or the address itself. -/
def denotes : Target → Option SocketAddr
  | .domain host port => (IpAddr.fromStr host).map (⟨·, port⟩)
  | .socket addr => some addr

theorem denotes_literal (ip : IpAddr) (port : UInt16) :
    denotes (.domain (literalHost ip) port) = some ⟨ip, port⟩ ↔ ∃ ip4, ip = .v4 ip4 := by
  cases ip with
  | v4 ip4 =>
      refine ⟨fun _ => ⟨ip4, rfl⟩, fun _ => ?_⟩
      rw [denotes, literalHost, show ip4.display = IpAddr.display (.v4 ip4) from rfl,
        IpAddr.fromStr_display]
      rfl
  | v6 ip6 =>
      rw [denotes, literalHost, List.cons_append, IpAddr.fromStr_bracket]
      constructor
      · intro h
        cases h
      · rintro ⟨ip4, h⟩
        cases h

/-! ### The rules that tell the targets apart -/

variable (E : Externals)

/-- The conditions of a rule that do not look at the target. -/
def CompiledRule.admits (r : CompiledRule) (inboundTag : Str) (network : Option NetworkKind)
    (sniffedProtocol : Option Str) : Bool :=
  (r.inboundTags.isEmpty || inboundTag ∈ r.inboundTags) && networkMatches r.network network &&
    (r.protocols.isEmpty || sniffedProtocol.any fun proto => E.toLowercase proto ∈ r.protocols)

/-- The conditions of a rule on the address, by its rule sets or its own entries. -/
def CompiledRule.addrMatches (r : CompiledRule) (mt : MatchTarget) : Bool :=
  r.rulesets.any (fun rs => rs.matches mt) || r.addrRs.any fun rs => rs.matches mt

/-- The conditions of a rule on the port, by its rule sets or its own entries. -/
def CompiledRule.portMatches (r : CompiledRule) (port : UInt16) : Bool :=
  r.rulesets.any (fun rs => rs.matches (.port port)) || r.portRs.any fun rs => rs.matches (.port port)

variable {E}

theorem matchTarget_eq (r : CompiledRule) (target : Target) :
    r.matchTarget target
      = (r.addrMatches (targetToAddrMatch target) || r.portMatches target.port) := by
  have hany : (r.rulesets.any fun rs =>
        rs.matches (targetToAddrMatch target) || rs.matches (.port target.port))
      = ((r.rulesets.any fun rs => rs.matches (targetToAddrMatch target)) ||
        r.rulesets.any fun rs => rs.matches (.port target.port)) := by
    rw [Bool.eq_iff_iff, Bool.or_eq_true, List.any_eq_true, List.any_eq_true, List.any_eq_true,
      ← exists_or]
    refine exists_congr fun rs => ?_
    rw [Bool.or_eq_true, and_or_left]
  rw [CompiledRule.matchTarget, CompiledRule.addrMatches, CompiledRule.portMatches, hany]
  ac_rfl

/-- A rule with a condition that holds has a condition. -/
theorem hasAny_of_matchTarget {r : CompiledRule} {target : Target}
    (h : r.matchTarget target = true) :
    (!r.rulesets.isEmpty || r.addrRs.isSome || r.portRs.isSome) = true := by
  by_contra hnone
  simp only [Bool.not_eq_true, Bool.or_eq_false_iff, Bool.not_eq_false', List.isEmpty_iff,
    Option.isSome_eq_false_iff, Option.isNone_iff_eq_none] at hnone
  obtain ⟨⟨hrulesets, haddr⟩, hport⟩ := hnone
  rw [CompiledRule.matchTarget, hrulesets, haddr, hport] at h
  cases h

theorem matches_eq (r : CompiledRule) (inboundTag : Str) (network : Option NetworkKind)
    (target : Target) (sniffedProtocol : Option Str) :
    r.matches E inboundTag network target sniffedProtocol
      = (r.admits E inboundTag network sniffedProtocol &&
        (!(!r.rulesets.isEmpty || r.addrRs.isSome || r.portRs.isSome) || r.matchTarget target)) := by
  have htag : (!decide (r.inboundTags ≠ [] ∧ inboundTag ∉ r.inboundTags))
      = (r.inboundTags.isEmpty || decide (inboundTag ∈ r.inboundTags)) := by
    by_cases hempty : r.inboundTags = [] <;> simp [hempty]
  have hproto : (!decide (r.protocols ≠ [] ∧
        !(sniffedProtocol.any fun proto => E.toLowercase proto ∈ r.protocols)))
      = (r.protocols.isEmpty ||
        sniffedProtocol.any fun proto => E.toLowercase proto ∈ r.protocols) := by
    by_cases hempty : r.protocols = [] <;> simp [hempty]
  rw [CompiledRule.matches, CompiledRule.admits, Bool.if_false_left, Bool.if_false_left,
    Bool.if_false_left, htag, hproto, Bool.not_and, Bool.not_not]
  simp only [Bool.decide_eq_true, Bool.not_not, Bool.and_assoc]

/-- **Which rules tell two targets apart.** Two targets with the same port are judged differently
    by a rule that admits the connection, whose port conditions do not hold, and whose address
    conditions hold for just one of them. -/
theorem matches_ne_iff {r : CompiledRule} {inboundTag : Str} {network : Option NetworkKind}
    {sniffedProtocol : Option Str} {t t' : Target} (hport : t.port = t'.port) :
    r.matches E inboundTag network t sniffedProtocol
        ≠ r.matches E inboundTag network t' sniffedProtocol ↔
      r.admits E inboundTag network sniffedProtocol = true ∧ r.portMatches t.port = false ∧
        r.addrMatches (targetToAddrMatch t) ≠ r.addrMatches (targetToAddrMatch t') := by
  have ht : r.matchTarget t = true → _ := hasAny_of_matchTarget
  have ht' : r.matchTarget t' = true → _ := hasAny_of_matchTarget
  rw [matches_eq, matches_eq]
  rw [matchTarget_eq] at ht ht' ⊢
  rw [matchTarget_eq, ← hport]
  rw [← hport] at ht'
  -- what is left is about five truth values
  generalize (!r.rulesets.isEmpty || r.addrRs.isSome || r.portRs.isSome) = hasAny at ht ht' ⊢
  generalize r.admits E inboundTag network sniffedProtocol = admits
  generalize r.portMatches t.port = port at ht ht' ⊢
  generalize r.addrMatches (targetToAddrMatch t) = addr at ht ⊢
  generalize r.addrMatches (targetToAddrMatch t') = addr' at ht' ⊢
  revert hasAny admits port addr addr'
  decide

/-! ### Both ways in -/

/-- The `CONNECT` request and the SOCKS5 request for `addr` are both understood, get the same action
    and denote the same address. -/
def Alike (E : Externals) (rt : Router) (inboundTag : Str) (network : Option NetworkKind)
    (sniffedProtocol : Option Str) (addr : SocketAddr) (rest : Str) : Prop :=
  ∃ http socks, parseHttpConnect (connectRequest addr rest) = .ok http ∧
    Reads (readSocks5Addr (socks5Atyp addr.ip)) (socks5Addr addr) socks ∧
    (rt.route E inboundTag network http sniffedProtocol).1
      = (rt.route E inboundTag network socks sniffedProtocol).1 ∧
    denotes http = denotes socks

/-- **When it does not matter how a client asks.** For every address, port and list of rules, both
    requests get the same action and denote the same address exactly when the address is an IPv4
    address and the first rule that tells its text, as a domain, from the address carries the action
    that the rules behind it give to the other. -/
theorem literal_alike_iff (E : Externals) (rt : Router) (inboundTag : Str)
    (network : Option NetworkKind) (sniffedProtocol : Option Str) (addr : SocketAddr) (rest : Str) :
    Alike E rt inboundTag network sniffedProtocol addr rest ↔
      (∃ ip4, addr.ip = .v4 ip4) ∧
        Agree
          (fun r => r.matches E inboundTag network (.domain addr.ip.display addr.port)
            sniffedProtocol)
          (fun r => r.matches E inboundTag network (.socket addr) sniffedProtocol)
          CompiledRule.action rt.default rt.rules := by
  have hdenotes := denotes_literal addr.ip addr.port
  constructor
  · rintro ⟨http, socks, hhttp, hsocks, haction, hsame⟩
    obtain rfl := Except.ok.inj ((parseHttpConnect_literal addr rest).symm.trans hhttp)
    obtain rfl := (reads_readSocks5Addr_literal addr).unique hsocks
    obtain ⟨ip4, hip⟩ := hdenotes.mp hsame
    refine ⟨⟨ip4, hip⟩, ?_⟩
    rw [Router.route_fst, Router.route_fst, firstMatch_eq_iff] at haction
    rw [hip] at haction ⊢
    exact haction
  · rintro ⟨⟨ip4, hip⟩, hagree⟩
    refine ⟨_, _, parseHttpConnect_literal addr rest, reads_readSocks5Addr_literal addr, ?_, ?_⟩
    · rw [Router.route_fst, Router.route_fst, firstMatch_eq_iff]
      rw [hip] at hagree ⊢
      exact hagree
    · exact hdenotes.mpr ⟨ip4, hip⟩

/-- A rule for a block of addresses. -/
def blockCidr : RouteRuleConfig := { ipCidr := ["1.2.3.0/24".toList], outbound := "block".toList }

/-- `1.2.3.4` is blocked for a client of SOCKS5 and not for one of HTTP, and the text of an IPv6
    address denotes none. -/
theorem not_literal_alike :
    (∃ rt, Router.fromConfig .plain (fun _ => .error [])
        { rules := [blockCidr], final := "direct".toList } = .ok rt ∧
      ¬ Alike .plain rt [] (some .tcp) none ⟨.v4 0x01020304, 443⟩ "HTTP/1.1\r\n\r\n".toList) ∧
      ∃ rt, Router.fromConfig .plain (fun _ => .error []) { final := "direct".toList } = .ok rt ∧
        ¬ Alike .plain rt [] (some .tcp) none ⟨.v6 1, 443⟩ "HTTP/1.1\r\n\r\n".toList := by
  constructor
  · obtain ⟨rt, hrt, hrun⟩ := exists_eq_ok_of_any (x := Router.fromConfig .plain (fun _ => .error [])
        { rules := [blockCidr], final := "direct".toList })
      (p := fun rt =>
        decide ((rt.route .plain [] (some .tcp) (.domain "1.2.3.4".toList 443) none).1
          = RouteAction.outbound "direct".toList) &&
        decide ((rt.route .plain [] (some .tcp) (.socket ⟨.v4 0x01020304, 443⟩) none).1
          = RouteAction.outbound "block".toList))
      (by decide +kernel)
    rw [Bool.and_eq_true, decide_eq_true_eq, decide_eq_true_eq] at hrun
    refine ⟨rt, hrt, ?_⟩
    rintro ⟨http, socks, hhttp, hsocks, haction, -⟩
    obtain rfl := Except.ok.inj ((parseHttpConnect_literal _ _).symm.trans hhttp)
    obtain rfl := (reads_readSocks5Addr_literal _).unique hsocks
    have htext : literalHost (.v4 0x01020304) = "1.2.3.4".toList := by decide
    rw [htext, hrun.1, hrun.2] at haction
    revert haction
    decide
  · refine ⟨_, rfl, ?_⟩
    rintro ⟨http, socks, hhttp, hsocks, -, hsame⟩
    obtain rfl := Except.ok.inj ((parseHttpConnect_literal _ _).symm.trans hhttp)
    obtain rfl := (reads_readSocks5Addr_literal _).unique hsocks
    obtain ⟨ip4, hip⟩ := (denotes_literal _ _).mp hsame
    cases hip

end Reflex.Routing
