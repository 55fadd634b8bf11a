import Reflex.Outbound.Socks

namespace Reflex.Socks

open RustStd ByteStream Inbound

/-!
# Outbounds — the SOCKS5 client and the inbound of this program

`socks5_handshake` of `outbound/socks.rs` on one end of a connection, `handle_conn` of `inbound/mixed.rs` on
the other; what one writes reaches the other in pieces of any size.

* `decides_handshake` — when the handshake succeeds, whatever request it carries;
* `connect_tunnel_iff` — in every order of delivery a tunnel comes about exactly if the names and passwords
  agree where both have a name, and all lengths fit into a byte.
-/

/-! ### Reading and writing step by step -/

theorem causal_readByte : Causal .unexpectedEof readByte := causal_readU8 _

theorem causal_readBytes (n : Nat) : Causal .unexpectedEof (readBytes n) := causal_readExact _ n

theorem reads_readByte (b : UInt8) : Reads readByte [b] b := reads_readU8 _ b

theorem reads_readBytes {n : Nat} {bs : Bytes} (h : bs.length = n) : Reads (readBytes n) bs bs :=
  reads_readExact _ h

theorem causal_ensure (cond : Bool) (text : Str) : Causal .unexpectedEof (ensure cond text) :=
  (causal_pure _ ()).ite (causal_bail _ _)

theorem causal_readMethod (texts : LoginTexts) : Causal .unexpectedEof (readMethod texts) :=
  (causal_readBytes 2).bind fun _ => (causal_ensure _ _).bind fun _ => (causal_ensure _ _).bind fun _ =>
    causal_pure _ _

theorem causal_negotiateMethod (config : SocksOutboundConfig) (texts : LoginTexts) :
    Causal .unexpectedEof (negotiateMethod config texts) :=
  (causal_writeAll _ _).bind fun _ => causal_readMethod texts

theorem causal_readAuthReply (text : Str) : Causal .unexpectedEof (readAuthReply text) :=
  (causal_readBytes 2).bind fun _ => causal_ensure _ _

theorem causal_sendCredentials (config : SocksOutboundConfig) (text : Str) :
    Causal .unexpectedEof (sendCredentials config text) :=
  (causal_writeAll _ _).bind fun _ => causal_readAuthReply text

theorem causal_skipReply : Causal .unexpectedEof skipReply := by
  refine (causal_readBytes 4).bind fun hdr => (causal_ensure _ _).bind fun _ => (causal_ensure _ _).bind
    fun _ => ?_
  refine .ite ((causal_readBytes 6).bind fun _ => causal_pure _ _) ?_
  refine .ite ((causal_readBytes 18).bind fun _ => causal_pure _ _) ?_
  refine .ite ?_ (causal_bail _ _)
  exact causal_readByte.bind fun _ => (causal_readBytes _).bind fun _ => causal_pure _ _

theorem causal_sendRequest (target : Target) (cmd : UInt8) :
    Causal .unexpectedEof (sendRequest target cmd) :=
  (causal_ofExcept _ _).bind fun _ => (causal_writeAll _ _).bind fun _ => causal_skipReply

theorem causal_readPort : Causal .unexpectedEof readPort :=
  (causal_readBytes 2).bind fun _ => causal_pure _ _

theorem causal_readSocks5Addr (atyp : UInt8) : Causal .unexpectedEof (readSocks5Addr atyp) := by
  refine .ite ?_ (.ite ?_ (.ite ?_ (causal_bail _ _)))
  · exact (causal_readBytes 4).bind fun _ => causal_readPort.bind fun _ => causal_pure _ _
  · exact (causal_readBytes 16).bind fun _ => causal_readPort.bind fun _ => causal_pure _ _
  · exact causal_readByte.bind fun _ => (causal_readBytes _).bind fun _ => causal_readPort.bind fun _ =>
      (causal_ofExcept _ _).bind fun _ => causal_pure _ _

section Server

variable (config : MixedInboundConfig) (peer : SocketAddr) (bindUdp : Option SocketAddr)

theorem causal_negotiate : Causal .unexpectedEof (negotiate config) := by
  refine causal_readByte.bind fun _ => .ite (causal_bail _ _) ?_
  refine causal_readByte.bind fun _ => (causal_readBytes _).bind fun _ => .ite ?_ (.ite ?_ ?_)
  · exact (causal_writeAll _ _).bind fun _ => causal_pure _ _
  · exact (causal_writeAll _ _).bind fun _ => causal_pure _ _
  · exact (causal_writeAll _ _).bind fun _ => causal_bail _ _

theorem causal_authenticate : Causal .unexpectedEof (authenticate config) := by
  refine causal_readByte.bind fun _ => causal_readByte.bind fun _ => (causal_readBytes _).bind fun _ => ?_
  refine causal_readByte.bind fun _ => (causal_readBytes _).bind fun _ => .ite (causal_writeAll _ _) ?_
  exact (causal_writeAll _ _).bind fun _ => causal_bail _ _

theorem causal_serveCommand (cmd : UInt8) (target : Target) :
    Causal .unexpectedEof (serveCommand config peer bindUdp cmd target) := by
  refine .ite ?_ (.ite (.ite ?_ ?_) ?_)
  · exact (causal_writeAll _ _).bind fun _ => causal_pure _ _
  · exact (causal_ofExcept _ _).bind fun _ => (causal_writeAll _ _).bind fun _ => causal_pure _ _
  · exact (causal_writeAll _ _).bind fun _ => causal_bail _ _
  · exact (causal_writeAll _ _).bind fun _ => causal_bail _ _

theorem causal_socks5Request : Causal .unexpectedEof (socks5Request config peer bindUdp) :=
  causal_readByte.bind fun _ => causal_readByte.bind fun cmd => causal_readByte.bind fun _ =>
    causal_readByte.bind fun atyp => (causal_readSocks5Addr atyp).bind fun target =>
      causal_serveCommand config peer bindUdp cmd target

/-- What comes after the negotiation of the method is causal, with a password and without one. -/
theorem causal_afterMethod (method : UInt8) : Causal .unexpectedEof
    (if method = 0x02 then do authenticate config; socks5Request config peer bindUdp
      else socks5Request config peer bindUdp) :=
  .ite ((causal_authenticate config).bind fun _ => causal_socks5Request config peer bindUdp)
    (causal_socks5Request config peer bindUdp)

theorem causal_handleSocks5 : Causal .unexpectedEof (handleSocks5 config peer bindUdp) :=
  (causal_negotiate config).bind fun method => causal_afterMethod config peer bindUdp method

end Server

/-! ### Requests in HTTP -/

theorem readHttpHead_append {input buf head rest : Bytes} (h : readHttpHead input buf = .ok (head, rest))
    (later : Bytes) : readHttpHead (input ++ later) buf = .ok (head, rest ++ later) := by
  induction input generalizing buf with
  | nil => cases h
  | cons b input ih =>
    rw [readHttpHead] at h
    rw [List.cons_append, readHttpHead]
    split_ifs at h ⊢ with hend hlen
    · obtain ⟨rfl, rfl⟩ := Prod.mk.inj (Except.ok.inj h)
      rfl
    · exact ih h

theorem readHttpHead_append_error {input buf : Bytes} {e : ConnError} (h : readHttpHead input buf = .error e)
    (he : e ≠ .unexpectedEof) (later : Bytes) : readHttpHead (input ++ later) buf = .error e := by
  induction input generalizing buf with
  | nil => exact absurd (Except.error.inj h).symm he
  | cons b input ih =>
    rw [readHttpHead] at h
    rw [List.cons_append, readHttpHead]
    split_ifs at h ⊢ with hend hlen
    · exact ih h
    · exact h

/-- `readHead` only reads, whatever the input is. -/
theorem written_readHead (input : Bytes) : written readHead input = [] := by
  unfold written readHead
  cases readHttpHead input [] with
  | ok r => rfl
  | error e => rfl

theorem causal_readHead : Causal .unexpectedEof readHead where
  output input output := by
    rw [written_readHead, List.append_nil]
    unfold result unread readHead
    cases readHttpHead input [] with
    | ok r => rfl
    | error e => rfl
  returned {input head} h later := by
    rw [written_readHead]
    unfold result at h
    unfold unread
    unfold readHead at h ⊢
    cases hread : readHttpHead input [] with
    | ok r =>
      rw [hread] at h
      obtain rfl := Except.ok.inj h
      rw [readHttpHead_append hread]
    | error e =>
      rw [hread] at h
      cases h
  failed {input e} h he later := by
    refine ⟨?_, by rw [written_readHead, written_readHead]⟩
    unfold result at h ⊢
    unfold readHead at h ⊢
    cases hread : readHttpHead input [] with
    | ok r =>
      rw [hread] at h
      cases h
    | error e' =>
      rw [hread] at h
      obtain rfl := Except.error.inj h
      rw [readHttpHead_append_error hread he]
  waiting _ later := by
    rw [written_readHead]
    exact List.nil_prefix

theorem causal_handleHttp (tag : Str) : Causal .unexpectedEof (handleHttp tag) :=
  causal_readHead.bind fun _ => (causal_ofExcept _ _).bind fun _ => (causal_ofExcept _ _).bind fun _ =>
    (causal_writeAll _ _).bind fun _ => causal_pure _ _

/-! ### The two ends of a connection -/

section Dialogue

variable (client : SocksOutboundConfig) (server : MixedInboundConfig) (peer : SocketAddr)
  (bindUdp : Option SocketAddr)

/-- The inbound: `peek` waits for the first byte. -/
def listener : Handler ConnError Handed := awaiting .unexpectedEof (handleConn server peer bindUdp)

/-- The protocol is chosen by the first byte. -/
def speak (first : UInt8) : Handler ConnError Handed :=
  if first = 0x05 then handleSocks5 server peer bindUdp
  else if first ∈ httpFirstBytes then handleHttp server.tag
  else bail (.message ("unknown protocol first byte: 0x".toList ++ hex02 first))

theorem causal_listener : Causal .unexpectedEof (listener server peer bindUdp) := by
  refine causal_awaiting (f := speak server peer bindUdp) ?_ ?_
  · intro b rest output
    show (if b = 0x05 then _ else if b ∈ httpFirstBytes then _ else _) = _
    unfold speak
    split_ifs
    · rfl
    · rfl
    · rfl
  · intro b
    exact .ite (causal_handleSocks5 server peer bindUdp) (.ite (causal_handleHttp _) (causal_bail _ _))

/-- To a SOCKS5 client the inbound is `handle_socks5`. -/
theorem listener_eq {α : Type} {texts : LoginTexts} {down up : Bytes}
    {f : UInt8 → Handler ConnError α} (hf : ∀ m, Causal .unexpectedEof (f m))
    (h : up <+: written (negotiateMethod client texts >>= f) down) :
    handleSocks5 server peer bindUdp ⟨up, []⟩ = listener server peer bindUdp ⟨up, []⟩ := by
  have hgreeting : greeting client <+: written (negotiateMethod client texts >>= f) down := by
    refine List.IsPrefix.trans ?_ ((causal_negotiateMethod client texts).written_grows_bind hf down)
    exact (causal_writeAll _ _).written_grows_bind (fun _ => causal_readMethod texts) down
  cases up with
  | nil => rfl
  | cons b rest =>
    -- the first byte that a client writes is the version
    have hb : b = 0x05 := by
      obtain ⟨later, hlater⟩ := h
      obtain ⟨methods, hmethods⟩ : ∃ methods, greeting client = 0x05 :: methods := by
        unfold greeting
        split_ifs
        · exact ⟨_, rfl⟩
        · exact ⟨_, rfl⟩
      rw [hmethods, ← hlater] at hgreeting
      exact (List.cons_prefix_cons.mp hgreeting).1.symm
    subst hb
    rfl

/-! ### The negotiation -/

/-- The method that is chosen. -/
def chosenMethod : UInt8 :=
  if client.username.isSome ∧ server.username.isSome then 0x02 else 0x00

theorem negotiate_greeting : negotiate server ⟨greeting client, []⟩
    = (.ok (chosenMethod client server), ⟨[], [0x05, chosenMethod client server]⟩) := by
  obtain ⟨tag, network, username, password⟩ := server
  unfold chosenMethod greeting
  cases client.username with
  | none =>
    cases username with
    | none => rfl
    | some _ => rfl
  | some _ =>
    cases username with
    | none => rfl
    | some _ => rfl

theorem meets_negotiate (texts : LoginTexts) : Dialogue.Meets (negotiateMethod client texts) (negotiate server)
    (chosenMethod client server) (chosenMethod client server) := by
  have hreply : readMethod texts ⟨[0x05, chosenMethod client server], []⟩
      = (.ok (chosenMethod client server), ⟨[], []⟩) := by
    unfold chosenMethod
    split_ifs
    · rfl
    · rfl
  exact Dialogue.Outcome.call (causal_readMethod texts) hreply (negotiate_greeting client server)

/-! ### The authentication -/

/-- The client presents the name and the password that the inbound is configured with, and their lengths are
    bytes. -/
structure LoggedIn : Prop where
  user_le : client.user.length ≤ 255
  pass_le : client.pass.length ≤ 255
  username : server.username = some (client.username.getD [])
  password : server.password = some (client.password.getD [])

instance : Decidable (LoggedIn client server) :=
  decidable_of_iff (client.user.length ≤ 255 ∧ client.pass.length ≤ 255 ∧
      server.username = some (client.username.getD []) ∧ server.password = some (client.password.getD []))
    ⟨fun h => ⟨h.1, h.2.1, h.2.2.1, h.2.2.2⟩, fun h => ⟨h.1, h.2, h.3, h.4⟩⟩

theorem authenticate_credentials (huser : client.user.length ≤ 255) (hpass : client.pass.length ≤ 255) :
    authenticate server ⟨credentials client, []⟩ =
      if LoggedIn client server then (.ok (), ⟨[], [0x01, 0x00]⟩)
      else (.error (.message "SOCKS5 auth failed".toList), ⟨[], [0x01, 0x01]⟩) := by
  have huserLen : (UInt8.ofNat client.user.length).toNat = client.user.length := by
    rw [UInt8.toNat_ofNat', Nat.mod_eq_of_lt (by omega)]
  have hpassLen : (UInt8.ofNat client.pass.length).toNat = client.pass.length := by
    rw [UInt8.toNat_ofNat', Nat.mod_eq_of_lt (by omega)]
  have hcredentials : credentials client = [0x01] ++ ([UInt8.ofNat client.user.length] ++ (client.user ++
      ([UInt8.ofNat client.pass.length] ++ (client.pass ++ [])))) := by
    simp [credentials]
  rw [hcredentials]
  unfold authenticate
  rw [bind_of_ok (reads_readByte 0x01 _ _), bind_of_ok (reads_readByte _ _ _),
    bind_of_ok (reads_readBytes huserLen.symm _ _), bind_of_ok (reads_readByte _ _ _),
    bind_of_ok (reads_readBytes hpassLen.symm _ _)]
  have hiff : (server.username = some (utf8OrEmpty client.user) ∧
      server.password = some (utf8OrEmpty client.pass)) ↔ LoggedIn client server := by
    rw [utf8OrEmpty, utf8OrEmpty, SocksOutboundConfig.user, SocksOutboundConfig.pass, fromUtf8_utf8,
      fromUtf8_utf8]
    exact ⟨fun h => ⟨huser, hpass, h.1, h.2⟩, fun h => ⟨h.username, h.password⟩⟩
  by_cases h : LoggedIn client server
  · rw [if_pos h, if_pos (hiff.mpr h)]
    rfl
  · rw [if_neg h, if_neg (mt hiff.mp h)]
    rfl

/-! ### The request -/

/-- The bytes of a request. -/
def requestBytes (cmd : UInt8) (addr : Bytes) (target : Target) : Bytes :=
  [0x05, cmd, 0x00] ++ addr ++ beBytes 2 target.port.toNat

theorem requestAddr_of_fits {target : Target} (h : Fits target) :
    ∃ atyp body, requestAddr target = .ok (atyp :: body) ∧
      Reads (readSocks5Addr atyp) (body ++ beBytes 2 target.port.toNat) target := by
  obtain ⟨host, port⟩ | ⟨⟨ip | ip, port⟩⟩ := target
  · refine ⟨0x03, UInt8.ofNat (utf8 host).length :: utf8 host, if_pos h, ?_⟩
    refine (reads_readU8 _ _).bind ((reads_readExact _ (length_eq_toNat h)).bind ?_)
    refine (reads_readPort port).bind_nil ((reads_ofExcept ?_).bind (reads_pure rfl))
    rw [fromUtf8_utf8]
  · refine ⟨0x01, ip.octets, rfl, (reads_readExact _ ip.length_octets).bind ?_⟩
    refine (reads_readPort port).bind_nil (reads_pure ?_)
    rw [Ipv4Addr.ofOctets_octets]
  · refine ⟨0x04, ip.octets, rfl, (reads_readExact _ ip.length_octets).bind ?_⟩
    refine (reads_readPort port).bind_nil (reads_pure ?_)
    rw [Ipv6Addr.ofOctets_octets]

theorem requestAddr_of_not_fits {target : Target} (h : ¬ Fits target) :
    requestAddr target = .error (.message "socks5: domain too long".toList) := by
  obtain ⟨host, port⟩ | ⟨⟨ip | ip, port⟩⟩ := target
  · exact if_neg h
  · exact absurd trivial h
  · exact absurd trivial h

/-- What the inbound reads is the command and the target. -/
theorem socks5Request_apply (cmd : UInt8) {target : Target} {atyp : UInt8} {body : Bytes}
    (h : Reads (readSocks5Addr atyp) (body ++ beBytes 2 target.port.toNat) target) :
    socks5Request server peer bindUdp ⟨requestBytes cmd (atyp :: body) target, []⟩
      = serveCommand server peer bindUdp cmd target ⟨[], []⟩ := by
  have hbytes : requestBytes cmd (atyp :: body) target = [0x05] ++ ([cmd] ++ ([0x00] ++ ([atyp] ++
      ((body ++ beBytes 2 target.port.toNat) ++ [])))) := by
    simp [requestBytes]
  rw [hbytes]
  unfold socks5Request
  rw [bind_of_ok (reads_readByte 0x05 _ _), bind_of_ok (reads_readByte cmd _ _),
    bind_of_ok (reads_readByte 0x00 _ _), bind_of_ok (reads_readByte atyp _ _), bind_of_ok (h _ _)]

/-- The reply of `write_socks5_reply`. -/
def replyBytes (rep : UInt8) (bindAddr : SocketAddr) : Bytes :=
  [0x05, rep, 0x00]
    ++ (match bindAddr.ip with
      | .v4 a => 0x01 :: a.octets
      | .v6 a => 0x04 :: a.octets)
    ++ beBytes 2 bindAddr.port.toNat

theorem reads_skipReply (addr : SocketAddr) : Reads skipReply (replyBytes 0x00 addr) () := by
  have hport : (beBytes 2 addr.port.toNat).length = 2 := length_beBytes 2 _
  obtain ⟨ip | ip, port⟩ := addr
  · have hbytes : replyBytes 0x00 ⟨.v4 ip, port⟩
        = [0x05, 0x00, 0x00, 0x01] ++ (ip.octets ++ beBytes 2 port.toNat) := by simp [replyBytes]
    have hskip : (ip.octets ++ beBytes 2 port.toNat).length = 6 := by
      rw [List.length_append, ip.length_octets, hport]
    have hhdr : Reads (readBytes 4) [0x05, 0x00, 0x00, 0x01] [0x05, 0x00, 0x00, 0x01] := reads_readBytes rfl
    rw [hbytes]
    refine hhdr.bind ((reads_ensure rfl _).bind ((reads_ensure rfl _).bind ?_))
    exact (reads_readBytes hskip).bind_nil (reads_pure rfl)
  · have hbytes : replyBytes 0x00 ⟨.v6 ip, port⟩
        = [0x05, 0x00, 0x00, 0x04] ++ (ip.octets ++ beBytes 2 port.toNat) := by simp [replyBytes]
    have hskip : (ip.octets ++ beBytes 2 port.toNat).length = 18 := by
      rw [List.length_append, ip.length_octets, hport]
    have hhdr : Reads (readBytes 4) [0x05, 0x00, 0x00, 0x04] [0x05, 0x00, 0x00, 0x04] := reads_readBytes rfl
    rw [hbytes]
    refine hhdr.bind ((reads_ensure rfl _).bind ((reads_ensure rfl _).bind ?_))
    exact (reads_readBytes hskip).bind_nil (reads_pure rfl)

/-- What a request is handed to when it is served: the dispatcher, or an association. -/
def handedFor (cmd : UInt8) (target : Target) : Handed :=
  if cmd = 0x01 then .dispatcher { target, inboundTag := server.tag }
  else .udpAssociation (bindUdp.getD ⟨.v4 0, 0⟩)

/-- The commands that are served: a connection, and an association where the inbound has UDP. -/
def Serves (cmd : UInt8) : Prop :=
  cmd = 0x01 ∨ (cmd = 0x03 ∧ server.network.hasUdp = true ∧ bindUdp.isSome = true)

/-- The address that a request is answered with. -/
def boundAt (cmd : UInt8) : SocketAddr := if cmd = 0x01 then peer else bindUdp.getD ⟨.v4 0, 0⟩

theorem serveCommand_of_serves {cmd : UInt8} (h : Serves server bindUdp cmd) (target : Target) :
    serveCommand server peer bindUdp cmd target ⟨[], []⟩
      = (.ok (handedFor server bindUdp cmd target), ⟨[], replyBytes 0x00 (boundAt peer bindUdp cmd)⟩) := by
  rcases h with rfl | ⟨rfl, hudp, hbind⟩
  · rfl
  · obtain ⟨addr, rfl⟩ := Option.isSome_iff_exists.mp hbind
    unfold serveCommand
    rw [if_neg (by decide), if_pos rfl, if_pos hudp]
    rfl

/-- A command that is not served fails; the client sees an error code or no answer at all. -/
theorem serveCommand_of_not_serves {cmd : UInt8} (h : ¬ Serves server bindUdp cmd) (target : Target) :
    ∃ e, serveCommand server peer bindUdp cmd target ⟨[], []⟩ = (.error e, ⟨[], []⟩) ∨
      serveCommand server peer bindUdp cmd target ⟨[], []⟩
        = (.error e, ⟨[], [0x05, 0x07, 0x00, 0x01, 0, 0, 0, 0, 0, 0]⟩) := by
  unfold Serves at h
  rw [not_or] at h
  unfold serveCommand
  rw [if_neg h.1]
  by_cases h3 : cmd = 0x03
  · subst h3
    rw [if_pos rfl]
    by_cases hudp : server.network.hasUdp = true
    · have hbind : bindUdp = none := by
        by_contra hne
        exact h.2 ⟨rfl, hudp, Option.isSome_iff_ne_none.mpr hne⟩
      subst hbind
      rw [if_pos hudp]
      exact ⟨.bindFailed, .inl rfl⟩
    · rw [if_neg hudp]
      exact ⟨_, .inr rfl⟩
  · rw [if_neg h3]
    exact ⟨_, .inr rfl⟩

/-! ### The phases -/

theorem decides_request (cmd : UInt8) (target : Target) :
    Dialogue.Decides (sendRequest target cmd) (socks5Request server peer bindUdp)
      (Fits target ∧ Serves server bindUdp cmd) () (handedFor server bindUdp cmd target) := by
  by_cases hfits : Fits target
  · obtain ⟨atyp, body, haddr, hreads⟩ := requestAddr_of_fits hfits
    have hsend : sendRequest target cmd
        = (do writeAll (requestBytes cmd (atyp :: body) target); skipReply) := by
      unfold sendRequest
      rw [haddr]
      rfl
    have hread := socks5Request_apply server peer bindUdp cmd hreads
    rw [hsend]
    by_cases hserves : Serves server bindUdp cmd
    · rw [serveCommand_of_serves server peer bindUdp hserves] at hread
      have hreply := reads_skipReply (boundAt peer bindUdp cmd) [] []
      rw [List.append_nil] at hreply
      exact Dialogue.Meets.decides (Dialogue.Outcome.call causal_skipReply hreply hread) ⟨hfits, hserves⟩
    · obtain ⟨e, hnone | hcode⟩ := serveCommand_of_not_serves server peer bindUdp hserves target
      · rw [hnone] at hread
        have hreply : skipReply ⟨[], []⟩ = (.error .unexpectedEof, ⟨[], []⟩) := rfl
        exact (Dialogue.Outcome.call causal_skipReply hreply hread).decides_not (fun h => hserves h.2) _ _
      · rw [hcode] at hread
        have hreply : skipReply ⟨[0x05, 0x07, 0x00, 0x01, 0, 0, 0, 0, 0, 0], []⟩
            = (.error (.message "socks5: server refused, REP=0x07".toList), ⟨[0, 0, 0, 0, 0, 0], []⟩) := rfl
        exact (Dialogue.Outcome.call causal_skipReply hreply hread).decides_not (fun h => hserves h.2) _ _
  · -- the client fails before it writes anything, and the inbound waits
    have hsend : sendRequest target cmd ⟨[], []⟩
        = (.error (.message "socks5: domain too long".toList), ⟨[], []⟩) := by
      unfold sendRequest
      rw [requestAddr_of_not_fits hfits]
      rfl
    have hread : socks5Request server peer bindUdp ⟨[], []⟩ = (.error .unexpectedEof, ⟨[], []⟩) := rfl
    exact (Dialogue.Outcome.idle hsend hread).decides_not (fun h => hfits h.1) _ _

theorem decides_credentials (text : Str) (huser : client.user.length ≤ 255)
    (hpass : client.pass.length ≤ 255) :
    Dialogue.Decides (sendCredentials client text) (authenticate server) (LoggedIn client server) () () := by
  have hread := authenticate_credentials client server huser hpass
  by_cases h : LoggedIn client server
  · rw [if_pos h] at hread
    have hreply : readAuthReply text ⟨[0x01, 0x00], []⟩ = (.ok (), ⟨[], []⟩) := rfl
    exact Dialogue.Meets.decides (Dialogue.Outcome.call (causal_readAuthReply text) hreply hread) h
  · rw [if_neg h] at hread
    have hreply : readAuthReply text ⟨[0x01, 0x01], []⟩ = (.error (.message text), ⟨[], []⟩) := rfl
    exact (Dialogue.Outcome.call (causal_readAuthReply text) hreply hread).decides_not h _ _

/-- The two lengths are tested before anything is sent. -/
theorem decides_login : Dialogue.Decides (do
      ensure (decide (client.user.length ≤ 255 ∧ client.pass.length ≤ 255))
        "socks5: username/password too long".toList
      sendCredentials client handshakeTexts.auth)
    (authenticate server) (LoggedIn client server) () () := by
  by_cases hlen : client.user.length ≤ 255 ∧ client.pass.length ≤ 255
  · rw [decide_eq_true hlen]
    exact decides_credentials client server _ hlen.1 hlen.2
  · rw [decide_eq_false hlen]
    have hread : authenticate server ⟨[], []⟩ = (.error .unexpectedEof, ⟨[], []⟩) := rfl
    have hlogin : ¬ LoggedIn client server := fun h => hlen ⟨h.user_le, h.pass_le⟩
    exact (Dialogue.Outcome.idle rfl hread).decides_not hlogin _ _

/-- Both have a name: it is asked for, and so is the password. -/
def AsksLogin : Prop := client.username.isSome = true ∧ server.username.isSome = true

theorem chosenMethod_eq_iff : chosenMethod client server = 0x02 ↔ AsksLogin client server := by
  unfold chosenMethod AsksLogin
  split_ifs with h
  · exact iff_of_true rfl h
  · exact iff_of_false (by decide) h

/-- What comes after the negotiation of a method. -/
def afterMethod (cmd : UInt8) (target : Target) (method : UInt8) : Handler ConnError Unit := do
  if method = 0x02 then
    ensure (decide (client.user.length ≤ 255 ∧ client.pass.length ≤ 255))
      "socks5: username/password too long".toList
    sendCredentials client handshakeTexts.auth
    sendRequest target cmd
  else sendRequest target cmd

theorem causal_afterMethod_client (cmd : UInt8) (target : Target) (method : UInt8) :
    Causal .unexpectedEof (afterMethod client cmd target method) :=
  .ite ((causal_ensure _ _).bind fun _ => (causal_sendCredentials client _).bind fun _ =>
    causal_sendRequest target cmd) (causal_sendRequest target cmd)

theorem causal_socks5Handshake (cmd : UInt8) (target : Target) :
    Causal .unexpectedEof (socks5Handshake client target cmd) :=
  (causal_negotiateMethod client _).bind fun method => causal_afterMethod_client client cmd target method

theorem decides_afterMethod (cmd : UInt8) (target : Target) :
    Dialogue.Decides (afterMethod client cmd target (chosenMethod client server))
      (if chosenMethod client server = 0x02 then do authenticate server; socks5Request server peer bindUdp
        else socks5Request server peer bindUdp)
      ((AsksLogin client server → LoggedIn client server) ∧ Fits target ∧ Serves server bindUdp cmd)
      () (handedFor server bindUdp cmd target) := by
  have hrequest := decides_request server peer bindUdp cmd target
  unfold afterMethod
  by_cases hask : AsksLogin client server
  · have hmethod := (chosenMethod_eq_iff client server).mpr hask
    rw [if_pos hmethod, if_pos hmethod, ← bind_assoc]
    refine Dialogue.Decides.iff (and_congr_left' (forall_prop_of_true hask).symm) ?_
    exact Dialogue.Decides.bind ((causal_ensure _ _).bind fun _ => causal_sendCredentials client _)
      (causal_authenticate server) (fun _ => causal_sendRequest target cmd)
      (fun _ => causal_socks5Request server peer bindUdp) (decides_login client server) fun _ => hrequest
  · have hmethod := mt (chosenMethod_eq_iff client server).mp hask
    rw [if_neg hmethod, if_neg hmethod]
    exact Dialogue.Decides.iff (and_iff_right fun h => absurd h hask).symm hrequest

/-- **A login where it is asked for**, and then the request. -/
theorem decides_handshake (cmd : UInt8) (target : Target) :
    Dialogue.Decides (socks5Handshake client target cmd) (listener server peer bindUdp)
      ((AsksLogin client server → LoggedIn client server) ∧ Fits target ∧ Serves server bindUdp cmd)
      () (handedFor server bindUdp cmd target) := by
  have hclient := causal_afterMethod_client client cmd target
  refine Dialogue.Decides.congr (causal_socks5Handshake client cmd target)
    (causal_handleSocks5 server peer bindUdp) (listener_eq client server peer bindUdp hclient) ?_
  refine Dialogue.Decides.iff (and_iff_right trivial) ?_
  exact Dialogue.Decides.bind (causal_negotiateMethod client _) (causal_negotiate server) hclient
    (causal_afterMethod server peer bindUdp) ((meets_negotiate client server _).decides trivial)
    fun _ => decides_afterMethod client server peer bindUdp cmd target

/-- **The tunnel.** However the bytes are cut and delivered, the two come to one end, and there the client
    has its tunnel and the inbound has handed the target on, or neither: they do exactly if the login agrees
    where both have a username and the lengths of name, password and host fit into a byte. -/
theorem connect_tunnel_iff (target : Target) :
    ∃ t, Dialogue.Ends (socks5Handshake client target 0x01) (listener server peer bindUdp) t ∧
      (∀ s, Dialogue.Reachable (socks5Handshake client target 0x01) (listener server peer bindUdp) s →
        Relation.ReflTransGen
          (Dialogue.Step (socks5Handshake client target 0x01) (listener server peer bindUdp)) s t) ∧
      (result (socks5Handshake client target 0x01) t.toClient = .ok () ↔
        (AsksLogin client server → LoggedIn client server) ∧ Fits target) ∧
      (∀ handed, result (listener server peer bindUdp) t.toServer = .ok handed ↔
        ((AsksLogin client server → LoggedIn client server) ∧ Fits target) ∧
          handed = .dispatcher { target, inboundTag := server.tag }) ∧
      (result (socks5Handshake client target 0x01) t.toClient = .ok () →
        unread (socks5Handshake client target 0x01) t.toClient = [] ∧
          unread (listener server peer bindUdp) t.toServer = []) := by
  have hserves : Serves server bindUdp 0x01 := .inl rfl
  have hdecides := (decides_handshake client server peer bindUdp 0x01 target).iff
    (and_congr_right' (and_iff_left hserves))
  obtain ⟨t, hends, hreach, hclient, hserver, hunread⟩ := hdecides.ends
    (causal_socks5Handshake client 0x01 target) (causal_listener server peer bindUdp)
  have hok : result (socks5Handshake client target 0x01) t.toClient = .ok () ↔
      (AsksLogin client server → LoggedIn client server) ∧ Fits target :=
    (hclient ()).trans (and_iff_left rfl)
  exact ⟨t, hends, hreach, hok, hserver, fun h => hunread (hok.mp h)⟩

end Dialogue

end Reflex.Socks
