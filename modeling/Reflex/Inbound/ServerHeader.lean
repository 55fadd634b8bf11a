import Reflex.Outbound.ClientHeader

namespace Reflex.Inbound

open RustStd ByteStream Outbound

/-!
# Inbounds — the request headers of VLESS and Trojan

`decode_vless_header` of `inbound/vless_server.rs` and `decode_trojan_header` of `inbound/trojan_server.rs`, and what
they make of the headers the outbounds write.

* `readVlessTarget`, `readTrojanTarget` — the address of a request; the two protocols number the types differently;
* `reads_decodeVlessHeader`, `reads_decodeTrojanHeader` — a header is read back as its target, with the payload
  behind it untouched, if the domain has at most 255 bytes;
* `fits_of_decodeVlessHeader`, `fits_of_decodeTrojanHeader` — no reader of these takes a longer one for it;
* `headers_carried_iff` — so a header is carried if and only if the domain fits.
-/

/-! ### The servers -/

/-- `anyhow::ensure!`. -/
def ensure (cond : Bool) (text : Str) : Handler ConnError Unit :=
  if cond then pure () else bail (.message text)

/-- `String::from_utf8`. -/
def stringFromUtf8 (bs : Bytes) : Handler ConnError Str :=
  ofExcept (match fromUtf8 bs with
    | some s => .ok s
    | none => .error .invalidUtf8)

/-- The address in `decode_vless_header`. -/
def readVlessTarget (port : UInt16) : Handler ConnError Target := do
  let atyp ← readByte
  if atyp = 0x01 then
    let ip ← readBytes 4
    return .socket ⟨.v4 (Ipv4Addr.ofOctets ip), port⟩
  else if atyp = 0x02 then
    let dlen ← readByte
    let domain ← readBytes dlen.toNat
    let domain ← stringFromUtf8 domain
    return .domain domain port
  else if atyp = 0x03 then
    let ip ← readBytes 16
    return .socket ⟨.v6 (Ipv6Addr.ofOctets ip), port⟩
  else bail (.message ("vless: unknown atyp 0x".toList ++ hex02 atyp))

/-- The addon, which is skipped. -/
def skipAddon (addonLen : Nat) : Handler ConnError Unit := do
  if 0 < addonLen then
    let _addon ← readBytes addonLen
    return ()
  else return ()

/-- `decode_vless_header`. -/
def decodeVlessHeader (users : List (Vector UInt8 16)) : Handler ConnError Target := do
  let ver ← readByte
  ensure (ver == 0x00) ("vless: unsupported version 0x".toList ++ hex02 ver)
  let uuid ← readBytes 16
  ensure (users.any fun u => u.toList == uuid) "vless: unauthorized UUID".toList
  let addonLen ← readByte
  skipAddon addonLen.toNat
  let cmd ← readByte
  ensure (cmd == 0x01) ("vless: unsupported cmd 0x".toList ++ hex02 cmd)
  let port ← readPort
  readVlessTarget port

/-- The address in `decode_trojan_header`. -/
def readTrojanTarget : Handler ConnError Target := do
  let atyp ← readByte
  if atyp = 0x01 then
    let ip ← readBytes 4
    let port ← readPort
    return .socket ⟨.v4 (Ipv4Addr.ofOctets ip), port⟩
  else if atyp = 0x03 then
    let dlen ← readByte
    let domain ← readBytes dlen.toNat
    let port ← readPort
    let domain ← stringFromUtf8 domain
    return .domain domain port
  else if atyp = 0x04 then
    let ip ← readBytes 16
    let port ← readPort
    return .socket ⟨.v6 (Ipv6Addr.ofOctets ip), port⟩
  else bail (.message ("trojan: unknown atyp 0x".toList ++ hex02 atyp))

/-- `decode_trojan_header`. -/
def decodeTrojanHeader (hashedPasswords : List Bytes) : Handler ConnError Target := do
  let passwordHex ← readBytes 56
  ensure (hashedPasswords.any fun hp => hp == passwordHex) "trojan: unauthorized password".toList
  let crlf ← readBytes 2
  ensure (crlf == [0x0D, 0x0A]) "trojan: expected CRLF after password".toList
  let cmd ← readByte
  ensure (cmd == 0x01) "trojan: only TCP CONNECT (0x01) supported".toList
  let target ← readTrojanTarget
  let crlf ← readBytes 2
  ensure (crlf == [0x0D, 0x0A]) "trojan: expected CRLF after address".toList
  return target

/-- `sha224_hex`. -/
def sha224Hex (sha224 : Bytes → Vector UInt8 28) (data : Bytes) : Bytes :=
  hexEncode (sha224 data).toList

/-! ### Reading a header back -/

theorem reads_ensure {cond : Bool} (h : cond = true) (text : Str) : Reads (ensure cond text) [] () := by
  rw [ensure, if_pos h]
  exact reads_pure rfl

theorem reads_stringFromUtf8 (s : Str) : Reads (stringFromUtf8 (utf8 s)) [] s :=
  reads_ofExcept (by rw [fromUtf8_utf8])

/-- A host whose length fits into a byte. -/
def Fits : Target → Prop
  | .domain host _ => (utf8 host).length ≤ 255
  | .socket _ => True

instance : DecidablePred Fits := fun target =>
  match target with
  | .domain host _ => inferInstanceAs (Decidable ((utf8 host).length ≤ 255))
  | .socket _ => inferInstanceAs (Decidable True)

theorem length_eq_toNat {host : Str} (h : (utf8 host).length ≤ 255) :
    (utf8 host).length = (UInt8.ofNat (utf8 host).length).toNat := by
  rw [UInt8.toNat_ofNat', Nat.mod_eq_of_lt (by omega)]

theorem reads_readVlessTarget {target : Target} (h : Fits target) :
    Reads (readVlessTarget target.port) (vlessAddr target) target := by
  obtain ⟨host, port⟩ | ⟨⟨ip | ip, port⟩⟩ := target
  · refine (reads_readU8 _ 0x02).bind ((reads_readU8 _ _).bind ?_)
    refine (reads_readExact _ (length_eq_toNat h)).bind_nil ?_
    exact (reads_stringFromUtf8 host).bind (reads_pure rfl)
  · refine (reads_readU8 _ 0x01).bind ((reads_readExact _ ip.length_octets).bind_nil ?_)
    exact reads_pure (by rw [Ipv4Addr.ofOctets_octets]; rfl)
  · refine (reads_readU8 _ 0x03).bind ((reads_readExact _ ip.length_octets).bind_nil ?_)
    exact reads_pure (by rw [Ipv6Addr.ofOctets_octets]; rfl)

theorem reads_readTrojanTarget {target : Target} (h : Fits target) :
    Reads readTrojanTarget (writeAddr target) target := by
  obtain ⟨host, port⟩ | ⟨⟨ip | ip, port⟩⟩ := target
  · refine (reads_readU8 _ 0x03).bind ((reads_readU8 _ _).bind ?_)
    refine (reads_readExact _ (length_eq_toNat h)).bind ((reads_readPort port).bind_nil ?_)
    exact (reads_stringFromUtf8 host).bind (reads_pure rfl)
  · refine (reads_readU8 _ 0x01).bind ((reads_readExact _ ip.length_octets).bind ?_)
    refine (reads_readPort port).bind_nil (reads_pure ?_)
    rw [Ipv4Addr.ofOctets_octets]
  · refine (reads_readU8 _ 0x04).bind ((reads_readExact _ ip.length_octets).bind ?_)
    refine (reads_readPort port).bind_nil (reads_pure ?_)
    rw [Ipv6Addr.ofOctets_octets]

/-- **VLESS.** A request is read back as its target. -/
theorem reads_decodeVlessHeader {users : List (Vector UInt8 16)} {uuid : Vector UInt8 16}
    (huser : uuid ∈ users) {target : Target} (h : Fits target) :
    Reads (decodeVlessHeader users) (vlessRequest uuid 0x01 target) target := by
  have hany : (users.any fun u => u.toList == uuid.toList) = true :=
    List.any_eq_true.mpr ⟨uuid, huser, beq_self_eq_true _⟩
  refine (reads_readU8 _ 0x00).bind ((reads_ensure rfl _).bind ?_)
  refine (reads_readExact _ uuid.length_toList).bind ((reads_ensure hany _).bind ?_)
  -- the addon is empty
  have haddon : Reads (skipAddon 0) [] () := reads_pure rfl
  refine (reads_readU8 _ 0x00).bind (haddon.bind ?_)
  refine (reads_readU8 _ 0x01).bind ((reads_ensure rfl _).bind ?_)
  exact (reads_readPort target.port).bind (reads_readVlessTarget h)

/-- **Trojan.** A request is read back as its target. -/
theorem reads_decodeTrojanHeader {sha224 : Bytes → Vector UInt8 28} {passwords : List Str}
    {password : Str} (hpassword : password ∈ passwords) {target : Target} (h : Fits target) :
    Reads (decodeTrojanHeader (passwords.map fun p => sha224Hex sha224 (utf8 p)))
      (buildTcpHeader sha224 password target) target := by
  have hany : ((passwords.map fun p => sha224Hex sha224 (utf8 p)).any
      fun hp => hp == deriveKey sha224 password) = true :=
    List.any_eq_true.mpr ⟨deriveKey sha224 password, List.mem_map.mpr ⟨password, hpassword, rfl⟩,
      beq_self_eq_true _⟩
  refine (reads_readExact _ (length_deriveKey sha224 password)).bind ((reads_ensure hany _).bind ?_)
  have hcrlf : Reads (readBytes 2) crlf crlf := reads_readExact _ rfl
  refine hcrlf.bind ((reads_ensure rfl _).bind ?_)
  refine (reads_readU8 _ 0x01).bind ((reads_ensure rfl _).bind ?_)
  refine (reads_readTrojanTarget h).bind (hcrlf.bind_nil ?_)
  exact (reads_ensure rfl _).bind (reads_pure rfl)

/-! ### Long domains -/

theorem yields_stringFromUtf8 {bs : Bytes} {host : Str} {s s' : Conn} :
    Yields (stringFromUtf8 bs) s host s' ↔ utf8 host = bs ∧ s' = s := by
  rw [stringFromUtf8, yields_ofExcept, ← fromUtf8_eq_some_iff]
  rcases fromUtf8 bs with _ | name
  · simp
  · simp

/-- A domain that was read has the length of its length byte. -/
theorem length_le_of_yields {n : UInt8} {bs : Bytes} {host : Str} {s s' t t' : Conn}
    (hread : Yields (readBytes n.toNat) s bs s') (hhost : Yields (stringFromUtf8 bs) t host t') :
    (utf8 host).length ≤ 255 := by
  obtain ⟨-, hlen, -⟩ := yields_readExact.mp hread
  obtain ⟨rfl, -⟩ := yields_stringFromUtf8.mp hhost
  rw [hlen]
  exact Nat.le_of_lt_succ n.toNat_lt

theorem fits_of_readVlessTarget {port : UInt16} {target : Target} {s s' : Conn}
    (h : Yields (readVlessTarget port) s target s') : Fits target := by
  obtain ⟨atyp, s₁, -, h⟩ := yields_bind.mp h
  split at h
  · obtain ⟨ip, s₂, -, h⟩ := yields_bind.mp h
    obtain ⟨rfl, -⟩ := yields_pure.mp h
    trivial
  · split at h
    · obtain ⟨dlen, s₂, -, h⟩ := yields_bind.mp h
      obtain ⟨bs, s₃, hbs, h⟩ := yields_bind.mp h
      obtain ⟨host, s₄, hhost, h⟩ := yields_bind.mp h
      obtain ⟨rfl, -⟩ := yields_pure.mp h
      exact length_le_of_yields hbs hhost
    · split at h
      · obtain ⟨ip, s₂, -, h⟩ := yields_bind.mp h
        obtain ⟨rfl, -⟩ := yields_pure.mp h
        trivial
      · exact absurd h not_yields_bail

theorem fits_of_readTrojanTarget {target : Target} {s s' : Conn}
    (h : Yields readTrojanTarget s target s') : Fits target := by
  obtain ⟨atyp, s₁, -, h⟩ := yields_bind.mp h
  split at h
  · obtain ⟨ip, s₂, -, h⟩ := yields_bind.mp h
    obtain ⟨port, s₃, -, h⟩ := yields_bind.mp h
    obtain ⟨rfl, -⟩ := yields_pure.mp h
    trivial
  · split at h
    · obtain ⟨dlen, s₂, -, h⟩ := yields_bind.mp h
      obtain ⟨bs, s₃, hbs, h⟩ := yields_bind.mp h
      obtain ⟨port, s₄, -, h⟩ := yields_bind.mp h
      obtain ⟨host, s₅, hhost, h⟩ := yields_bind.mp h
      obtain ⟨rfl, -⟩ := yields_pure.mp h
      exact length_le_of_yields hbs hhost
    · split at h
      · obtain ⟨ip, s₂, -, h⟩ := yields_bind.mp h
        obtain ⟨port, s₃, -, h⟩ := yields_bind.mp h
        obtain ⟨rfl, -⟩ := yields_pure.mp h
        trivial
      · exact absurd h not_yields_bail

/-- Whatever `decode_vless_header` accepts has a host of at most 255 bytes. -/
theorem fits_of_decodeVlessHeader {users : List (Vector UInt8 16)} {target : Target} {s s' : Conn}
    (h : Yields (decodeVlessHeader users) s target s') : Fits target := by
  obtain ⟨ver, s₁, -, h⟩ := yields_bind.mp h
  obtain ⟨_, s₂, -, h⟩ := yields_bind.mp h
  obtain ⟨uuid, s₃, -, h⟩ := yields_bind.mp h
  obtain ⟨_, s₄, -, h⟩ := yields_bind.mp h
  obtain ⟨addonLen, s₅, -, h⟩ := yields_bind.mp h
  obtain ⟨_, s₆, -, h⟩ := yields_bind.mp h
  obtain ⟨cmd, s₇, -, h⟩ := yields_bind.mp h
  obtain ⟨_, s₈, -, h⟩ := yields_bind.mp h
  obtain ⟨port, s₉, -, h⟩ := yields_bind.mp h
  exact fits_of_readVlessTarget h

/-- Whatever `decode_trojan_header` accepts has a host of at most 255 bytes. -/
theorem fits_of_decodeTrojanHeader {hashedPasswords : List Bytes} {target : Target} {s s' : Conn}
    (h : Yields (decodeTrojanHeader hashedPasswords) s target s') : Fits target := by
  obtain ⟨passwordHex, s₁, -, h⟩ := yields_bind.mp h
  obtain ⟨_, s₂, -, h⟩ := yields_bind.mp h
  obtain ⟨crlf, s₃, -, h⟩ := yields_bind.mp h
  obtain ⟨_, s₄, -, h⟩ := yields_bind.mp h
  obtain ⟨cmd, s₅, -, h⟩ := yields_bind.mp h
  obtain ⟨_, s₆, -, h⟩ := yields_bind.mp h
  obtain ⟨target, s₇, htarget, h⟩ := yields_bind.mp h
  obtain ⟨crlf, s₈, -, h⟩ := yields_bind.mp h
  obtain ⟨_, s₉, -, h⟩ := yields_bind.mp h
  obtain ⟨rfl, -⟩ := yields_pure.mp h
  exact fits_of_readTrojanTarget htarget

/-! ### What is carried -/

/-- The encoder reports an error, or the server gets the target and is left with the payload. -/
def Carries (encoded : Except Str Bytes) (decode : Handler ConnError Target) (target : Target)
    (payload : Bytes) : Prop :=
  ∀ header, encoded = .ok header →
    ∀ output, Yields decode ⟨header ++ payload, output⟩ target ⟨payload, output⟩

theorem carries_iff {header : Bytes} {decode : Handler ConnError Target} {target : Target}
    (hreads : Fits target → Reads decode header target)
    (hfits : ∀ {s s'}, Yields decode s target s' → Fits target) (payload : Bytes) :
    Carries (.ok header) decode target payload ↔ Fits target := by
  constructor
  · intro h
    exact hfits (h header rfl [])
  · rintro h _ ⟨⟩ output
    exact hreads h payload output

/-- **Which targets are carried.** For every target and every payload, the header of the VLESS
    outbound, that of `proto` and that of the Trojan outbound are decoded by a server that knows the
    user to just that target, with just the payload behind it, exactly when the domain has at most
    255 bytes. -/
theorem headers_carried_iff (sha224 : Bytes → Vector UInt8 28) (users : List (Vector UInt8 16))
    (uuid : Vector UInt8 16) (huser : uuid ∈ users) (passwords : List Str) (password : Str)
    (hpassword : password ∈ passwords) (target : Target) (payload : Bytes) :
    (Carries (buildRequestHeader uuid target) (decodeVlessHeader users) target payload ↔
      Fits target) ∧
    (Carries (vlessBuildRequest uuid target) (decodeVlessHeader users) target payload ↔
      Fits target) ∧
    (Carries (.ok (buildTcpHeader sha224 password target))
        (decodeTrojanHeader (passwords.map fun p => sha224Hex sha224 (utf8 p))) target payload ↔
      Fits target) :=
  ⟨carries_iff (reads_decodeVlessHeader huser) fits_of_decodeVlessHeader payload,
    carries_iff (reads_decodeVlessHeader huser) fits_of_decodeVlessHeader payload,
    carries_iff (reads_decodeTrojanHeader hpassword) fits_of_decodeTrojanHeader payload⟩

/-- A short domain is carried by all three. -/
theorem headers_carried_iff_short :
    let target := Target.domain "a.example".toList 443
    let uuid := Vector.replicate 16 7
    Carries (buildRequestHeader uuid target) (decodeVlessHeader [uuid]) target [1, 2] ∧
      Carries (vlessBuildRequest uuid target) (decodeVlessHeader [uuid]) target [1, 2] ∧
      Carries (.ok (buildTcpHeader (fun _ => .replicate 28 0) "secret".toList target))
        (decodeTrojanHeader [sha224Hex (fun _ => .replicate 28 0) (utf8 "secret".toList)])
        target [1, 2] := by
  intro target uuid
  have hfits : Fits target := by decide
  obtain ⟨hvless, hproto, htrojan⟩ := headers_carried_iff (fun _ => .replicate 28 0) [uuid] uuid
    (List.mem_singleton.mpr rfl) ["secret".toList] "secret".toList (List.mem_singleton.mpr rfl)
    target [1, 2]
  exact ⟨hvless.mpr hfits, hproto.mpr hfits, htrojan.mpr hfits⟩

/-- A domain of 256 bytes, whose length is written as 0. -/
def longDomain : Target := .domain (List.replicate 256 'a') 443

/-- The server is asked for the empty domain, and all of the name is left in the stream. -/
theorem not_carried_long :
    Yields (decodeVlessHeader [Vector.replicate 16 7])
        ⟨vlessRequest (Vector.replicate 16 7) 0x01 longDomain, []⟩ (.domain [] 443)
        ⟨List.replicate 256 97, []⟩ ∧
      ¬ Carries (buildRequestHeader (Vector.replicate 16 7) longDomain)
        (decodeVlessHeader [Vector.replicate 16 7]) longDomain [] := by
  refine ⟨?_, fun h => ?_⟩
  · -- the bytes are those of a request for the empty domain, with the name as its payload
    have hbytes : vlessRequest (Vector.replicate 16 7) 0x01 longDomain
        = vlessRequest (Vector.replicate 16 7) 0x01 (.domain [] 443) ++ List.replicate 256 97 := by
      decide +kernel
    have hfits : Fits (.domain [] 443) := by decide
    rw [hbytes]
    exact reads_decodeVlessHeader (List.mem_singleton.mpr rfl) hfits _ []
  · have hlong : ¬ Fits longDomain := by decide +kernel
    exact hlong (fits_of_decodeVlessHeader (h _ rfl []))

end Reflex.Inbound
