import Reflex.Inbound.Mixed

namespace Reflex.Outbound

open RustStd

/-!
# Outbounds — the request headers of VLESS and Trojan

`build_request_header` of `outbound/vless.rs`, its copy `vless_build_request` in `outbound/proto.rs`, and
`build_tcp_header` of `outbound/trojan.rs`.  All three write the length of a domain as `host.len() as u8`, and none
of them reports an error, so that the header of a longer name says a smaller length than it has.

* `vlessRequest` — version, user, no addons, command, port and address, which both copies for VLESS are;
* `deriveKey` — the password of Trojan as the 56 digits of its hash, where the hash function is a parameter;
* `buildTcpHeader` — these digits, the command, the address and the port, in lines.

What the servers make of them is in the module on the headers of the inbounds.
-/

/-- `host.len() as u8`, and the bytes of the host. -/
def putHost (host : Str) : Bytes := UInt8.ofNat (utf8 host).length :: utf8 host

/-! ### VLESS -/

/-- The address of a VLESS request, behind the port. -/
def vlessAddr : Target → Bytes
  | .domain host _ => 0x02 :: putHost host
  | .socket addr =>
      match addr.ip with
      | .v4 ip => 0x01 :: ip.octets
      | .v6 ip => 0x03 :: ip.octets

/-- The version, the UUID, the length of the addon, the command, the port and the address. -/
def vlessRequest (uuid : Vector UInt8 16) (command : UInt8) (target : Target) : Bytes :=
  [0x00] ++ (uuid.toList ++ ([0x00] ++ ([command] ++
    (beBytes 2 target.port.toNat ++ vlessAddr target))))

/-- `build_request_header`. -/
def buildRequestHeader (uuid : Vector UInt8 16) (target : Target) : Except Str Bytes :=
  .ok (vlessRequest uuid 0x01 target)

/-- `vless_build_request`. -/
def vlessBuildRequest (uuid : Vector UInt8 16) (target : Target) : Except Str Bytes :=
  .ok (vlessRequest uuid 0x01 target)

/-! ### Trojan -/

/-- `hex::encode`, as bytes. -/
def hexEncode (bs : Bytes) : Bytes := utf8 (bs.flatMap Inbound.hex02)

theorem length_utf8_hex02 (b : UInt8) : (utf8 (Inbound.hex02 b)).length = 2 := by
  have hall : ∀ n : Fin 256, (utf8 (Inbound.hex02 (UInt8.ofNat n))).length = 2 := by decide +kernel
  have hb := hall ⟨b.toNat, b.toNat_lt⟩
  rwa [UInt8.ofNat_toNat] at hb

@[simp] theorem length_hexEncode (bs : Bytes) : (hexEncode bs).length = 2 * bs.length := by
  unfold hexEncode
  induction bs with
  | nil => rfl
  | cons b bs ih =>
      rw [List.flatMap_cons, utf8_append, List.length_append, length_utf8_hex02, ih,
        List.length_cons]
      omega

section Trojan

variable (sha224 : Bytes → Vector UInt8 28)

/-- `derive_key`. -/
def deriveKey (password : Str) : Bytes := hexEncode (sha224 (utf8 password)).toList

/-- `write_addr`. -/
def writeAddr : Target → Bytes
  | .domain host port => 0x03 :: (putHost host ++ beBytes 2 port.toNat)
  | .socket addr =>
      match addr.ip with
      | .v4 ip => 0x01 :: (ip.octets ++ beBytes 2 addr.port.toNat)
      | .v6 ip => 0x04 :: (ip.octets ++ beBytes 2 addr.port.toNat)

def crlf : Bytes := [0x0D, 0x0A]

/-- `build_tcp_header`. -/
def buildTcpHeader (password : Str) (target : Target) : Bytes :=
  deriveKey sha224 password ++ (crlf ++ ([0x01] ++ (writeAddr target ++ crlf)))

@[simp] theorem length_deriveKey (password : Str) : (deriveKey sha224 password).length = 56 := by
  rw [deriveKey, length_hexEncode, Vector.length_toList]

end Trojan

end Reflex.Outbound
