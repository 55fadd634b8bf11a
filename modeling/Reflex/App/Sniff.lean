import Reflex.RustStd.Num

namespace Reflex.App

open RustStd

/-!
# Sniffing — types and the DNS check

The parts of `app/sniff.rs` that the router and the dispatcher use.

* `SniffType` — the protocols that a rule can ask for, and `SniffType.parse` for the words it asks with;
* `SniffResult` — what sniffing a stream reports: a name, if one was found, and a protocol;
* `isDnsWire` — the recognition of DNS messages, by the fixed fields of their header.

The sniffers themselves, for TLS and QUIC, have modules of their own.
-/

/-- `SniffType`. -/
inductive SniffType where
  | tls | http | quic | ssh | bitTorrent
  deriving DecidableEq, Repr

/-- `SniffType::parse`. -/
def SniffType.parse (s : Str) : Option SniffType :=
  let s := toAsciiLowercase s
  if s = "tls".toList then some .tls
  else if s = "http".toList then some .http
  else if s = "quic".toList then some .quic
  else if s = "ssh".toList then some .ssh
  else if s = "bittorrent".toList ∨ s = "bt".toList then some .bitTorrent
  else none

/-- `SniffResult`. -/
structure SniffResult where
  domain : Option Str
  protocol : Str
  deriving DecidableEq, Repr

/-- `is_dns_wire`: a header of at least 12 bytes with an opcode up to 5 and a question. -/
def isDnsWire (buf : Bytes) : Bool :=
  if buf.length < 12 then false
  else
    let flags := buf.getD 2 0
    let opcode := (flags >>> 3) &&& 0x0f
    if opcode > 5 then false
    else
      let qdcount := beVal [buf.getD 4 0, buf.getD 5 0]
      decide (qdcount > 0)

end Reflex.App
