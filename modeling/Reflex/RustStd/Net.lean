import Reflex.RustStd.Num
import Mathlib.Order.Lattice

namespace RustStd

/-!
# Rust standard library — `std::net`

Addresses are the integers `u32::from` / `u128::from` make of them; `octets` and `ofOctets` go to and from network
byte order.

* `Ipv4Addr`, `Ipv6Addr`, `IpAddr`, `SocketAddr` — the types, with an order by their values;
* `Ipv6Addr.toIpv4Mapped` — the IPv4 address in a mapped one;
* `Ipv4Addr.fromStr`, `Ipv6Addr.fromStr` — the parsers.

The text parsers follow `core::net::parser`: a cursor over the text, `readNumber` for one group, an optional dotted
quad at the end of an IPv6 address and at most one `::`.  A parser that fails leaves the cursor where it was.
-/

/-! ### Addresses -/

/-- Rust's `Ipv4Addr`, as `u32::from` reads it. -/
abbrev Ipv4Addr := BitVec 32

/-- Rust's `Ipv6Addr`, as `u128::from` reads it. -/
abbrev Ipv6Addr := BitVec 128

/-- Rust's `IpAddr`. -/
inductive IpAddr where
  | v4 (a : Ipv4Addr)
  | v6 (a : Ipv6Addr)
  deriving DecidableEq, Repr

/-- Rust's `SocketAddr` (`SocketAddr::new` leaves flow info and scope id zero). -/
structure SocketAddr where
  ip : IpAddr
  port : UInt16
  deriving DecidableEq, Repr

/-- Addresses are compared as the unsigned integers they stand for. -/
instance instLinearOrderBitVec {w : Nat} : LinearOrder (BitVec w) where
  le_refl a := BitVec.le_refl a
  le_trans a b c := BitVec.le_trans
  le_antisymm a b := BitVec.le_antisymm
  le_total a b := BitVec.le_total a b
  lt_iff_le_not_ge a b := by
    rw [BitVec.not_le]
    exact ⟨fun h => ⟨BitVec.le_of_lt h, h⟩, fun h => h.2⟩
  toDecidableLE := inferInstance

/-- `Ipv4Addr::octets`. -/
def Ipv4Addr.octets (a : Ipv4Addr) : Bytes := beBytes 4 a.toNat

/-- `Ipv4Addr::from([u8; 4])`. -/
def Ipv4Addr.ofOctets (bs : Bytes) : Ipv4Addr := BitVec.ofNat 32 (beVal bs)

/-- `Ipv6Addr::octets`. -/
def Ipv6Addr.octets (a : Ipv6Addr) : Bytes := beBytes 16 a.toNat

/-- `Ipv6Addr::from([u8; 16])`. -/
def Ipv6Addr.ofOctets (bs : Bytes) : Ipv6Addr := BitVec.ofNat 128 (beVal bs)

@[simp] theorem Ipv4Addr.length_octets (a : Ipv4Addr) : a.octets.length = 4 :=
  length_beBytes _ _

@[simp] theorem Ipv6Addr.length_octets (a : Ipv6Addr) : a.octets.length = 16 :=
  length_beBytes _ _

@[simp] theorem Ipv4Addr.ofOctets_octets (a : Ipv4Addr) : ofOctets a.octets = a := by
  have hlt : a.toNat < 256 ^ 4 := a.isLt.trans_eq (by decide)
  rw [ofOctets, octets, beVal_beBytes_of_lt hlt, BitVec.ofNat_toNat, BitVec.setWidth_eq]

@[simp] theorem Ipv6Addr.ofOctets_octets (a : Ipv6Addr) : ofOctets a.octets = a := by
  have hlt : a.toNat < 256 ^ 16 := a.isLt.trans_eq (by decide)
  rw [ofOctets, octets, beVal_beBytes_of_lt hlt, BitVec.ofNat_toNat, BitVec.setWidth_eq]

/-- `Ipv6Addr::to_ipv4_mapped`: the address embedded in `::ffff:a.b.c.d`. -/
def Ipv6Addr.toIpv4Mapped (a : Ipv6Addr) : Option Ipv4Addr :=
  if a >>> 32 = 0xFFFF#128 then some (a.setWidth 32) else none

/-! ### Parsing -/

/-- `char::to_digit`. -/
def toDigit (radix : Nat) (c : Char) : Option Nat :=
  let d :=
    if '0' ≤ c ∧ c ≤ '9' then some (c.toNat - '0'.toNat)
    else if 'a' ≤ c ∧ c ≤ 'z' then some (c.toNat - 'a'.toNat + 10)
    else if 'A' ≤ c ∧ c ≤ 'Z' then some (c.toNat - 'A'.toNat + 10)
    else none
  d.filter (· < radix)

/-- `Parser::read_number`: at most `maxDigits` digits with value at most `limit`. -/
def readNumber (radix maxDigits : Nat) (allowZeroPrefix : Bool) (limit : Nat) (s : Str) :
    Option (Nat × Str) :=
  let digits := s.takeWhile fun c => (toDigit radix c).isSome
  let rest := s.dropWhile fun c => (toDigit radix c).isSome
  if digits = [] ∨ maxDigits < digits.length then none
  -- octal-looking groups are refused
  else if !allowZeroPrefix ∧ digits.head? = some '0' ∧ 1 < digits.length then none
  else
    let v := digits.foldl (fun acc c => acc * radix + (toDigit radix c).getD 0) 0
    if v ≤ limit then some (v, rest) else none

/-- `Parser::read_given_char`. -/
def readGivenChar (c : Char) : Str → Option Str
  | x :: xs => if x = c then some xs else none
  | [] => none

/-- `Parser::read_separator`: the separator stands before every element but the first. -/
def readSeparator {α : Type} (sep : Char) (index : Nat) (inner : Str → Option (α × Str))
    (s : Str) : Option (α × Str) :=
  if index = 0 then inner s else (readGivenChar sep s).bind inner

/-- `Parser::read_ipv4_addr`. -/
def readIpv4Addr (s : Str) : Option (Ipv4Addr × Str) := do
  let group := readNumber 10 3 false 255
  let (a, s) ← readSeparator '.' 0 group s
  let (b, s) ← readSeparator '.' 1 group s
  let (c, s) ← readSeparator '.' 2 group s
  let (d, s) ← readSeparator '.' 3 group s
  return (BitVec.ofNat 32 (((a * 256 + b) * 256 + c) * 256 + d), s)

/-- `read_groups` of `Parser::read_ipv6_addr`: up to `left` further groups, of which the
    last two may be an embedded IPv4 address; says whether it was. -/
def readGroups : (left index : Nat) → Str → List Nat × Bool × Str
  | 0, _, s => ([], false, s)
  | left + 1, index, s =>
      -- an IPv4 address takes two groups, so it is only tried while two are left
      match (if 0 < left then readSeparator ':' index readIpv4Addr s else none) with
      | some (v4, rest) => ([v4.toNat / 65536, v4.toNat % 65536], true, rest)
      | none =>
          match readSeparator ':' index (readNumber 16 4 true 65535) s with
          | some (g, rest) =>
              let (gs, v4, rest) := readGroups left (index + 1) rest
              (g :: gs, v4, rest)
          | none => ([], false, s)

/-- The address with the given eight groups. -/
def Ipv6Addr.ofGroups (gs : List Nat) : Ipv6Addr :=
  BitVec.ofNat 128 (gs.foldl (fun acc g => acc * 65536 + g) 0)

/-- `Parser::read_ipv6_addr`. -/
def readIpv6Addr (s : Str) : Option (Ipv6Addr × Str) :=
  let (head, headV4, s) := readGroups 8 0 s
  if head.length = 8 then some (.ofGroups head, s)
  -- an IPv4 part is not allowed before `::`
  else if headV4 then none
  else do
    let s ← readGivenChar ':' s
    let s ← readGivenChar ':' s
    -- `::` stands for at least one group of zeroes
    let (tail, _, s) := readGroups (8 - (head.length + 1)) 0 s
    return (.ofGroups (head ++ List.replicate (8 - head.length - tail.length) 0 ++ tail), s)

/-- `Parser::parse_with`: the whole text has to be read. -/
def parseWith {α : Type} (inner : Str → Option (α × Str)) (s : Str) : Option α :=
  match inner s with
  | some (a, []) => some a
  | _ => none

/-- `Ipv4Addr::from_str`: texts longer than 15 bytes are not looked at. -/
def Ipv4Addr.fromStr (s : Str) : Option Ipv4Addr :=
  if 15 < (utf8 s).length then none else parseWith readIpv4Addr s

/-- `Ipv6Addr::from_str`. -/
def Ipv6Addr.fromStr (s : Str) : Option Ipv6Addr := parseWith readIpv6Addr s

example : Ipv4Addr.fromStr "192.168.0.1".toList = some 0xC0A80001#32 := by decide
example : Ipv4Addr.fromStr "192.168.00.1".toList = none := by decide
example : Ipv6Addr.fromStr "2001:db8::ffff:1.2.3.4".toList
    = some 0x20010db8000000000000ffff01020304#128 := by decide
example : Ipv6Addr.fromStr "::".toList = some 0#128 := by decide

end RustStd
