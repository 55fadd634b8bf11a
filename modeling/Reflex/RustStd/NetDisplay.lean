import Reflex.RustStd.Net

namespace RustStd

/-!
# Rust standard library — the texts of addresses

`Display` of `Ipv4Addr`, `Ipv6Addr`, `IpAddr` and `SocketAddr`, and `FromStr` of the last two.  An IPv6
address is written in groups; the longest run of zero groups, if it has more than one, is written
`::`, and an IPv4-mapped address ends in a dotted quad.

* `readNumber_toDigits` — a group that was written is read back;
* `readGroups_fmtSubslice` — so is a row of groups;
* `IpAddr.fromStr_display` — an address is read back from its text.
-/

/-! ### Writing -/

/-- `Ipv4Addr`'s `Display`. -/
def Ipv4Addr.display (a : Ipv4Addr) : Str :=
  RustStd.display (a.toNat / 16777216) ++ '.' :: RustStd.display (a.toNat / 65536 % 256)
    ++ '.' :: RustStd.display (a.toNat / 256 % 256) ++ '.' :: RustStd.display (a.toNat % 256)

/-- `Ipv6Addr::segments`. -/
def Ipv6Addr.segments (a : Ipv6Addr) : List Nat :=
  [a.toNat / 65536 ^ 7 % 65536, a.toNat / 65536 ^ 6 % 65536, a.toNat / 65536 ^ 5 % 65536,
    a.toNat / 65536 ^ 4 % 65536, a.toNat / 65536 ^ 3 % 65536, a.toNat / 65536 ^ 2 % 65536,
    a.toNat / 65536 % 65536, a.toNat % 65536]

/-- A run of groups. -/
structure Span where
  start : Nat := 0
  len : Nat := 0

/-- The loop for the longest run of zero groups, the first of several: the group at `index` is
    next. -/
def longestZeroes (longest current : Span) (index : Nat) : List Nat → Span
  | [] => longest
  | g :: gs =>
      if g = 0 then
        let current : Span := ⟨if current.len = 0 then index else current.start, current.len + 1⟩
        longestZeroes (if longest.len < current.len then current else longest) current (index + 1) gs
      else longestZeroes longest {} (index + 1) gs

/-- `fmt_subslice`: hexadecimal groups with colons between them. -/
def fmtSubslice : List Nat → Str
  | [] => []
  | g :: gs => Nat.toDigits 16 g ++ gs.flatMap fun g => ':' :: Nat.toDigits 16 g

/-- `Ipv6Addr`'s `Display`. -/
def Ipv6Addr.display (a : Ipv6Addr) : Str :=
  match a.toIpv4Mapped with
  | some ipv4 => "::ffff:".toList ++ ipv4.display
  | none =>
      let zeroes := longestZeroes {} {} 0 a.segments
      if 1 < zeroes.len then
        fmtSubslice (a.segments.take zeroes.start) ++ "::".toList
          ++ fmtSubslice (a.segments.drop (zeroes.start + zeroes.len))
      else fmtSubslice a.segments

/-- `IpAddr`'s `Display`. -/
def IpAddr.display : IpAddr → Str
  | .v4 a => a.display
  | .v6 a => a.display

/-- `SocketAddr`'s `Display`. -/
def SocketAddr.display (addr : SocketAddr) : Str :=
  match addr.ip with
  | .v4 a => a.display ++ ':' :: RustStd.display addr.port.toNat
  | .v6 a => '[' :: a.display ++ "]:".toList ++ RustStd.display addr.port.toNat

/-- `IpAddr::from_str`. -/
def IpAddr.fromStr : Str → Option IpAddr :=
  parseWith fun s =>
    match readIpv4Addr s with
    | some (a, rest) => some (.v4 a, rest)
    | none => (readIpv6Addr s).map fun p => (.v6 p.1, p.2)

/-- `Parser::read_port`. -/
def readPort (s : Str) : Option (UInt16 × Str) := do
  let s ← readGivenChar ':' s
  let (port, s) ← readNumber 10 s.length true 65535 s
  return (UInt16.ofNat port, s)

/-- `Parser::read_scope_id`; the scope itself is dropped. -/
def readScopeId (s : Str) : Str :=
  match (readGivenChar '%' s).bind fun s => readNumber 10 s.length true 4294967295 s with
  | some (_, rest) => rest
  | none => s

/-- `Parser::read_socket_addr_v4`. -/
def readSocketAddrV4 (s : Str) : Option (SocketAddr × Str) := do
  let (ip, s) ← readIpv4Addr s
  let (port, s) ← readPort s
  return (⟨.v4 ip, port⟩, s)

/-- `Parser::read_socket_addr_v6`. -/
def readSocketAddrV6 (s : Str) : Option (SocketAddr × Str) := do
  let s ← readGivenChar '[' s
  let (ip, s) ← readIpv6Addr s
  let s ← readGivenChar ']' (readScopeId s)
  let (port, s) ← readPort s
  return (⟨.v6 ip, port⟩, s)

/-- `SocketAddr::from_str`. -/
def SocketAddr.fromStr : Str → Option SocketAddr :=
  parseWith fun s => readSocketAddrV4 s <|> readSocketAddrV6 s

example : SocketAddr.fromStr "10.0.0.1:0".toList = some ⟨.v4 0x0a000001#32, 0⟩ := by decide
example : SocketAddr.fromStr "[::1%2]:80".toList = some ⟨.v6 1#128, 80⟩ := by decide
example : SocketAddr.fromStr "::1:0".toList = none := by decide

example : Ipv6Addr.display 0x20010db8000000000000000000000001#128 = "2001:db8::1".toList := by
  decide
example : Ipv6Addr.display 0xffff01020304#128 = "::ffff:1.2.3.4".toList := by decide

/-! ### Reading a number back -/

theorem toDigit_digitChar {b d : Nat} (hd : d < b) (hb : b ≤ 16) : toDigit b d.digitChar = some d := by
  have hd16 : d < 16 := by omega
  have hfilter : ∀ d' : Nat, d' < 16 → (toDigit 16 d'.digitChar) = some d' := by decide
  have h16 := hfilter d hd16
  simp only [toDigit] at h16 ⊢
  obtain ⟨hval, -⟩ := Option.filter_eq_some_iff.mp h16
  rw [hval]
  exact Option.filter_eq_some_iff.mpr ⟨rfl, decide_eq_true hd⟩

theorem isSome_toDigit_of_mem_toDigits {b n : Nat} {c : Char} (hb : 1 < b) (hb16 : b ≤ 16)
    (h : c ∈ Nat.toDigits b n) : (toDigit b c).isSome := by
  induction n using Nat.strongRecOn with
  | ind n ih =>
      rw [Nat.toDigits_eq_if hb] at h
      split at h
      · rename_i hlt
        rw [List.mem_singleton.mp h, toDigit_digitChar hlt hb16]
        rfl
      · rename_i hle
        rcases List.mem_append.mp h with h | h
        · exact ih (n / b) (Nat.div_lt_self (by omega) hb) h
        · rw [List.mem_singleton.mp h, toDigit_digitChar (Nat.mod_lt n (by omega)) hb16]
          rfl

theorem foldl_toDigit_toDigits {b : Nat} (hb : 1 < b) (hb16 : b ≤ 16) (n : Nat) :
    (Nat.toDigits b n).foldl (fun acc c => acc * b + (toDigit b c).getD 0) 0 = n := by
  induction n using Nat.strongRecOn with
  | ind n ih =>
      rw [Nat.toDigits_eq_if hb]
      split
      · rename_i hlt
        rw [List.foldl_cons, List.foldl_nil, toDigit_digitChar hlt hb16, Option.getD_some,
          Nat.zero_mul, Nat.zero_add]
      · rename_i hle
        rw [List.foldl_append, ih (n / b) (Nat.div_lt_self (by omega) hb), List.foldl_cons,
          List.foldl_nil, toDigit_digitChar (Nat.mod_lt n (by omega)) hb16, Option.getD_some,
          Nat.div_add_mod']

/-- A number of more than one digit does not start with a zero. -/
theorem head?_toDigits_ne_zero {b n : Nat} (hb : 1 < b) (h : 1 < (Nat.toDigits b n).length) :
    (Nat.toDigits b n).head? ≠ some '0' := by
  induction n using Nat.strongRecOn with
  | ind n ih =>
      rw [Nat.toDigits_eq_if hb] at h ⊢
      split
      · rename_i hlt
        rw [if_pos hlt] at h
        simp at h
      · rename_i hle
        rw [List.head?_append_of_ne_nil _ Nat.toDigits_ne_nil]
        by_cases hlong : 1 < (Nat.toDigits b (n / b)).length
        · exact ih (n / b) (Nat.div_lt_self (by omega) hb) hlong
        · -- the first digit of a number of two digits
          have hlt : n / b < b := by
            by_contra hge
            rw [Nat.toDigits_eq_if hb, if_neg hge, List.length_append, List.length_singleton] at hlong
            have := Nat.length_toDigits_pos (b := b) (n := n / b / b)
            omega
          have hpos : 0 < n / b := Nat.div_pos (by omega) (by omega)
          rw [Nat.toDigits_of_lt_base hlt, List.head?_cons]
          intro heq
          have := Nat.digitChar_eq_zero.mp (Option.some.inj heq)
          omega

/-- **A number** is read back, up to a character that is no digit. -/
theorem readNumber_toDigits {b n maxDigits limit : Nat} (hb : 1 < b) (hb16 : b ≤ 16)
    (zero : Bool) (hn : n < b ^ maxDigits) (hmax : 0 < maxDigits) (hlimit : n ≤ limit) {rest : Str}
    (hrest : ∀ c ∈ rest.head?, toDigit b c = none) :
    readNumber b maxDigits zero limit (Nat.toDigits b n ++ rest) = some (n, rest) := by
  have hdigits : ∀ c ∈ Nat.toDigits b n, (toDigit b c).isSome :=
    fun c hc => isSome_toDigit_of_mem_toDigits hb hb16 hc
  have hstop : rest.takeWhile (fun c => (toDigit b c).isSome) = [] := by
    rcases rest with _ | ⟨c, rest⟩
    · rfl
    · rw [List.takeWhile_cons_of_neg (by rw [hrest c rfl]; decide)]
  have hdrop : rest.dropWhile (fun c => (toDigit b c).isSome) = rest := by
    rcases rest with _ | ⟨c, rest⟩
    · rfl
    · rw [List.dropWhile_cons_of_neg (by rw [hrest c rfl]; decide)]
  have hlen : (Nat.toDigits b n).length ≤ maxDigits := (Nat.length_toDigits_le_iff hb hmax).mpr hn
  have htake : (Nat.toDigits b n ++ rest).takeWhile (fun c => (toDigit b c).isSome)
      = Nat.toDigits b n := by
    rw [List.takeWhile_append_of_pos hdigits, hstop, List.append_nil]
  have hleft : (Nat.toDigits b n ++ rest).dropWhile (fun c => (toDigit b c).isSome) = rest := by
    rw [List.dropWhile_append_of_pos hdigits, hdrop]
  rw [readNumber, htake, hleft, if_neg, if_neg, foldl_toDigit_toDigits hb hb16, if_pos hlimit]
  · rintro ⟨-, hzero, hlong⟩
    exact head?_toDigits_ne_zero hb hlong hzero
  · rintro (hnil | hlong)
    · exact Nat.toDigits_ne_nil hnil
    · omega

/-! ### Reading an IPv4 address back -/

theorem readOctet {n : Nat} (hn : n < 256) {rest : Str}
    (hrest : ∀ c ∈ rest.head?, toDigit 10 c = none) :
    readNumber 10 3 false 255 (display n ++ rest) = some (n, rest) :=
  readNumber_toDigits (by decide) (by decide) false (by omega) (by decide) (by omega) hrest

theorem readSeparator_zero {α : Type} (sep : Char) (inner : Str → Option (α × Str)) (s : Str) :
    readSeparator sep 0 inner s = inner s := rfl

theorem readSeparator_cons {α : Type} (sep : Char) {index : Nat} (h : index ≠ 0)
    (inner : Str → Option (α × Str)) (s : Str) :
    readSeparator sep index inner (sep :: s) = inner s := by
  rw [readSeparator, if_neg h, readGivenChar, if_pos rfl, Option.bind_some]

/-- A dotted quad is read up to a character that is no digit. -/
theorem readIpv4Addr_display (a : Ipv4Addr) {rest : Str}
    (hrest : ∀ c ∈ rest.head?, toDigit 10 c = none) :
    readIpv4Addr (a.display ++ rest) = some (a, rest) := by
  have ha := a.isLt
  have hdot : ∀ (s : Str), ∀ c ∈ ('.' :: s).head?, toDigit 10 c = none := by
    rintro s c ⟨⟩
    decide
  have hval : ((a.toNat / 16777216 * 256 + a.toNat / 65536 % 256) * 256 + a.toNat / 256 % 256) * 256
      + a.toNat % 256 = a.toNat := by
    omega
  have h₀ := readOctet (show a.toNat / 16777216 < 256 by omega)
    (hdot (display (a.toNat / 65536 % 256) ++ '.' :: (display (a.toNat / 256 % 256)
      ++ '.' :: (display (a.toNat % 256) ++ rest))))
  have h₁ := readOctet (show a.toNat / 65536 % 256 < 256 by omega)
    (hdot (display (a.toNat / 256 % 256) ++ '.' :: (display (a.toNat % 256) ++ rest)))
  have h₂ := readOctet (show a.toNat / 256 % 256 < 256 by omega)
    (hdot (display (a.toNat % 256) ++ rest))
  have h₃ := readOctet (show a.toNat % 256 < 256 by omega) hrest
  rw [Ipv4Addr.display]
  simp only [List.append_assoc, List.cons_append]
  simp only [readIpv4Addr, readSeparator_zero, h₀, Option.bind_eq_bind, Option.bind_some,
    readSeparator_cons '.' (show 1 ≠ 0 by decide), h₁,
    readSeparator_cons '.' (show 2 ≠ 0 by decide), h₂,
    readSeparator_cons '.' (show 3 ≠ 0 by decide), h₃, hval, BitVec.ofNat_toNat,
    BitVec.setWidth_eq]
  rfl

/-- What starts with a character that is no digit is no dotted quad. -/
theorem readIpv4Addr_of_head {s : Str} (h : ∀ c ∈ s.head?, toDigit 10 c = none) :
    readIpv4Addr s = none := by
  have hnone : readNumber 10 3 false 255 s = none := by
    rw [readNumber, if_pos]
    left
    rcases s with _ | ⟨c, s⟩
    · rfl
    · rw [List.takeWhile_cons_of_neg (by rw [h c rfl]; decide)]
  simp only [readIpv4Addr, readSeparator_zero, hnone, Option.bind_eq_bind, Option.bind_none]

theorem readNumber_rest {b maxDigits limit n : Nat} {zero : Bool} {s rest : Str}
    (h : readNumber b maxDigits zero limit s = some (n, rest)) : rest.Sublist s := by
  simp only [readNumber] at h
  split at h
  · cases h
  split at h
  · cases h
  split at h
  · obtain ⟨-, rfl⟩ := Prod.mk.inj (Option.some.inj h)
    exact List.dropWhile_sublist _
  · cases h

/-- What has no dot is no dotted quad. -/
theorem readIpv4Addr_of_notMem {s : Str} (h : '.' ∉ s) : readIpv4Addr s = none := by
  rcases hfirst : readNumber 10 3 false 255 s with _ | ⟨n, rest⟩
  · simp only [readIpv4Addr, readSeparator_zero, hfirst, Option.bind_eq_bind, Option.bind_none]
  · have hrest : '.' ∉ rest := fun hmem => h ((readNumber_rest hfirst).mem hmem)
    have hchar : readGivenChar '.' rest = none := by
      rcases rest with _ | ⟨c, rest⟩
      · rfl
      · rw [readGivenChar, if_neg]
        rintro rfl
        exact hrest (List.mem_cons_self ..)
    have hsep : readSeparator '.' 1 (readNumber 10 3 false 255) rest = none := by
      rw [readSeparator, if_neg (by decide), hchar, Option.bind_none]
    simp only [readIpv4Addr, readSeparator_zero, hfirst, Option.bind_eq_bind, Option.bind_some,
      hsep, Option.bind_none]

/-! ### Reading an IPv6 address back -/

/-- What may follow a row of groups: the end of the text, or `::`. -/
def EndsGroups (rest : Str) : Prop := rest = [] ∨ ∃ s, rest = ':' :: ':' :: s

theorem EndsGroups.head {rest : Str} (h : EndsGroups rest) :
    ∀ c ∈ rest.head?, toDigit 16 c = none := by
  rcases h with rfl | ⟨s, rfl⟩
  · rintro c ⟨⟩
  · rintro c ⟨⟩
    decide

/-- No group is read behind the row. -/
theorem EndsGroups.readNumber {rest : Str} (h : EndsGroups rest) (index : Nat) :
    readSeparator ':' index (readNumber 16 4 true 65535) rest = none := by
  have hcolon : ∀ s : Str, RustStd.readNumber 16 4 true 65535 (':' :: s) = none := by
    intro s
    rw [RustStd.readNumber, if_pos]
    left
    rw [List.takeWhile_cons_of_neg (by decide)]
  rcases h with rfl | ⟨s, rfl⟩
  · rw [readSeparator]
    split
    · rfl
    · rfl
  · rw [readSeparator]
    split
    · exact hcolon _
    · rw [readGivenChar, if_pos rfl, Option.bind_some]
      exact hcolon _

theorem readSeparator_ipv4_of_notMem {index : Nat} {s : Str} (h : '.' ∉ s) :
    readSeparator ':' index readIpv4Addr s = none := by
  rw [readSeparator]
  split
  · exact readIpv4Addr_of_notMem h
  · rcases s with _ | ⟨c, s⟩
    · rfl
    · rw [readGivenChar]
      split
      · exact readIpv4Addr_of_notMem fun hmem => h (List.mem_cons_of_mem c hmem)
      · rfl

/-- A text without dots is read group by group. -/
theorem readGroups_succ {left index : Nat} {s : Str} (h : '.' ∉ s) :
    readGroups (left + 1) index s
      = match readSeparator ':' index (readNumber 16 4 true 65535) s with
        | some (g, rest) =>
            (g :: (readGroups left (index + 1) rest).1, (readGroups left (index + 1) rest).2)
        | none => ([], false, s) := by
  have hnone : (if 0 < left then readSeparator ':' index readIpv4Addr s else none) = none := by
    split
    · exact readSeparator_ipv4_of_notMem h
    · rfl
  cases hread : readSeparator ':' index (readNumber 16 4 true 65535) s with
  | none => simp only [readGroups, hnone, hread]
  | some p => simp only [readGroups, hnone, hread]

theorem readGroups_of_endsGroups {left index : Nat} {rest : Str} (h : EndsGroups rest)
    (hdot : '.' ∉ rest) : readGroups left index rest = ([], false, rest) := by
  cases left with
  | zero => rfl
  | succ left => rw [readGroups_succ hdot, h.readNumber index]

theorem readGroup {g : Nat} (hg : g < 65536) {rest : Str}
    (hrest : ∀ c ∈ rest.head?, toDigit 16 c = none) :
    readNumber 16 4 true 65535 (Nat.toDigits 16 g ++ rest) = some (g, rest) :=
  readNumber_toDigits (by decide) (by decide) true (by omega) (by decide) (by omega) hrest

/-- What follows a group: another one behind a colon, or the end of the row. -/
theorem head_colonGroups {gs : List Nat} {rest : Str} (h : EndsGroups rest) :
    ∀ c ∈ ((gs.flatMap fun g => ':' :: Nat.toDigits 16 g) ++ rest).head?, toDigit 16 c = none := by
  cases gs with
  | nil => exact h.head
  | cons g gs =>
      rintro c ⟨⟩
      decide

theorem dot_notMem_toDigits (g : Nat) : '.' ∉ Nat.toDigits 16 g := by
  intro h
  have := isSome_toDigit_of_mem_toDigits (by decide) (by decide) h
  revert this
  decide

theorem dot_notMem_colonGroups (gs : List Nat) : '.' ∉ gs.flatMap fun g => ':' :: Nat.toDigits 16 g := by
  intro h
  obtain ⟨g, -, hg⟩ := List.mem_flatMap.mp h
  rcases List.mem_cons.mp hg with hcolon | hg
  · revert hcolon
    decide
  · exact dot_notMem_toDigits g hg

/-- Groups that are printed behind a colon each are read back, up to where no further one follows. -/
theorem readGroups_colonGroups {gs : List Nat} {left index : Nat} {rest : Str}
    (hgs : ∀ g ∈ gs, g < 65536) (hleft : gs.length ≤ left) (hindex : index ≠ 0)
    (hrest : EndsGroups rest) (hdot : '.' ∉ rest) :
    readGroups left index ((gs.flatMap fun g => ':' :: Nat.toDigits 16 g) ++ rest)
      = (gs, false, rest) := by
  induction gs generalizing left index with
  | nil => exact readGroups_of_endsGroups hrest hdot
  | cons g gs ih =>
      obtain ⟨left, rfl⟩ : ∃ l, left = l + 1 := ⟨left - 1, by simp at hleft; omega⟩
      have hnodot : '.' ∉ ((g :: gs).flatMap fun g => ':' :: Nat.toDigits 16 g) ++ rest := by
        rw [List.mem_append]
        rintro (h | h)
        · exact dot_notMem_colonGroups _ h
        · exact hdot h
      have htail := ih (fun g' hg' => hgs g' (List.mem_cons_of_mem g hg'))
        (Nat.le_of_succ_le_succ hleft) (Nat.succ_ne_zero index)
      rw [readGroups_succ hnodot, List.flatMap_cons, List.cons_append, List.cons_append,
        List.append_assoc, readSeparator_cons ':' hindex,
        readGroup (hgs g (List.mem_cons_self ..)) (head_colonGroups hrest)]
      simp only [htail]

/-- **A row of groups** is read back. -/
theorem readGroups_fmtSubslice {gs : List Nat} {left : Nat} {rest : Str}
    (hgs : ∀ g ∈ gs, g < 65536) (hleft : gs.length ≤ left) (hrest : EndsGroups rest)
    (hdot : '.' ∉ rest) : readGroups left 0 (fmtSubslice gs ++ rest) = (gs, false, rest) := by
  cases gs with
  | nil => exact readGroups_of_endsGroups hrest hdot
  | cons g gs =>
      obtain ⟨left, rfl⟩ : ∃ l, left = l + 1 := ⟨left - 1, by simp at hleft; omega⟩
      have hnodot : '.' ∉ fmtSubslice (g :: gs) ++ rest := by
        rw [fmtSubslice, List.mem_append, List.mem_append]
        rintro ((h | h) | h)
        · exact dot_notMem_toDigits g h
        · exact dot_notMem_colonGroups _ h
        · exact hdot h
      have htail := readGroups_colonGroups (fun g' hg' => hgs g' (List.mem_cons_of_mem g hg'))
        (Nat.le_of_succ_le_succ hleft) (show 0 + 1 ≠ 0 by decide) hrest hdot
      rw [readGroups_succ hnodot, fmtSubslice, List.append_assoc, readSeparator_zero,
        readGroup (hgs g (List.mem_cons_self ..)) (head_colonGroups hrest)]
      simp only [htail]

/-- The groups of the span are zero. -/
def Span.IsZero (z : Span) (gs : List Nat) : Prop :=
  z.start + z.len ≤ gs.length ∧ ∀ i, z.start ≤ i → i < z.start + z.len → gs[i]? = some 0

theorem longestZeroes_isZero {whole gs : List Nat} {longest current : Span} {index : Nat}
    (hdrop : whole.drop index = gs) (hindex : index + gs.length = whole.length)
    (hlongest : longest.IsZero whole) (hcurrent : current.IsZero whole)
    (hend : current.len = 0 ∨ current.start + current.len = index) :
    (longestZeroes longest current index gs).IsZero whole := by
  induction gs generalizing longest current index with
  | nil => exact hlongest
  | cons g gs ih =>
      have hget : whole[index]? = some g := by
        rw [← List.head?_drop, hdrop, List.head?_cons]
      have hdrop' : whole.drop (index + 1) = gs := by
        rw [← List.drop_drop, hdrop, List.drop_one, List.tail_cons]
      rw [List.length_cons] at hindex
      rw [longestZeroes]
      by_cases hg : g = 0
      · -- the run that ends here is one longer
        have hrun : Span.IsZero ⟨if current.len = 0 then index else current.start, current.len + 1⟩
            whole := by
          rw [hg] at hget
          split
          · rename_i hzero
            refine ⟨by simp only; omega, fun i hi hi' => ?_⟩
            simp only at hi hi'
            obtain rfl : i = index := by omega
            exact hget
          · rename_i hlen
            have hstart := hend.resolve_left hlen
            refine ⟨by simp only; omega, fun i hi hi' => ?_⟩
            simp only at hi hi'
            by_cases hi'' : i = index
            · rw [hi'']
              exact hget
            · exact hcurrent.2 i hi (by omega)
        rw [if_pos hg]
        -- the longest run is the old one or the one that has just got longer
        refine ih hdrop' (by omega) ?_ hrun ?_
        · generalize (⟨if current.len = 0 then index else current.start, current.len + 1⟩ : Span)
            = next at hrun ⊢
          split
          · exact hrun
          · exact hlongest
        · right
          show (if current.len = 0 then index else current.start) + (current.len + 1) = index + 1
          split
          · omega
          · have := hend.resolve_left ‹_›
            omega
      · rw [if_neg hg]
        exact ih hdrop' (by omega) hlongest ⟨Nat.zero_le _, fun i _ hi => absurd hi (by simp)⟩
          (.inl rfl)

/-- The groups in front of the span, zeroes, and the groups behind it. -/
theorem Span.IsZero.eq_append {z : Span} {gs : List Nat} (h : z.IsZero gs) :
    gs = gs.take z.start ++ List.replicate z.len 0 ++ gs.drop (z.start + z.len) := by
  have hzero : (gs.drop z.start).take z.len = List.replicate z.len 0 := by
    refine List.ext_getElem? fun i => ?_
    by_cases hi : i < z.len
    · rw [List.getElem?_take_of_lt hi, List.getElem?_drop, h.2 _ (by omega) (by omega),
        List.getElem?_replicate_of_lt hi]
    · rw [List.getElem?_eq_none (by simp; omega), List.getElem?_eq_none (by simp; omega)]
  calc gs = gs.take z.start ++ gs.drop z.start := (List.take_append_drop _ _).symm
    _ = gs.take z.start ++ ((gs.drop z.start).take z.len ++ (gs.drop z.start).drop z.len) := by
        rw [List.take_append_drop z.len (gs.drop z.start)]
    _ = gs.take z.start ++ List.replicate z.len 0 ++ gs.drop (z.start + z.len) := by
        rw [hzero, List.drop_drop, List.append_assoc]

theorem Ipv6Addr.length_segments (a : Ipv6Addr) : a.segments.length = 8 := rfl

theorem Ipv6Addr.segments_lt (a : Ipv6Addr) : ∀ g ∈ a.segments, g < 65536 := by
  intro g hg
  simp only [segments, List.mem_cons, List.not_mem_nil, or_false] at hg
  omega

theorem Ipv6Addr.ofGroups_segments (a : Ipv6Addr) : ofGroups a.segments = a := by
  have ha := a.isLt
  have hval : a.segments.foldl (fun acc g => acc * 65536 + g) 0 = a.toNat := by
    simp only [segments, List.foldl_cons, List.foldl_nil]
    omega
  rw [ofGroups, hval, BitVec.ofNat_toNat, BitVec.setWidth_eq]

/-- A text that starts with `::` has no groups in front of it. -/
theorem readGroups_colons (left : Nat) (s : Str) :
    readGroups left 0 (':' :: ':' :: s) = ([], false, ':' :: ':' :: s) := by
  have hipv4 : readIpv4Addr (':' :: ':' :: s) = none := by
    refine readIpv4Addr_of_head ?_
    rintro c ⟨⟩
    decide
  have hnumber := EndsGroups.readNumber (.inr ⟨s, rfl⟩ : EndsGroups (':' :: ':' :: s)) 0
  cases left with
  | zero => rfl
  | succ left =>
      rw [readGroups, hnumber, readSeparator_zero, hipv4, ite_self]

theorem readIpv6Addr_mapped {a : Ipv6Addr} {ipv4 : Ipv4Addr} (h : a.toIpv4Mapped = some ipv4) :
    readIpv6Addr ("::ffff:".toList ++ ipv4.display) = some (a, []) := by
  have htext : "::ffff:".toList ++ ipv4.display
      = ':' :: ':' :: (Nat.toDigits 16 65535 ++ ':' :: ipv4.display) := rfl
  have hcolon : ∀ c ∈ (':' :: ipv4.display).head?, toDigit 16 c = none := by
    rintro c ⟨⟩
    decide
  have hfirst : readIpv4Addr (Nat.toDigits 16 65535 ++ ':' :: ipv4.display) = none := by
    refine readIpv4Addr_of_head ?_
    rintro c ⟨⟩
    decide
  have hquad : readIpv4Addr ipv4.display = some (ipv4, []) := by
    have hread := readIpv4Addr_display ipv4 (show ∀ c ∈ ([] : Str).head?, _ from fun c hc => nomatch hc)
    rwa [List.append_nil] at hread
  have htail : readGroups 7 0 (Nat.toDigits 16 65535 ++ ':' :: ipv4.display)
      = ([65535, ipv4.toNat / 65536, ipv4.toNat % 65536], true, []) := by
    rw [readGroups, readSeparator_zero, hfirst, ite_self, readSeparator_zero,
      readGroup (by decide) hcolon]
    simp only [readGroups, readSeparator_cons ':' (show 0 + 1 ≠ 0 by decide), hquad,
      show 0 < 5 by decide, if_true]
  -- the groups make up the address again
  have hval : Ipv6Addr.ofGroups ([] ++ List.replicate 5 0
      ++ [65535, ipv4.toNat / 65536, ipv4.toNat % 65536]) = a := by
    rw [Ipv6Addr.toIpv4Mapped] at h
    split at h
    · rename_i hshift
      obtain rfl := Option.some.inj h
      have hhigh := congrArg BitVec.toNat hshift
      have ha := a.isLt
      rw [BitVec.toNat_ushiftRight, Nat.shiftRight_eq_div_pow] at hhigh
      have hffff : (0xFFFF#128).toNat = 65535 := rfl
      rw [hffff] at hhigh
      apply BitVec.eq_of_toNat_eq
      simp only [Ipv6Addr.ofGroups, List.replicate, List.nil_append, List.cons_append,
        List.foldl_cons, List.foldl_nil, BitVec.toNat_ofNat, BitVec.toNat_setWidth]
      omega
    · cases h
  rw [htext]
  simp only [readIpv6Addr, readGroups_colons, List.length_nil]
  simp only [readGivenChar, if_true, Option.bind_eq_bind, Option.bind_some]
  rw [if_neg (by decide), if_neg (by decide)]
  simp only [Nat.zero_add, Nat.reduceSub, htail, List.length_cons, List.length_nil, Nat.reduceAdd,
    hval]
  rfl

theorem dot_notMem_fmtSubslice (gs : List Nat) : '.' ∉ fmtSubslice gs := by
  cases gs with
  | nil => exact List.not_mem_nil
  | cons g gs =>
      rw [fmtSubslice, List.mem_append]
      rintro (h | h)
      · exact dot_notMem_toDigits g h
      · exact dot_notMem_colonGroups gs h

/-- Two rows of groups with `::` between them. -/
theorem readIpv6Addr_compressed {head tail : List Nat} (hhead : ∀ g ∈ head, g < 65536)
    (htail : ∀ g ∈ tail, g < 65536) (hlen : head.length + tail.length < 8) :
    readIpv6Addr (fmtSubslice head ++ "::".toList ++ fmtSubslice tail)
      = some (.ofGroups (head ++ List.replicate (8 - head.length - tail.length) 0 ++ tail), []) := by
  have hends : EndsGroups (':' :: ':' :: fmtSubslice tail) := .inr ⟨_, rfl⟩
  have hdot : '.' ∉ ':' :: ':' :: fmtSubslice tail := by
    rw [List.mem_cons, List.mem_cons]
    rintro (h | h | h)
    · revert h
      decide
    · revert h
      decide
    · exact dot_notMem_fmtSubslice tail h
  have hread := readGroups_fmtSubslice hhead (show head.length ≤ 8 by omega) hends hdot
  have hread' := readGroups_fmtSubslice htail (show tail.length ≤ 8 - (head.length + 1) by omega)
    (.inl rfl) List.not_mem_nil
  rw [List.append_nil] at hread'
  have htext : fmtSubslice head ++ "::".toList ++ fmtSubslice tail
      = fmtSubslice head ++ ':' :: ':' :: fmtSubslice tail := List.append_assoc ..
  rw [htext]
  simp only [readIpv6Addr, hread]
  rw [if_neg (by omega), if_neg (by decide)]
  simp only [readGivenChar, if_true, Option.bind_eq_bind, Option.bind_some, hread']
  rfl

/-- An address of eight groups without an abbreviation is read back. -/
theorem readIpv6Addr_full {gs : List Nat} (hgs : ∀ g ∈ gs, g < 65536) (hlen : gs.length = 8) :
    readIpv6Addr (fmtSubslice gs) = some (.ofGroups gs, []) := by
  have hread := readGroups_fmtSubslice hgs (Nat.le_of_eq hlen) (.inl rfl) List.not_mem_nil
  rw [List.append_nil] at hread
  simp only [readIpv6Addr, hread]
  rw [if_pos hlen]

/-- **An IPv6 address** is read back from its text. -/
theorem readIpv6Addr_display (a : Ipv6Addr) : readIpv6Addr a.display = some (a, []) := by
  have hlt := a.segments_lt
  have hlen := a.length_segments
  rw [Ipv6Addr.display]
  rcases hmapped : a.toIpv4Mapped with _ | ipv4
  · have hzero : (longestZeroes {} {} 0 a.segments).IsZero a.segments :=
      longestZeroes_isZero rfl (Nat.zero_add _) ⟨Nat.zero_le _, fun i _ hi => absurd hi (by simp)⟩
        ⟨Nat.zero_le _, fun i _ hi => absurd hi (by simp)⟩ (.inl rfl)
    dsimp only
    split
    · rename_i hlong
      generalize longestZeroes {} {} 0 a.segments = z at hzero hlong
      have hbound := hzero.1
      have hfront : (a.segments.take z.start).length = z.start := by
        rw [List.length_take]
        omega
      have hback : (a.segments.drop (z.start + z.len)).length = 8 - (z.start + z.len) := by
        rw [List.length_drop, hlen]
      have hzeroes : 8 - z.start - (8 - (z.start + z.len)) = z.len := by omega
      rw [readIpv6Addr_compressed (fun g hg => hlt g (List.mem_of_mem_take hg))
        (fun g hg => hlt g (List.mem_of_mem_drop hg)) (by omega), hfront, hback, hzeroes,
        ← hzero.eq_append, a.ofGroups_segments]
    · rw [readIpv6Addr_full hlt hlen, a.ofGroups_segments]
  · exact readIpv6Addr_mapped hmapped

/-- The text of an IPv6 address is no dotted quad. -/
theorem readIpv4Addr_display_ipv6 (a : Ipv6Addr) : readIpv4Addr a.display = none := by
  rw [Ipv6Addr.display]
  rcases hmapped : a.toIpv4Mapped with _ | ipv4
  · refine readIpv4Addr_of_notMem ?_
    dsimp only
    split
    · rw [List.mem_append, List.mem_append]
      rintro ((h | h) | h)
      · exact dot_notMem_fmtSubslice _ h
      · revert h
        decide
      · exact dot_notMem_fmtSubslice _ h
    · exact dot_notMem_fmtSubslice _
  · refine readIpv4Addr_of_head ?_
    rintro c ⟨⟩
    decide

/-- **An address** is read back from its text. -/
theorem IpAddr.fromStr_display (ip : IpAddr) : IpAddr.fromStr ip.display = some ip := by
  cases ip with
  | v4 a =>
      have hread := readIpv4Addr_display a (show ∀ c ∈ ([] : Str).head?, _ from fun c hc => nomatch hc)
      rw [List.append_nil] at hread
      rw [fromStr, parseWith, display, hread]
  | v6 a =>
      rw [fromStr, parseWith, display, readIpv4Addr_display_ipv6, readIpv6Addr_display]
      rfl

/-- A text in brackets is no address. -/
theorem IpAddr.fromStr_bracket (s : Str) : IpAddr.fromStr ('[' :: s) = none := by
  have hv4 : readIpv4Addr ('[' :: s) = none := readIpv4Addr_of_head (by rintro c ⟨⟩; decide)
  have hnumber : readNumber 16 4 true 65535 ('[' :: s) = none := by
    rw [readNumber, if_pos]
    exact .inl (List.takeWhile_cons_of_neg (by decide))
  have hgroups : readGroups 8 0 ('[' :: s) = ([], false, '[' :: s) := by
    rw [readGroups, if_pos (by decide), readSeparator_zero, hv4, readSeparator_zero, hnumber]
  have hv6 : readIpv6Addr ('[' :: s) = none := by
    rw [readIpv6Addr, hgroups]
    rfl
  rw [fromStr, parseWith, hv4, hv6]
  rfl

/-! ### Socket addresses -/

theorem IpAddr.display_injective {ip ip' : IpAddr} (h : ip.display = ip'.display) : ip = ip' := by
  have hread := ip.fromStr_display
  rw [h, ip'.fromStr_display] at hread
  exact (Option.some.inj hread).symm

theorem mem_ipv4_display {a : Ipv4Addr} {c : Char} (h : c ∈ a.display) : c.isDigit ∨ c = '.' := by
  simp only [Ipv4Addr.display, List.mem_append, List.mem_cons] at h
  rcases h with ((h | h | h) | h | h) | h | h
  · exact .inl (isDigit_of_mem_display h)
  · exact .inr h
  · exact .inl (isDigit_of_mem_display h)
  · exact .inr h
  · exact .inl (isDigit_of_mem_display h)
  · exact .inr h
  · exact .inl (isDigit_of_mem_display h)

theorem mem_fmtSubslice {gs : List Nat} {c : Char} (h : c ∈ fmtSubslice gs) :
    (toDigit 16 c).isSome = true ∨ c = ':' := by
  cases gs with
  | nil => cases h
  | cons g gs =>
      rcases List.mem_append.mp h with h | h
      · exact .inl (isSome_toDigit_of_mem_toDigits (by decide) (by decide) h)
      · obtain ⟨g', -, hg'⟩ := List.mem_flatMap.mp h
        rcases List.mem_cons.mp hg' with hcolon | hg'
        · exact .inr hcolon
        · exact .inl (isSome_toDigit_of_mem_toDigits (by decide) (by decide) hg')

/-- The characters of an IPv6 address: those of its groups, and those of an IPv4 address in it. -/
theorem mem_ipv6_display {a : Ipv6Addr} {c : Char} (h : c ∈ a.display) :
    ((toDigit 16 c).isSome = true ∨ c = ':') ∨ (c.isDigit = true ∨ c = '.') := by
  rw [Ipv6Addr.display] at h
  split at h
  · rcases List.mem_append.mp h with h | h
    · have hall : "::ffff:".toList.all (fun c => (toDigit 16 c).isSome || c == ':') = true := by decide
      have hc := List.all_eq_true.mp hall c h
      rw [Bool.or_eq_true, beq_iff_eq] at hc
      exact .inl hc
    · exact .inr (mem_ipv4_display h)
  · dsimp only at h
    split at h
    · rw [List.mem_append, List.mem_append] at h
      rcases h with (h | h) | h
      · exact .inl (mem_fmtSubslice h)
      · have hall : "::".toList.all (· == ':') = true := by decide
        exact .inl (.inr (eq_of_beq (List.all_eq_true.mp hall c h)))
      · exact .inl (mem_fmtSubslice h)
    · exact .inl (mem_fmtSubslice h)

theorem bracket_notMem_ipv6_display (a : Ipv6Addr) : ']' ∉ a.display := by
  intro h
  have := mem_ipv6_display h
  revert this
  decide

/-- A character of the text of a socket address. -/
theorem SocketAddr.notMem_display (a : SocketAddr) {c : Char}
    (h : c ∉ ['[', ']', ':', '.'] ∧ (toDigit 16 c).isSome = false ∧ c.isDigit = false) :
    c ∉ a.display := by
  obtain ⟨ip, port⟩ := a
  obtain ⟨hsep, hhex, hdigit⟩ := h
  have hport : c ∉ RustStd.display port.toNat := by
    intro hc
    rw [isDigit_of_mem_display hc] at hdigit
    cases hdigit
  simp only [List.mem_cons, List.not_mem_nil, or_false, not_or] at hsep
  obtain ⟨hopen, hclose, hcolon, hdot⟩ := hsep
  cases ip with
  | v4 x =>
      have hx : c ∉ x.display := by
        intro hc
        rcases mem_ipv4_display hc with hc | hc
        · rw [hc] at hdigit
          cases hdigit
        · exact hdot hc
      simp [display, hx, hport, hcolon]
  | v6 x =>
      have hx : c ∉ x.display := by
        intro hc
        rcases mem_ipv6_display hc with (hc | hc) | hc | hc
        · rw [hc] at hhex
          cases hhex
        · exact hcolon hc
        · rw [hc] at hdigit
          cases hdigit
        · exact hdot hc
      simp [display, hx, hport, hopen, hclose, hcolon]

theorem portText_injective {p q : UInt16} (h : display p.toNat = display q.toNat) : p = q := by
  have hread := parseU16_display p
  rw [h, parseU16_display q] at hread
  exact (Option.some.inj hread).symm

/-- The text of a socket address up to its first `sep`, where the address ends. -/
theorem SocketAddr.splitOnce_inj {sep : Char} {s s' t t' : Str} (hs : sep ∉ s) (hs' : sep ∉ s')
    (h : s ++ sep :: t = s' ++ sep :: t') : s = s' ∧ t = t' := by
  have hsplit := congrArg (splitOnce sep) h
  rw [splitOnce_append hs, splitOnce_append hs'] at hsplit
  exact Prod.mk.inj (Option.some.inj hsplit)

/-- The text of an IPv4 socket address does not start with a bracket. -/
theorem head?_ipv4_display (a : Ipv4Addr) (s : Str) : (a.display ++ s).head? ≠ some '[' := by
  intro h
  have hne : a.display ≠ [] := by simp [Ipv4Addr.display]
  rw [List.head?_append_of_ne_nil _ hne] at h
  have := mem_ipv4_display (List.mem_of_mem_head? h)
  revert this
  decide

/-- **Socket addresses** with the same text are equal. -/
theorem SocketAddr.display_injective {a b : SocketAddr} (h : a.display = b.display) : a = b := by
  obtain ⟨ip, port⟩ := a
  obtain ⟨ip', port'⟩ := b
  have hcolon : ∀ x : Ipv4Addr, ':' ∉ x.display := by
    intro x hx
    have := mem_ipv4_display hx
    revert this
    decide
  cases ip with
  | v4 x =>
      cases ip' with
      | v4 y =>
          obtain ⟨hip, hport⟩ := splitOnce_inj (hcolon x) (hcolon y) h
          have hip' := IpAddr.display_injective
            (show IpAddr.display (.v4 x) = IpAddr.display (.v4 y) from hip)
          have hport' : port = port' := portText_injective hport
          rw [hip', hport']
      | v6 y => exact absurd (congrArg List.head? h) (head?_ipv4_display x _)
  | v6 x =>
      cases ip' with
      | v4 y => exact absurd (congrArg List.head? h).symm (head?_ipv4_display y _)
      | v6 y =>
          simp only [display, List.cons_append, List.append_assoc, List.cons.injEq, true_and] at h
          obtain ⟨hip, hport⟩ := splitOnce_inj (bracket_notMem_ipv6_display x)
            (bracket_notMem_ipv6_display y) h
          have hip' := IpAddr.display_injective
            (show IpAddr.display (.v6 x) = IpAddr.display (.v6 y) from hip)
          have hport' : port = port' := portText_injective (List.cons.inj hport).2
          rw [hip', hport']

end RustStd
