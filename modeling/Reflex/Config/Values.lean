import Reflex.Inbound.Mixed
import Reflex.Outbound.Basic
import Reflex.RustStd.Slice

namespace Reflex.Config

open RustStd Outbound

/-!
# Configuration — durations and UUIDs

The texts of a configuration that stand for something else: the two `parse_duration` of `config/provider.rs`
and `config/outbound.rs`, `validate_uuid` of `config/mod.rs` and the `parse_uuid` that every protocol has.

* `parseDuration_agree_iff` — which texts the two `parse_duration` both accept, and that they agree on these;
* `uuid_accepted_iff` — a UUID that is accepted is read by every protocol, as the same bytes.
-/

/-! ### Errors -/

/-- An `anyhow::Error`: its contexts, the outermost first, and its cause. -/
abbrev Fault := List Str

/-- `anyhow::bail!`. -/
def bail {α : Type} (message : Str) : Except Fault α := .error [message]

/-- `anyhow::ensure!`. -/
def ensure (cond : Bool) (message : Str) : Except Fault Unit := if cond then .ok () else bail message

/-- `Context::with_context`. -/
def withContext {α : Type} (context : Str) (r : Except Fault α) : Except Fault α :=
  r.mapError (context :: ·)

theorem ensure_eq_ok {cond : Bool} {message : Str} : ensure cond message = .ok () ↔ cond = true := by
  cases cond with
  | true => exact iff_of_true rfl rfl
  | false => exact iff_of_false (fun h => by cases h) Bool.false_ne_true

theorem withContext_eq_ok {α : Type} {context : Str} {r : Except Fault α} {a : α} :
    withContext context r = .ok a ↔ r = .ok a := by
  cases r with
  | ok b => exact Iff.rfl
  | error e => exact iff_of_false (fun h => by cases h) (fun h => by cases h)

/-! ### Numbers -/

/-- `Display` of the `ParseIntError` of digits that do not give a number up to `max`: the first one that is
    none or that leads beyond it. -/
def digitsError (max : Nat) : Nat → Str → Str
  | _, [] => "cannot parse integer from empty string".toList
  | acc, c :: cs =>
      if c.isDigit then
        let v := 10 * acc + (c.toNat - '0'.toNat)
        if v ≤ max then digitsError max v cs else "number too large to fit in target type".toList
      else "invalid digit found in string".toList

/-- `Display` of a `ParseIntError`. -/
def parseIntError (max : Nat) (s : Str) : Str :=
  match s with
  | ['+'] => "invalid digit found in string".toList
  | '+' :: digits => digitsError max 0 digits
  | digits => digitsError max 0 digits

/-- `str::parse::<u64>`. -/
def parseU64 (s : Str) : Except Fault UInt64 :=
  match parseUint (2 ^ 64 - 1) s with
  | some n => .ok (UInt64.ofNat n)
  | none => bail (parseIntError (2 ^ 64 - 1) s)

/-- Digits are read as their number, if it fits. -/
theorem parseU64_digits {digits : Str} {n : UInt64} (hne : digits ≠ []) (hall : digits.all Char.isDigit = true) :
    parseU64 digits = .ok n ↔
      Nat.ofDigitChars 10 digits 0 < 2 ^ 64 ∧ n = UInt64.ofNat (Nat.ofDigitChars 10 digits 0) := by
  have hvalue : decimalValue digits = some (Nat.ofDigitChars 10 digits 0) := by
    dsimp only [decimalValue]
    split
    · -- a sign is no digit
      exact absurd (List.all_eq_true.mp hall '+' List.mem_cons_self) (by decide)
    · exact if_pos (And.intro hne hall)
  unfold parseU64
  rw [parseUint_eq, hvalue, Option.filter_some]
  by_cases hlt : Nat.ofDigitChars 10 digits 0 ≤ 2 ^ 64 - 1
  · rw [decide_eq_true hlt, if_pos rfl]
    constructor
    · exact fun h => ⟨by omega, (Except.ok.inj h).symm⟩
    · rintro ⟨-, rfl⟩
      rfl
  · rw [decide_eq_false hlt, if_neg Bool.false_ne_true]
    exact iff_of_false (fun h => by cases h) fun h => hlt (by omega)

/-! ### Durations -/

/-- `str::strip_suffix` for one character. -/
def stripSuffix (c : Char) (s : Str) : Option Str := if s.getLast? = some c then some s.dropLast else none

theorem stripSuffix_eq_some {c : Char} {s body : Str} :
    stripSuffix c s = some body ↔ s = body ++ [c] := by
  unfold stripSuffix
  constructor
  · intro h
    split_ifs at h with hlast
    obtain rfl := Option.some.inj h
    exact (List.dropLast_append_getLast? c hlast).symm
  · rintro rfl
    rw [if_pos List.getLast?_concat, List.dropLast_concat]

/-- `parse_duration` of `config/provider.rs`, in seconds.  The product wraps, as it does in a release build. -/
def parseDuration (s : Str) : Except Fault UInt64 :=
  let s := trim s
  match stripSuffix 'h' s with
  | some h => (parseU64 (trim h)).map (· * 3600)
  | none =>
      match stripSuffix 'm' s with
      | some m => (parseU64 (trim m)).map (· * 60)
      | none =>
          match stripSuffix 's' s with
          | some sec => parseU64 (trim sec)
          | none => bail ("invalid duration: '".toList ++ s ++ "' (expected format: 12h / 10m / 5s)".toList)

/-- The units of `parse_duration` of `config/outbound.rs`. -/
def unitSeconds (unit : Str) : Option UInt64 :=
  if unit = [] ∨ unit = ['s'] then some 1
  else if unit = ['m'] then some 60
  else if unit = ['h'] then some (60 * 60)
  else if unit = ['d'] then some (24 * 60 * 60)
  else none

namespace Group

/-- `parse_duration` of `config/outbound.rs`. -/
def parseDuration (s : Str) : Except Fault UInt64 := do
  let s := trim s
  ensure (s ≠ []) "duration cannot be empty".toList
  let num := s.takeWhile Char.isDigit
  let unit := s.dropWhile Char.isDigit
  ensure (num ≠ []) ("duration missing number: '".toList ++ s ++ "'".toList)
  let value ← parseU64 num
  match unitSeconds unit with
  | some seconds => .ok (value * seconds)
  | none => bail ("unsupported duration unit in '".toList ++ s ++ "'".toList)

end Group

/-- The units that the duration parsers of groups and of providers both know, in seconds. -/
def commonUnit : Char → Option UInt64
  | 'h' => some 3600
  | 'm' => some 60
  | 's' => some 1
  | _ => none

/-- A number behind which there is a unit, once white space is trimmed. -/
theorem parseDuration_eq_ok {s : Str} {d : UInt64} :
    parseDuration s = .ok d ↔ ∃ body unit factor n, trim s = body ++ [unit] ∧ commonUnit unit = some factor ∧
      parseU64 (trim body) = .ok n ∧ d = n * factor := by
  -- the product wraps and does not fail, so an error is that of the number
  have hmap {r : Except Fault UInt64} {factor : UInt64} :
      r.map (· * factor) = .ok d ↔ ∃ n, r = .ok n ∧ d = n * factor := by
    cases r with
    | ok n => exact ⟨fun h => ⟨n, rfl, (Except.ok.inj h).symm⟩,
        fun ⟨m, hm, hd⟩ => by rw [hd, Except.ok.inj hm]; rfl⟩
    | error e => exact iff_of_false (fun h => by cases h) (fun ⟨n, h, _⟩ => by cases h)
  constructor
  · intro h
    unfold parseDuration at h
    dsimp only at h
    split at h
    · rename_i body hbody
      obtain ⟨n, hn, hd⟩ := hmap.mp h
      exact ⟨body, 'h', 3600, n, stripSuffix_eq_some.mp hbody, rfl, hn, hd⟩
    · split at h
      · rename_i body hbody
        obtain ⟨n, hn, hd⟩ := hmap.mp h
        exact ⟨body, 'm', 60, n, stripSuffix_eq_some.mp hbody, rfl, hn, hd⟩
      · split at h
        · rename_i body hbody
          exact ⟨body, 's', 1, d, stripSuffix_eq_some.mp hbody, rfl, h, (UInt64.mul_one d).symm⟩
        · cases h
  · rintro ⟨body, unit, factor, n, htrim, hunit, hn, rfl⟩
    -- the suffixes are tried in their order, and another unit is passed over
    have hnot (c : Char) (hc : unit ≠ c) : stripSuffix c (body ++ [unit]) = none := by
      rw [stripSuffix, List.getLast?_concat, if_neg (fun h => hc (Option.some.inj h))]
    have hsome : stripSuffix unit (body ++ [unit]) = some body := stripSuffix_eq_some.mpr rfl
    unfold parseDuration
    dsimp only
    rw [htrim]
    unfold commonUnit at hunit
    split at hunit
    · obtain rfl := Option.some.inj hunit
      rw [hsome]
      exact hmap.mpr ⟨n, hn, rfl⟩
    · obtain rfl := Option.some.inj hunit
      rw [hnot 'h' (by decide), hsome]
      exact hmap.mpr ⟨n, hn, rfl⟩
    · obtain rfl := Option.some.inj hunit
      rw [hnot 'h' (by decide), hnot 'm' (by decide), hsome, UInt64.mul_one]
      exact hn
    · cases hunit

/-- A duration is digits with a unit or none behind them, with white space around it, and the product wraps. -/
theorem Group.parseDuration_eq_ok {s : Str} {d : UInt64} :
    Group.parseDuration s = .ok d ↔ ∃ factor n, (trim s).takeWhile Char.isDigit ≠ [] ∧
      unitSeconds ((trim s).dropWhile Char.isDigit) = some factor ∧
      parseU64 ((trim s).takeWhile Char.isDigit) = .ok n ∧ d = n * factor := by
  constructor
  · intro h
    obtain ⟨_, -, h⟩ := bind_eq_ok.mp h
    obtain ⟨_, hnum, h⟩ := bind_eq_ok.mp h
    obtain ⟨n, hn, h⟩ := bind_eq_ok.mp h
    split at h
    · rename_i factor hfactor
      exact ⟨factor, n, of_decide_eq_true (ensure_eq_ok.mp hnum), hfactor, hn, (Except.ok.inj h).symm⟩
    · cases h
  · rintro ⟨factor, n, hnum, hfactor, hn, rfl⟩
    have hne : trim s ≠ [] := fun h => hnum (by rw [h]; rfl)
    refine bind_eq_ok.mpr ⟨(), ensure_eq_ok.mpr (decide_eq_true hne), ?_⟩
    refine bind_eq_ok.mpr ⟨(), ensure_eq_ok.mpr (decide_eq_true hnum), ?_⟩
    refine bind_eq_ok.mpr ⟨n, hn, ?_⟩
    rw [hfactor]

/-- A unit is one character or none, so a text with a longer one behind its number is refused. -/
theorem length_le_of_unitSeconds {unit : Str} {factor : UInt64} (h : unitSeconds unit = some factor) :
    unit.length ≤ 1 := by
  unfold unitSeconds at h
  split_ifs at h with h1 h2 h3 h4
  · rcases h1 with rfl | rfl
    · exact Nat.zero_le 1
    · exact Nat.le_refl 1
  all_goals
    subst_vars
    exact Nat.le_refl 1

theorem unitSeconds_of_commonUnit {unit : Char} {factor : UInt64} (h : commonUnit unit = some factor) :
    unitSeconds [unit] = some factor ∧ unit.isDigit = false := by
  unfold commonUnit at h
  split at h
  · obtain rfl := Option.some.inj h
    exact ⟨rfl, rfl⟩
  · obtain rfl := Option.some.inj h
    exact ⟨rfl, rfl⟩
  · obtain rfl := Option.some.inj h
    exact ⟨rfl, rfl⟩
  · cases h

/-- **The two parsers of durations.**  Both take a text for the same duration just if it is a decimal number
    that fits into 64 bits, right in front of one of `h`, `m` and `s`, with white space at most around the two
    of them; and they never take a text for two durations. -/
theorem parseDuration_agree_iff (s : Str) :
    (∀ d d', parseDuration s = .ok d → Group.parseDuration s = .ok d' → d = d') ∧
      ∀ d, parseDuration s = .ok d ∧ Group.parseDuration s = .ok d ↔
        ∃ digits unit factor, trim s = digits ++ [unit] ∧ digits ≠ [] ∧ digits.all Char.isDigit = true ∧
          commonUnit unit = some factor ∧ Nat.ofDigitChars 10 digits 0 < 2 ^ 64 ∧
          d = UInt64.ofNat (Nat.ofDigitChars 10 digits 0) * factor := by
  -- where both accept, the number of the one is that of the other
  have hboth {d d' : UInt64} (h : parseDuration s = .ok d) (h' : Group.parseDuration s = .ok d') :
      ∃ digits unit factor n, trim s = digits ++ [unit] ∧ digits ≠ [] ∧ digits.all Char.isDigit = true ∧
        commonUnit unit = some factor ∧ parseU64 digits = .ok n ∧ d = n * factor ∧ d' = n * factor := by
    obtain ⟨body, unit, factor, n, htrim, hunit, hn, rfl⟩ := parseDuration_eq_ok.mp h
    obtain ⟨factor', n', hnum, hfactor, hn', rfl⟩ := Group.parseDuration_eq_ok.mp h'
    obtain ⟨hseconds, hdigit⟩ := unitSeconds_of_commonUnit hunit
    by_cases hall : body.all Char.isDigit = true
    · have hbody : ∀ c ∈ body, c.isDigit = true := List.all_eq_true.mp hall
      have htake : (trim s).takeWhile Char.isDigit = body := by
        rw [htrim, List.takeWhile_append_of_pos hbody, List.takeWhile_cons_of_neg (by simp [hdigit]),
          List.append_nil]
      have hdrop : (trim s).dropWhile Char.isDigit = [unit] := by
        rw [htrim, List.dropWhile_append_of_pos hbody, List.dropWhile_cons_of_neg (by simp [hdigit])]
      rw [htake] at hnum hn'
      rw [hdrop, hseconds] at hfactor
      rw [trim_eq_self fun c hc => isWhitespace_of_isDigit (hbody c hc)] at hn
      obtain rfl := Option.some.inj hfactor
      obtain rfl := Except.ok.inj (hn.symm.trans hn')
      exact ⟨body, unit, factor, n, htrim, hnum, hall, hunit, hn, rfl, rfl⟩
    · -- a character that is no digit in front of the unit: no unit has two characters
      have hfront : body.dropWhile Char.isDigit ≠ [] := fun h => hall
        (List.all_eq_true.mpr (List.dropWhile_eq_nil_iff.mp h))
      have hdrop : (trim s).dropWhile Char.isDigit = body.dropWhile Char.isDigit ++ [unit] := by
        rw [htrim, List.dropWhile_append, if_neg (by simpa using hfront)]
      have hlen := length_le_of_unitSeconds hfactor
      rw [hdrop, List.length_append, List.length_singleton] at hlen
      exact absurd (List.length_pos_of_ne_nil hfront) (by omega)
  refine ⟨fun d d' h h' => ?_, fun d => ⟨fun h => ?_, ?_⟩⟩
  · obtain ⟨_, _, _, n, -, -, -, -, -, rfl, rfl⟩ := hboth h h'
    rfl
  · obtain ⟨digits, unit, factor, n, htrim, hne, hall, hunit, hn, rfl, -⟩ := hboth h.1 h.2
    obtain ⟨hlt, rfl⟩ := (parseU64_digits hne hall).mp hn
    exact ⟨digits, unit, factor, htrim, hne, hall, hunit, hlt, rfl⟩
  · rintro ⟨digits, unit, factor, htrim, hne, hall, hunit, hlt, rfl⟩
    have hdigits : ∀ c ∈ digits, c.isDigit = true := List.all_eq_true.mp hall
    have hn := (parseU64_digits hne hall).mpr ⟨hlt, rfl⟩
    obtain ⟨hseconds, hdigit⟩ := unitSeconds_of_commonUnit hunit
    constructor
    · refine parseDuration_eq_ok.mpr ⟨digits, unit, factor, _, htrim, hunit, ?_, rfl⟩
      rw [trim_eq_self fun c hc => isWhitespace_of_isDigit (hdigits c hc)]
      exact hn
    · have htake : (trim s).takeWhile Char.isDigit = digits := by
        rw [htrim, List.takeWhile_append_of_pos hdigits, List.takeWhile_cons_of_neg (by simp [hdigit]),
          List.append_nil]
      have hdrop : (trim s).dropWhile Char.isDigit = [unit] := by
        rw [htrim, List.dropWhile_append_of_pos hdigits, List.dropWhile_cons_of_neg (by simp [hdigit])]
      refine Group.parseDuration_eq_ok.mpr ⟨factor, UInt64.ofNat (Nat.ofDigitChars 10 digits 0), ?_⟩
      rw [htake, hdrop]
      exact ⟨hne, hseconds, hn, rfl⟩

/-! ### UUIDs -/

/-- `s.chars().filter(|c| c.is_ascii_hexdigit())`. -/
def hexDigits (s : Str) : Str := s.filter isAsciiHexdigit

/-- `validate_uuid`. -/
def validateUuid (s : Str) : Except Fault Unit := do
  let hex := hexDigits s
  ensure (hex.length = 32) ("UUID must contain exactly 32 hex digits, got ".toList ++ display hex.length
    ++ ": '".toList ++ s ++ "'".toList)
  if '-' ∈ s then
    ensure ((s.splitOn '-').map (fun part => (utf8 part).length) = [8, 4, 4, 4, 12])
      ("UUID must be in format xxxxxxxx-xxxx-xxxx-xxxx-xxxxxxxxxxxx: '".toList ++ s ++ "'".toList)
  else return ()

/-- `u8::from_str_radix(chunk, 16)` for the chunks that `chunks(2)` gives. -/
def hexByte (chunk : Str) : Except Fault UInt8 :=
  match chunk.mapM (toDigit 16) with
  | some digits => .ok (UInt8.ofNat (digits.foldl (fun acc d => acc * 16 + d) 0))
  | none => bail "invalid digit found in string".toList

/-- The loop over `chunks(2)`. -/
def hexBytes : Str → Except Fault Bytes
  | a :: b :: digits => do
      let byte ← hexByte [a, b]
      let bytes ← hexBytes digits
      return byte :: bytes
  | [] => return []
  | [a] => do
      let byte ← hexByte [a]
      return [byte]

/-- The `parse_uuid` of the protocols; `pre` is what TUIC puts in front of the error. -/
def parseUuid (pre s : Str) : Except Fault Bytes := do
  let hex := hexDigits s
  ensure (hex.length = 32) (pre ++ "invalid UUID: ".toList ++ s)
  hexBytes hex

/-- The groups of digits of a UUID. -/
def uuidParts (hex : Str) : List Str :=
  [hex.take 8, (hex.drop 8).take 4, (hex.drop 12).take 4, (hex.drop 16).take 4, hex.drop 20]

/-- A UUID as it is usually written. -/
def canonicalUuid (bs : Bytes) : Str := join ['-'] (uuidParts (bs.flatMap Inbound.hex02))

/-! ### Hexadecimal digits -/

theorem lt_of_toDigit {c : Char} {d : Nat} (h : toDigit 16 c = some d) : c.toNat < 103 := by
  obtain ⟨hd, hlt⟩ := Option.filter_eq_some_iff.mp h
  have hlt : d < 16 := of_decide_eq_true hlt
  have h9 : '9'.toNat = 57 := rfl
  have ha : 'a'.toNat = 97 := rfl
  have hA : 'A'.toNat = 65 := rfl
  split_ifs at hd with h1 h2 h3
  · have : c.toNat ≤ '9'.toNat := h1.2
    omega
  · have := Option.some.inj hd
    omega
  · have : c.toNat ≤ 'Z'.toNat := h3.2
    have hZ : 'Z'.toNat = 90 := rfl
    omega

/-- A hexadecimal digit in lower case is the one that `{:02x}` writes. -/
theorem toLower_of_toDigit {c : Char} {d : Nat} (h : toDigit 16 c = some d) :
    d < 16 ∧ c.toLower = "0123456789abcdef".toList.getD d '0' := by
  have hall : ∀ n : Fin 103, (toDigit 16 (Char.ofNat n)).all fun d =>
      decide (d < 16 ∧ (Char.ofNat n).toLower = "0123456789abcdef".toList.getD d '0') := by decide
  have hc := hall ⟨c.toNat, lt_of_toDigit h⟩
  rw [Char.ofNat_toNat, h, Option.all_some] at hc
  exact of_decide_eq_true hc

theorem hexByte_pair {a b : Char} (ha : isAsciiHexdigit a = true) (hb : isAsciiHexdigit b = true) :
    ∃ byte, hexByte [a, b] = .ok byte ∧ toAsciiLowercase [a, b] = Inbound.hex02 byte := by
  obtain ⟨x, hx⟩ := Option.isSome_iff_exists.mp ha
  obtain ⟨y, hy⟩ := Option.isSome_iff_exists.mp hb
  obtain ⟨hx16, hax⟩ := toLower_of_toDigit hx
  obtain ⟨hy16, hby⟩ := toLower_of_toDigit hy
  have hnat : (UInt8.ofNat (16 * x + y)).toNat = 16 * x + y :=
    UInt8.toNat_ofNat_of_lt' (show 16 * x + y < 256 by omega)
  refine ⟨UInt8.ofNat (16 * x + y), ?_, ?_⟩
  · unfold hexByte
    rw [List.mapM_cons, hx, List.mapM_cons, hy]
    show Except.ok (UInt8.ofNat ((0 * 16 + x) * 16 + y)) = _
    rw [Nat.zero_mul, Nat.zero_add, Nat.mul_comm]
  · show [a.toLower, b.toLower] = [_, _]
    rw [hnat, hax, hby, show (16 * x + y) / 16 = x by omega, show (16 * x + y) % 16 = y by omega]

/-- A text of hexadecimal digits is read as bytes, one for every two digits, if their number is even. -/
theorem hexBytes_of_length {digits : Str} (hall : ∀ c ∈ digits, isAsciiHexdigit c = true) {n : Nat}
    (hlen : digits.length = 2 * n) :
    ∃ bs, hexBytes digits = .ok bs ∧ bs.length = n ∧ toAsciiLowercase digits = bs.flatMap Inbound.hex02 := by
  induction n generalizing digits with
  | zero =>
    obtain rfl := List.length_eq_zero_iff.mp hlen
    exact ⟨[], rfl, rfl, rfl⟩
  | succ n ih =>
    obtain ⟨a, b, rest, rfl⟩ : ∃ a b rest, digits = a :: b :: rest := by
      rcases digits with _ | ⟨a, _ | ⟨b, rest⟩⟩
      · exact absurd hlen (by simp)
      · exact absurd hlen (by simp; omega)
      · exact ⟨a, b, rest, rfl⟩
    obtain ⟨byte, hbyte, hpair⟩ := hexByte_pair (hall a (by simp)) (hall b (by simp))
    obtain ⟨bs, hbs, hn, hrest⟩ := ih (fun c hc => hall c (by simp [hc]))
      (show rest.length = 2 * n by simp only [List.length_cons] at hlen; omega)
    refine ⟨byte :: bs, ?_, by rw [List.length_cons, hn], ?_⟩
    · rw [hexBytes, hbyte, hbs]
      rfl
    · rw [List.flatMap_cons, ← hpair, ← hrest]
      rfl

theorem hex02_injective {a b : UInt8} (h : Inbound.hex02 a = Inbound.hex02 b) : a = b := by
  have hall : ∀ x y : Fin 16, "0123456789abcdef".toList.getD x.1 '0' = "0123456789abcdef".toList.getD y.1 '0' →
      x = y := by decide
  obtain ⟨h1, h2⟩ := List.cons.inj h
  have ha := a.toNat_lt
  have hb := b.toNat_lt
  have hhigh := hall ⟨a.toNat / 16, by omega⟩ ⟨b.toNat / 16, by omega⟩ h1
  have hlow := hall ⟨a.toNat % 16, by omega⟩ ⟨b.toNat % 16, by omega⟩ (List.cons.inj h2).1
  have h1 : a.toNat / 16 = b.toNat / 16 := congrArg Fin.val hhigh
  have h2 : a.toNat % 16 = b.toNat % 16 := congrArg Fin.val hlow
  exact UInt8.toNat_inj.mp (by omega)

theorem flatMap_hex02_injective {bs cs : Bytes} (h : bs.flatMap Inbound.hex02 = cs.flatMap Inbound.hex02) :
    bs = cs := by
  induction bs generalizing cs with
  | nil =>
    cases cs with
    | nil => rfl
    | cons c cs => cases h
  | cons b bs ih =>
    cases cs with
    | nil => cases h
    | cons c cs =>
      obtain ⟨hhead, htail⟩ := List.append_inj (show Inbound.hex02 b ++ bs.flatMap Inbound.hex02
        = Inbound.hex02 c ++ cs.flatMap Inbound.hex02 from h) rfl
      rw [hex02_injective hhead, ih htail]

/-! ### Spelling -/

/-- Case does not matter to whether a character is a digit. -/
theorem isAsciiHexdigit_toLower (c : Char) : isAsciiHexdigit c.toLower = isAsciiHexdigit c := by
  by_cases hc : c.toNat < 128
  · have hall : ∀ n : Fin 128, isAsciiHexdigit (Char.ofNat n).toLower = isAsciiHexdigit (Char.ofNat n) := by
      decide
    have h := hall ⟨c.toNat, hc⟩
    rwa [Char.ofNat_toNat] at h
  · rw [toLower_of_not_isUpper]
    refine decide_eq_false fun h => hc ?_
    have hZ : c.toNat ≤ 'Z'.toNat := h.2
    exact lt_of_le_of_lt hZ (by decide)

theorem hexDigits_toAsciiLowercase (s : Str) :
    hexDigits (toAsciiLowercase s) = toAsciiLowercase (hexDigits s) := by
  have hcomp : isAsciiHexdigit ∘ Char.toLower = isAsciiHexdigit := funext isAsciiHexdigit_toLower
  rw [hexDigits, hexDigits, toAsciiLowercase, toAsciiLowercase, List.filter_map, hcomp]

theorem isAsciiHexdigit_of_mem_hex02 {b : UInt8} {c : Char} (h : c ∈ Inbound.hex02 b) :
    isAsciiHexdigit c = true := by
  have hall : ∀ n : Fin 16, isAsciiHexdigit ("0123456789abcdef".toList.getD n.1 '0') = true := by decide
  have hb := b.toNat_lt
  rcases List.mem_pair.mp h with rfl | rfl
  · exact hall ⟨b.toNat / 16, by omega⟩
  · exact hall ⟨b.toNat % 16, by omega⟩

theorem length_flatMap_hex02 (bs : Bytes) : (bs.flatMap Inbound.hex02).length = 2 * bs.length := by
  induction bs with
  | nil => rfl
  | cons b bs ih =>
    rw [List.flatMap_cons, List.length_append, ih, List.length_cons]
    show 2 + 2 * bs.length = _
    omega

theorem length_hexDigits {s : Str} {bs : Bytes} (hlen : bs.length = 16)
    (hspells : toAsciiLowercase (hexDigits s) = bs.flatMap Inbound.hex02) : (hexDigits s).length = 32 := by
  have h := congrArg List.length hspells
  rwa [toAsciiLowercase, List.length_map, length_flatMap_hex02, hlen] at h

/-- **What `parse_uuid` reads**: the bytes that the digits spell, if there are 32. -/
theorem parseUuid_eq_ok {pre s : Str} {bs : Bytes} :
    parseUuid pre s = .ok bs ↔
      bs.length = 16 ∧ toAsciiLowercase (hexDigits s) = bs.flatMap Inbound.hex02 := by
  have hhex : ∀ c ∈ hexDigits s, isAsciiHexdigit c = true := fun c hc => (List.mem_filter.mp hc).2
  constructor
  · intro h
    obtain ⟨_, hlen, h⟩ := bind_eq_ok.mp h
    obtain ⟨bs', hbs', hn, hspells⟩ := hexBytes_of_length hhex (n := 16)
      (of_decide_eq_true (ensure_eq_ok.mp hlen))
    obtain rfl := Except.ok.inj (h.symm.trans hbs')
    exact ⟨hn, hspells⟩
  · rintro ⟨hlen, hspells⟩
    have hdigits : (hexDigits s).length = 32 := length_hexDigits hlen hspells
    obtain ⟨bs', hbs', -, hspells'⟩ := hexBytes_of_length hhex (n := 16) hdigits
    obtain rfl := flatMap_hex02_injective (hspells'.symm.trans hspells)
    exact bind_eq_ok.mpr ⟨(), ensure_eq_ok.mpr (decide_eq_true hdigits), hbs'⟩

/-! ### What is accepted -/

theorem validateUuid_eq_ok {s : Str} :
    validateUuid s = .ok () ↔ (hexDigits s).length = 32 ∧
      ('-' ∈ s → (s.splitOn '-').map (fun part => (utf8 part).length) = [8, 4, 4, 4, 12]) := by
  constructor
  · intro h
    obtain ⟨_, hlen, h⟩ := bind_eq_ok.mp h
    refine ⟨of_decide_eq_true (ensure_eq_ok.mp hlen), fun hdash => ?_⟩
    rw [if_pos hdash] at h
    exact of_decide_eq_true (ensure_eq_ok.mp h)
  · rintro ⟨hlen, hdashed⟩
    refine bind_eq_ok.mpr ⟨(), ensure_eq_ok.mpr (decide_eq_true hlen), ?_⟩
    by_cases hdash : '-' ∈ s
    · rw [if_pos hdash]
      exact ensure_eq_ok.mpr (decide_eq_true (hdashed hdash))
    · rw [if_neg hdash]
      rfl

theorem length_utf8_of_hex {s : Str} (h : ∀ c ∈ s, isAsciiHexdigit c = true) : (utf8 s).length = s.length := by
  induction s with
  | nil => rfl
  | cons c s ih =>
    obtain ⟨d, hd⟩ := Option.isSome_iff_exists.mp (h c List.mem_cons_self)
    have hsize : c.utf8Size = 1 := by
      rw [Char.utf8Size_eq_one_iff]
      have hlt : c.val.toNat < 103 := lt_of_toDigit hd
      exact UInt32.le_iff_toNat_le.mpr (Nat.le_of_lt (Nat.lt_of_lt_of_le hlt (by decide)))
    rw [utf8_cons, List.length_append, ih fun c' hc' => h c' (List.mem_cons_of_mem c hc'),
      String.length_utf8EncodeChar, hsize, List.length_cons, Nat.add_comm]

theorem length_hexDigits_le (s : Str) : (hexDigits s).length ≤ (utf8 s).length :=
  (List.length_filter_le _ s).trans (length_le_length_utf8 s)

/-- A text whose bytes are all counted as digits. -/
theorem hex_of_length_hexDigits {s : Str} (h : (hexDigits s).length = (utf8 s).length) :
    (∀ c ∈ s, isAsciiHexdigit c = true) ∧ hexDigits s = s := by
  have hlen : (s.filter isAsciiHexdigit).length = s.length :=
    le_antisymm (List.length_filter_le _ s) ((length_le_length_utf8 s).trans_eq h.symm)
  have hall := List.length_filter_eq_length_iff.mp hlen
  exact ⟨hall, List.filter_eq_self.mpr hall⟩

theorem hexDigits_join (parts : List Str) : hexDigits (join ['-'] parts) = parts.flatMap hexDigits := by
  induction parts with
  | nil => rfl
  | cons part parts ih =>
    cases parts with
    | nil =>
      rw [List.flatMap_singleton, join, List.intercalate_singleton]
    | cons next parts =>
      have hjoin : join ['-'] (part :: next :: parts) = part ++ '-' :: join ['-'] (next :: parts) := by
        rw [join, List.intercalate_cons_cons, List.append_assoc]
        rfl
      rw [hjoin, List.flatMap_cons, ← ih, hexDigits, List.filter_append,
        List.filter_cons_of_neg (by decide)]
      rfl

/-- Lower case does not move the dashes. -/
theorem splitOn_toAsciiLowercase (s : Str) :
    (toAsciiLowercase s).splitOn '-' = (s.splitOn '-').map toAsciiLowercase := by
  have hdash {c : Char} (h : c.toLower = '-') : c = '-' := by
    by_cases hupper : c.isUpper = true
    · have hrange : c.val ≥ 'A'.val ∧ c.val ≤ 'Z'.val := of_decide_eq_true hupper
      have hall : ∀ n : Fin 128, (Char.ofNat n).toLower = '-' → Char.ofNat n = '-' := by decide
      have hlt : c.toNat < 128 := lt_of_le_of_lt (UInt32.le_iff_toNat_le.mp hrange.2) (by decide)
      have hc := hall ⟨c.toNat, hlt⟩
      rw [Char.ofNat_toNat] at hc
      exact hc h
    · rwa [toLower_of_not_isUpper (by simpa using hupper)] at h
  have hparts : ∀ part ∈ (s.splitOn '-').map toAsciiLowercase, part.splitOn '-' = [part] := by
    intro part hpart
    obtain ⟨p, hp, rfl⟩ := List.mem_map.mp hpart
    have hp : '-' ∉ toAsciiLowercase p := fun h => by
      obtain ⟨c, hc, hlower⟩ := List.mem_map.mp h
      exact not_mem_of_mem_splitOn hp (hdash hlower ▸ hc)
    exact List.splitOn_eq_singleton hp
  have hne : (s.splitOn '-').map toAsciiLowercase ≠ [] := by simp [List.splitOn_ne_nil]
  have hjoin : toAsciiLowercase s = join ['-'] ((s.splitOn '-').map toAsciiLowercase) := by
    have h := toAsciiLowercase_join ['-'] (s.splitOn '-')
    rw [join, List.intercalate_splitOn] at h
    exact h
  rw [hjoin, splitOn_join '-' hne, List.flatMap_congr hparts]
  exact List.flatMap_singleton' _

theorem length_flatMap_hexDigits_le (parts : List Str) :
    (parts.flatMap hexDigits).length ≤ (parts.map fun part => (utf8 part).length).sum := by
  induction parts with
  | nil => exact le_rfl
  | cons p parts ih =>
    rw [List.flatMap_cons, List.length_append, List.map_cons, List.sum_cons]
    exact Nat.add_le_add (length_hexDigits_le p) ih

/-- Parts whose bytes add up to the digits of a text have nothing else. -/
theorem hex_of_length_flatMap {parts : List Str}
    (h : (parts.flatMap hexDigits).length = (parts.map fun part => (utf8 part).length).sum) :
    ∀ part ∈ parts, (hexDigits part).length = (utf8 part).length := by
  induction parts with
  | nil => exact fun part hpart => absurd hpart List.not_mem_nil
  | cons p parts ih =>
    rw [List.flatMap_cons, List.length_append, List.map_cons, List.sum_cons] at h
    have hp := length_hexDigits_le p
    have hparts := length_flatMap_hexDigits_le parts
    exact List.forall_mem_cons.mpr ⟨by omega, ih (by omega)⟩

theorem uuidParts_append {a b c d : Str} (ha : a.length = 8) (hb : b.length = 4) (hc : c.length = 4)
    (hd : d.length = 4) (e : Str) : uuidParts (a ++ (b ++ (c ++ (d ++ e)))) = [a, b, c, d, e] := by
  have hnil {x : Str} {n : Nat} (h : x.length ≤ n) : x.drop n = [] := List.drop_eq_nil_of_le h
  simp [uuidParts, List.drop_append, ha, hb, hc, hd, hnil (show a.length ≤ 12 by omega),
    hnil (show a.length ≤ 16 by omega), hnil (show a.length ≤ 20 by omega), hnil (show b.length ≤ 8 by omega),
    hnil (show b.length ≤ 12 by omega), hnil (show c.length ≤ 8 by omega)]

theorem flatten_uuidParts (hex : Str) : (uuidParts hex).flatten = hex := by
  have hcut (n : Nat) : (hex.drop n).take 4 ++ hex.drop (n + 4) = hex.drop n := by
    rw [← List.drop_drop, List.take_append_drop]
  show hex.take 8 ++ ((hex.drop 8).take 4 ++ ((hex.drop 12).take 4 ++ ((hex.drop 16).take 4
    ++ (hex.drop 20 ++ [])))) = hex
  rw [List.append_nil, hcut 16, hcut 12, hcut 8, List.take_append_drop]

theorem map_length_uuidParts {hex : Str} (h : hex.length = 32) :
    (uuidParts hex).map List.length = [8, 4, 4, 4, 12] := by
  simp [uuidParts, h]

theorem isAsciiHexdigit_of_mem_uuidParts {bs : Bytes} {part : Str}
    (hpart : part ∈ uuidParts (bs.flatMap Inbound.hex02)) {c : Char} (hc : c ∈ part) :
    isAsciiHexdigit c = true := by
  have hmem : c ∈ bs.flatMap Inbound.hex02 := by
    rw [← flatten_uuidParts (bs.flatMap Inbound.hex02)]
    exact List.mem_flatten.mpr ⟨part, hpart, hc⟩
  obtain ⟨b, -, hb⟩ := List.mem_flatMap.mp hmem
  exact isAsciiHexdigit_of_mem_hex02 hb

/-- A text with dashes has its dashes where they should be exactly if it is the usual spelling, in letters of
    any case. -/
theorem dashes_iff {s : Str} {bs : Bytes} (hlen : bs.length = 16)
    (hspells : toAsciiLowercase (hexDigits s) = bs.flatMap Inbound.hex02) :
    (s.splitOn '-').map (fun part => (utf8 part).length) = [8, 4, 4, 4, 12] ↔
      toAsciiLowercase s = canonicalUuid bs := by
  have hs : join ['-'] (s.splitOn '-') = s := List.intercalate_splitOn '-'
  have hcount : (hexDigits s).length = 32 := length_hexDigits hlen hspells
  constructor
  · intro hparts
    -- 32 bytes in five parts and 32 digits in all: every part consists of digits
    have hsum : ((s.splitOn '-').flatMap hexDigits).length
        = ((s.splitOn '-').map fun part => (utf8 part).length).sum := by
      rw [hparts, ← hexDigits_join, hs, hcount]
      rfl
    have hhex := fun part hpart => hex_of_length_hexDigits (hex_of_length_flatMap hsum part hpart)
    have hdigits : hexDigits s = (s.splitOn '-').flatten := by
      rw [← hs, hexDigits_join, hs, List.flatMap_congr fun part hpart => (hhex part hpart).2, List.flatMap_id']
    have hlengths : (s.splitOn '-').map List.length = [8, 4, 4, 4, 12] := by
      rw [← hparts]
      exact List.map_congr_left fun part hpart => (length_utf8_of_hex (hhex part hpart).1).symm
    -- so the parts are those of the usual spelling, by their lengths
    obtain ⟨a, b, c, d, e, hsplit⟩ : ∃ a b c d e, s.splitOn '-' = [a, b, c, d, e] := by
      have h : (s.splitOn '-').length = 5 := by
        rw [← List.length_map (f := List.length), hlengths]
        rfl
      generalize s.splitOn '-' = parts at h
      rcases parts with _ | ⟨a, _ | ⟨b, _ | ⟨c, _ | ⟨d, _ | ⟨e, _ | ⟨f, rest⟩⟩⟩⟩⟩⟩
      · cases h
      · cases h
      · cases h
      · cases h
      · cases h
      · exact ⟨a, b, c, d, e, rfl⟩
      · cases h
    rw [hsplit] at hlengths hdigits
    obtain ⟨ha, hb, hc, hd, -⟩ : a.length = 8 ∧ b.length = 4 ∧ c.length = 4 ∧ d.length = 4 ∧ e.length = 12 := by
      simpa using hlengths
    have hjoined : bs.flatMap Inbound.hex02 = toAsciiLowercase a ++ (toAsciiLowercase b
        ++ (toAsciiLowercase c ++ (toAsciiLowercase d ++ toAsciiLowercase e))) := by
      rw [← hspells, hdigits]
      simp [toAsciiLowercase]
    have hlower {x : Str} {n : Nat} (h : x.length = n) : (toAsciiLowercase x).length = n :=
      (List.length_map _).trans h
    rw [← hs, hsplit, toAsciiLowercase_join, canonicalUuid, hjoined,
      uuidParts_append (hlower ha) (hlower hb) (hlower hc) (hlower hd)]
    rfl
  · intro hcanonical
    -- the usual spelling has dashes between its parts only, so these are found again
    have hhex : ∀ part ∈ uuidParts (bs.flatMap Inbound.hex02), ∀ c ∈ part, isAsciiHexdigit c = true :=
      fun part hpart c hc => isAsciiHexdigit_of_mem_uuidParts hpart hc
    have hdash : ∀ part ∈ uuidParts (bs.flatMap Inbound.hex02), part.splitOn '-' = [part] := fun part hpart =>
      List.splitOn_eq_singleton fun h => absurd (hhex part hpart '-' h) (by decide)
    have hne : uuidParts (bs.flatMap Inbound.hex02) ≠ [] := List.cons_ne_nil _ _
    have hsplit : (s.splitOn '-').map toAsciiLowercase = uuidParts (bs.flatMap Inbound.hex02) := by
      rw [← splitOn_toAsciiLowercase, hcanonical, canonicalUuid, splitOn_join '-' hne,
        List.flatMap_congr hdash]
      exact List.flatMap_singleton' _
    calc (s.splitOn '-').map (fun part => (utf8 part).length)
        = ((s.splitOn '-').map toAsciiLowercase).map fun part => (utf8 part).length := by
          rw [List.map_map]
          exact List.map_congr_left fun part _ => (length_utf8_toAsciiLowercase part).symm
      _ = (uuidParts (bs.flatMap Inbound.hex02)).map List.length := by
          rw [hsplit]
          exact List.map_congr_left fun part hpart => length_utf8_of_hex (hhex part hpart)
      _ = [8, 4, 4, 4, 12] := map_length_uuidParts (by rw [length_flatMap_hex02, hlen])

/-- The usual spelling is in lower case. -/
theorem toAsciiLowercase_canonicalUuid (bs : Bytes) : toAsciiLowercase (canonicalUuid bs) = canonicalUuid bs := by
  have hlower : ∀ c ∈ bs.flatMap Inbound.hex02, c.isUpper = false := fun c hc => by
    obtain ⟨b, -, hb⟩ := List.mem_flatMap.mp hc
    have hall : ∀ n : Fin 16, ("0123456789abcdef".toList.getD n.1 '0').isUpper = false := by decide
    have hlt := b.toNat_lt
    rcases List.mem_pair.mp hb with rfl | rfl
    · exact hall ⟨b.toNat / 16, by omega⟩
    · exact hall ⟨b.toNat % 16, by omega⟩
  have hpart : ∀ part ∈ uuidParts (bs.flatMap Inbound.hex02), toAsciiLowercase part = part := fun part hpart =>
    toAsciiLowercase_eq_self (List.any_eq_false.mpr fun c hc => by
      rw [hlower c (flatten_uuidParts (bs.flatMap Inbound.hex02) ▸ List.mem_flatten.mpr ⟨part, hpart, hc⟩)]
      exact Bool.false_ne_true)
  rw [canonicalUuid, toAsciiLowercase_join, List.map_congr_left hpart, List.map_id']
  rfl

/-- The usual spelling of sixteen bytes, in letters of any case, is accepted and read back. -/
theorem validateUuid_of_canonical {s : Str} {bs : Bytes} (hlen : bs.length = 16)
    (h : toAsciiLowercase s = canonicalUuid bs) :
    validateUuid s = .ok () ∧ ∀ pre, parseUuid pre s = .ok bs := by
  have hparts : (uuidParts (bs.flatMap Inbound.hex02)).flatMap hexDigits = bs.flatMap Inbound.hex02 := by
    have hself : ∀ part ∈ uuidParts (bs.flatMap Inbound.hex02), hexDigits part = part := fun part hpart =>
      List.filter_eq_self.mpr fun c hc => isAsciiHexdigit_of_mem_uuidParts hpart hc
    rw [List.flatMap_congr hself, List.flatMap_id', flatten_uuidParts]
  have hspells : toAsciiLowercase (hexDigits s) = bs.flatMap Inbound.hex02 := by
    rw [← hexDigits_toAsciiLowercase, h, canonicalUuid, hexDigits_join, hparts]
  have hcount : (hexDigits s).length = 32 := length_hexDigits hlen hspells
  exact ⟨validateUuid_eq_ok.mpr ⟨hcount, fun _ => (dashes_iff hlen hspells).mpr h⟩,
    fun pre => parseUuid_eq_ok.mpr ⟨hlen, hspells⟩⟩

/-- **UUIDs.**  `validate_uuid` accepts the texts in which the `parse_uuid` of every protocol finds sixteen
    bytes (the same for each), and which are nothing but the usual spelling of these, in letters of any case,
    if they have a dash.  All sixteen bytes have an accepted spelling, and are read back from it. -/
theorem uuid_accepted_iff (s : Str) (uuid : Vector UInt8 16) :
    (validateUuid s = .ok () ↔ ∃ bs : Bytes, bs.length = 16 ∧ (∀ pre, parseUuid pre s = .ok bs) ∧
      ('-' ∈ s → toAsciiLowercase s = canonicalUuid bs)) ∧
    validateUuid (canonicalUuid uuid.toList) = .ok () ∧
      ∀ pre, parseUuid pre (canonicalUuid uuid.toList) = .ok uuid.toList := by
  refine ⟨?_, ?_⟩
  · rw [validateUuid_eq_ok]
    constructor
    · rintro ⟨hcount, hdashed⟩
      obtain ⟨bs, -, hlen, hspells⟩ := hexBytes_of_length (n := 16)
        (fun c (hc : c ∈ hexDigits s) => (List.mem_filter.mp hc).2) hcount
      exact ⟨bs, hlen, fun pre => parseUuid_eq_ok.mpr ⟨hlen, hspells⟩,
        fun h => (dashes_iff hlen hspells).mp (hdashed h)⟩
    · rintro ⟨bs, hlen, hparse, hcanonical⟩
      obtain ⟨-, hspells⟩ := parseUuid_eq_ok.mp (hparse [])
      exact ⟨length_hexDigits hlen hspells, fun h => (dashes_iff hlen hspells).mpr (hcanonical h)⟩
  · exact validateUuid_of_canonical uuid.length_toList (toAsciiLowercase_canonicalUuid _)

end Reflex.Config
