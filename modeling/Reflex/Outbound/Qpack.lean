import Reflex.Outbound.Huffman
import Reflex.Outbound.Hy2Wire

namespace Reflex.Hy2

open RustStd Machine

/-!
# Hysteria2 — QPACK header blocks

`put_literal_header` and `parse_headers_from_qpack` of `outbound/hy2.rs`: what the client writes, and how it reads
the header block of a server.  An integer that fills its prefix goes on in the bytes behind it, seven bits each, and
the code shifts and adds in 64 bits without a check.

* `qpackReadIntGo_eq` — the loop over the bytes of an integer, by its value and where it ends;
* `IntFits`, `FieldFits` — the shift and the sums of an integer do not overflow, and the same of a field line;
* `Steps` — how a decoder of one piece after another goes through or stops;
* `defined_parseHeadersGo`, `parseHeaders_defined_iff` — a block is read without a panic exactly if its fields fit.
-/

/-! ### Integers -/

/-- The loop of `qpack_read_int`, over the bytes that are left: the value, the shift and the number of
    bytes so far. -/
def qpackReadIntGo : Bytes → Nat → Nat → Nat → Checked (Option (Nat × Nat))
  | [], _, _, _ => return none
  | b :: rest, val, m, i => do
      let part ← shl 64 (b &&& 0x7f).toNat m
      let val ← add 64 val part
      if b &&& 0x80 = 0 then return some (val, i + 1)
      else qpackReadIntGo rest val (m + 7) (i + 1)

/-- `qpack_read_int`: the value and the number of bytes; `none` if the bytes end too early. -/
def qpackReadInt (data : Bytes) (prefixBits : Nat) : Checked (Option (Nat × Nat)) :=
  match data with
  | [] => return none
  | b :: rest =>
      let mask := 2 ^ prefixBits - 1
      let first := b.toNat &&& mask
      if first < mask then return some (first, 1) else qpackReadIntGo rest first 0 1

/-! ### The static table -/

/-- `qpack_static_entry`. -/
def qpackStaticEntry : Nat → Option (Str × Str)
  | 0 => some (":authority".toList, "".toList)
  | 1 => some (":path".toList, "/".toList)
  | 2 => some ("age".toList, "0".toList)
  | 3 => some ("content-disposition".toList, "".toList)
  | 4 => some ("content-length".toList, "0".toList)
  | 5 => some ("cookie".toList, "".toList)
  | 6 => some ("date".toList, "".toList)
  | 7 => some ("etag".toList, "".toList)
  | 8 => some ("if-modified-since".toList, "".toList)
  | 9 => some ("if-none-match".toList, "".toList)
  | 10 => some ("last-modified".toList, "".toList)
  | 11 => some ("link".toList, "".toList)
  | 12 => some ("location".toList, "".toList)
  | 13 => some ("referer".toList, "".toList)
  | 14 => some ("set-cookie".toList, "".toList)
  | 15 => some (":method".toList, "CONNECT".toList)
  | 16 => some (":method".toList, "DELETE".toList)
  | 17 => some (":method".toList, "GET".toList)
  | 18 => some (":method".toList, "HEAD".toList)
  | 19 => some (":method".toList, "OPTIONS".toList)
  | 20 => some (":method".toList, "POST".toList)
  | 21 => some (":method".toList, "PUT".toList)
  | 22 => some (":scheme".toList, "http".toList)
  | 23 => some (":scheme".toList, "https".toList)
  | 24 => some (":status".toList, "103".toList)
  | 25 => some (":status".toList, "200".toList)
  | 26 => some (":status".toList, "304".toList)
  | 27 => some (":status".toList, "404".toList)
  | 28 => some (":status".toList, "503".toList)
  | _ => none

/-- `qpack_static_name`. -/
def qpackStaticName (idx : Nat) : Option Str := (qpackStaticEntry idx).map Prod.fst

/-! ### Fields -/

/-- An integer at `i`, and where it ends; `none` if the block ends too early. -/
def qpackInt (payload : Bytes) (i prefixBits : Nat) : Checked (Option (Nat × Nat)) := do
  let data ← range payload i payload.length
  let some (v, consumed) ← qpackReadInt data prefixBits | return none
  let i ← add 64 i consumed
  return some (v, i)

/-- The text of a string. -/
def qpackText (bytes : Bytes) (huffman : Bool) : Checked Str :=
  if huffman then huffmanDecode bytes else return fromUtf8Lossy bytes

/-- A string behind its length: the text, and where it ends; `none` if the block ends too early. -/
def qpackString (payload : Bytes) (i prefixBits : Nat) (huffman : Bool) :
    Checked (Option (Str × Nat)) := do
  let some (len, i) ← qpackInt payload i prefixBits | return none
  let stop ← add 64 i len
  if payload.length < stop then return none
  let bytes ← range payload i stop
  let text ← qpackText bytes huffman
  return some (text, stop)

/-- The value of a field, which is behind its name. -/
def qpackValue (payload : Bytes) (i : Nat) : Checked (Option (Str × Nat)) := do
  if payload.length ≤ i then return none
  let b ← index payload i
  qpackString payload i 7 (b &&& 0x80 ≠ 0)

/-- One round of the loop of `parse_headers_from_qpack`: the header, if there is one, and where the
    next field starts; `none` if the loop ends. -/
def qpackField (payload : Bytes) (i : Nat) : Checked (Option (Option (Str × Str) × Nat)) := do
  let b ← index payload i
  if b &&& 0x80 ≠ 0 then
    let some (idx, i) ← qpackInt payload i 6 | return none
    return some ((qpackStaticEntry idx).filter fun (name, _) => name ≠ [], i)
  else if b &&& 0xc0 = 0x40 then
    let some (idx, i) ← qpackInt payload i 4 | return none
    let some (value, i) ← qpackValue payload i | return none
    return some (some ((qpackStaticName idx).getD [], value), i)
  else if b &&& 0xe0 = 0x20 then
    let some (name, i) ← qpackString payload i 3 (b &&& 0x08 ≠ 0) | return none
    let some (value, i) ← qpackValue payload i | return none
    return some (some (name, value), i)
  else
    let i ← add 64 i 1
    return some (none, i)

/-! ### Progress -/

theorem add_eq_ok {w a b c : Nat} (h : add w a b = .ok c) : c = a + b := by
  unfold add at h
  split at h
  · exact (Except.ok.inj h).symm
  · cases h

theorem lt_of_qpackReadIntGo {data : Bytes} {val m i v n : Nat}
    (h : qpackReadIntGo data val m i = .ok (some (v, n))) : i < n ∧ val ≤ v := by
  induction data generalizing val m i with
  | nil => cases h
  | cons b rest ih =>
    rw [qpackReadIntGo] at h
    obtain ⟨part, -, h⟩ := bind_eq_ok.mp h
    obtain ⟨val', hval', h⟩ := bind_eq_ok.mp h
    obtain rfl := add_eq_ok hval'
    split at h
    · obtain ⟨rfl, rfl⟩ := Prod.mk.inj (Option.some.inj (Except.ok.inj h))
      omega
    · have := ih h
      omega

theorem lt_of_qpackReadInt {data : Bytes} {prefixBits v n : Nat}
    (h : qpackReadInt data prefixBits = .ok (some (v, n))) : 0 < n := by
  cases data with
  | nil => cases h
  | cons b rest =>
    rw [qpackReadInt] at h
    split at h
    · obtain ⟨-, rfl⟩ := Prod.mk.inj (Option.some.inj (Except.ok.inj h))
      exact Nat.one_pos
    · have := (lt_of_qpackReadIntGo h).1
      omega

theorem lt_of_qpackInt {payload : Bytes} {i prefixBits v j : Nat}
    (h : qpackInt payload i prefixBits = .ok (some (v, j))) : i < j := by
  obtain ⟨data, -, h⟩ := bind_eq_ok.mp h
  obtain ⟨found, hfound, h⟩ := bind_eq_ok.mp h
  match found with
  | none => cases h
  | some (v, consumed) =>
    have hpos := lt_of_qpackReadInt hfound
    obtain ⟨k, hk, h⟩ := bind_eq_ok.mp h
    obtain rfl := add_eq_ok hk
    obtain ⟨-, rfl⟩ := Prod.mk.inj (Option.some.inj (Except.ok.inj h))
    omega

theorem lt_of_qpackString {payload : Bytes} {i prefixBits : Nat} {huffman : Bool} {text : Str} {stop : Nat}
    (h : qpackString payload i prefixBits huffman = .ok (some (text, stop))) : i < stop := by
  obtain ⟨found, hfound, h⟩ := bind_eq_ok.mp h
  match found with
  | none => cases h
  | some (len, j) =>
    have hlt := lt_of_qpackInt hfound
    obtain ⟨k, hk, h⟩ := bind_eq_ok.mp h
    obtain rfl := add_eq_ok hk
    split at h
    · cases h
    · obtain ⟨bytes, -, h⟩ := bind_eq_ok.mp h
      obtain ⟨text', -, h⟩ := bind_eq_ok.mp h
      obtain ⟨-, rfl⟩ := Prod.mk.inj (Option.some.inj (Except.ok.inj h))
      omega

theorem lt_of_qpackValue {payload : Bytes} {i : Nat} {text : Str} {stop : Nat}
    (h : qpackValue payload i = .ok (some (text, stop))) : i < stop := by
  rw [qpackValue] at h
  split at h
  · cases h
  · obtain ⟨b, -, h⟩ := bind_eq_ok.mp h
    exact lt_of_qpackString h

/-- A field ends behind where it starts. -/
theorem lt_of_qpackField {payload : Bytes} {i : Nat} {header : Option (Str × Str)} {j : Nat}
    (h : qpackField payload i = .ok (some (header, j))) : i < j := by
  obtain ⟨b, -, h⟩ := bind_eq_ok.mp h
  split at h
  · -- an indexed field is one integer
    obtain ⟨found, hfound, h⟩ := bind_eq_ok.mp h
    match found with
    | none => cases h
    | some (idx, k) =>
      have hlt := lt_of_qpackInt hfound
      obtain ⟨-, rfl⟩ := Prod.mk.inj (Option.some.inj (Except.ok.inj h))
      omega
  split at h
  · -- a name by its index, and a value
    obtain ⟨found, hfound, h⟩ := bind_eq_ok.mp h
    match found with
    | none => cases h
    | some (idx, k) =>
      have hlt := lt_of_qpackInt hfound
      obtain ⟨value, hvalue, h⟩ := bind_eq_ok.mp h
      match value with
      | none => cases h
      | some (value, stop) =>
        have hlt' := lt_of_qpackValue hvalue
        obtain ⟨-, rfl⟩ := Prod.mk.inj (Option.some.inj (Except.ok.inj h))
        omega
  split at h
  · -- a name of its own, and a value
    obtain ⟨name, hname, h⟩ := bind_eq_ok.mp h
    match name with
    | none => cases h
    | some (name, k) =>
      have hlt := lt_of_qpackString hname
      obtain ⟨value, hvalue, h⟩ := bind_eq_ok.mp h
      match value with
      | none => cases h
      | some (value, stop) =>
        have hlt' := lt_of_qpackValue hvalue
        obtain ⟨-, rfl⟩ := Prod.mk.inj (Option.some.inj (Except.ok.inj h))
        omega
  · -- any other byte is stepped over
    obtain ⟨k, hk, h⟩ := bind_eq_ok.mp h
    obtain rfl := add_eq_ok hk
    obtain ⟨-, rfl⟩ := Prod.mk.inj (Option.some.inj (Except.ok.inj h))
    omega

/-- The loop of `parse_headers_from_qpack`. -/
def parseHeadersGo (payload : Bytes) (i : Nat) (headers : List (Str × Str)) :
    Checked (List (Str × Str)) :=
  if i < payload.length then
    match _hfield : qpackField payload i with
    | .error e => .error e
    | .ok none => .ok headers
    | .ok (some (header, j)) => parseHeadersGo payload j (headers ++ header.toList)
  else .ok headers
termination_by payload.length - i
decreasing_by
  have hlt := lt_of_qpackField _hfield
  omega

/-- `parse_headers_from_qpack`. -/
def parseHeadersFromQpack (payload : Bytes) : Checked (Except Str (List (Str × Str))) :=
  if payload.length < 2 then return .error "qpack payload too short".toList
  else do
    let headers ← parseHeadersGo payload 2 []
    return .ok headers

/-! ### Integers that fit -/

/-- The bytes of an integer behind a prefix that is full: up to the first one without the high bit. -/
def intTail : Bytes → Bytes
  | [] => []
  | b :: rest => if b &&& 0x80 = 0 then [b] else b :: intTail rest

/-- Their value, with the first one shifted by `m`. -/
def tailValue : Nat → Bytes → Nat
  | _, [] => 0
  | m, b :: rest => (b &&& 0x7f).toNat <<< m % 2 ^ 64 + tailValue (m + 7) rest

/-- Is the last byte of an integer there? -/
def tailEnds (tail : Bytes) : Bool := tail.getLast?.any fun b => b &&& 0x80 = 0

/-- An integer that fits into 64 bits: no more than ten bytes behind the prefix, and a small sum. -/
def IntFits (prefixBits : Nat) : Bytes → Prop
  | [] => True
  | b :: rest =>
      let mask := 2 ^ prefixBits - 1
      let first := b.toNat &&& mask
      first < mask ∨ (intTail rest).length ≤ 10 ∧ first + tailValue 0 (intTail rest) < 2 ^ 64

/-- What the integer at the front is, and its number of bytes. -/
def intAt (prefixBits : Nat) : Bytes → Option (Nat × Nat)
  | [] => none
  | b :: rest =>
      let mask := 2 ^ prefixBits - 1
      let first := b.toNat &&& mask
      if first < mask then some (first, 1)
      else if tailEnds (intTail rest) then
        some (first + tailValue 0 (intTail rest), 1 + (intTail rest).length)
      else none

theorem qpackReadIntGo_eq {data : Bytes} {val m i : Nat} (hlen : m + 7 * (intTail data).length ≤ 70)
    (hsum : val + tailValue m (intTail data) < 2 ^ 64) :
    qpackReadIntGo data val m i = .ok (if tailEnds (intTail data) then
      some (val + tailValue m (intTail data), i + (intTail data).length) else none) := by
  induction data generalizing val m i with
  | nil => rfl
  | cons b rest ih =>
    rw [qpackReadIntGo]
    rw [intTail] at hlen hsum ⊢
    by_cases hb : b &&& 0x80 = 0
    · rw [if_pos hb] at hlen hsum ⊢
      simp only [List.length_singleton, tailValue] at hlen hsum
      rw [shl_of_lt (by omega), ok_bind, add_of_lt (by omega), ok_bind, if_pos hb]
      have hends : tailEnds [b] = true := by simp [tailEnds, hb]
      rw [hends, if_pos rfl]
      rfl
    · rw [if_neg hb] at hlen hsum ⊢
      simp only [List.length_cons, tailValue] at hlen hsum
      rw [shl_of_lt (by omega), ok_bind, add_of_lt (by omega), ok_bind, if_neg hb,
        ih (by omega) (by omega)]
      have hends : tailEnds (b :: intTail rest) = tailEnds (intTail rest) := by
        unfold tailEnds
        cases intTail rest with
        | nil => simp [hb]
        | cons c tail => rw [List.getLast?_cons_cons]
      rw [hends, tailValue, List.length_cons, ← Nat.add_assoc, Nat.add_assoc i, Nat.add_comm 1]

theorem fits_of_defined_go {data : Bytes} {val k i : Nat} (hk : k ≤ 10) (hval : val < 2 ^ 64)
    (h : Defined (qpackReadIntGo data val (7 * k) i)) :
    k + (intTail data).length ≤ 10 ∧ val + tailValue (7 * k) (intTail data) < 2 ^ 64 := by
  induction data generalizing val k i with
  | nil => exact ⟨hk, hval⟩
  | cons b rest ih =>
    rw [qpackReadIntGo] at h
    obtain ⟨part, hpart, h⟩ := defined_bind.mp h
    obtain ⟨val', hval', h⟩ := defined_bind.mp h
    -- the shift of this byte and the sum with it have not overflowed
    have hshift : 7 * k < 64 := by
      by_contra hwide
      rw [shl_of_le (not_lt.mp hwide)] at hpart
      cases hpart
    rw [shl_of_lt hshift] at hpart
    obtain rfl := Except.ok.inj hpart
    have hsum : val + (b &&& 0x7f).toNat <<< (7 * k) % 2 ^ 64 < 2 ^ 64 := by
      by_contra hlarge
      rw [add_of_le (not_lt.mp hlarge)] at hval'
      cases hval'
    obtain rfl := add_eq_ok hval'
    rw [intTail]
    split at h
    · rw [if_pos ‹_›]
      simp only [List.length_singleton, tailValue]
      omega
    · rw [if_neg ‹_›]
      -- the top bit is set, and the next byte is shifted by seven more
      have hrest := ih (k := k + 1) (by omega) hsum h
      simp only [List.length_cons, tailValue]
      rw [Nat.mul_add, Nat.mul_one] at hrest
      omega

theorem qpackReadInt_eq {data : Bytes} {prefixBits : Nat} (h : IntFits prefixBits data) :
    qpackReadInt data prefixBits = .ok (intAt prefixBits data) := by
  cases data with
  | nil => rfl
  | cons b rest =>
    rw [qpackReadInt, intAt]
    by_cases hfirst : b.toNat &&& 2 ^ prefixBits - 1 < 2 ^ prefixBits - 1
    · rw [if_pos hfirst, if_pos hfirst]
      rfl
    · obtain ⟨hlen, hsum⟩ := h.resolve_left hfirst
      rw [if_neg hfirst, if_neg hfirst, qpackReadIntGo_eq (by omega) hsum]

theorem intFits_of_defined {data : Bytes} {prefixBits : Nat} (h : Defined (qpackReadInt data prefixBits)) :
    IntFits prefixBits data := by
  cases data with
  | nil => trivial
  | cons b rest =>
    rw [qpackReadInt] at h
    split at h
    · exact .inl ‹_›
    · have hsmall : b.toNat &&& 2 ^ prefixBits - 1 < 2 ^ 64 :=
        (Nat.and_le_left.trans_lt b.toNat_lt).trans (by decide)
      have hfits := fits_of_defined_go (k := 0) (Nat.zero_le _) hsmall h
      exact .inr ⟨by omega, hfits.2⟩

theorem intAt_length {data : Bytes} {prefixBits v n : Nat} (h : intAt prefixBits data = some (v, n)) :
    n ≤ data.length := by
  have htail : ∀ data : Bytes, (intTail data).length ≤ data.length := by
    intro data
    induction data with
    | nil => exact Nat.le_refl _
    | cons b rest ih =>
      rw [intTail]
      split
      · exact Nat.succ_le_succ (Nat.zero_le _)
      · exact Nat.succ_le_succ ih
  cases data with
  | nil => cases h
  | cons b rest =>
    rw [intAt] at h
    split at h
    · obtain ⟨-, rfl⟩ := Prod.mk.inj (Option.some.inj h)
      exact Nat.succ_le_succ (Nat.zero_le _)
    split at h
    · obtain ⟨-, rfl⟩ := Prod.mk.inj (Option.some.inj h)
      have := htail rest
      rw [List.length_cons]
      omega
    · cases h

/-! ### Fields that fit -/

/-- The parts of a field that starts with `b`: the prefix of each integer, and whether it is the length
    of a string behind it. -/
def fieldParts (b : UInt8) : List (Nat × Bool) :=
  if b &&& 0x80 ≠ 0 then [(6, false)]
  else if b &&& 0xc0 = 0x40 then [(4, false), (7, true)]
  else if b &&& 0xe0 = 0x20 then [(3, true), (7, true)]
  else []

/-- Where a part ends that starts at `i`. -/
def partEnd (payload : Bytes) (i prefixBits : Nat) (isString : Bool) : Option Nat :=
  (intAt prefixBits (payload.drop i)).bind fun (v, n) =>
    if isString then if payload.length < i + n + v then none else some (i + n + v)
    else some (i + n)

/-- A part whose integer fits, also as the length of what is behind it. -/
def PartFits (payload : Bytes) (i prefixBits : Nat) (isString : Bool) : Prop :=
  IntFits prefixBits (payload.drop i) ∧
    (isString → ∀ v n, intAt prefixBits (payload.drop i) = some (v, n) → i + n + v < 2 ^ 64)

/-- Where the parts of a field end, if all of them can be read. -/
def partsEnd (payload : Bytes) : Nat → List (Nat × Bool) → Option Nat
  | i, [] => some i
  | i, (prefixBits, isString) :: parts =>
      (partEnd payload i prefixBits isString).bind fun j => partsEnd payload j parts

/-- Parts of which each one fits where the one before ends. -/
def PartsFit (payload : Bytes) : Nat → List (Nat × Bool) → Prop
  | _, [] => True
  | i, (prefixBits, isString) :: parts => PartFits payload i prefixBits isString ∧
      ∀ j, partEnd payload i prefixBits isString = some j → PartsFit payload j parts

/-- Where the field behind the one at `i` starts: a byte that is no field is left out. -/
def NextField (payload : Bytes) (i j : Nat) : Prop :=
  ∃ b, payload[i]? = some b ∧
    if fieldParts b = [] then j = i + 1 else partsEnd payload i (fieldParts b) = some j

/-- The integers of the field at `i` fit. -/
def FieldFits (payload : Bytes) (i : Nat) : Prop :=
  ∀ b, payload[i]? = some b → PartsFit payload i (fieldParts b)

/-- A step that does not fault exactly if its integers fit, and where it ends then. -/
structure Steps {α : Type} (x : Checked (Option (α × Nat))) (fits : Prop) (stop : Option Nat) : Prop where
  fits_of_defined : Defined x → fits
  eq_of_fits : fits → ∃ r, x = .ok r ∧ r.map Prod.snd = stop

namespace Steps

variable {α β : Type} {x : Checked (Option (α × Nat))} {fits : Prop} {stop : Option Nat}
  {f : Option (α × Nat) → Checked (Option (β × Nat))}

/-- A decoder in two steps goes through if both do, and stops where the second one stops. -/
theorem bind {fits' : Nat → Prop} {stop' : Nat → Option Nat} (hx : Steps x fits stop)
    (hnone : f none = .ok none) (hsome : ∀ a i, stop = some i → Steps (f (some (a, i))) (fits' i) (stop' i)) :
    Steps (x >>= f) (fits ∧ ∀ i, stop = some i → fits' i) (stop.bind stop') := by
  refine ⟨fun h => ?_, fun ⟨hfits, hnext⟩ => ?_⟩
  · obtain ⟨r, rfl, hf⟩ := defined_bind.mp h
    have hfits := hx.fits_of_defined ⟨r, rfl⟩
    obtain ⟨r', hr, hstop⟩ := hx.eq_of_fits hfits
    obtain rfl := Except.ok.inj hr
    refine ⟨hfits, fun i hi => ?_⟩
    obtain ⟨⟨a, j⟩, rfl, rfl⟩ := Option.map_eq_some_iff.mp (hstop.trans hi)
    exact (hsome a j hi).fits_of_defined hf
  · obtain ⟨r, rfl, rfl⟩ := hx.eq_of_fits hfits
    cases r with
    | none => exact ⟨none, hnone, rfl⟩
    | some r => exact (hsome r.1 r.2 rfl).eq_of_fits (hnext r.2 rfl)

/-- The last step of a decoder, which has its value and its place. -/
theorem last {r : Checked (Option (β × Nat))} {b : β} {i : Nat} (h : r = .ok (some (b, i))) :
    Steps r True (some i) :=
  ⟨fun _ => trivial, fun _ => ⟨some (b, i), h, rfl⟩⟩

end Steps

/-! ### Safety -/

theorem partEnd_le {payload : Bytes} {i prefixBits j : Nat} {isString : Bool} (hi : i ≤ payload.length)
    (h : partEnd payload i prefixBits isString = some j) : j ≤ payload.length := by
  obtain ⟨⟨v, n⟩, hat, h⟩ := Option.bind_eq_some_iff.mp h
  have hn := intAt_length hat
  rw [List.length_drop] at hn
  dsimp only at h
  split at h
  · obtain ⟨hle, h⟩ := Option.ite_none_left_eq_some.mp h
    obtain rfl := Option.some.inj h
    omega
  · obtain rfl := Option.some.inj h
    omega

/-- The text of a string that is in the block. -/
theorem exists_qpackText {payload : Bytes} (hlen : payload.length ≤ 1024 * 1024) {j stop : Nat}
    (hstop : stop ≤ payload.length) (hj : j ≤ stop) (huffman : Bool) :
    ∃ bytes text, range payload j stop = .ok bytes ∧ qpackText bytes huffman = .ok text := by
  have htake := List.length_take_le (stop - j) (payload.drop j)
  cases huffman with
  | false => exact ⟨_, _, range_of_le hj hstop, rfl⟩
  | true => exact ⟨_, _, range_of_le hj hstop, huffmanDecode_eq (by omega)⟩

section Safety

variable {payload : Bytes} {i : Nat} (hlen : payload.length ≤ 1024 * 1024) (hi : i ≤ payload.length)
include hlen hi

theorem steps_qpackInt {prefixBits : Nat} :
    Steps (qpackInt payload i prefixBits) (PartFits payload i prefixBits false)
      (partEnd payload i prefixBits false) := by
  rw [qpackInt, range_length hi, ok_bind]
  refine ⟨fun h => ?_, fun ⟨hfits, _⟩ => ?_⟩
  · obtain ⟨r, hr, -⟩ := defined_bind.mp h
    exact ⟨intFits_of_defined ⟨r, hr⟩, nofun⟩
  · rw [qpackReadInt_eq hfits, ok_bind, partEnd]
    cases hat : intAt prefixBits (payload.drop i) with
    | none => exact ⟨none, rfl, rfl⟩
    | some found =>
      obtain ⟨v, n⟩ := found
      have hn := intAt_length hat
      rw [List.length_drop] at hn
      dsimp only
      rw [add_of_lt (by omega), ok_bind]
      exact ⟨some (v, i + n), rfl, rfl⟩

theorem steps_qpackString {prefixBits : Nat} {huffman : Bool} :
    Steps (qpackString payload i prefixBits huffman)
      (PartFits payload i prefixBits true) (partEnd payload i prefixBits true) := by
  have hint : Steps (qpackInt payload i prefixBits) (PartFits payload i prefixBits false)
      (partEnd payload i prefixBits false) := steps_qpackInt hlen hi
  rw [qpackString]
  refine ⟨fun h => ?_, fun ⟨hfits, hstring⟩ => ?_⟩
  · obtain ⟨r, hr, h⟩ := defined_bind.mp h
    obtain ⟨hfits, -⟩ := hint.fits_of_defined ⟨r, hr⟩
    rw [qpackInt, range_length hi, ok_bind, qpackReadInt_eq hfits] at hr
    refine ⟨hfits, fun _ v n hat => ?_⟩
    rw [hat, ok_bind] at hr
    obtain ⟨j, hj, hr⟩ := bind_eq_ok.mp hr
    obtain rfl := Except.ok.inj hr
    obtain ⟨stop, hstop, -⟩ := defined_bind.mp h
    obtain rfl := add_eq_ok hj
    by_contra hlarge
    -- a length that is too large would overflow the end of the string
    rw [add_of_le (not_lt.mp hlarge)] at hstop
    cases hstop
  · rw [qpackInt, range_length hi, ok_bind, qpackReadInt_eq hfits, ok_bind, partEnd]
    cases hat : intAt prefixBits (payload.drop i) with
    | none => exact ⟨none, rfl, rfl⟩
    | some found =>
      obtain ⟨v, n⟩ := found
      have hsum := hstring rfl v n hat
      dsimp only [Option.bind_some]
      rw [add_of_lt (by omega), ok_bind]
      -- the string ends within the payload, or there is none
      by_cases hshort : payload.length < i + n + v
      · refine ⟨none, ?_, by rw [if_pos rfl, if_pos hshort]; rfl⟩
        show (add 64 (i + n) v >>= fun stop => _) = _
        rw [add_of_lt hsum, ok_bind, if_pos hshort]
        rfl
      · obtain ⟨bytes, text, hrange, htext⟩ := exists_qpackText hlen (j := i + n) (not_lt.mp hshort)
          (Nat.le_add_right _ _) huffman
        refine ⟨some (text, i + n + v), ?_, by rw [if_pos rfl, if_neg hshort]; rfl⟩
        show (add 64 (i + n) v >>= fun stop => _) = _
        rw [add_of_lt hsum, ok_bind, if_neg hshort, hrange, ok_bind, htext]
        rfl

theorem steps_qpackValue :
    Steps (qpackValue payload i) (PartFits payload i 7 true) (partEnd payload i 7 true) := by
  rw [qpackValue]
  by_cases hshort : payload.length ≤ i
  · rw [if_pos hshort, PartFits, partEnd, List.drop_eq_nil_of_le hshort]
    exact ⟨fun _ => ⟨trivial, nofun⟩, fun _ => ⟨none, rfl, rfl⟩⟩
  · rw [if_neg hshort, index_of_lt (not_le.mp hshort), ok_bind]
    exact steps_qpackString hlen hi

/-- **One field** faults exactly if an integer of it does not fit. -/
theorem steps_qpackField {b : UInt8} (h : payload[i]? = some b) :
    Steps (qpackField payload i) (PartsFit payload i (fieldParts b))
      (if fieldParts b = [] then some (i + 1) else partsEnd payload i (fieldParts b)) := by
  rw [qpackField, index_of_getElem? h, ok_bind, fieldParts]
  by_cases hindexed : b &&& 0x80 ≠ 0
  · rw [if_pos hindexed, if_pos hindexed, if_neg (List.cons_ne_nil _ _)]
    exact (steps_qpackInt hlen hi).bind rfl fun idx j _ => Steps.last rfl
  rw [if_neg hindexed, if_neg hindexed]
  by_cases hreference : b &&& 0xc0 = 0x40
  · rw [if_pos hreference, if_pos hreference, if_neg (List.cons_ne_nil _ _)]
    refine (steps_qpackInt hlen hi).bind rfl fun idx j hj => ?_
    exact (steps_qpackValue hlen (partEnd_le hi hj)).bind rfl fun value stop _ => Steps.last rfl
  rw [if_neg hreference, if_neg hreference]
  by_cases hliteral : b &&& 0xe0 = 0x20
  · rw [if_pos hliteral, if_pos hliteral, if_neg (List.cons_ne_nil _ _)]
    refine (steps_qpackString hlen hi).bind rfl fun name j hj => ?_
    exact (steps_qpackValue hlen (partEnd_le hi hj)).bind rfl fun value stop _ => Steps.last rfl
  · have hlt := (List.getElem?_eq_some_iff.mp h).1
    rw [if_neg hliteral, if_neg hliteral, if_pos rfl, add_of_lt (by omega), ok_bind]
    exact Steps.last rfl

end Safety

theorem nextField_iff {payload : Bytes} {i j : Nat} {b : UInt8} (hb : payload[i]? = some b) :
    NextField payload i j ↔
      (if fieldParts b = [] then some (i + 1) else partsEnd payload i (fieldParts b)) = some j := by
  constructor
  · rintro ⟨b', hb', h⟩
    obtain rfl := Option.some.inj (hb.symm.trans hb')
    split at h
    · rw [if_pos ‹_›, h]
    · rw [if_neg ‹_›, h]
  · intro h
    refine ⟨b, hb, ?_⟩
    split at h
    · rw [if_pos ‹_›, Option.some.inj h]
    · rw [if_neg ‹_›, h]

/-- **The loop** faults exactly if an integer of a field does not fit. -/
theorem defined_parseHeadersGo {payload : Bytes} (hlen : payload.length ≤ 1024 * 1024) {n i : Nat}
    (hn : payload.length - i < n) (headers : List (Str × Str)) :
    Defined (parseHeadersGo payload i headers) ↔
      ∀ j, Relation.ReflTransGen (NextField payload) i j → FieldFits payload j := by
  induction n generalizing i headers with
  | zero => exact absurd hn (Nat.not_lt_zero _)
  | succ n ih =>
    rw [parseHeadersGo]
    by_cases hi : i < payload.length
    · have hb := List.getElem?_eq_getElem hi
      have hstep := steps_qpackField hlen hi.le hb
      rw [if_pos hi]
      constructor
      · intro h
        -- a panic in this field would be one of the whole loop
        have hfits : FieldFits payload i := by
          intro b hb'
          obtain rfl := Option.some.inj (hb.symm.trans hb')
          refine hstep.fits_of_defined ?_
          split at h
          · exact absurd h not_defined_error
          · exact ⟨_, ‹_›⟩
          · exact ⟨_, ‹_›⟩
        obtain ⟨r, hr, hstop⟩ := hstep.eq_of_fits (hfits _ hb)
        intro j hj
        -- the fields that are reached are this one and those that are reached from its end
        rcases hj.cases_head with rfl | ⟨k, hk, hkj⟩
        · exact hfits
        obtain ⟨⟨header, k'⟩, rfl, hk'⟩ := Option.map_eq_some_iff.mp (hstop.trans ((nextField_iff hb).mp hk))
        obtain rfl : k' = k := hk'
        rw [hr] at h
        -- a field has bytes, so the fuel is enough for the rest
        have hlt := lt_of_qpackField hr
        exact (ih (by omega) _).mp h j hkj
      · intro h
        obtain ⟨r, hr, hstop⟩ := hstep.eq_of_fits (h i .refl _ hb)
        rw [hr]
        match r with
        | none => exact defined_ok
        | some (header, k) =>
          have hlt := lt_of_qpackField hr
          have hk : NextField payload i k := (nextField_iff hb).mpr hstop.symm
          exact (ih (by omega) _).mpr fun j hj => h j (.head hk hj)
    · rw [if_neg hi]
      refine iff_of_true defined_ok fun j hj => ?_
      -- at the end of the payload no field begins
      rcases hj.cases_head with rfl | ⟨k, ⟨b, hb, -⟩, -⟩
      · intro b hb
        exact absurd (List.getElem?_eq_some_iff.mp hb).1 hi
      · exact absurd (List.getElem?_eq_some_iff.mp hb).1 hi

/-- **A header block** is parsed without overflow, without a shift that is too wide and within its bytes,
    exactly if the integers of the fields fit: a full prefix has no more than ten bytes behind it, their
    sum fits into 64 bits, and so does the end of the string they are the length of. -/
theorem parseHeaders_defined_iff {payload : Bytes} (hlen : payload.length ≤ 1024 * 1024) :
    Defined (parseHeadersFromQpack payload) ↔
      ∀ i, Relation.ReflTransGen (NextField payload) 2 i → FieldFits payload i := by
  rw [← defined_parseHeadersGo hlen (Nat.lt_succ_self _) [], parseHeadersFromQpack]
  by_cases hshort : payload.length < 2
  · rw [if_pos hshort, parseHeadersGo, if_neg (by omega)]
    exact iff_of_true defined_ok defined_ok
  · rw [if_neg hshort, defined_bind]
    exact ⟨fun ⟨hs, hgo, _⟩ => ⟨hs, hgo⟩, fun ⟨hs, hgo⟩ => ⟨hs, hgo, defined_ok⟩⟩

/-- An index of two bytes, a reference of two bytes with its value, literal names with a value in plain and in
    Huffman's code, a byte that starts no field, and a name whose length takes three bytes behind the prefix. -/
def mixedBlock : Bytes :=
  [0x00, 0x00, 0xff, 0x05, 0x5f, 0x09, 0x03] ++ utf8 "233".toList
    ++ [0x27, 0x05] ++ utf8 "hysteria-udp".toList ++ [0x04] ++ utf8 "true".toList
    ++ [0x24] ++ utf8 "name".toList ++ [0x83, 0xf1, 0xe3, 0xc2]
    ++ [0x10] ++ [0x27, 0x80, 0x80, 0x00] ++ utf8 "abcdefg".toList ++ [0x00]

theorem parseHeaders_defined_mixed :
    parseHeadersFromQpack mixedBlock = .ok (.ok [(":status".toList, "233".toList),
        ("hysteria-udp".toList, "true".toList), ("name".toList, "www".toList), ("abcdefg".toList, [])]) ∧
      ∀ i, Relation.ReflTransGen (NextField mixedBlock) 2 i → FieldFits mixedBlock i := by
  have hparsed : parseHeadersFromQpack mixedBlock = .ok (.ok [(":status".toList, "233".toList),
      ("hysteria-udp".toList, "true".toList), ("name".toList, "www".toList), ("abcdefg".toList, [])]) := by
    decide +kernel
  exact ⟨hparsed, (parseHeaders_defined_iff (by decide)).mp ⟨_, hparsed⟩⟩

/-- An index with eleven bytes behind its prefix. -/
theorem parseHeaders_not_defined : ¬ ∀ payload : Bytes, payload.length ≤ 1024 * 1024 →
    Defined (parseHeadersFromQpack payload) := by
  intro h
  have hfault : parseHeadersFromQpack
      [0x00, 0x00, 0xff, 0x80, 0x80, 0x80, 0x80, 0x80, 0x80, 0x80, 0x80, 0x80, 0x80, 0x00]
      = .error .shift := by
    decide +kernel
  exact not_defined_error (hfault ▸ h _ (by decide))

end Reflex.Hy2
