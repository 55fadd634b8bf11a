import Reflex.RustStd.Str

namespace RustStd

/-!
# Rust standard library — integers as text and as bytes

* `parseUint max` is `FromStr` of the unsigned integer type whose largest value is `max`
  (decimal, an optional leading `+`, leading zeros allowed); `parseU8`, `parseU16` and
  `parseU32` are its instances.  `parseUint_display` is the round trip with `Display`.
* `displayPad w` is `Display` with leading zeros; `displayPad_lt` says that texts of one width are in
  the order of their numbers.
* `leBytes` / `leVal` and `beBytes` / `beVal` are `to_le_bytes`, `from_le_bytes` and their
  big-endian twins at any width; `leVal_leBytes` says that writing `w` bytes keeps the value
  modulo `256 ^ w`.
-/

/-! ### Decimal text -/

/-- Add one decimal digit to an accumulator, with the overflow check of the integer type. -/
def pushDigit (max acc : Nat) (c : Char) : Option Nat :=
  if c.isDigit then
    let v := 10 * acc + (c.toNat - '0'.toNat)
    if v ≤ max then some v else none
  else none

/-- `FromStr` of an unsigned integer type with largest value `max`. -/
def parseUint (max : Nat) (s : Str) : Option Nat :=
  let digits := match s with
    | '+' :: rest => rest
    | _ => s
  if digits = [] then none else digits.foldlM (pushDigit max) 0

/-- `str::parse::<u8>`. -/
def parseU8 (s : Str) : Option UInt8 := (parseUint 255 s).map UInt8.ofNat

/-- `str::parse::<u16>`. -/
def parseU16 (s : Str) : Option UInt16 := (parseUint 65535 s).map UInt16.ofNat

/-- `str::parse::<u32>`. -/
def parseU32 (s : Str) : Option UInt32 := (parseUint 4294967295 s).map UInt32.ofNat

/-- `Display` of an unsigned integer. -/
def display (n : Nat) : Str := Nat.toDigits 10 n

/-- Reading digits only ever grows the accumulator. -/
private theorem le_ofDigitChars (cs : Str) (acc : Nat) : acc ≤ Nat.ofDigitChars 10 cs acc := by
  rw [Nat.ofDigitChars_eq_ofDigitChars_zero]
  have : acc ≤ 10 ^ cs.length * acc := Nat.le_mul_of_pos_left _ (Nat.pow_pos (by decide))
  omega

/-- Digits that stay in range are read as their value. -/
theorem foldlM_pushDigit (max : Nat) (cs : Str) (acc : Nat) (hdig : ∀ c ∈ cs, c.isDigit)
    (hle : Nat.ofDigitChars 10 cs acc ≤ max) :
    cs.foldlM (pushDigit max) acc = some (Nat.ofDigitChars 10 cs acc) := by
  induction cs generalizing acc with
  | nil => rfl
  | cons c cs ih =>
    rw [Nat.ofDigitChars_cons] at hle ⊢
    have hc : c.isDigit = true := hdig c (by simp)
    -- the accumulator never exceeds the final value, so no digit overflows
    have hv : 10 * acc + (c.toNat - '0'.toNat) ≤ max := (le_ofDigitChars cs _).trans hle
    have hpush : pushDigit max acc c = some (10 * acc + (c.toNat - '0'.toNat)) := by
      simp only [pushDigit, hc, if_true, if_pos hv]
    rw [List.foldlM_cons, hpush]
    exact ih _ (fun d hd => hdig d (by simp [hd])) hle

/-- The number a text stands for, of any size. -/
def decimalValue (s : Str) : Option Nat :=
  let digits := match s with
    | '+' :: rest => rest
    | _ => s
  if digits ≠ [] ∧ digits.all Char.isDigit then some (Nat.ofDigitChars 10 digits 0) else none

private theorem foldlM_pushDigit_isSome {max : Nat} {cs : Str} {acc n : Nat}
    (h : cs.foldlM (pushDigit max) acc = some n) (hacc : acc ≤ max) :
    (∀ c ∈ cs, c.isDigit) ∧ Nat.ofDigitChars 10 cs acc ≤ max := by
  induction cs generalizing acc with
  | nil => exact ⟨fun c hc => absurd hc List.not_mem_nil, by simpa using hacc⟩
  | cons c cs ih =>
    rw [List.foldlM_cons] at h
    obtain ⟨v, hv, hrest⟩ := Option.bind_eq_some_iff.mp h
    rw [pushDigit, Option.ite_none_right_eq_some, Option.ite_none_right_eq_some] at hv
    obtain ⟨hc, hle, hv⟩ := hv
    obtain rfl := Option.some.inj hv
    obtain ⟨hdig, hmax⟩ := ih hrest hle
    refine ⟨List.forall_mem_cons.mpr ⟨hc, hdig⟩, ?_⟩
    rw [Nat.ofDigitChars_cons]
    exact hmax

/-- An integer type reads the numbers that fit. -/
theorem parseUint_eq (max : Nat) (s : Str) :
    parseUint max s = (decimalValue s).filter (· ≤ max) := by
  unfold parseUint decimalValue
  generalize hdigits : (match s with
    | '+' :: rest => rest
    | _ => s) = digits
  by_cases hnil : digits = []
  · simp [hnil]
  · simp only [hnil, if_false, ne_eq, not_false_eq_true, true_and]
    by_cases hdig : digits.all Char.isDigit
    · rw [if_pos hdig, Option.filter_some]
      by_cases hle : Nat.ofDigitChars 10 digits 0 ≤ max
      · rw [foldlM_pushDigit max digits 0 (List.all_eq_true.mp hdig) hle, decide_eq_true hle]
        rfl
      · rw [decide_eq_false hle]
        cases hfold : digits.foldlM (pushDigit max) 0 with
        | none => rfl
        | some n => exact absurd (foldlM_pushDigit_isSome hfold (Nat.zero_le _)).2 hle
    · rw [if_neg hdig]
      cases hfold : digits.foldlM (pushDigit max) 0 with
      | none => rfl
      | some n =>
        have hall := (foldlM_pushDigit_isSome hfold (Nat.zero_le _)).1
        exact absurd (List.all_eq_true.mpr hall) hdig

theorem isDigit_of_mem_display {n : Nat} {c : Char} (h : c ∈ display n) : c.isDigit :=
  Nat.isDigit_of_mem_toDigits (by decide) (by decide) h

theorem isWhitespace_of_isDigit {c : Char} (h : c.isDigit = true) : isWhitespace c = false := by
  simp only [Char.isDigit, Bool.and_eq_true, decide_eq_true_eq, ge_iff_le,
    UInt32.le_iff_toNat_le] at h
  -- `isDigit` compares the code points of `'0'` and `'9'`.
  change 48 ≤ c.toNat ∧ c.toNat ≤ 57 at h
  simp only [isWhitespace, Bool.or_eq_false_iff, Bool.and_eq_false_iff, decide_eq_false_iff_not,
    beq_eq_false_iff_ne]
  omega

/-- A printed number has no white space in it. -/
theorem isWhitespace_of_mem_display {n : Nat} {c : Char} (h : c ∈ display n) :
    isWhitespace c = false := isWhitespace_of_isDigit (isDigit_of_mem_display h)

/-- **Round trip.** What `Display` prints, `FromStr` reads back. -/
theorem parseUint_display (max n : Nat) (h : n ≤ max) : parseUint max (display n) = some n := by
  have hdig : ∀ c ∈ display n, c.isDigit := fun c hc => isDigit_of_mem_display hc
  have hne : display n ≠ [] := Nat.toDigits_ne_nil
  have hval : Nat.ofDigitChars 10 (display n) 0 = n := Nat.ofDigitChars_ten_toDigits
  -- a decimal text does not start with a plus
  have hplus : (match display n with | '+' :: rest => rest | _ => display n) = display n := by
    split
    · rename_i rest heq
      exact absurd (hdig '+' (by rw [heq]; simp)) (by decide)
    · rfl
  simp only [parseUint, hplus, if_neg hne]
  rw [foldlM_pushDigit max _ 0 hdig (by rw [hval]; exact h), hval]

theorem parseU16_display (p : UInt16) : parseU16 (display p.toNat) = some p := by
  have hle : p.toNat ≤ 65535 := by have := p.toNat_lt; omega
  simp [parseU16, parseUint_display 65535 p.toNat hle]

theorem parseU32_display (n : UInt32) : parseU32 (display n.toNat) = some n := by
  have hle : n.toNat ≤ 4294967295 := by have := n.toNat_lt; omega
  simp [parseU32, parseUint_display 4294967295 n.toNat hle]

/-! ### Decimal text of a width -/

/-- `{n:0w}`. -/
def displayPad (w n : Nat) : Str := List.replicate (w - (display n).length) '0' ++ display n

theorem displayPad_one {n : Nat} (h : n < 10) : displayPad 1 n = [n.digitChar] := by
  rw [displayPad, display, Nat.toDigits_of_lt_base h]
  rfl

theorem displayPad_succ {w : Nat} (hw : 0 < w) (n : Nat) :
    displayPad (w + 1) n = displayPad w (n / 10) ++ [(n % 10).digitChar] := by
  unfold displayPad display
  by_cases hn : n < 10
  · obtain ⟨k, rfl⟩ := Nat.exists_eq_add_of_lt hw
    rw [Nat.div_eq_of_lt hn, Nat.mod_eq_of_lt hn, Nat.toDigits_of_lt_base hn, Nat.toDigits_zero]
    simp only [List.length_singleton, Nat.zero_add, Nat.add_sub_cancel]
    rw [List.replicate_succ']
  · rw [Nat.toDigits_of_base_le (by decide) (not_lt.mp hn), List.length_append, List.length_singleton,
      Nat.add_sub_add_right, List.append_assoc]

theorem length_displayPad {w n : Nat} (h : n < 10 ^ (w + 1)) : (displayPad (w + 1) n).length = w + 1 := by
  have hlen : (display n).length ≤ w + 1 := (Nat.length_toDigits_le_iff (by decide) (Nat.succ_pos w)).mpr h
  rw [displayPad, List.length_append, List.length_replicate]
  omega

/-- Texts of one length differ in order where they first differ. -/
theorem append_lt_append {xs ys : Str} (hlen : xs.length = ys.length) (h : xs < ys) (s t : Str) :
    xs ++ s < ys ++ t := by
  induction xs generalizing ys with
  | nil =>
    rw [List.eq_nil_of_length_eq_zero hlen.symm] at h
    exact absurd h (List.not_lt_nil [])
  | cons x xs ih =>
    obtain ⟨y, ys, rfl⟩ := List.exists_cons_of_length_eq_add_one hlen.symm
    rw [List.cons_append, List.cons_append, List.cons_lt_cons_iff]
    rcases List.cons_lt_cons_iff.mp h with hlt | ⟨rfl, hlt⟩
    · exact .inl hlt
    · exact .inr ⟨rfl, ih (Nat.succ.inj hlen) hlt⟩

theorem digitChar_lt {a b : Nat} (hb : b < 10) (h : a < b) : a.digitChar < b.digitChar := by
  have hall : ∀ b < 10, ∀ a < b, a.digitChar < b.digitChar := by decide
  exact hall b hb a h

/-- **Numbers of a width** are in the order of their texts. -/
theorem displayPad_lt {w a b : Nat} (hb : b < 10 ^ (w + 1)) (h : a < b) :
    displayPad (w + 1) a < displayPad (w + 1) b := by
  induction w generalizing a b with
  | zero =>
    rw [displayPad_one (h.trans hb), displayPad_one hb, List.cons_lt_cons_iff]
    exact .inl (digitChar_lt hb h)
  | succ w ih =>
    rw [displayPad_succ (Nat.succ_pos w), displayPad_succ (Nat.succ_pos w)]
    have hb' : b / 10 < 10 ^ (w + 1) := Nat.div_lt_of_lt_mul (by rwa [← Nat.pow_succ'])
    rcases Nat.lt_or_ge (a / 10) (b / 10) with hlt | hge
    · refine append_lt_append ?_ (ih hb' hlt) _ _
      rw [length_displayPad (hlt.trans hb'), length_displayPad hb']
    · have heq : a / 10 = b / 10 := le_antisymm (Nat.div_le_div_right h.le) hge
      rw [heq]
      refine List.append_left_lt (List.cons_lt_cons_iff.mpr (.inl ?_))
      exact digitChar_lt (Nat.mod_lt _ (by decide)) (by omega)

/-- The order of two fields that are followed by more. -/
theorem displayPad_append_lt {w a b : Nat} {s t : Str} (ha : a < 10 ^ (w + 1)) (hb : b < 10 ^ (w + 1))
    (h : a < b ∨ a = b ∧ s < t) : displayPad (w + 1) a ++ s < displayPad (w + 1) b ++ t := by
  rcases h with hlt | ⟨rfl, hlt⟩
  · refine append_lt_append ?_ (displayPad_lt hb hlt) s t
    rw [length_displayPad ha, length_displayPad hb]
  · exact List.append_left_lt hlt

/-! ### Fixed-width bytes -/

/-- The `w` little-endian bytes of `n` (higher bytes are dropped). -/
def leBytes : Nat → Nat → Bytes
  | 0, _ => []
  | w + 1, n => UInt8.ofNat n :: leBytes w (n / 256)

/-- The value of little-endian bytes. -/
def leVal : Bytes → Nat
  | [] => 0
  | b :: bs => b.toNat + 256 * leVal bs

/-- The `w` big-endian bytes of `n`. -/
def beBytes (w n : Nat) : Bytes := (leBytes w n).reverse

/-- The value of big-endian bytes. -/
def beVal (bs : Bytes) : Nat := leVal bs.reverse

@[simp] theorem length_leBytes (w n : Nat) : (leBytes w n).length = w := by
  induction w generalizing n with
  | zero => rfl
  | succ w ih => simp [leBytes, ih]

@[simp] theorem length_beBytes (w n : Nat) : (beBytes w n).length = w := by
  simp [beBytes]

/-- **Round trip.** `w` bytes keep the value modulo `256 ^ w`. -/
theorem leVal_leBytes (w n : Nat) : leVal (leBytes w n) = n % 256 ^ w := by
  induction w generalizing n with
  | zero => simp [leBytes, leVal, Nat.mod_one]
  | succ w ih =>
    have hb : (UInt8.ofNat n).toNat = n % 256 := by simp
    rw [leBytes, leVal, hb, ih, Nat.pow_succ, Nat.mul_comm (256 ^ w) 256, Nat.mod_mul]

theorem leVal_leBytes_of_lt {w n : Nat} (h : n < 256 ^ w) : leVal (leBytes w n) = n := by
  rw [leVal_leBytes, Nat.mod_eq_of_lt h]

theorem beVal_beBytes_of_lt {w n : Nat} (h : n < 256 ^ w) : beVal (beBytes w n) = n := by
  rw [beVal, beBytes, List.reverse_reverse, leVal_leBytes_of_lt h]

/-- **Round trip**, the other way: the bytes of the value of some bytes are these bytes. -/
theorem leBytes_leVal (bs : Bytes) : leBytes bs.length (leVal bs) = bs := by
  induction bs with
  | nil => rfl
  | cons b bs ih =>
    have hb := b.toNat_lt
    have hlow : UInt8.ofNat (b.toNat + 256 * leVal bs) = b := by
      rw [← UInt8.toNat_inj, UInt8.toNat_ofNat']
      omega
    have hhigh : (b.toNat + 256 * leVal bs) / 256 = leVal bs := by omega
    rw [List.length_cons, leVal, leBytes, hlow, hhigh, ih]

theorem beBytes_beVal (bs : Bytes) : beBytes bs.length (beVal bs) = bs := by
  have h := leBytes_leVal bs.reverse
  rw [List.length_reverse] at h
  rw [beBytes, beVal, h, List.reverse_reverse]

theorem leVal_lt (bs : Bytes) : leVal bs < 256 ^ bs.length := by
  induction bs with
  | nil => simp [leVal]
  | cons b bs ih =>
    have hb := b.toNat_lt
    rw [leVal, List.length_cons, Nat.pow_succ]
    omega

theorem beVal_lt (bs : Bytes) : beVal bs < 256 ^ bs.length := by
  have h := leVal_lt bs.reverse
  rwa [List.length_reverse] at h

theorem leVal_append (bs bs' : Bytes) : leVal (bs ++ bs') = leVal bs + 256 ^ bs.length * leVal bs' := by
  induction bs with
  | nil => simp [leVal]
  | cons b bs ih =>
    rw [List.cons_append, leVal, leVal, ih, List.length_cons, Nat.pow_succ, Nat.mul_add,
      Nat.mul_comm (256 ^ _) 256, Nat.mul_assoc, Nat.add_assoc]

/-- The first byte is the highest one. -/
theorem beVal_cons (b : UInt8) (bs : Bytes) : beVal (b :: bs) = b.toNat * 256 ^ bs.length + beVal bs := by
  rw [beVal, beVal, List.reverse_cons, leVal_append, List.length_reverse, leVal, leVal, Nat.mul_zero,
    Nat.add_zero, Nat.add_comm, Nat.mul_comm]

end RustStd
