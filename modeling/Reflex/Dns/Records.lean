import Mathlib.Data.List.MinMax
import Reflex.Dns.Wire
import Reflex.RustStd.Net
import Reflex.RustStd.Slice

namespace Reflex.Dns

open RustStd

/-!
# DNS — the records of a message

`extract_first_ip` of `dns/mod.rs`, and messages written record by record to compare it and
`extract_min_ttl` with.  Both walk the answers with the same loop, which knows a compression pointer
only where a name begins with it.  Of a name of labels and then a pointer it takes the pointer for a
label of at least 192 bytes.

* `EncodedName`, `Rr`, `Message` — well-formed messages and their bytes;
* `skipName_bytes`, `skipOwner_bytes`, `skipOwner_mixed` — what the walkers make of a name;
* `readAsWritten_iff` — when the answers of a message are read as they were written.
-/

/-! ### `extract_first_ip` -/

/-- The address in a record, if it is one that is asked for. -/
def addressIn (qtype rrType : Nat) (rdata : Bytes) : Option IpAddr :=
  if rrType = qtype then
    if qtype = 1 ∧ rdata.length = 4 then some (.v4 (.ofOctets rdata))
    else if qtype = 28 ∧ rdata.length = 16 then some (.v6 (.ofOctets rdata))
    else none
  else none

/-- The loop of `extract_first_ip` over the answers. -/
def scanFirstIp (qtype : Nat) : Nat → Bytes → Option IpAddr
  | 0, _ => none
  | _ + 1, [] => none
  | n + 1, b :: bs =>
      match skipOwner (b :: bs) with
      | none => none
      | some rest =>
          if rest.length < 10 then none
          else
            let rdlength := beAt rest 8 2
            let rdata := rest.drop 10
            if rdata.length < rdlength then none
            else
              match addressIn qtype (beAt rest 0 2) (rdata.take rdlength) with
              | some ip => some ip
              | none => scanFirstIp qtype n (rdata.drop rdlength)

/-- `extract_first_ip`. -/
def extractFirstIp (resp : Bytes) (qtype : UInt16) : Option IpAddr :=
  if resp.length < 12 then none
  else if beAt resp 6 2 = 0 then none
  else do
    let rest ← afterQname (resp.drop 12)
    scanFirstIp qtype.toNat (beAt resp 6 2) (rest.drop 4)

/-- The lifetimes of the answers, as a walk with `skip_name` and `skip_rr` finds them. -/
def walkTtls : Nat → Bytes → Option (List Nat)
  | 0, _ => some []
  | n + 1, bs => do
      let rest ← skipName bs
      if rest.length < 10 then none
      else return beAt rest 4 4 :: (← walkTtls n (← skipRr bs))

/-- The smallest lifetime in the answer section, found that way. -/
def walkMinTtl (resp : Bytes) : Option Nat := do
  let rest ← afterQname (resp.drop 12)
  let ttls ← walkTtls (beAt resp 6 2) (rest.drop 4)
  ttls.min?

/-! ### Well-formed messages -/

/-- A name as it is encoded: labels, and the root label or a compression pointer. -/
structure EncodedName where
  labels : List Bytes
  pointer : Option (UInt8 × UInt8) := none
  label_length : ∀ l ∈ labels, 0 < l.length ∧ l.length ≤ 63 := by decide
  pointer_high : ∀ p, pointer = some p → p.1 &&& 0xC0 = 0xC0 := by rintro p ⟨⟩ <;> decide

namespace EncodedName

/-- The root. -/
def root : EncodedName := { labels := [] }

/-- A name of one label of one letter, as examples use it. -/
def letter (c : UInt8) : EncodedName := { labels := [[c]], label_length := by simp }

/-- A pointer to the name of the question. -/
def question : EncodedName := { labels := [], pointer := some (0xC0, 0x0C) }

/-- The root label, or the two bytes of the pointer. -/
def ending (n : EncodedName) : Bytes :=
  match n.pointer with
  | none => [0]
  | some (hi, lo) => [hi, lo]

/-- A name on the wire. -/
def bytes (n : EncodedName) : Bytes :=
  (n.labels.flatMap fun l => UInt8.ofNat l.length :: l) ++ n.ending

/-- The name does not go from labels to a pointer. -/
def Unmixed (n : EncodedName) : Prop := n.labels = [] ∨ n.pointer = none

instance (n : EncodedName) : Decidable n.Unmixed :=
  decidable_of_iff (n.labels.isEmpty = true ∨ n.pointer.isNone = true)
    (or_congr List.isEmpty_iff Option.isNone_iff_eq_none)

end EncodedName

/-- A resource record. -/
structure Rr where
  owner : EncodedName
  rtype : UInt16
  rclass : UInt16 := 1
  ttl : UInt32
  rdata : Bytes
  rdata_length : rdata.length < 2 ^ 16 := by decide

namespace Rr

/-- What follows the owner name of a record: type, class, lifetime, and its data with their length. -/
def fields (r : Rr) : Bytes :=
  beBytes 2 r.rtype.toNat ++ (beBytes 2 r.rclass.toNat ++ (beBytes 4 r.ttl.toNat
    ++ (beBytes 2 r.rdata.length ++ r.rdata)))

/-- A record on the wire. -/
def bytes (r : Rr) : Bytes := r.owner.bytes ++ r.fields

/-- The address in the record, if it is of the type and of the right length. -/
def address (r : Rr) (qtype : UInt16) : Option IpAddr :=
  addressIn qtype.toNat r.rtype.toNat r.rdata

end Rr

/-- A message with one question. -/
structure Message where
  id : UInt16
  flags : UInt16
  qname : EncodedName
  qtype : UInt16
  qclass : UInt16 := 1
  answers : List Rr := []
  authority : List Rr := []
  additional : List Rr := []
  answers_length : answers.length < 2 ^ 16 := by decide
  authority_length : authority.length < 2 ^ 16 := by decide
  additional_length : additional.length < 2 ^ 16 := by decide

namespace Message

theorem length_nil_lt : ([] : List Rr).length < 2 ^ 16 := by decide

/-- The header and its four counts. -/
def header (m : Message) : Bytes :=
  beBytes 2 m.id.toNat ++ (beBytes 2 m.flags.toNat ++ ([0x00, 0x01]
    ++ (beBytes 2 m.answers.length ++ (beBytes 2 m.authority.length
      ++ beBytes 2 m.additional.length))))

/-- What follows the name of the question. -/
def asked (m : Message) : Bytes := beBytes 2 m.qtype.toNat ++ beBytes 2 m.qclass.toNat

/-- The authority and additional sections, which are behind the answers. -/
def tail (m : Message) : Bytes := (m.authority ++ m.additional).flatMap Rr.bytes

/-- A message on the wire. -/
def bytes (m : Message) : Bytes :=
  m.header ++ (m.qname.bytes ++ (m.asked ++ (m.answers.flatMap Rr.bytes ++ m.tail)))

end Message

/-! ### The walkers over a name -/

/-- The length byte of a label is not zero, is no pointer, and says the length. -/
theorem label_byte {l : Bytes} (h : 0 < l.length ∧ l.length ≤ 63) :
    UInt8.ofNat l.length ≠ 0 ∧ UInt8.ofNat l.length &&& 0xC0 ≠ 0xC0 ∧
      (UInt8.ofNat l.length).toNat = l.length := by
  have hall : ∀ n : Fin 64, 0 < n.val → UInt8.ofNat n.val ≠ 0 ∧
      UInt8.ofNat n.val &&& 0xC0 ≠ 0xC0 ∧ (UInt8.ofNat n.val).toNat = n.val := by decide
  exact hall ⟨l.length, by omega⟩ h.1

theorem skipName_label {l : Bytes} (h : 0 < l.length ∧ l.length ≤ 63) (t : Bytes) :
    skipName (UInt8.ofNat l.length :: (l ++ t)) = skipName t := by
  obtain ⟨hzero, hptr, hlen⟩ := label_byte h
  rw [skipName, afterQname, if_neg hzero, if_neg hptr, hlen, List.drop_left, skipName]

theorem skipLabels_label {l : Bytes} (h : 0 < l.length ∧ l.length ≤ 63) (t : Bytes) :
    skipLabels (UInt8.ofNat l.length :: (l ++ t)) = skipLabels t := by
  obtain ⟨hzero, -, hlen⟩ := label_byte h
  rw [skipLabels, if_neg hzero, hlen, List.drop_left]

theorem skipName_labels {ls : List Bytes} (h : ∀ l ∈ ls, 0 < l.length ∧ l.length ≤ 63) (t : Bytes) :
    skipName ((ls.flatMap fun l => UInt8.ofNat l.length :: l) ++ t) = skipName t := by
  induction ls with
  | nil => rfl
  | cons l ls ih =>
      obtain ⟨hl, hls⟩ := List.forall_mem_cons.mp h
      rw [List.flatMap_cons, List.append_assoc, List.cons_append, skipName_label hl, ih hls]

theorem skipLabels_labels {ls : List Bytes} (h : ∀ l ∈ ls, 0 < l.length ∧ l.length ≤ 63)
    (t : Bytes) :
    skipLabels ((ls.flatMap fun l => UInt8.ofNat l.length :: l) ++ t) = skipLabels t := by
  induction ls with
  | nil => rfl
  | cons l ls ih =>
      obtain ⟨hl, hls⟩ := List.forall_mem_cons.mp h
      rw [List.flatMap_cons, List.append_assoc, List.cons_append, skipLabels_label hl, ih hls]

namespace EncodedName

variable (n : EncodedName)

/-- **`skip_name`** steps over every name, compressed or not, to what stands behind it. -/
theorem skipName_bytes (t : Bytes) : skipName (n.bytes ++ t) = some t := by
  rw [bytes, List.append_assoc, skipName_labels n.label_length, ending]
  rcases hptr : n.pointer with _ | ⟨hi, lo⟩
  · show afterQname (0 :: t) = some t
    rw [afterQname, if_pos rfl]
  · have hhigh : hi &&& 0xC0 = 0xC0 := n.pointer_high _ hptr
    have hzero : hi ≠ 0 := by
      rintro rfl
      exact absurd hhigh (by decide)
    show afterQname (hi :: lo :: t) = some t
    rw [afterQname, if_neg hzero, if_pos hhigh, List.drop_one, List.tail_cons]

/-- A name that begins with a label is walked label by label. -/
private theorem skipOwner_of_labels (hlabels : n.labels ≠ []) (t : Bytes) :
    skipOwner (n.bytes ++ t) = skipLabels (n.ending ++ t) := by
  obtain ⟨l, ls, hcons⟩ := List.exists_cons_of_ne_nil hlabels
  have hlength := n.label_length
  have hl := hlength l (by rw [hcons]; exact List.mem_cons_self ..)
  rw [bytes, List.append_assoc, ← skipLabels_labels hlength, hcons, List.flatMap_cons,
    List.append_assoc, List.cons_append, skipOwner, if_neg (label_byte hl).2.1]

/-- **The loop over the answers** steps over a name of labels and over a pointer. -/
theorem skipOwner_bytes (h : n.Unmixed) (t : Bytes) : skipOwner (n.bytes ++ t) = some t := by
  rcases hptr : n.pointer with _ | ⟨hi, lo⟩
  · have hend : skipLabels (n.ending ++ t) = some t := by
      rw [ending, hptr]
      show skipLabels (0 :: t) = some t
      rw [skipLabels, if_pos rfl]
    by_cases hlabels : n.labels = []
    · rw [bytes, hlabels, ending, hptr]
      show skipOwner (0 :: t) = some t
      rw [skipOwner, if_neg (by decide), skipLabels, if_pos rfl]
    · rw [n.skipOwner_of_labels hlabels, hend]
  · have hlabels : n.labels = [] := h.resolve_right (by rw [hptr]; exact Option.some_ne_none _)
    have hhigh : hi &&& 0xC0 = 0xC0 := n.pointer_high _ hptr
    rw [bytes, hlabels, ending, hptr]
    show skipOwner (hi :: lo :: t) = some t
    rw [skipOwner, if_pos hhigh, List.drop_one, List.tail_cons]

/-- Of labels and a pointer the loop does not find the end: where fewer than 192 bytes follow it finds
    none at all. -/
theorem skipOwner_mixed (h : ¬ n.Unmixed) {t : Bytes} (hshort : t.length < 192) :
    skipOwner (n.bytes ++ t) = none := by
  obtain ⟨hlabels, hpointer⟩ := not_or.mp h
  obtain ⟨⟨hi, lo⟩, hptr⟩ := Option.ne_none_iff_exists'.mp hpointer
  have hhigh : hi &&& 0xC0 = 0xC0 := n.pointer_high _ hptr
  have hlarge : 192 ≤ hi.toNat := by
    have hall : ∀ b : Fin 256, UInt8.ofNat b.val &&& 0xC0 = 0xC0 → 192 ≤ b.val := by
      decide +kernel
    have := hall ⟨hi.toNat, hi.toNat_lt⟩
    rw [UInt8.ofNat_toNat] at this
    exact this hhigh
  have hzero : hi ≠ 0 := by
    rintro rfl
    exact absurd hlarge (by decide)
  rw [n.skipOwner_of_labels hlabels, ending, hptr]
  show skipLabels (hi :: lo :: t) = none
  rw [skipLabels, if_neg hzero, List.drop_eq_nil_of_le (by rw [List.length_cons]; omega), skipLabels]

end EncodedName

/-! ### The walkers over the records -/

theorem beAt_middle {front : Bytes} {pos : Nat} (hfront : front.length = pos) {w n : Nat}
    (hn : n < 256 ^ w) (rest : Bytes) : beAt (front ++ (beBytes w n ++ rest)) pos w = n := by
  have hslice : ((front ++ (beBytes w n ++ rest)).drop pos).take w = beBytes w n :=
    slice_middle hfront (length_beBytes w n)
  rw [beAt]
  exact (congrArg beVal hslice).trans (beVal_beBytes_of_lt hn)

/-- A number that was read is written as the bytes it was read from. -/
theorem beBytes_beAt {bs : Bytes} {pos w : Nat} (h : pos + w ≤ bs.length) :
    beBytes w (beAt bs pos w) = (bs.drop pos).take w ∧ beAt bs pos w < 256 ^ w := by
  have hlen : ((bs.drop pos).take w).length = w := by
    rw [List.length_take, List.length_drop]
    omega
  have hwrite := beBytes_beVal ((bs.drop pos).take w)
  have hlt := beVal_lt ((bs.drop pos).take w)
  rw [hlen] at hwrite hlt
  exact ⟨hwrite, hlt⟩

namespace Rr

/-- Bytes with a whole record behind its owner name are the fields of one. -/
theorem exists_fields {bs : Bytes} (hlen : 10 ≤ bs.length)
    (hrd : beAt bs 8 2 ≤ (bs.drop 10).length) :
    ∃ r : Rr, bs = r.fields ++ (bs.drop 10).drop (beAt bs 8 2) ∧ r.rtype.toNat = beAt bs 0 2 ∧
      r.rdata = (bs.drop 10).take (beAt bs 8 2) := by
  obtain ⟨htype, htypeLt⟩ := @beBytes_beAt bs 0 2 (by omega)
  obtain ⟨hclass, hclassLt⟩ := @beBytes_beAt bs 2 2 (by omega)
  obtain ⟨httl, httlLt⟩ := @beBytes_beAt bs 4 4 (by omega)
  obtain ⟨hrdlen, hrdLt⟩ := @beBytes_beAt bs 8 2 (by omega)
  have hdata : ((bs.drop 10).take (beAt bs 8 2)).length = beAt bs 8 2 := List.length_take_of_le hrd
  refine ⟨{ owner := .root
            rtype := UInt16.ofNat (beAt bs 0 2)
            rclass := UInt16.ofNat (beAt bs 2 2)
            ttl := UInt32.ofNat (beAt bs 4 4)
            rdata := (bs.drop 10).take (beAt bs 8 2)
            rdata_length := by rw [hdata]; exact hrdLt }, ?_, ?_, rfl⟩
  · have hsplit (pos w : Nat) : bs.drop pos = (bs.drop pos).take w ++ bs.drop (pos + w) := by
      rw [← List.drop_drop, List.take_append_drop]
    simp only [fields, UInt16.toNat_ofNat_of_lt' htypeLt, UInt16.toNat_ofNat_of_lt' hclassLt,
      UInt32.toNat_ofNat_of_lt' httlLt, hdata, htype, hclass, httl, hrdlen, List.append_assoc,
      List.take_append_drop]
    have hfrom4 := (hsplit 4 4).trans (congrArg _ (hsplit 8 2))
    have hfrom2 := (hsplit 2 2).trans (congrArg _ hfrom4)
    exact (hsplit 0 2).trans (congrArg _ hfrom2)
  · exact UInt16.toNat_ofNat_of_lt' htypeLt

variable (r : Rr)

/-- What the fields of a record read as. -/
theorem fields_spec (t : Bytes) :
    10 + r.rdata.length ≤ (r.fields ++ t).length ∧ beAt (r.fields ++ t) 0 2 = r.rtype.toNat ∧
      beAt (r.fields ++ t) 4 4 = r.ttl.toNat ∧ beAt (r.fields ++ t) 8 2 = r.rdata.length ∧
      (r.fields ++ t).drop 10 = r.rdata ++ t := by
  simp only [fields, List.append_assoc]
  refine ⟨?_, ?_, ?_, ?_, ?_⟩
  · simp only [List.length_append, length_beBytes]
    omega
  · exact @beAt_middle [] 0 rfl 2 _ r.rtype.toNat_lt _
  · rw [← List.append_assoc (beBytes 2 r.rtype.toNat)]
    exact beAt_middle (by simp) r.ttl.toNat_lt _
  · rw [← List.append_assoc (beBytes 2 r.rtype.toNat), ← List.append_assoc (_ ++ _)]
    exact beAt_middle (by simp) r.rdata_length _
  · rw [← List.append_assoc (beBytes 2 r.rtype.toNat), ← List.append_assoc (_ ++ _),
      ← List.append_assoc (_ ++ _ ++ _)]
    exact List.drop_left' (by simp)

theorem drop_fields (t : Bytes) : (r.fields ++ t).drop (10 + r.rdata.length) = t := by
  rw [← List.drop_drop, (r.fields_spec t).2.2.2.2, List.drop_left]

/-- The fields of a record decide which address it has, if any; its owner does not matter. -/
theorem address_of_fields {r r' : Rr} {t t' : Bytes} (h : r.fields ++ t = r'.fields ++ t')
    (qtype : UInt16) : r.address qtype = r'.address qtype := by
  obtain ⟨-, htype, -, hrd, hdata⟩ := r.fields_spec t
  obtain ⟨-, htype', -, hrd', hdata'⟩ := r'.fields_spec t'
  rw [h] at htype hrd hdata
  have hlength : r.rdata.length = r'.rdata.length := hrd.symm.trans hrd'
  have hrdata : r.rdata = r'.rdata := (List.append_inj (hdata.symm.trans hdata') hlength).1
  rw [address, address, ← htype, htype', hrdata]

/-- **`skip_rr`** steps over every record to what stands behind it. -/
theorem skipRr_bytes (t : Bytes) : skipRr (r.bytes ++ t) = some t := by
  obtain ⟨hlen, -, -, hrd, -⟩ := r.fields_spec t
  rw [skipRr, bytes, List.append_assoc, r.owner.skipName_bytes]
  simp only [Option.bind_eq_bind, Option.bind_some]
  rw [if_neg (by omega), hrd, r.drop_fields]
  rfl

/-- The walk with `skip_name` over one record. -/
theorem walkTtls_bytes (n : Nat) (t : Bytes) :
    walkTtls (n + 1) (r.bytes ++ t) = (walkTtls n t).map (r.ttl.toNat :: ·) := by
  obtain ⟨hlen, -, httl, -, -⟩ := r.fields_spec t
  rw [walkTtls, r.skipRr_bytes, bytes, List.append_assoc, r.owner.skipName_bytes]
  simp only [Option.bind_eq_bind, Option.bind_some]
  rw [if_neg (by omega), httl]
  cases walkTtls n t <;> rfl

/-- A record has bytes, so a walk that stands before one is not at the end. -/
theorem bytes_ne_nil (t : Bytes) : r.bytes ++ t ≠ [] := by
  have hlen := (r.fields_spec t).1
  intro hnil
  rw [bytes, List.append_assoc] at hnil
  rw [(List.append_eq_nil_iff.mp hnil).2] at hlen
  simp at hlen

/-- The loop of `extract_min_ttl` over one record. -/
theorem scanMinTtl_bytes (h : r.owner.Unmixed) (n m : Nat) (t : Bytes) :
    scanMinTtl (n + 1) (r.bytes ++ t) m = scanMinTtl n t (min m r.ttl.toNat) := by
  obtain ⟨hlen, -, httl, hrd, -⟩ := r.fields_spec t
  obtain ⟨b, bs, hcons⟩ := List.exists_cons_of_ne_nil (r.bytes_ne_nil t)
  have howner : skipOwner (b :: bs) = some (r.fields ++ t) := by
    rw [← hcons, bytes, List.append_assoc, r.owner.skipOwner_bytes h]
  rw [hcons, scanMinTtl, howner]
  show (if (r.fields ++ t).length < 10 then _ else scanMinTtl n _ _) = _
  rw [if_neg (by omega), hrd, httl, r.drop_fields]

/-- The loop of `extract_first_ip` over one record. -/
theorem scanFirstIp_bytes (h : r.owner.Unmixed) (qtype : UInt16) (n : Nat) (t : Bytes) :
    scanFirstIp qtype.toNat (n + 1) (r.bytes ++ t)
      = (r.address qtype).or (scanFirstIp qtype.toNat n t) := by
  obtain ⟨hlen, htype, -, hrd, hdata⟩ := r.fields_spec t
  obtain ⟨b, bs, hcons⟩ := List.exists_cons_of_ne_nil (r.bytes_ne_nil t)
  have howner : skipOwner (b :: bs) = some (r.fields ++ t) := by
    rw [← hcons, bytes, List.append_assoc, r.owner.skipOwner_bytes h]
  rw [hcons, scanFirstIp, howner]
  simp only [hdata, hrd, htype]
  rw [if_neg (by omega), if_neg (by rw [List.length_append]; omega), List.take_left, List.drop_left,
    ← address]
  cases r.address qtype <;> rfl

/-- The loop of `extract_first_ip` returns an address from one record if its walk over the owner name
    ends before the fields of a record with that address. -/
theorem scanFirstIp_one (qtype : UInt16) (bs : Bytes) (ip : IpAddr) :
    scanFirstIp qtype.toNat 1 bs = some ip ↔
      ∃ (r : Rr) (t : Bytes), r.address qtype = some ip ∧ skipOwner bs = some (r.fields ++ t) := by
  rcases bs with _ | ⟨b, bs⟩
  · simp [scanFirstIp, skipOwner]
  rcases howner : skipOwner (b :: bs) with _ | rest
  · simp [scanFirstIp, howner]
  rw [scanFirstIp, howner]
  simp only [Option.some.injEq]
  constructor
  · intro h
    split at h
    · cases h
    · rename_i hlen
      split at h
      · cases h
      · rename_i hrd
        obtain ⟨r, hfields, htype, hdata⟩ := exists_fields (by omega) (Nat.le_of_not_lt hrd)
        refine ⟨r, _, ?_, hfields⟩
        rw [address, htype, hdata]
        rcases hip : addressIn qtype.toNat (beAt rest 0 2) ((rest.drop 10).take (beAt rest 8 2))
          with _ | ip'
        · rw [hip] at h
          cases h
        · rw [hip] at h
          exact h
  · rintro ⟨r, t, haddr, rfl⟩
    obtain ⟨hlen, htype, -, hrd, hdata⟩ := r.fields_spec t
    rw [if_neg (by omega), hdata, hrd, if_neg (by rw [List.length_append]; omega), htype,
      List.take_left, ← address, haddr]

/-- Where the loops lose the way behind an owner name. -/
theorem scan_mixed (h : ¬ r.owner.Unmixed) {t : Bytes} (hshort : (r.fields ++ t).length < 192)
    (n m : Nat) : scanMinTtl (n + 1) (r.bytes ++ t) m = none := by
  obtain ⟨b, bs, hcons⟩ := List.exists_cons_of_ne_nil (r.bytes_ne_nil t)
  have howner : skipOwner (b :: bs) = none := by
    rw [← hcons, bytes, List.append_assoc, r.owner.skipOwner_mixed h hshort]
  rw [hcons, scanMinTtl, howner]

end Rr

/-! ### The answers of a message -/

/-- The smallest lifetime of the records. -/
def minTtl (rs : List Rr) : Option Nat := (rs.map fun r => r.ttl.toNat).min?

theorem walkTtls_records (rs : List Rr) (t : Bytes) :
    walkTtls rs.length (rs.flatMap Rr.bytes ++ t) = some (rs.map fun r => r.ttl.toNat) := by
  induction rs with
  | nil => rfl
  | cons r rs ih =>
      rw [List.length_cons, List.flatMap_cons, List.append_assoc, r.walkTtls_bytes, ih]
      rfl

theorem scanMinTtl_records {rs : List Rr} (h : ∀ r ∈ rs, r.owner.Unmixed) (k m : Nat) (t : Bytes) :
    scanMinTtl (rs.length + k) (rs.flatMap Rr.bytes ++ t) m
      = scanMinTtl k t ((rs.map fun r => r.ttl.toNat).foldl min m) := by
  induction rs generalizing m with
  | nil => rw [List.length_nil, Nat.zero_add, List.flatMap_nil, List.nil_append]; rfl
  | cons r rs ih =>
      obtain ⟨hr, hrs⟩ := List.forall_mem_cons.mp h
      rw [List.length_cons, Nat.add_right_comm, List.flatMap_cons, List.append_assoc,
        r.scanMinTtl_bytes hr, ih hrs]
      rfl

theorem scanFirstIp_records {rs : List Rr} (h : ∀ r ∈ rs, r.owner.Unmixed) (qtype : UInt16)
    (t : Bytes) :
    scanFirstIp qtype.toNat rs.length (rs.flatMap Rr.bytes ++ t) = rs.findSome? (·.address qtype) := by
  induction rs with
  | nil => rfl
  | cons r rs ih =>
      obtain ⟨hr, hrs⟩ := List.forall_mem_cons.mp h
      rw [List.length_cons, List.flatMap_cons, List.append_assoc, r.scanFirstIp_bytes hr, ih hrs,
        List.findSome?_cons]
      cases r.address qtype <;> rfl

/-- The fold of the code over the lifetimes of some records gives the smallest of them. -/
theorem foldl_min_ttls {r : Rr} {rs : List Rr} :
    some (((r :: rs).map fun r => r.ttl.toNat).foldl min (2 ^ 32 - 1)) = minTtl (r :: rs) := by
  have hle : min (2 ^ 32 - 1) r.ttl.toNat = r.ttl.toNat := by
    have := r.ttl.toNat_lt
    omega
  rw [minTtl, List.map_cons, List.foldl_cons, hle, List.min?_cons']

/-- Behind a first owner name of labels and a pointer, with little behind it, no lifetime is found. -/
theorem scanMinTtl_mixed {before after : List Rr} {r : Rr} {t : Bytes}
    (hbefore : ∀ r ∈ before, r.owner.Unmixed) (hr : ¬ r.owner.Unmixed)
    (hshort : (r.fields ++ (after.flatMap Rr.bytes ++ t)).length < 192) (m : Nat) :
    scanMinTtl (before ++ r :: after).length ((before ++ r :: after).flatMap Rr.bytes ++ t) m
      = none := by
  rw [List.length_append, List.flatMap_append, List.append_assoc, scanMinTtl_records hbefore,
    List.length_cons, List.flatMap_cons, List.append_assoc, r.scan_mixed hr hshort]

namespace Message

variable (m : Message)

theorem length_header : m.header.length = 12 := by
  simp [header]

theorem beAt_answers : beAt m.bytes 6 2 = m.answers.length := by
  rw [bytes, header]
  simp only [List.append_assoc]
  rw [← List.append_assoc (beBytes 2 m.id.toNat), ← List.append_assoc (_ ++ _)]
  exact beAt_middle (by simp) m.answers_length _

theorem beAt_authority : beAt m.bytes 8 2 = m.authority.length := by
  rw [bytes, header]
  simp only [List.append_assoc]
  rw [← List.append_assoc (beBytes 2 m.id.toNat), ← List.append_assoc (_ ++ _),
    ← List.append_assoc (_ ++ _ ++ _)]
  exact beAt_middle (by simp) m.authority_length _

/-- The answers of a message are behind its question, and the other sections behind them. -/
theorem afterQname_bytes : afterQname (m.bytes.drop 12)
    = some (m.asked ++ (m.answers.flatMap Rr.bytes ++ m.tail)) := by
  rw [bytes, List.drop_left' m.length_header]
  exact m.qname.skipName_bytes _

theorem drop_asked (t : Bytes) : (m.asked ++ t).drop 4 = t := List.drop_left' (by simp [asked])

theorem length_bytes : 12 ≤ m.bytes.length := by
  rw [bytes, List.length_append, m.length_header]
  omega

theorem extractFirstIp_bytes (qtype : UInt16) :
    extractFirstIp m.bytes qtype
      = scanFirstIp qtype.toNat m.answers.length (m.answers.flatMap Rr.bytes ++ m.tail) := by
  have hlen := m.length_bytes
  rw [extractFirstIp, if_neg (by omega), m.beAt_answers, m.afterQname_bytes]
  by_cases hzero : m.answers.length = 0
  · rw [if_pos hzero, hzero, scanFirstIp]
  · rw [if_neg hzero]
    simp only [Option.bind_eq_bind, Option.bind_some, m.drop_asked]

theorem extractMinTtl_bytes (hne : m.answers ≠ []) :
    extractMinTtl m.bytes
      = (scanMinTtl m.answers.length (m.answers.flatMap Rr.bytes ++ m.tail) (2 ^ 32 - 1)).bind
          fun ttl => if ttl = 2 ^ 32 - 1 then none else some ttl := by
  have hlen := m.length_bytes
  have hzero : m.answers.length ≠ 0 := fun h => hne (List.length_eq_zero_iff.mp h)
  rw [extractMinTtl, if_neg (by omega), m.beAt_answers, if_neg hzero, m.afterQname_bytes]
  simp only [Option.bind_eq_bind, Option.bind_some, m.drop_asked, Option.pure_def]

theorem extractMinTtl_nil (hnil : m.answers = []) : extractMinTtl m.bytes = none := by
  have hlen := m.length_bytes
  rw [extractMinTtl, if_neg (by omega), m.beAt_answers, hnil]
  exact if_pos rfl

/-- The walk with `skip_name` finds the smallest lifetime of every message. -/
theorem walkMinTtl_bytes : walkMinTtl m.bytes = minTtl m.answers := by
  rw [walkMinTtl, m.beAt_answers, m.afterQname_bytes]
  simp only [Option.bind_eq_bind, Option.bind_some, m.drop_asked, walkTtls_records]
  rfl

/-- No owner name of the answers goes from labels to a pointer, and not all lifetimes are the largest
    there is. -/
def Direct : Prop :=
  (∀ r ∈ m.answers, r.owner.Unmixed) ∧ minTtl m.answers ≠ some (2 ^ 32 - 1)

/-- Behind an owner name of labels and a pointer the message ends within 192 bytes. -/
def EndsSoon : Prop :=
  ∀ before r after, m.answers = before ++ r :: after → ¬ r.owner.Unmixed →
    (r.fields ++ (after.flatMap Rr.bytes ++ m.tail)).length < 192

/-- `extract_first_ip` finds the first address of the type that is asked for, and `extract_min_ttl`
    the smallest lifetime, as a walk with `skip_name` and `skip_rr` does. -/
def ReadAsWritten : Prop :=
  (∀ qtype, extractFirstIp m.bytes qtype = m.answers.findSome? (·.address qtype)) ∧
    extractMinTtl m.bytes = minTtl m.answers ∧ extractMinTtl m.bytes = walkMinTtl m.bytes

variable {m}

/-- With all names unmixed only the largest lifetime is not reported. -/
theorem extractMinTtl_unmixed (h : ∀ r ∈ m.answers, r.owner.Unmixed) :
    extractMinTtl m.bytes
      = (minTtl m.answers).filter fun ttl => decide (ttl ≠ 2 ^ 32 - 1) := by
  rcases hanswers : m.answers with _ | ⟨r, rs⟩
  · rw [m.extractMinTtl_nil hanswers]
    rfl
  · have hscan := scanMinTtl_records h 0 (2 ^ 32 - 1) m.tail
    rw [Nat.add_zero, scanMinTtl] at hscan
    rw [m.extractMinTtl_bytes (by rw [hanswers]; exact List.cons_ne_nil _ _), hscan, hanswers,
      ← foldl_min_ttls, Option.bind_some, Option.filter_some]
    by_cases hmax : ((r :: rs).map fun r => r.ttl.toNat).foldl min (2 ^ 32 - 1) = 2 ^ 32 - 1
    · rw [if_pos hmax, if_neg (by simpa using hmax)]
    · rw [if_neg hmax, if_pos (by simpa using hmax)]

/-- **What the answers are read as**: where no owner goes from labels to a pointer, and not all lifetimes are the
    largest, the code reads what was written. -/
theorem Direct.readAsWritten (h : m.Direct) : m.ReadAsWritten := by
  obtain ⟨hunmixed, hmax⟩ := h
  have hmin : extractMinTtl m.bytes = minTtl m.answers := by
    rw [extractMinTtl_unmixed hunmixed]
    rcases httl : minTtl m.answers with _ | ttl
    · rfl
    · have hlow : ttl ≠ 2 ^ 32 - 1 := by
        rintro rfl
        exact hmax httl
      rw [Option.filter_some, if_pos (by simpa using hlow)]
  refine ⟨fun qtype => ?_, hmin, hmin.trans m.walkMinTtl_bytes.symm⟩
  rw [m.extractFirstIp_bytes, scanFirstIp_records hunmixed]

/-- The first record whose owner name is mixed. -/
theorem exists_first_mixed {rs : List Rr} (h : ¬ ∀ r ∈ rs, r.owner.Unmixed) :
    ∃ before r after, rs = before ++ r :: after ∧ (∀ r ∈ before, r.owner.Unmixed) ∧
      ¬ r.owner.Unmixed := by
  induction rs with
  | nil => exact absurd (fun r hr => absurd hr List.not_mem_nil) h
  | cons r rs ih =>
      by_cases hr : r.owner.Unmixed
      · obtain ⟨before, r', after, hsplit, hbefore, hr'⟩ :=
          ih fun hrs => h (List.forall_mem_cons.mpr ⟨hr, hrs⟩)
        exact ⟨r :: before, r', after, by rw [hsplit, List.cons_append],
          List.forall_mem_cons.mpr ⟨hr, hbefore⟩, hr'⟩
      · exact ⟨[], r, rs, rfl, fun r hr => absurd hr List.not_mem_nil, hr⟩

/-- No lifetime is found behind a name that is mixed, where the message ends soon. -/
theorem extractMinTtl_mixed (hends : m.EndsSoon) (h : ¬ ∀ r ∈ m.answers, r.owner.Unmixed) :
    m.answers ≠ [] ∧ extractMinTtl m.bytes = none := by
  obtain ⟨before, r, after, hsplit, hbefore, hr⟩ := exists_first_mixed h
  have hne : m.answers ≠ [] := by
    rw [hsplit]
    exact List.append_ne_nil_of_right_ne_nil _ (List.cons_ne_nil _ _)
  have hscan := scanMinTtl_mixed hbefore hr (hends before r after hsplit hr) (2 ^ 32 - 1)
  refine ⟨hne, ?_⟩
  rw [m.extractMinTtl_bytes hne, hsplit, hscan]
  rfl

/-- A message with an answer has a smallest lifetime. -/
theorem minTtl_ne_none {rs : List Rr} (h : rs ≠ []) : minTtl rs ≠ none := by
  rw [minTtl, Ne, List.min?_eq_none_iff, List.map_eq_nil_iff]
  exact h

/-- **Reading the answers.** A message whose owner names are unmixed, with a lifetime below the
    largest, is read as it was written; and where a message ends soon behind its mixed names, no other
    one is. -/
theorem readAsWritten_iff (m : Message) :
    (m.Direct → m.ReadAsWritten) ∧ (m.EndsSoon → m.ReadAsWritten → m.Direct) := by
  refine ⟨Direct.readAsWritten, fun hends ⟨_, hmin, _⟩ => ⟨?_, fun hmax => ?_⟩⟩
  · by_contra hmixed
    obtain ⟨hne, hnone⟩ := extractMinTtl_mixed hends hmixed
    exact minTtl_ne_none hne (hmin.symm.trans hnone)
  · by_cases hunmixed : ∀ r ∈ m.answers, r.owner.Unmixed
    · rw [extractMinTtl_unmixed hunmixed, hmax] at hmin
      exact absurd hmin (by decide)
    · obtain ⟨hne, hnone⟩ := extractMinTtl_mixed hends hunmixed
      exact minTtl_ne_none hne (hmin.symm.trans hnone)

/-- The answer for `a.b` to a question for `b`: its owner is the label `a` and a pointer to the name
    asked. -/
def relativeAnswer : Message where
  id := 1
  flags := 0x8180
  qname := .letter 0x62
  qtype := 1
  answers := [{
    owner := { labels := [[0x61]], pointer := some (0xC0, 0x0C) }
    rtype := 1
    ttl := 300
    rdata := [1, 2, 3, 4] }]

/-- Neither the address nor the lifetime is found. -/
theorem relativeAnswer_lost :
    relativeAnswer.answers.findSome? (·.address 1) = some (.v4 (.ofOctets [1, 2, 3, 4])) ∧
      extractFirstIp relativeAnswer.bytes 1 = none ∧
      walkMinTtl relativeAnswer.bytes = some 300 ∧ extractMinTtl relativeAnswer.bytes = none := by
  decide +kernel

end Message

end Reflex.Dns
