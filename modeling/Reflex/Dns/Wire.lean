import Reflex.RustStd.Num

namespace Reflex.Dns

open RustStd

/-!
# DNS — messages on the wire

The parts of `dns/mod.rs` that read messages and write answers without records.  Where the source
walks a message by position, a position is the rest of the message from there on: one past the end
is the empty rest, and every read of the source is preceded by a length check.

* `question` — the question a message carries, as the loops of the source read it;
* `extractQname_eq_of_question_eq`, `extractQtype_eq_of_question_eq` — what the resolver reads off
  a message is decided by its question.
-/

/-! ### Questions -/

/-- The loop of `extract_qname`: the labels from here on, decoded lossily, up to the root label or
    a compression pointer. -/
def qnameLabels : Bytes → Option (List Str)
  | [] => none
  | len :: rest =>
      if len = 0 then some []
      else if len &&& 0xC0 = 0xC0 then some []
      else if rest.length < len.toNat then none
      else
        (qnameLabels (rest.drop len.toNat)).map fun labels =>
          fromUtf8Lossy (rest.take len.toNat) :: labels
termination_by bs => bs.length
decreasing_by
  rw [List.length_drop, List.length_cons]
  omega

/-- `extract_qname`. -/
def extractQname (msg : Bytes) : Option Str :=
  if msg.length < 13 then none
  else
    match qnameLabels (msg.drop 12) with
    | some labels => if labels = [] then none else some (join ['.'] labels)
    | none => none

/-- The loop of `extract_qtype`: what follows the name. -/
def afterQname : Bytes → Option Bytes
  | [] => none
  | len :: rest =>
      if len = 0 then some rest
      else if len &&& 0xC0 = 0xC0 then some (rest.drop 1)
      else afterQname (rest.drop len.toNat)
termination_by bs => bs.length
decreasing_by
  rw [List.length_drop, List.length_cons]
  omega

/-- `extract_qtype`. -/
def extractQtype (msg : Bytes) : Option UInt16 :=
  if msg.length < 13 then none
  else
    match afterQname (msg.drop 12) with
    | some (hi :: lo :: _) => some (UInt16.ofNat (beVal [hi, lo]))
    | _ => none

/-- The question of a message: the labels of its name, its type and its class. -/
structure Question where
  labels : Option (List Str)
  qtype : Option UInt16
  qclass : Option UInt16
  deriving DecidableEq

/-- The question a message carries. -/
def question (msg : Bytes) : Question where
  labels := qnameLabels (msg.drop 12)
  qtype := extractQtype msg
  qclass :=
    match afterQname (msg.drop 12) with
    | some (_ :: _ :: hi :: lo :: _) => some (UInt16.ofNat (beVal [hi, lo]))
    | _ => none

/-- A message of at most twelve bytes has no labels to read, so the length check of
    `extract_qname` is implied by its loop. -/
theorem extractQname_eq (msg : Bytes) :
    extractQname msg =
      (qnameLabels (msg.drop 12)).bind fun labels =>
        if labels = [] then none else some (join ['.'] labels) := by
  unfold extractQname
  split
  case isTrue hshort =>
    have hnil : msg.drop 12 = [] := List.drop_eq_nil_of_le (by omega)
    rw [hnil, qnameLabels]
    rfl
  case isFalse => cases qnameLabels (msg.drop 12) <;> rfl

theorem extractQname_eq_of_question_eq {m r : Bytes} (h : question r = question m) :
    extractQname r = extractQname m := by
  have hlabels : qnameLabels (r.drop 12) = qnameLabels (m.drop 12) := congrArg Question.labels h
  rw [extractQname_eq, extractQname_eq, hlabels]

theorem extractQtype_eq_of_question_eq {m r : Bytes} (h : question r = question m) :
    extractQtype r = extractQtype m :=
  congrArg Question.qtype h

/-- More bytes behind a name do not change its labels. -/
theorem qnameLabels_append {bs : Bytes} {labels : List Str} (h : qnameLabels bs = some labels)
    (t : Bytes) : qnameLabels (bs ++ t) = some labels := by
  induction bs using qnameLabels.induct generalizing labels with
  | case1 => simp [qnameLabels] at h
  | case2 rest =>
    rw [qnameLabels, if_pos rfl] at h
    rw [List.cons_append, qnameLabels, if_pos rfl]
    exact h
  | case3 len rest hlen hptr =>
    rw [qnameLabels, if_neg hlen, if_pos hptr] at h
    rw [List.cons_append, qnameLabels, if_neg hlen, if_pos hptr]
    exact h
  | case4 len rest hlen hptr hshort =>
    rw [qnameLabels, if_neg hlen, if_neg hptr, if_pos hshort] at h
    cases h
  | case5 len rest hlen hptr hshort ih =>
    rw [qnameLabels, if_neg hlen, if_neg hptr, if_neg hshort, Option.map_eq_some_iff] at h
    obtain ⟨tail, htail, rfl⟩ := h
    have hle : len.toNat ≤ rest.length := by omega
    have hlong : ¬ (rest ++ t).length < len.toNat := by
      rw [List.length_append]
      omega
    rw [List.cons_append, qnameLabels, if_neg hlen, if_neg hptr, if_neg hlong,
      List.drop_append_of_le_length hle, ih htail, List.take_append_of_le_length hle]
    rfl

/-- More bytes behind a name and its type are found behind them. -/
theorem afterQname_append {bs rest : Bytes} {hi lo : UInt8}
    (h : afterQname bs = some (hi :: lo :: rest)) (t : Bytes) :
    afterQname (bs ++ t) = some (hi :: lo :: (rest ++ t)) := by
  induction bs using afterQname.induct with
  | case1 => simp [afterQname] at h
  | case2 bs =>
    rw [afterQname, if_pos rfl] at h
    rw [List.cons_append, afterQname, if_pos rfl, Option.some.inj h]
    rfl
  | case3 len bs hlen hptr =>
    rw [afterQname, if_neg hlen, if_pos hptr, Option.some.injEq] at h
    rw [List.cons_append, afterQname, if_neg hlen, if_pos hptr]
    cases bs with
    | nil => cases h
    | cons b bs =>
      have hbs : bs = hi :: lo :: rest := h
      rw [List.cons_append, List.drop_one, List.tail_cons, hbs]
      rfl
  | case4 len bs hlen hptr ih =>
    rw [afterQname, if_neg hlen, if_neg hptr] at h
    rw [List.cons_append, afterQname, if_neg hlen, if_neg hptr]
    by_cases hle : len.toNat ≤ bs.length
    · rw [List.drop_append_of_le_length hle]
      exact ih h
    · -- a label that runs past the end leaves nothing to read
      rw [List.drop_eq_nil_of_le (by omega), afterQname] at h
      cases h

/-- The transaction ID of a message. -/
def transactionId (msg : Bytes) : Bytes := msg.take 2

/-- `patch_id`: the response under the transaction ID of the query. -/
def patchId (resp query : Bytes) : Bytes :=
  if 2 ≤ resp.length ∧ 2 ≤ query.length then query.take 2 ++ resp.drop 2 else resp

/-! ### Records and lifetimes -/

/-- `skip_name`: the same loop as over the name of a question. -/
def skipName (bs : Bytes) : Option Bytes := afterQname bs

/-- The big-endian number in the `n` bytes from position `pos` on. -/
def beAt (bs : Bytes) (pos n : Nat) : Nat := beVal ((bs.drop pos).take n)

/-- `skip_rr`. -/
def skipRr (bs : Bytes) : Option Bytes := do
  let rest ← skipName bs
  if rest.length < 10 then none
  else return rest.drop (10 + beAt rest 8 2)

/-- The loop of `extract_soa_ttl` over the answers. -/
def skipRrs : Nat → Bytes → Option Bytes
  | 0, bs => some bs
  | n + 1, bs => (skipRr bs).bind (skipRrs n)

/-- The loop of `extract_soa_ttl` over the authority records. -/
def scanSoaTtl : Nat → Bytes → Option Nat
  | 0, _ => none
  | n + 1, bs => do
      let rest ← skipName bs
      if rest.length < 10 then none
      else if beAt rest 0 2 = 6 then
        let soa ← skipName (← skipName (rest.drop 10))
        if soa.length < 20 then none
        else return min (beAt rest 4 4) (beAt soa 16 4)
      else scanSoaTtl n (← skipRr bs)

/-- `extract_soa_ttl`. -/
def extractSoaTtl (resp : Bytes) : Option Nat :=
  if resp.length < 12 then none
  else if beAt resp 8 2 = 0 then none
  else do
    let rest ← afterQname (resp.drop 12)
    scanSoaTtl (beAt resp 8 2) (← skipRrs (beAt resp 6 2) (rest.drop 4))

/-- The inner loop of `extract_min_ttl`: labels up to the root label, with no regard to
    compression pointers. -/
def skipLabels : Bytes → Option Bytes
  | [] => none
  | len :: rest => if len = 0 then some rest else skipLabels (rest.drop len.toNat)
termination_by bs => bs.length
decreasing_by
  rw [List.length_drop, List.length_cons]
  omega

/-- The owner name of an answer as `extract_min_ttl` skips it: a pointer is one only where the
    name begins. -/
def skipOwner : Bytes → Option Bytes
  | [] => none
  | b :: rest => if b &&& 0xC0 = 0xC0 then some (rest.drop 1) else skipLabels (b :: rest)

/-- The loop of `extract_min_ttl` over the answers; `minTtl` is the smallest lifetime so far. -/
def scanMinTtl : Nat → Bytes → Nat → Option Nat
  | 0, _, minTtl => some minTtl
  | _ + 1, [], minTtl => some minTtl
  | n + 1, b :: bs, minTtl =>
      match skipOwner (b :: bs) with
      | none => none
      | some rest =>
          if rest.length < 10 then some minTtl
          else scanMinTtl n (rest.drop (10 + beAt rest 8 2)) (min minTtl (beAt rest 4 4))

/-- `extract_min_ttl`. -/
def extractMinTtl (resp : Bytes) : Option Nat :=
  if resp.length < 12 then none
  else if beAt resp 6 2 = 0 then none
  else do
    let rest ← afterQname (resp.drop 12)
    let minTtl ← scanMinTtl (beAt resp 6 2) (rest.drop 4) (2 ^ 32 - 1)
    if minTtl = 2 ^ 32 - 1 then none else return minTtl

/-- The response code: the low half of the fourth byte. -/
def rcode (resp : Bytes) : Nat := beAt resp 3 1 % 16

/-- `is_cacheable_or_negative`. -/
def isCacheableOrNegative (resp : Bytes) : Bool :=
  if resp.length < 12 then false
  else if rcode resp = 0 ∧ 0 < beAt resp 6 2 then true
  else if rcode resp = 0 ∨ rcode resp = 3 then (extractSoaTtl resp).isSome
  else false

/-- `extract_min_ttl_or_negative`. -/
def extractMinTtlOrNegative (resp : Bytes) : Option Nat :=
  if resp.length < 12 then none
  else if (rcode resp = 0 ∨ rcode resp = 3) ∧ beAt resp 6 2 = 0 then
    some (min ((extractSoaTtl resp).getD 300) 300)
  else extractMinTtl resp

/-! ### Answers without records -/

/-- The shared body of the answers without records: the transaction ID of the query, the flag
    byte with `flags` set on top of `QR`, and the response code. -/
def emptyReply (flags rcode : UInt8) (query : Bytes) : Bytes :=
  (if 2 ≤ query.length then query.take 2 else [0, 0])
    ++ [0x80 ||| flags, rcode, 0, 0, 0, 0, 0, 0, 0, 0]

/-- `make_servfail`. -/
def makeServfail (query : Bytes) : Bytes := emptyReply 0 0x02 query

/-- `make_refused`. -/
def makeRefused (query : Bytes) : Bytes := emptyReply 0 0x05 query

/-- `make_noerror_empty`: authoritative, so that clients take the empty answer as final. -/
def makeNoerrorEmpty (query : Bytes) : Bytes := emptyReply 0x04 0x00 query

/-- `make_nxdomain`. -/
def makeNxdomain (query : Bytes) : Bytes := emptyReply 0x04 0x03 query

end Reflex.Dns
