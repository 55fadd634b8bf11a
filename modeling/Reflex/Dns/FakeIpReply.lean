import Reflex.Dns.FakeCache
import Reflex.Dns.Records

namespace Reflex.Dns

open RustStd

/-!
# DNS — reading a FakeIP response

`build_ip_response` copies everything behind the header of the query and appends one record, under a
header that counts one answer.  `extract_first_ip` reads the first record behind the question, and
that is the appended one only where the query carried none.

* `AsksWith` — a query for one type, and the records it carries behind its question;
* `ReadsBack` — when the first record behind the question holds the address;
* `FakeIpStore.reply_readsBack_iff` — identifier and question come back always, the address exactly
  then;
* `FakeIpStore.reply_optRecord` — an EDNS record hides the address.
-/

/-- A query whose question is for `qtype`, with `records` behind it. -/
def AsksWith (query : Bytes) (qtype : UInt16) (records : List Rr) : Prop :=
  ∃ qclass : UInt16, afterQname (query.drop 12)
    = some (beBytes 2 qtype.toNat ++ beBytes 2 qclass.toNat ++ records.flatMap Rr.bytes)

/-- The record in a response with an address: its owner is a pointer to the question. -/
def answerRecord (rtype : UInt16) (rdata : Bytes) (h : rdata.length < 2 ^ 16) : Rr where
  owner := .question
  rtype := rtype
  ttl := 1
  rdata := rdata
  rdata_length := h

/-- The record for an address. -/
def ipRecord : IpAddr → Rr
  | .v4 ip => answerRecord 1 ip.octets (by simp)
  | .v6 ip => answerRecord 28 ip.octets (by simp)

/-- The walk over an owner name ends before the fields of a record with this address. -/
def LandsOn (qtype : UInt16) (addr : IpAddr) (bs : Bytes) : Prop :=
  ∃ (r : Rr) (t : Bytes), r.address qtype = some addr ∧ skipOwner bs = some (r.fields ++ t)

/-- The query carries no records, or the first one holds the address itself.  A first owner name of
    labels and a pointer is not walked to its end: what counts is where the walk ends. -/
def ReadsBack (qtype : UInt16) (addr : IpAddr) : List Rr → Prop
  | [] => True
  | r :: rs =>
      if r.owner.Unmixed then r.address qtype = some addr
      else LandsOn qtype addr ((r :: rs).flatMap Rr.bytes ++ (ipRecord addr).bytes)

/-! ### The bytes of a response -/

theorem bytes_answerRecord (rtype : UInt16) (rdata : Bytes) (h : rdata.length < 2 ^ 16) :
    (answerRecord rtype rdata h).bytes = [0xC0, 0x0C] ++ (beBytes 2 rtype.toNat ++ ([0x00, 0x01]
      ++ (beBytes 4 1 ++ (beBytes 2 rdata.length ++ rdata)))) := by
  have hclass : beBytes 2 (1 : UInt16).toNat = [0x00, 0x01] := by decide
  have httl : beBytes 4 (1 : UInt32).toNat = beBytes 4 1 := by decide
  rw [Rr.bytes, Rr.fields, ← hclass, ← httl]
  rfl

/-- The record of an address gives the address. -/
theorem address_ipRecord (addr : IpAddr) : (ipRecord addr).address (ipRecord addr).rtype = some addr := by
  cases addr with
  | v4 ip =>
      show addressIn 1 1 ip.octets = some (.v4 ip)
      rw [addressIn, if_pos rfl, if_pos ⟨rfl, ip.length_octets⟩, Ipv4Addr.ofOctets_octets]
  | v6 ip =>
      show addressIn 28 28 ip.octets = some (.v6 ip)
      have hfamily : ¬ (28 = 1 ∧ ip.octets.length = 4) := fun h => absurd h.1 (by decide)
      rw [addressIn, if_pos rfl, if_neg hfamily, if_pos ⟨rfl, ip.length_octets⟩,
        Ipv6Addr.ofOctets_octets]

/-- The header of a response with an address. -/
def answerHeader (query : Bytes) : Bytes :=
  query.take 2 ++ [0x81, 0x80, 0x00, 0x01, 0x00, 0x01, 0x00, 0x00, 0x00, 0x00]

theorem toBytes_address {query : Bytes} (hlen : 12 ≤ query.length) (domain : Str) (addr : IpAddr) :
    (Answer.address domain addr).toBytes query
      = answerHeader query ++ (query.drop 12 ++ (ipRecord addr).bytes) := by
  have hlong : ¬ query.length < 12 := by omega
  cases addr with
  | v4 ip =>
      simp only [Answer.toBytes, buildIpResponse, if_neg hlong, ipRecord, bytes_answerRecord,
        answerHeader, List.append_assoc]
      rfl
  | v6 ip =>
      simp only [Answer.toBytes, buildIpResponse, if_neg hlong, ipRecord, bytes_answerRecord,
        answerHeader, List.append_assoc]
      rfl

namespace AsksWith

variable {query : Bytes} {qtype : UInt16} {records : List Rr}

/-- A query with a question is longer than its header. -/
theorem length_query (h : AsksWith query qtype records) : 12 < query.length := by
  obtain ⟨_, h⟩ := h
  by_contra hshort
  rw [List.drop_eq_nil_of_le (by omega), afterQname] at h
  cases h

/-- Type and class of the question, byte by byte. -/
private theorem exists_bytes (h : AsksWith query qtype records) :
    ∃ c d, afterQname (query.drop 12)
      = some (UInt8.ofNat (qtype.toNat / 256) :: UInt8.ofNat qtype.toNat :: c :: d
          :: records.flatMap Rr.bytes) := by
  obtain ⟨qclass, h⟩ := h
  exact ⟨_, _, h⟩

/-- The question is found again with more bytes behind it. -/
theorem question_append (h : AsksWith query qtype records) {head : Bytes} (hhead : head.length = 12)
    (t : Bytes) {labels : List Str} (hlabels : qnameLabels (query.drop 12) = some labels) :
    question (head ++ (query.drop 12 ++ t)) = question query := by
  obtain ⟨c, d, hafter⟩ := h.exists_bytes
  have hlen := h.length_query
  have hdrop : (head ++ (query.drop 12 ++ t)).drop 12 = query.drop 12 ++ t :=
    List.drop_left' hhead
  have hlong : ¬ (head ++ (query.drop 12 ++ t)).length < 13 := by
    simp only [List.length_append, List.length_drop]
    omega
  rw [question, question, extractQtype, extractQtype, if_neg hlong, if_neg (by omega), hdrop, hafter,
    afterQname_append hafter, hlabels, qnameLabels_append hlabels]
  rfl

/-- The additional records of a query are found behind its question, whatever is added at the end. -/
theorem drop_afterQname_append (h : AsksWith query qtype records) (t : Bytes) :
    (afterQname (query.drop 12 ++ t)).map (List.drop 4) = some (records.flatMap Rr.bytes ++ t) := by
  obtain ⟨c, d, hafter⟩ := h.exists_bytes
  rw [afterQname_append hafter]
  rfl

theorem extractQtype_query (h : AsksWith query qtype records) : extractQtype query = some qtype := by
  obtain ⟨qclass, hafter⟩ := h
  have hlen := length_query ⟨qclass, hafter⟩
  have hvalue : UInt16.ofNat (beVal (beBytes 2 qtype.toNat)) = qtype := by
    rw [beVal_beBytes_of_lt qtype.toNat_lt, UInt16.ofNat_toNat]
  rw [extractQtype, if_neg (by omega), hafter]
  exact congrArg some hvalue

end AsksWith

/-! ### The address -/

/-- A response counts one answer, and the loop begins with the first record behind the question. -/
theorem extractFirstIp_answerHeader {query : Bytes} {qtype : UInt16} {records : List Rr}
    (hasks : AsksWith query qtype records) (hhead : (answerHeader query).length = 12) (t : Bytes) :
    extractFirstIp (answerHeader query ++ (query.drop 12 ++ t)) qtype
      = scanFirstIp qtype.toNat 1 (records.flatMap Rr.bytes ++ t) := by
  have hlong : ¬ (answerHeader query ++ (query.drop 12 ++ t)).length < 12 := by
    rw [List.length_append, hhead]
    omega
  have hcount : beAt (answerHeader query ++ (query.drop 12 ++ t)) 6 2 = 1 := by
    have hid : (query.take 2 ++ [0x81, 0x80, 0x00, 0x01]).length = 6 := by
      rw [answerHeader, List.length_append] at hhead
      rw [List.length_append]
      simp only [List.length_cons, List.length_nil] at hhead ⊢
      omega
    have hread := @beAt_middle _ 6 hid 2 1 (by decide)
      ([0x00, 0x00, 0x00, 0x00] ++ (query.drop 12 ++ t))
    rw [List.append_assoc] at hread
    rw [answerHeader, List.append_assoc]
    exact hread
  obtain ⟨rest, hrest, hdrop⟩ := Option.map_eq_some_iff.mp (hasks.drop_afterQname_append t)
  rw [extractFirstIp, if_neg hlong, hcount, if_neg (by decide), List.drop_left' hhead, hrest]
  exact congrArg (scanFirstIp qtype.toNat 1) hdrop

/-- The walk over the pointer of the appended record ends before its fields. -/
theorem landsOn_ipRecord (addr : IpAddr) :
    LandsOn (ipRecord addr).rtype addr (ipRecord addr).bytes := by
  refine ⟨ipRecord addr, [], address_ipRecord addr, ?_⟩
  rw [List.append_nil]
  cases addr <;> rfl

/-- **The first record behind the question** decides. -/
theorem landsOn_iff_readsBack {qtype : UInt16} {addr : IpAddr} (hqtype : (ipRecord addr).rtype = qtype)
    (records : List Rr) :
    LandsOn qtype addr (records.flatMap Rr.bytes ++ (ipRecord addr).bytes)
      ↔ ReadsBack qtype addr records := by
  rcases records with _ | ⟨r, rs⟩
  · rw [List.flatMap_nil, List.nil_append, ← hqtype]
    exact iff_of_true (landsOn_ipRecord addr) trivial
  · by_cases hunmixed : r.owner.Unmixed
    · rw [ReadsBack, if_pos hunmixed, LandsOn, List.flatMap_cons, List.append_assoc, Rr.bytes,
        List.append_assoc, r.owner.skipOwner_bytes hunmixed]
      constructor
      · rintro ⟨r', t', haddr, hfields⟩
        rw [← haddr]
        exact Rr.address_of_fields (Option.some.inj hfields) qtype
      · exact fun haddr => ⟨r, _, haddr, rfl⟩
    · rw [ReadsBack, if_neg hunmixed]

namespace FakeIpStore

variable {store store' : FakeIpStore} {query : Bytes} {domain : Str} {addr : IpAddr}
  {qtype : UInt16} {records : List Rr}

/-- An answer with an address is in the family of the type asked for. -/
theorem rtype_of_answer (hasks : AsksWith query qtype records)
    (hanswer : store.answer query = (store', .address domain addr)) :
    (ipRecord addr).rtype = qtype := by
  have hqtype := hasks.extractQtype_query
  rcases (answer_address hanswer).2 with ⟨hone, ip, rfl⟩ | ⟨htwentyEight, ip, rfl⟩
  · exact Option.some.inj (hone.symm.trans hqtype)
  · exact Option.some.inj (htwentyEight.symm.trans hqtype)

/-- **FakeIP responses.** The response to a query for an address has the identifier and the question
    of the query, and `extract_first_ip` finds the address in it if and only if the query carries no
    records behind its question or the first of them is read as this address. -/
theorem reply_readsBack_iff (hasks : AsksWith query qtype records)
    (hanswer : store.answer query = (store', .address domain addr)) :
    transactionId (store.reply query).2 = transactionId query ∧
      question (store.reply query).2 = question query ∧
      query.drop 12 <+: (store.reply query).2.drop 12 ∧
      (extractFirstIp (store.reply query).2 qtype = some addr ↔ ReadsBack qtype addr records) := by
  have hlen := hasks.length_query
  have hhead : (answerHeader query).length = 12 := by
    rw [answerHeader, List.length_append, List.length_take]
    simp only [List.length_cons, List.length_nil]
    omega
  have hresp : (store.reply query).2
      = answerHeader query ++ (query.drop 12 ++ (ipRecord addr).bytes) := by
    rw [reply, hanswer]
    exact toBytes_address (by omega) domain addr
  obtain ⟨labels, hlabels, -⟩ := Option.bind_eq_some_iff.mp
    ((extractQname_eq query).symm.trans (answer_address hanswer).1)
  rw [hresp]
  refine ⟨?_, hasks.question_append hhead _ hlabels, ?_, ?_⟩
  · rw [transactionId, answerHeader, List.append_assoc, List.take_left' (by rw [List.length_take]; omega)]
    rfl
  · rw [List.drop_left' hhead]
    exact List.prefix_append _ _
  · rw [extractFirstIp_answerHeader hasks hhead, Rr.scanFirstIp_one, ← LandsOn,
      landsOn_iff_readsBack (rtype_of_answer hasks hanswer)]

/-- The record that a query with EDNS carries. -/
def optRecord : Rr where
  owner := .root
  rtype := 41
  rclass := 4096
  ttl := 0
  rdata := []

theorem asksWith_queryA (records : List Rr) : AsksWith (queryA ++ records.flatMap Rr.bytes) 1 records := by
  refine ⟨1, ?_⟩
  have hlabel := @skipName_label [0x61] (by decide) (0 :: ([0, 1, 0, 1] ++ records.flatMap Rr.bytes))
  refine hlabel.trans ?_
  rw [skipName, afterQname, if_pos rfl]
  rfl

/-- With EDNS `a` gets its address, but it is not found in the response. -/
theorem reply_optRecord :
    ∃ store, FakeIpStore.new { inet4Range := some "198.18.0.0/30".toList } = .ok store ∧
      AsksWith (queryA ++ optRecord.bytes) 1 [optRecord] ∧
      store.answer (queryA ++ optRecord.bytes)
        = ((store.answer (queryA ++ optRecord.bytes)).1, .address "a".toList (.v4 0xC6120002)) ∧
      extractFirstIp (store.reply (queryA ++ optRecord.bytes)).2 1 = none := by
  have hasks : AsksWith (queryA ++ optRecord.bytes) 1 [optRecord] := by
    have := asksWith_queryA [optRecord]
    rwa [List.flatMap_cons, List.flatMap_nil, List.append_nil] at this
  obtain ⟨store, hnew, hlost⟩ := exists_eq_ok_of_any
    (x := FakeIpStore.new { inet4Range := some "198.18.0.0/30".toList })
    (p := fun store => decide
      ((store.answer (queryA ++ optRecord.bytes)).2 = .address "a".toList (.v4 0xC6120002) ∧
        extractFirstIp (store.reply (queryA ++ optRecord.bytes)).2 1 = none))
    (by decide +kernel)
  obtain ⟨haddr, hnone⟩ := of_decide_eq_true hlost
  exact ⟨store, hnew, hasks, by rw [← haddr], hnone⟩

/-- The address of an answer to a query without additional records is read back. -/
theorem reply_readsBack_iff_plain :
    ∃ store, FakeIpStore.new { inet4Range := some "198.18.0.0/30".toList } = .ok store ∧
      extractFirstIp (store.reply queryA).2 1 = some (.v4 0xC6120002) := by
  obtain ⟨store, hnew, hanswer⟩ := exists_eq_ok_of_any
    (x := FakeIpStore.new { inet4Range := some "198.18.0.0/30".toList })
    (p := fun store => decide ((store.answer queryA).2 = .address "a".toList (.v4 0xC6120002)))
    (by decide +kernel)
  have haddr : store.answer queryA
      = ((store.answer queryA).1, .address "a".toList (.v4 0xC6120002)) := by
    rw [← of_decide_eq_true hanswer]
  exact ⟨store, hnew, (reply_readsBack_iff (asksWith_queryA []) haddr).2.2.2.mpr trivial⟩

end FakeIpStore

end Reflex.Dns
