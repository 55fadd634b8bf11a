import Reflex.Dns.Handle
import Reflex.Dns.Records

namespace Reflex.Dns

open RustStd

/-!
# DNS — how long a response is stored

`handle` decides with `is_cacheable_or_negative` whether to store a response and with
`extract_min_ttl_or_negative` for how long.  The two split their cases differently: an NXDOMAIN is
stored for the sake of its SOA record, but with answers in it it is stored for as long as those say.

* `answerTtls`, `firstSoa` — the lifetimes a response states, for any bytes;
* `Intact`, `Lost` — what the loop of `extract_min_ttl` makes of the owner names;
* `Bounded`, `BoundKept` — the bound a response sets, and when it is respected;
* `Handler.stored_bounded_iff` — every response that is stored;
* `Handler.stored_nxdomain` — an NXDOMAIN with a CNAME outlives its SOA record.
-/

/-! ### What a response states -/

/-- The lifetimes of the answers that are there, by `skip_name` from record to record. -/
def answerTtls : Nat → Bytes → List Nat
  | 0, _ => []
  | n + 1, bs =>
      match skipName bs with
      | none => []
      | some rest =>
          if rest.length < 10 then []
          else beAt rest 4 4 :: answerTtls n (rest.drop (10 + beAt rest 8 2))

/-- The lifetime and the minimum of the first SOA record. -/
def firstSoa : Nat → Bytes → Option (Nat × Nat)
  | 0, _ => none
  | n + 1, bs => do
      let rest ← skipName bs
      if rest.length < 10 then none
      else if beAt rest 0 2 = 6 then
        let soa ← skipName (← skipName (rest.drop 10))
        if soa.length < 20 then none
        else return (beAt rest 4 4, beAt soa 16 4)
      else firstSoa n (← skipRr bs)

/-- The bytes of a response from its answer section on, if its question can be stepped over. -/
def answerSection (resp : Bytes) : Option Bytes :=
  (afterQname (resp.drop 12)).map (List.drop 4)

/-- The lifetimes of the answers of a response. -/
def ttlsOf (resp : Bytes) : List Nat :=
  match answerSection resp with
  | none => []
  | some bs => answerTtls (beAt resp 6 2) bs

/-- The lifetime and the minimum of the SOA record of a response. -/
def soaOf (resp : Bytes) : Option (Nat × Nat) := do
  let bs ← answerSection resp
  firstSoa (beAt resp 8 2) (← skipRrs (beAt resp 6 2) bs)

/-- A lifetime within what the response states: its SOA record for a negative response and for one
    without answers, every answer for any other. -/
def Bounded (resp : Bytes) (ttl : Nat) : Prop :=
  if rcode resp = 3 ∨ beAt resp 6 2 = 0 then
    ∃ soa, soaOf resp = some soa ∧ ttl ≤ min (min soa.1 soa.2) 300
  else ∀ t ∈ ttlsOf resp, ttl ≤ t

/-! ### What is read -/

/-- The loop of `extract_min_ttl` steps over every owner name as `skip_name` does, and the bytes do
    not end inside one. -/
def OwnersIntact : Nat → Bytes → Prop
  | 0, _ => True
  | n + 1, bs => bs = [] ∨ ∃ rest, skipName bs = some rest ∧ skipOwner bs = some rest ∧
      (10 ≤ rest.length → OwnersIntact n (rest.drop (10 + beAt rest 8 2)))

/-- At the first owner name where it does not, it finds no end. -/
def OwnerLost : Nat → Bytes → Prop
  | 0, _ => False
  | n + 1, bs => bs ≠ [] ∧ (skipOwner bs = none ∨ ∃ rest, skipName bs = some rest ∧
      skipOwner bs = some rest ∧ 10 ≤ rest.length ∧ OwnerLost n (rest.drop (10 + beAt rest 8 2)))

/-- Every owner name in the answers is stepped over. -/
def Intact (resp : Bytes) : Prop :=
  ∀ bs, answerSection resp = some bs → OwnersIntact (beAt resp 6 2) bs

/-- An owner name in the answers has no end for the loop. -/
def Lost (resp : Bytes) : Prop :=
  ∃ bs, answerSection resp = some bs ∧ OwnerLost (beAt resp 6 2) bs

/-- The smallest lifetime; 60 stands for none and for the largest that can be stated. -/
def lifetimeOf (ttls : List Nat) : Nat :=
  (ttls.min?.filter fun ttl => decide (ttl ≠ 2 ^ 32 - 1)).getD 60

/-- The lifetime that `handle` passes on to `DnsCache::set`. -/
def passedTtl (resp : Bytes) : Nat := (extractMinTtlOrNegative resp).getD 60

/-- The bound is respected: without answers, with answers that are read or that all allow for 60
    seconds, and in an NXDOMAIN with answers only if what is read of them is within the SOA record. -/
def BoundKept (resp : Bytes) : Prop :=
  beAt resp 6 2 = 0 ∨
    (rcode resp = 0 ∧ (Intact resp ∨ Lost resp ∧ ∀ t ∈ ttlsOf resp, 60 ≤ t)) ∨
    (rcode resp = 3 ∧ ∃ soa, soaOf resp = some soa ∧
      (Intact resp ∧ lifetimeOf (ttlsOf resp) ≤ min (min soa.1 soa.2) 300 ∨
        Lost resp ∧ 60 ≤ min (min soa.1 soa.2) 300))

/-! ### The loop of `extract_min_ttl` -/

theorem le_max_of_mem_answerTtls {n : Nat} {bs : Bytes} {t : Nat} (h : t ∈ answerTtls n bs) :
    t ≤ 2 ^ 32 - 1 := by
  induction n generalizing bs with
  | zero => cases h
  | succ n ih =>
      rw [answerTtls] at h
      split at h
      · cases h
      · rename_i rest _
        split at h
        · cases h
        · rename_i hlen
          rcases List.mem_cons.mp h with rfl | h
          · have := (@beBytes_beAt rest 4 4 (by omega)).2
            omega
          · exact ih h

/-- With all owner names intact the loop reads every lifetime. -/
theorem OwnersIntact.scanMinTtl_eq {n : Nat} {bs : Bytes} (h : OwnersIntact n bs) (m : Nat) :
    scanMinTtl n bs m = some ((answerTtls n bs).foldl min m) := by
  induction n generalizing bs m with
  | zero => rfl
  | succ n ih =>
      rcases bs with _ | ⟨b, bs⟩
      · rw [scanMinTtl, answerTtls, skipName, afterQname]
        rfl
      · obtain ⟨rest, hname, howner, hrest⟩ := h.resolve_left (List.cons_ne_nil _ _)
        rw [scanMinTtl, answerTtls, hname, howner]
        by_cases hlen : rest.length < 10
        · simp only [if_pos hlen]
          rfl
        · simp only [if_neg hlen]
          exact ih (hrest (by omega)) _

/-- Without the end of an owner name it reads nothing. -/
theorem OwnerLost.scanMinTtl_eq {n : Nat} {bs : Bytes} (h : OwnerLost n bs) (m : Nat) :
    scanMinTtl n bs m = none := by
  induction n generalizing bs m with
  | zero => exact absurd h id
  | succ n ih =>
      obtain ⟨hne, h⟩ := h
      obtain ⟨b, bs, rfl⟩ := List.exists_cons_of_ne_nil hne
      rcases h with hnone | ⟨rest, -, howner, hlen, hrest⟩
      · rw [scanMinTtl, hnone]
      · rw [scanMinTtl, howner]
        simp only [if_neg (Nat.not_lt.mpr hlen)]
        exact ih hrest _

/-- Starting from the largest lifetime changes nothing. -/
theorem lifetimeOf_foldl {ttls : List Nat} (h : ∀ t ∈ ttls, t ≤ 2 ^ 32 - 1) :
    (if ttls.foldl min (2 ^ 32 - 1) = 2 ^ 32 - 1 then none
      else some (ttls.foldl min (2 ^ 32 - 1))).getD 60 = lifetimeOf ttls := by
  rcases ttls with _ | ⟨t, ttls⟩
  · rfl
  · have hmin : min (2 ^ 32 - 1) t = t := min_eq_right (h t (List.mem_cons_self ..))
    rw [List.foldl_cons, hmin, lifetimeOf, List.min?_cons', Option.filter_some]
    by_cases hmax : ttls.foldl min t = 2 ^ 32 - 1
    · rw [if_pos hmax, if_neg (by simpa using hmax)]
    · rw [if_neg hmax, if_pos (by simpa using hmax)]

theorem lifetimeOf_le {ttls : List Nat} {t : Nat} (ht : t ∈ ttls) : lifetimeOf ttls ≤ t := by
  rcases hmin : ttls.min? with _ | m
  · rw [List.min?_eq_none_iff.mp hmin] at ht
    cases ht
  · have hle : m ≤ t := (List.min?_eq_some_iff.mp hmin).2 t ht
    rw [lifetimeOf, hmin, Option.filter_some]
    by_cases hmax : m = 2 ^ 32 - 1
    · -- all lifetimes are the largest there is
      rw [if_neg (by simpa using hmax)]
      exact le_trans (by decide) (hmax ▸ hle)
    · rw [if_pos (by simpa using hmax)]
      exact hle

/-! ### What is passed on -/

/-- `extract_min_ttl`, as a walk over the answer section. -/
theorem extractMinTtl_eq {resp : Bytes} (hlen : 12 ≤ resp.length) (hcount : beAt resp 6 2 ≠ 0) :
    extractMinTtl resp = (answerSection resp).bind fun bs =>
      (scanMinTtl (beAt resp 6 2) bs (2 ^ 32 - 1)).bind fun m =>
        if m = 2 ^ 32 - 1 then none else some m := by
  rw [extractMinTtl, if_neg (by omega), if_neg hcount, answerSection]
  cases afterQname (resp.drop 12) <;> rfl

/-- With all owner names intact the lifetime is the smallest one. -/
theorem Intact.extractMinTtl_getD {resp : Bytes} (h : Intact resp) (hlen : 12 ≤ resp.length)
    (hcount : beAt resp 6 2 ≠ 0) : (extractMinTtl resp).getD 60 = lifetimeOf (ttlsOf resp) := by
  rw [extractMinTtl_eq hlen hcount, ttlsOf]
  rcases hsection : answerSection resp with _ | bs
  · rfl
  · have hle : ∀ t ∈ answerTtls (beAt resp 6 2) bs, t ≤ 2 ^ 32 - 1 :=
      fun t ht => le_max_of_mem_answerTtls ht
    rw [Option.bind_some, (h bs hsection).scanMinTtl_eq, Option.bind_some]
    exact lifetimeOf_foldl hle

/-- Behind a lost owner name it is 60. -/
theorem Lost.extractMinTtl_getD {resp : Bytes} (h : Lost resp) (hlen : 12 ≤ resp.length)
    (hcount : beAt resp 6 2 ≠ 0) : (extractMinTtl resp).getD 60 = 60 := by
  obtain ⟨bs, hsection, hlost⟩ := h
  rw [extractMinTtl_eq hlen hcount, hsection, Option.bind_some, hlost.scanMinTtl_eq]
  rfl

theorem scanSoaTtl_eq (n : Nat) (bs : Bytes) :
    scanSoaTtl n bs = (firstSoa n bs).map fun soa => min soa.1 soa.2 := by
  induction n generalizing bs with
  | zero => rfl
  | succ n ih =>
      rw [scanSoaTtl, firstSoa]
      rcases skipName bs with _ | rest
      · rfl
      simp only [Option.bind_eq_bind, Option.bind_some]
      by_cases hlen : rest.length < 10
      · rw [if_pos hlen, if_pos hlen]
        rfl
      by_cases htype : beAt rest 0 2 = 6
      · rw [if_neg hlen, if_neg hlen, if_pos htype, if_pos htype]
        rcases skipName (rest.drop 10) with _ | rname
        · rfl
        rcases hsoa : skipName rname with _ | soa
        · simp only [Option.bind_some, hsoa]
          rfl
        simp only [Option.bind_some, hsoa]
        by_cases hshort : soa.length < 20
        · rw [if_pos hshort, if_pos hshort]
          rfl
        · rw [if_neg hshort, if_neg hshort]
          rfl
      · rw [if_neg hlen, if_neg hlen, if_neg htype, if_neg htype]
        rcases skipRr bs with _ | next
        · rfl
        · exact ih next

/-- `extract_soa_ttl` is the smaller of the two numbers of the SOA record. -/
theorem extractSoaTtl_eq {resp : Bytes} (hlen : 12 ≤ resp.length) :
    extractSoaTtl resp = (soaOf resp).map fun soa => min soa.1 soa.2 := by
  rw [extractSoaTtl, if_neg (by omega), soaOf, answerSection]
  by_cases hcount : beAt resp 8 2 = 0
  · rw [if_pos hcount, hcount]
    rcases afterQname (resp.drop 12) with _ | rest
    · rfl
    · simp only [Option.map_some, Option.bind_eq_bind, Option.bind_some]
      cases skipRrs (beAt resp 6 2) (rest.drop 4) <;> rfl
  · rw [if_neg hcount]
    rcases afterQname (resp.drop 12) with _ | rest
    · rfl
    · simp only [Option.map_some, Option.bind_eq_bind, Option.bind_some]
      rcases skipRrs (beAt resp 6 2) (rest.drop 4) with _ | bs
      · rfl
      · simp only [Option.bind_some, scanSoaTtl_eq]

/-- What `is_cacheable_or_negative` lets through: an answer with records, or an empty or negative one with a SOA
    record. -/
theorem cacheable_cases {resp : Bytes} (h : isCacheableOrNegative resp = true) :
    12 ≤ resp.length ∧ ((rcode resp = 0 ∧ beAt resp 6 2 ≠ 0) ∨
      ((rcode resp = 0 ∧ beAt resp 6 2 = 0 ∨ rcode resp = 3) ∧ ∃ soa, soaOf resp = some soa)) := by
  unfold isCacheableOrNegative at h
  split at h
  · cases h
  · rename_i hlen
    have hlen : 12 ≤ resp.length := Nat.not_lt.mp hlen
    refine ⟨hlen, ?_⟩
    split at h
    · rename_i hpositive
      exact .inl ⟨hpositive.1, Nat.ne_of_gt hpositive.2⟩
    · rename_i hnegative
      split at h
      · rename_i hcode
        rw [extractSoaTtl_eq hlen, Option.isSome_map] at h
        refine .inr ⟨?_, Option.isSome_iff_exists.mp h⟩
        rcases hcode with hzero | hthree
        · exact .inl ⟨hzero, by omega⟩
        · exact .inr hthree
      · cases h

/-- What is passed on for a response without answers. -/
theorem passedTtl_of_soa {resp : Bytes} (hlen : 12 ≤ resp.length)
    (hcode : rcode resp = 0 ∨ rcode resp = 3) (hcount : beAt resp 6 2 = 0) {soa : Nat × Nat}
    (hsoa : soaOf resp = some soa) : passedTtl resp = min (min soa.1 soa.2) 300 := by
  rw [passedTtl, extractMinTtlOrNegative, if_neg (by omega), if_pos ⟨hcode, hcount⟩,
    extractSoaTtl_eq hlen, hsoa]
  rfl

/-- What is passed on for one with answers. -/
theorem passedTtl_of_answers {resp : Bytes} (hlen : 12 ≤ resp.length) (hcount : beAt resp 6 2 ≠ 0) :
    passedTtl resp = (extractMinTtl resp).getD 60 := by
  rw [passedTtl, extractMinTtlOrNegative, if_neg (by omega), if_neg fun h => hcount h.2]

/-- Where the responses keep to the bound of the SOA record, so does the lifetime that is passed to the cache. -/
theorem bounded_of_kept {resp : Bytes} (hcacheable : isCacheableOrNegative resp = true)
    (h : BoundKept resp) : Bounded resp (passedTtl resp) := by
  obtain ⟨hlen, hcases⟩ := cacheable_cases hcacheable
  rw [Bounded]
  by_cases hcount : beAt resp 6 2 = 0
  · -- without answers the SOA record decides
    obtain ⟨hcode, soa, hsoa⟩ := hcases.resolve_left fun h => h.2 hcount
    have hnegative : rcode resp = 0 ∨ rcode resp = 3 := hcode.imp_left fun h => h.1
    rw [if_pos (.inr hcount)]
    exact ⟨soa, hsoa, le_of_eq (passedTtl_of_soa hlen hnegative hcount hsoa)⟩
  · rw [passedTtl_of_answers hlen hcount]
    rcases h with hzero | ⟨hcode, hread⟩ | ⟨hcode, soa, hsoa, hread⟩
    · exact absurd hzero hcount
    · rw [if_neg (by rw [hcode]; simpa using hcount)]
      intro t ht
      rcases hread with hintact | ⟨hlost, hle⟩
      · rw [hintact.extractMinTtl_getD hlen hcount]
        exact lifetimeOf_le ht
      · rw [hlost.extractMinTtl_getD hlen hcount]
        exact hle t ht
    · rw [if_pos (.inl hcode)]
      refine ⟨soa, hsoa, ?_⟩
      rcases hread with ⟨hintact, hle⟩ | ⟨hlost, hle⟩
      · rwa [hintact.extractMinTtl_getD hlen hcount]
      · rwa [hlost.extractMinTtl_getD hlen hcount]

/-- Nowhere else, unless the loop finds an end of an owner name where there is none. -/
theorem kept_of_bounded {resp : Bytes} (hcacheable : isCacheableOrNegative resp = true)
    (hread : Intact resp ∨ Lost resp) (h : Bounded resp (passedTtl resp)) : BoundKept resp := by
  obtain ⟨hlen, hcases⟩ := cacheable_cases hcacheable
  by_cases hcount : beAt resp 6 2 = 0
  · exact .inl hcount
  rw [passedTtl_of_answers hlen hcount, Bounded] at h
  by_cases hcode : rcode resp = 3
  · rw [if_pos (.inl hcode)] at h
    obtain ⟨soa, hsoa, hle⟩ := h
    refine .inr (.inr ⟨hcode, soa, hsoa, ?_⟩)
    rcases hread with hintact | hlost
    · rw [hintact.extractMinTtl_getD hlen hcount] at hle
      exact .inl ⟨hintact, hle⟩
    · rw [hlost.extractMinTtl_getD hlen hcount] at hle
      exact .inr ⟨hlost, hle⟩
  · rw [if_neg (not_or.mpr ⟨hcode, hcount⟩)] at h
    have hzero : rcode resp = 0 := by
      rcases hcases with ⟨hzero, -⟩ | ⟨⟨hzero, -⟩ | hthree, -⟩
      · exact hzero
      · exact hzero
      · exact absurd hthree hcode
    refine .inr (.inl ⟨hzero, ?_⟩)
    rcases hread with hintact | hlost
    · exact .inl hintact
    · rw [hlost.extractMinTtl_getD hlen hcount] at h
      exact .inr ⟨hlost, h⟩

/-! ### Well-formed responses -/

theorem answerTtls_records (rs : List Rr) (t : Bytes) :
    answerTtls rs.length (rs.flatMap Rr.bytes ++ t) = rs.map fun r => r.ttl.toNat := by
  induction rs with
  | nil => rfl
  | cons r rs ih =>
      rw [List.flatMap_cons, List.append_assoc]
      obtain ⟨hlen, -, httl, hrd, -⟩ := r.fields_spec (rs.flatMap Rr.bytes ++ t)
      rw [List.length_cons, answerTtls, Rr.bytes, List.append_assoc, r.owner.skipName_bytes]
      simp only [httl, hrd, r.drop_fields, ih, List.map_cons]
      rw [if_neg (by omega)]

theorem ownersIntact_records {rs : List Rr} (h : ∀ r ∈ rs, r.owner.Unmixed) (t : Bytes) :
    OwnersIntact rs.length (rs.flatMap Rr.bytes ++ t) := by
  induction rs with
  | nil => exact trivial
  | cons r rs ih =>
      obtain ⟨hr, hrs⟩ := List.forall_mem_cons.mp h
      rw [List.flatMap_cons, List.append_assoc]
      obtain ⟨-, -, -, hrd, -⟩ := r.fields_spec (rs.flatMap Rr.bytes ++ t)
      refine .inr ⟨r.fields ++ (rs.flatMap Rr.bytes ++ t), ?_, ?_, fun _ => ?_⟩
      · rw [Rr.bytes, List.append_assoc, r.owner.skipName_bytes]
      · rw [Rr.bytes, List.append_assoc, r.owner.skipOwner_bytes hr]
      · rw [hrd, r.drop_fields]
        exact ih hrs

theorem skipRrs_records (rs : List Rr) (t : Bytes) :
    skipRrs rs.length (rs.flatMap Rr.bytes ++ t) = some t := by
  induction rs with
  | nil => rfl
  | cons r rs ih =>
      rw [List.length_cons, skipRrs, List.flatMap_cons, List.append_assoc, r.skipRr_bytes,
        Option.bind_some, ih]

/-- The data of an SOA record: two names, four numbers and the minimum. -/
def soaData (mname rname : EncodedName) (numbers : Bytes) (minimum : UInt32) : Bytes :=
  mname.bytes ++ (rname.bytes ++ (numbers ++ beBytes 4 minimum.toNat))

/-- The first SOA record is found behind records of other types. -/
theorem firstSoa_records {before : List Rr} (hbefore : ∀ r ∈ before, r.rtype ≠ 6) {r : Rr}
    (hr : r.rtype = 6) {mname rname : EncodedName} {numbers : Bytes} {minimum : UInt32}
    (hnumbers : numbers.length = 16) (hdata : r.rdata = soaData mname rname numbers minimum)
    (k : Nat) (t : Bytes) :
    firstSoa (before.length + (k + 1)) (before.flatMap Rr.bytes ++ (r.bytes ++ t))
      = some (r.ttl.toNat, minimum.toNat) := by
  induction before with
  | nil =>
      obtain ⟨hlen, htype, httl, -, hrdata⟩ := r.fields_spec t
      have hsoa : 20 ≤ (numbers ++ (beBytes 4 minimum.toNat ++ t)).length := by
        simp only [List.length_append, hnumbers, length_beBytes]
        omega
      rw [List.length_nil, Nat.zero_add, List.flatMap_nil, List.nil_append, firstSoa, Rr.bytes,
        List.append_assoc, r.owner.skipName_bytes]
      simp only [Option.bind_eq_bind, Option.bind_some]
      rw [if_neg (by omega), htype, hr, if_pos (by rfl), hrdata, hdata, soaData]
      simp only [List.append_assoc, mname.skipName_bytes, rname.skipName_bytes, Option.bind_some]
      rw [if_neg (by omega), httl, beAt_middle hnumbers minimum.toNat_lt]
      rfl
  | cons r' before ih =>
      obtain ⟨hr', hbefore⟩ := List.forall_mem_cons.mp hbefore
      rw [List.flatMap_cons, List.append_assoc]
      obtain ⟨hlen, htype, -, -, -⟩ := r'.fields_spec (before.flatMap Rr.bytes ++ (r.bytes ++ t))
      have hother : ¬ r'.rtype.toNat = 6 := fun h => hr' (UInt16.toNat_inj.mp h)
      rw [List.length_cons, Nat.add_right_comm, firstSoa, r'.skipRr_bytes, Rr.bytes,
        List.append_assoc, r'.owner.skipName_bytes]
      simp only [Option.bind_eq_bind, Option.bind_some]
      rw [if_neg (by omega), htype, if_neg hother]
      exact ih hbefore

namespace Message

variable {m : Message}

theorem answerSection_bytes :
    answerSection m.bytes = some (m.answers.flatMap Rr.bytes ++ m.tail) := by
  rw [answerSection, m.afterQname_bytes, Option.map_some, m.drop_asked]

/-- The lifetimes of the answers are those of the answer records. -/
theorem ttlsOf_bytes : ttlsOf m.bytes = m.answers.map fun r => r.ttl.toNat := by
  rw [ttlsOf, answerSection_bytes, m.beAt_answers]
  exact answerTtls_records _ _

theorem intact_bytes (h : ∀ r ∈ m.answers, r.owner.Unmixed) : Intact m.bytes := by
  intro bs hbs
  obtain rfl := Option.some.inj (answerSection_bytes.symm.trans hbs)
  rw [m.beAt_answers]
  exact ownersIntact_records h _

/-- The SOA record is the first one in the authority section. -/
theorem soaOf_bytes {before after : List Rr} {r : Rr} (hauthority : m.authority = before ++ r :: after)
    (hbefore : ∀ r ∈ before, r.rtype ≠ 6) (hr : r.rtype = 6) {mname rname : EncodedName}
    {numbers : Bytes} {minimum : UInt32} (hnumbers : numbers.length = 16)
    (hdata : r.rdata = soaData mname rname numbers minimum) :
    soaOf m.bytes = some (r.ttl.toNat, minimum.toNat) := by
  rw [soaOf, answerSection_bytes, m.beAt_answers, m.beAt_authority]
  simp only [Option.bind_eq_bind, Option.bind_some, skipRrs_records]
  rw [tail, hauthority, List.length_append, List.length_cons, List.append_assoc,
    List.flatMap_append, List.cons_append, List.flatMap_cons]
  exact firstSoa_records hbefore hr hnumbers hdata _ _

end Message

/-! ### Whole calls -/

/-- What `set` leaves in the memory: the response, until its lifetime within the cap is over, and for at least a
    second. -/
theorem DnsCache.memory_set (cfg : CacheConfig) (c : DnsCache) (now nowSecs : Nat) (key : CacheKey)
    (resp : Bytes) (ttl : Nat) :
    (c.set cfg now nowSecs key resp ttl).memory key
      = some ⟨resp, now + max (min ttl cfg.ttlCap) 1 * second⟩ := by
  unfold DnsCache.set
  by_cases hpersist : cfg.persist
  · simp only [if_pos hpersist]
    exact Function.update_self ..
  · simp only [if_neg hpersist]
    exact Function.update_self ..

namespace Handler

variable {υ ι : Type} {cfg : Setup υ ι} {s s' : Handler υ} {i : Nat} {call : Call}
  {purpose : Purpose} {resp : Bytes}

/-- The cache behind a response that is stored. -/
theorem cache_store (hcall : s.calls i = some call) (hstage : call.stage = .store purpose resp)
    (hcacheable : isCacheableOrNegative resp = true) (h : s.store cfg i = some s') :
    s'.cache = s.cache.set cfg.cache s.now (s.unixNow cfg) call.key resp (passedTtl resp) := by
  have hset : (s.cacheSet cfg call.key resp).cache
      = s.cache.set cfg.cache s.now (s.unixNow cfg) call.key resp (passedTtl resp) := by
    rw [cacheSet, if_pos hcacheable]
    rfl
  obtain ⟨call', purpose', resp', hcall', hstage', hcases⟩ := store_cases h
  obtain rfl : call = call' := Option.some.inj (hcall.symm.trans hcall')
  obtain ⟨rfl, rfl⟩ : purpose = purpose' ∧ resp = resp' := by
    rw [hstage] at hstage'
    simpa using hstage'
  rcases hcases with ⟨-, rfl⟩ | ⟨-, rfl⟩ | ⟨-, rfl⟩
  · exact hset
  · exact hset
  · exact hset

/-- **Stored responses.** For every response that `handle` stores, in any state of the resolver, the
    entry expires after the lifetime that was passed on, within the cap of the cache and at least a
    second; and that lifetime is within what the response states if it is kept, and only then unless
    the loop over the answers finds an end of an owner name where there is none. -/
theorem stored_bounded_iff (hcall : s.calls i = some call)
    (hstage : call.stage = .store purpose resp)
    (hcacheable : isCacheableOrNegative resp = true) (h : s.store cfg i = some s') :
    s'.cache = s.cache.set cfg.cache s.now (s.unixNow cfg) call.key resp (passedTtl resp) ∧
      (∃ lifetime, s'.cache.memory call.key = some ⟨resp, s.now + lifetime * second⟩ ∧
        lifetime ≤ max 1 (min (passedTtl resp) cfg.cache.ttlCap)) ∧
      (BoundKept resp → Bounded resp (passedTtl resp)) ∧
      (Intact resp ∨ Lost resp → Bounded resp (passedTtl resp) → BoundKept resp) := by
  have hcache := cache_store hcall hstage hcacheable h
  refine ⟨hcache, ⟨_, ?_, le_of_eq (max_comm _ _)⟩, bounded_of_kept hcacheable,
    kept_of_bounded hcacheable⟩
  rw [hcache, DnsCache.memory_set]

/-- An upstream that gives one response, and a cache in memory that caps lifetimes at an hour. -/
def oneResponse (resp : Bytes) : Setup Unit Unit where
  cache := ⟨3600, none, false⟩
  epoch := 0
  query := fun _ _ _ _ => ((), some resp)

/-- A query for `a` that is not cached, up to the point where its response is stored. -/
def askToStore : List (Action Unit) :=
  [.handle 0 [] (Resolver.letterQuery 0 0x61) false, .lookup 0 1, .lead 0, .respond 0 ()]

/-- There is no `a`; the SOA record of the response is good for a minute. -/
def nxdomain : Message where
  id := 0
  flags := 0x8183
  qname := .letter 0x61
  qtype := 1
  authority := [{
    owner := .root
    rtype := 6
    ttl := 300
    rdata := soaData .root .root (List.replicate 16 0) 60 }]
  answers_length := Message.length_nil_lt
  additional_length := Message.length_nil_lt

/-- `a` is an alias of `b` for an hour, and there is no `b`. -/
def nxdomainAlias : Message :=
  { nxdomain with
    answers := [{
      owner := .question
      rtype := 5
      ttl := 3600
      rdata := [1, 0x62, 0] }]
    answers_length := by decide }

/-- With the alias it is stored for an hour. -/
theorem stored_nxdomain :
    rcode nxdomainAlias.bytes = 3 ∧ soaOf nxdomainAlias.bytes = some (300, 60) ∧
      isCacheableOrNegative nxdomainAlias.bytes = true ∧
      ¬ Bounded nxdomainAlias.bytes (passedTtl nxdomainAlias.bytes) ∧
      ∃ s s', Transition.run (step (oneResponse nxdomainAlias.bytes)) (init ()) askToStore = some s ∧
        s.store (oneResponse nxdomainAlias.bytes) 0 = some s' ∧
        (s'.cache.memory (cacheKey [] (Resolver.letterQuery 0 0x61))).map (·.expires)
          = some (3600 * second) := by
  have hcode : rcode nxdomainAlias.bytes = 3 := by decide
  have hsoa : soaOf nxdomainAlias.bytes = some (300, 60) := by decide +kernel
  have hpassed : passedTtl nxdomainAlias.bytes = 3600 := by decide +kernel
  refine ⟨hcode, hsoa, by decide +kernel, fun hbounded => ?_, ?_⟩
  · rw [Bounded, if_pos (.inl hcode), hsoa, hpassed] at hbounded
    obtain ⟨soa, hsome, hle⟩ := hbounded
    obtain rfl := Option.some.inj hsome
    exact absurd hle (by decide)
  · obtain ⟨s, hs, hstored⟩ := (Option.any_eq_true _ _).mp
      (show (Transition.run (step (oneResponse nxdomainAlias.bytes)) (init ()) askToStore).any
        (fun s => (s.store (oneResponse nxdomainAlias.bytes) 0).any fun s' => decide
          ((s'.cache.memory (cacheKey [] (Resolver.letterQuery 0 0x61))).map (·.expires)
            = some (3600 * second))) = true by decide +kernel)
    obtain ⟨s', hs', hexpires⟩ := (Option.any_eq_true _ _).mp hstored
    exact ⟨s, s', hs, hs', of_decide_eq_true hexpires⟩

/-- Without the alias it is stored for a minute. -/
theorem stored_bounded_iff_nxdomain :
    ∃ s s', Transition.run (step (oneResponse nxdomain.bytes)) (init ()) askToStore = some s ∧
      s.store (oneResponse nxdomain.bytes) 0 = some s' ∧
      soaOf nxdomain.bytes = some (300, 60) ∧ passedTtl nxdomain.bytes = 60 ∧
      Bounded nxdomain.bytes (passedTtl nxdomain.bytes) := by
  obtain ⟨s, hs, hcall⟩ := (Option.any_eq_true _ _).mp
    (show (Transition.run (step (oneResponse nxdomain.bytes)) (init ()) askToStore).any
      (fun s => decide (s.calls 0 = some ⟨[], Resolver.letterQuery 0 0x61,
        .store .leader nxdomain.bytes⟩)) = true by decide)
  have hcall := of_decide_eq_true hcall
  obtain ⟨s', hs'⟩ : ∃ s', s.store (oneResponse nxdomain.bytes) 0 = some s' := by
    rw [store, hcall]
    exact ⟨_, rfl⟩
  have hbounded := (stored_bounded_iff hcall rfl (by decide +kernel) hs').2.2.1
    (.inl (by decide))
  exact ⟨s, s', hs, hs', by decide +kernel, by decide +kernel, hbounded⟩

end Handler

end Reflex.Dns
