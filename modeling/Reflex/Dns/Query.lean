import Reflex.Dns.FakeIp
import Reflex.Dns.Records
import Reflex.RustStd.NetDisplay

namespace Reflex.Dns

open RustStd

/-!
# DNS — the queries of the resolver

`build_query` of `dns/mod.rs` writes a message that asks for the addresses of a host, and
`resolve_domain_with_strategy` sends it.  A label has its length in one byte, and nothing checks that
it fits: from 192 on the byte is a compression pointer, and from 256 on it starts again at 0.

* `AsksFor` — the question that a message carries for the decoders of the same file;
* `qnameLabels_labels`, `qnameLabels_long` — labels that are read as they were written, and the first
  one that is not;
* `asks_buildQuery_iff` — for which hosts a query asks what it should.
-/

/-! ### The code -/

/-- The labels of a host that `build_query` writes. -/
def hostLabels (host : Str) : List Str := (host.splitOn '.').filter (· ≠ [])

/-- A label on the wire, behind its length modulo 256. -/
def labelBytes (label : Str) : Bytes := UInt8.ofNat (utf8 label).length :: utf8 label

/-- `build_query`. -/
def buildQuery (name : Str) (qtype : UInt16) : Bytes :=
  [0x00, 0x01, 0x01, 0x00, 0x00, 0x01, 0x00, 0x00, 0x00, 0x00, 0x00, 0x00]
    ++ ((hostLabels name).flatMap labelBytes ++ (0x00 :: (beBytes 2 qtype.toNat ++ [0x00, 0x01])))

/-- What a resolution sends, and how it ends. -/
structure Resolution where
  queries : List Bytes
  result : Except Str IpAddr

/-- The address in the answer to a query of the given type, if there is an answer. -/
def addressAnswered (query : Bytes → Option Bytes) (host : Str) (qtype : UInt16) : Option IpAddr :=
  (query (buildQuery host qtype)).bind (extractFirstIp · qtype)

/-- The error of a resolution without an address. -/
def resolveFailed (host what : Str) : Except Str IpAddr :=
  .error ("dns resolve failed for '".toList ++ host ++ "': no ".toList ++ what)

/-- `resolve_domain_with_strategy`; `query` is what the upstream answers. -/
def resolveDomainWithStrategy (query : Bytes → Option Bytes) (host : Str)
    (strategy : ResolveStrategy) : Resolution :=
  match IpAddr.fromStr host with
  | some ip => { queries := [], result := .ok ip }
  | none =>
      match strategy with
      | .ipv4Only =>
          { queries := [buildQuery host 1]
            result := match addressAnswered query host 1 with
              | some ip => .ok ip
              | none => resolveFailed host "A answer".toList }
      | .ipv6Only =>
          { queries := [buildQuery host 28]
            result := match addressAnswered query host 28 with
              | some ip => .ok ip
              | none => resolveFailed host "AAAA answer".toList }
      | _ =>
          { queries := [buildQuery host 1, buildQuery host 28]
            result :=
              match strategy, addressAnswered query host 1, addressAnswered query host 28 with
              | .preferIpv6, _, some v6 => .ok v6
              | .preferIpv6, some v4, none => .ok v4
              | _, some v4, _ => .ok v4
              | _, none, some v6 => .ok v6
              | _, _, _ => resolveFailed host "answer".toList }

/-- The message asks for records of a type for the host with the given labels. -/
def AsksFor (labels : List Str) (qtype : UInt16) (msg : Bytes) : Prop :=
  extractQname msg = some (join ['.'] labels) ∧ extractQtype msg = some qtype

/-! ### Labels that fit -/

/-- A length below 192 is neither the root label nor a pointer. -/
theorem shortLabel_byte {n : Nat} (hpos : 0 < n) (hle : n ≤ 191) :
    UInt8.ofNat n ≠ 0 ∧ UInt8.ofNat n &&& 0xC0 ≠ 0xC0 ∧ (UInt8.ofNat n).toNat = n := by
  have hall : ∀ n : Fin 192, 0 < n.val → UInt8.ofNat n.val ≠ 0 ∧
      UInt8.ofNat n.val &&& 0xC0 ≠ 0xC0 ∧ (UInt8.ofNat n.val).toNat = n.val := by decide +kernel
  exact hall ⟨n, by omega⟩ hpos

/-- A byte that is no pointer is below 192. -/
theorem toNat_lt_of_not_pointer {b : UInt8} (h : b &&& 0xC0 ≠ 0xC0) : b.toNat < 192 := by
  have hall : ∀ b : Fin 256, UInt8.ofNat b.val &&& 0xC0 ≠ 0xC0 → b.val < 192 := by decide +kernel
  have := hall ⟨b.toNat, b.toNat_lt⟩
  rw [UInt8.ofNat_toNat] at this
  exact this h

section Labels

variable {label : Str} {labels : List Str}

theorem length_utf8_pos (h : label ≠ []) : 0 < (utf8 label).length :=
  lt_of_lt_of_le (List.length_pos_iff.mpr h) (length_le_length_utf8 label)

theorem qnameLabels_label (hne : label ≠ []) (hshort : (utf8 label).length ≤ 191) (t : Bytes) :
    qnameLabels (labelBytes label ++ t) = (qnameLabels t).map (label :: ·) := by
  obtain ⟨hzero, hptr, hlen⟩ := shortLabel_byte (length_utf8_pos hne) hshort
  have hfits : ¬ (utf8 label ++ t).length < (UInt8.ofNat (utf8 label).length).toNat := by
    rw [hlen, List.length_append]
    omega
  rw [labelBytes, List.cons_append, qnameLabels, if_neg hzero, if_neg hptr, if_neg hfits, hlen,
    List.drop_left, List.take_left, fromUtf8Lossy_utf8]

theorem afterQname_label (hne : label ≠ []) (hshort : (utf8 label).length ≤ 191) (t : Bytes) :
    afterQname (labelBytes label ++ t) = afterQname t := by
  obtain ⟨hzero, hptr, hlen⟩ := shortLabel_byte (length_utf8_pos hne) hshort
  rw [labelBytes, List.cons_append, afterQname, if_neg hzero, if_neg hptr, hlen, List.drop_left]

/-- Labels of at most 191 bytes are read as they were written. -/
theorem qnameLabels_labels (h : ∀ l ∈ labels, l ≠ [] ∧ (utf8 l).length ≤ 191) (t : Bytes) :
    qnameLabels (labels.flatMap labelBytes ++ t) = (qnameLabels t).map (labels ++ ·) := by
  induction labels with
  | nil => simp
  | cons label labels ih =>
    obtain ⟨⟨hne, hshort⟩, hlabels⟩ := List.forall_mem_cons.mp h
    rw [List.flatMap_cons, List.append_assoc, qnameLabels_label hne hshort, ih hlabels,
      Option.map_map]
    rfl

theorem afterQname_labels (h : ∀ l ∈ labels, l ≠ [] ∧ (utf8 l).length ≤ 191) (t : Bytes) :
    afterQname (labels.flatMap labelBytes ++ t) = afterQname t := by
  induction labels with
  | nil => rfl
  | cons label labels ih =>
    obtain ⟨⟨hne, hshort⟩, hlabels⟩ := List.forall_mem_cons.mp h
    rw [List.flatMap_cons, List.append_assoc, afterQname_label hne hshort, ih hlabels]

/-! ### Labels that do not fit -/

/-- A longer label ends the name, or leaves only its beginning behind. -/
theorem qnameLabels_long {t : Bytes} {rest : List Str} (hlong : 192 ≤ (utf8 label).length)
    (h : qnameLabels (labelBytes label ++ t) = some rest) :
    rest = [] ∨ ∃ k more, k + 13 ≤ (utf8 label).length ∧
      rest = fromUtf8Lossy ((utf8 label).take k) :: more := by
  rw [labelBytes, List.cons_append, qnameLabels] at h
  split_ifs at h with hzero hptr hshort
  · exact .inl (Option.some.inj h).symm
  · exact .inl (Option.some.inj h).symm
  · obtain ⟨more, -, rfl⟩ := Option.map_eq_some_iff.mp h
    -- the byte is not the length, so that at least 256 bytes are missing
    have hlt := toNat_lt_of_not_pointer hptr
    have hmod : (UInt8.ofNat (utf8 label).length).toNat = (utf8 label).length % 256 :=
      UInt8.toNat_ofNat'
    have hfar : (UInt8.ofNat (utf8 label).length).toNat + 13 ≤ (utf8 label).length := by omega
    refine .inr ⟨_, more, hfar, ?_⟩
    rw [List.take_append_of_le_length (by omega)]

/-- No dot comes out of a label that has none. -/
theorem dot_notMem_fromUtf8Lossy_take (h : '.' ∉ label) (k : Nat) :
    '.' ∉ fromUtf8Lossy ((utf8 label).take k) := by
  intro hmem
  rcases mem_fromUtf8Lossy hmem with heq | hall
  · exact absurd heq (by decide)
  · have hbyte : (0x2E : UInt8) ∈ String.utf8EncodeChar '.' := by decide
    exact h (ascii_mem_utf8 (b := 0x2E) (by decide) (List.mem_of_mem_take (hall _ hbyte)))

/-- A text in pieces determines the first piece in which two lists of labels differ. -/
theorem join_append_ne {front back rest : List Str} (hdot : '.' ∉ label)
    (hrest : rest = [] ∨ ∃ first more, rest = first :: more ∧ '.' ∉ first ∧ first ≠ label)
    (hne : front ++ rest ≠ []) :
    join ['.'] (front ++ rest) ≠ join ['.'] (front ++ label :: back) := by
  intro hjoin
  have hsplit := congrArg (List.splitOn '.') hjoin
  rw [splitOn_join '.' hne, splitOn_join '.' (by simp), List.flatMap_append, List.flatMap_append,
    List.append_cancel_left_eq, List.flatMap_cons, List.splitOn_eq_singleton hdot] at hsplit
  rcases hrest with rfl | ⟨first, more, rfl, hfirst, hdiff⟩
  · cases hsplit
  · rw [List.flatMap_cons, List.splitOn_eq_singleton hfirst] at hsplit
    exact hdiff (List.cons.inj hsplit).1

end Labels

/-! ### What a query asks -/

section Host

variable {host : Str}

theorem ne_nil_of_mem_hostLabels {label : Str} (h : label ∈ hostLabels host) : label ≠ [] :=
  of_decide_eq_true (List.mem_filter.mp h).2

theorem dot_notMem_of_mem_hostLabels {label : Str} (h : label ∈ hostLabels host) : '.' ∉ label :=
  not_mem_of_mem_splitOn (List.mem_filter.mp h).1

theorem drop_buildQuery (qtype : UInt16) : (buildQuery host qtype).drop 12
    = (hostLabels host).flatMap labelBytes ++ (0x00 :: (beBytes 2 qtype.toNat ++ [0x00, 0x01])) :=
  rfl

/-- Labels of at most 191 bytes make a query that asks for them. -/
theorem asks_buildQuery (hlabels : hostLabels host ≠ [])
    (hshort : ∀ label ∈ hostLabels host, (utf8 label).length ≤ 191) (qtype : UInt16) :
    AsksFor (hostLabels host) qtype (buildQuery host qtype) := by
  have hfit : ∀ label ∈ hostLabels host, label ≠ [] ∧ (utf8 label).length ≤ 191 := fun label h =>
    ⟨ne_nil_of_mem_hostLabels h, hshort label h⟩
  constructor
  · rw [extractQname_eq, drop_buildQuery, qnameLabels_labels hfit, qnameLabels, if_pos rfl]
    simp [hlabels]
  · have hlong : ¬ (buildQuery host qtype).length < 13 := by
      simp only [buildQuery, List.length_append, List.length_cons]
      omega
    have hqtype : beBytes 2 qtype.toNat
        = [UInt8.ofNat (qtype.toNat / 256), UInt8.ofNat qtype.toNat] := by
      simp [beBytes, leBytes]
    have hval : beVal (beBytes 2 qtype.toNat) = qtype.toNat :=
      beVal_beBytes_of_lt qtype.toNat_lt
    rw [extractQtype, if_neg hlong, drop_buildQuery, afterQname_labels hfit, afterQname, if_pos rfl,
      hqtype]
    rw [hqtype] at hval
    show some (UInt16.ofNat (beVal _)) = some qtype
    rw [hval, UInt16.ofNat_toNat]

/-- **A longer label** is lost from the query. -/
theorem extractQname_buildQuery_ne {label : Str} (hmem : label ∈ hostLabels host)
    (hlong : ¬ (utf8 label).length ≤ 191) (qtype : UInt16) :
    extractQname (buildQuery host qtype) ≠ some (join ['.'] (hostLabels host)) := by
  intro hname
  rw [extractQname_eq, drop_buildQuery] at hname
  obtain ⟨read, hread, hname⟩ := Option.bind_eq_some_iff.mp hname
  split_ifs at hname with hread_nil
  -- the labels in front of the first long one are read as they were written
  obtain ⟨first, hfirst⟩ :
      ∃ first, (hostLabels host).find? (fun l => ¬ (utf8 l).length ≤ 191) = some first :=
    Option.isSome_iff_exists.mp (List.find?_isSome.mpr ⟨label, hmem, decide_eq_true hlong⟩)
  obtain ⟨hlong, front, back, hsplit, hfront⟩ := List.find?_eq_some_iff_append.mp hfirst
  have hdot : '.' ∉ first := dot_notMem_of_mem_hostLabels (List.mem_of_find?_eq_some hfirst)
  have hfit : ∀ l ∈ front, l ≠ [] ∧ (utf8 l).length ≤ 191 := fun l hl =>
    ⟨ne_nil_of_mem_hostLabels (hsplit ▸ List.mem_append_left _ hl), by simpa using hfront l hl⟩
  rw [hsplit] at hread hname
  rw [List.flatMap_append, List.append_assoc, qnameLabels_labels hfit, List.flatMap_cons,
    List.append_assoc] at hread
  obtain ⟨rest, hrest, rfl⟩ := Option.map_eq_some_iff.mp hread
  have hlong : 192 ≤ (utf8 first).length := by
    have := of_decide_eq_true hlong
    omega
  have hcut : rest = [] ∨ ∃ c more, rest = c :: more ∧ '.' ∉ c ∧ c ≠ first := by
    rcases qnameLabels_long hlong hrest with rfl | ⟨k, more, hk, rfl⟩
    · exact .inl rfl
    · exact .inr ⟨_, more, rfl, dot_notMem_fromUtf8Lossy_take hdot k, fromUtf8Lossy_take_ne hk⟩
  exact join_append_ne hdot hcut hread_nil (Option.some.inj hname)

/-- A resolution only sends what `build_query` writes for the host. -/
theorem exists_buildQuery_of_mem {query : Bytes → Option Bytes} {strategy : ResolveStrategy}
    {msg : Bytes} (h : msg ∈ (resolveDomainWithStrategy query host strategy).queries) :
    ∃ qtype, msg = buildQuery host qtype := by
  unfold resolveDomainWithStrategy at h
  split at h
  · exact absurd h List.not_mem_nil
  · split at h
    · exact ⟨1, List.mem_singleton.mp h⟩
    · exact ⟨28, List.mem_singleton.mp h⟩
    · rcases List.mem_cons.mp h with h | h
      · exact ⟨1, h⟩
      · exact ⟨28, List.mem_singleton.mp h⟩

end Host

/-- The query for a host asks for the records of the host, and so does everything a resolution
    sends, exactly if no label of the host has more than 191 bytes. -/
theorem asks_buildQuery_iff (host : Str) (hlabels : hostLabels host ≠ []) (qtype : UInt16) :
    (AsksFor (hostLabels host) qtype (buildQuery host qtype) ∧
        ∀ query strategy, ∀ msg ∈ (resolveDomainWithStrategy query host strategy).queries,
          ∃ qtype, AsksFor (hostLabels host) qtype msg)
      ↔ ∀ label ∈ hostLabels host, (utf8 label).length ≤ 191 := by
  constructor
  · rintro ⟨hasks, -⟩ label hmem
    by_contra hlong
    exact extractQname_buildQuery_ne hmem hlong qtype hasks.1
  · intro hshort
    refine ⟨asks_buildQuery hlabels hshort qtype, fun query strategy msg hmsg => ?_⟩
    obtain ⟨qtype', rfl⟩ := exists_buildQuery_of_mem hmsg
    exact ⟨qtype', asks_buildQuery hlabels hshort qtype'⟩

theorem asks_buildQuery_iff_example :
    (AsksFor (hostLabels "a.b.".toList) 28 (buildQuery "a.b.".toList 28) ∧
        ∀ query strategy, ∀ msg ∈ (resolveDomainWithStrategy query "a.b.".toList strategy).queries,
          ∃ qtype, AsksFor (hostLabels "a.b.".toList) qtype msg)
      ↔ ∀ label ∈ hostLabels "a.b.".toList, (utf8 label).length ≤ 191 :=
  asks_buildQuery_iff "a.b.".toList (by decide) 28

/-- A host whose first label has 257 letters. -/
def longHost : Str := List.replicate 257 'a' ++ ".com".toList

/-- Of the first label one letter is left. -/
theorem not_asks_longHost :
    ¬ ∀ host, hostLabels host ≠ [] → ∀ qtype, AsksFor (hostLabels host) qtype (buildQuery host qtype) := by
  intro h
  have hasks := h longHost (by decide +kernel) 1
  exact absurd hasks.1 (by decide +kernel)

end Reflex.Dns
