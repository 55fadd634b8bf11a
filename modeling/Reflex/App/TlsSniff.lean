import Reflex.App.Sniff
import Reflex.Lib.Machine
import Reflex.RustStd.Slice

namespace Reflex.App

open RustStd Machine

/-!
# Sniffing — TLS

`try_tls` of `app/sniff.rs` reads the server name and the protocols out of a `ClientHello`.  Positions are
at most 65535 bytes behind the end of the buffer, so they do not overflow.

* `defined_tryTls` — no byte outside of the buffer is read, whatever is in it;
* `tryTls_record` — what is found in a `ClientHello`, in whatever order its extensions are.
-/

/-! ### The parser -/

/-- A length of two bytes at a position; behind the end of the buffer it is a panic. -/
def be16 (buf : Bytes) (pos : Nat) : Checked Nat := do
  let hi ← index buf pos
  let lo ← index buf (pos + 1)
  return beVal [hi, lo]

/-- The extension `0x0000`: the first name of the list, if it is a `host_name` and text. -/
def sniName (buf : Bytes) (pos dataEnd : Nat) (sni : Option Str) : Checked (Option Str) :=
  if pos + 2 < dataEnd then do
    let nameType ← index buf (pos + 2)
    if nameType = 0x00 then
      if pos + 5 ≤ dataEnd then
        let nameLen ← be16 buf (pos + 3)
        if pos + 5 + nameLen ≤ dataEnd then
          let name ← range buf (pos + 5) (pos + 5 + nameLen)
          return (fromUtf8 name).or sni
        else return sni
      else return sni
    else return sni
  else return sni

/-- The loop of the extension `0x0010`. -/
def alpnGo (buf : Bytes) (listEnd p : Nat) (isH2 : Bool) : Checked Bool :=
  if p < listEnd then do
    let protoLen ← index buf p
    if p + 1 + protoLen.toNat ≤ listEnd then
      let proto ← range buf (p + 1) (p + 1 + protoLen.toNat)
      alpnGo buf listEnd (p + 1 + protoLen.toNat) (isH2 || proto = utf8 "h2".toList)
    else return isH2
  else return isH2
termination_by listEnd - p

/-- One extension: what is known of the name and the protocols after it. -/
def sniffExtension (buf : Bytes) (extType pos dataEnd : Nat) (sni : Option Str) (isH2 : Bool) :
    Checked (Option Str × Bool) :=
  if extType = 0x0000 ∧ pos + 2 ≤ dataEnd then do
    let sni ← sniName buf pos dataEnd sni
    return (sni, isH2)
  else if extType = 0x0010 ∧ pos + 2 ≤ dataEnd then do
    let listLen ← be16 buf pos
    let isH2 ← alpnGo buf (min (pos + 2 + listLen) dataEnd) (pos + 2) isH2
    return (sni, isH2)
  else return (sni, isH2)

/-- The loop over the extensions, which ends early when a name and the protocol `h2` are found. -/
def extensionsGo (buf : Bytes) (extEnd pos : Nat) (sni : Option Str) (isH2 : Bool) :
    Checked (Option Str × Bool) :=
  if pos + 4 ≤ extEnd then do
    let extType ← be16 buf pos
    let extLen ← be16 buf (pos + 2)
    let dataEnd := min (pos + 4 + extLen) extEnd
    let (sni, isH2) ← sniffExtension buf extType (pos + 4) dataEnd sni isH2
    if sni.isSome && isH2 then return (sni, isH2)
    else extensionsGo buf extEnd dataEnd sni isH2
  else return (sni, isH2)
termination_by extEnd - pos

/-- `try_tls`. -/
def tryTls (buf : Bytes) : Checked (Option SniffResult) := do
  if buf.length < 43 then return none
  let contentType ← index buf 0
  let major ← index buf 1
  if contentType ≠ 0x16 ∨ major ≠ 0x03 then return none
  let handshakeType ← index buf 5
  if handshakeType ≠ 0x01 then return none
  let pos := 5 + 4 + 2 + 32
  if buf.length ≤ pos then return none
  let sidLen ← index buf pos
  let pos := pos + (1 + sidLen.toNat)
  if buf.length < pos + 2 then return none
  let csLen ← be16 buf pos
  let pos := pos + (2 + csLen)
  if buf.length < pos + 1 then return none
  let cmLen ← index buf pos
  let pos := pos + (1 + cmLen.toNat)
  if buf.length < pos + 2 then return none
  let extTotal ← be16 buf pos
  let pos := pos + 2
  let (sni, isH2) ← extensionsGo buf (min (pos + extTotal) buf.length) pos none false
  return sni.map fun domain => ⟨some domain, if isH2 then "h2".toList else "tls".toList⟩

/-! ### Safety -/

theorem defined_be16 {buf : Bytes} {pos : Nat} (h : pos + 1 < buf.length) : Defined (be16 buf pos) := by
  rw [be16, index_of_lt (by omega), ok_bind, index_of_lt h, ok_bind]
  exact defined_ok

theorem defined_sniName {buf : Bytes} {pos dataEnd : Nat} (h : dataEnd ≤ buf.length) (sni : Option Str) :
    Defined (sniName buf pos dataEnd sni) := by
  rw [sniName]
  split
  · rw [index_of_lt (by omega), ok_bind]
    split
    · split
      · refine (defined_be16 (by omega)).bind fun nameLen _ => ?_
        split
        · rw [range_of_le (Nat.le_add_right _ _) (by omega), ok_bind]
          exact defined_ok
        · exact defined_ok
      · exact defined_ok
    · exact defined_ok
  · exact defined_ok

theorem defined_alpnGo {buf : Bytes} {listEnd : Nat} (h : listEnd ≤ buf.length) (p : Nat) (isH2 : Bool) :
    Defined (alpnGo buf listEnd p isH2) := by
  induction hn : listEnd - p using Nat.strong_induction_on generalizing p isH2 with
  | _ n ih =>
    subst hn
    rw [alpnGo]
    split
    · rw [index_of_lt (by omega), ok_bind]
      split
      · rw [range_of_le (Nat.le_add_right _ _) (by omega), ok_bind]
        exact ih _ (by omega) _ _ rfl
      · exact defined_ok
    · exact defined_ok

theorem defined_sniffExtension {buf : Bytes} {pos dataEnd : Nat} (h : dataEnd ≤ buf.length) (extType : Nat)
    (sni : Option Str) (isH2 : Bool) : Defined (sniffExtension buf extType pos dataEnd sni isH2) := by
  rw [sniffExtension]
  split
  · exact (defined_sniName h sni).bind fun sni _ => defined_ok
  split
  · refine (defined_be16 (by omega)).bind fun listLen _ => ?_
    exact (defined_alpnGo (by omega) _ _).bind fun isH2 _ => defined_ok
  · exact defined_ok

theorem defined_extensionsGo {buf : Bytes} {extEnd : Nat} (h : extEnd ≤ buf.length) (pos : Nat)
    (sni : Option Str) (isH2 : Bool) : Defined (extensionsGo buf extEnd pos sni isH2) := by
  induction hn : extEnd - pos using Nat.strong_induction_on generalizing pos sni isH2 with
  | _ n ih =>
    subst hn
    rw [extensionsGo]
    split
    · refine (defined_be16 (by omega)).bind fun extType _ => ?_
      refine (defined_be16 (by omega)).bind fun extLen _ => ?_
      refine (defined_sniffExtension (by omega) extType sni isH2).bind fun (sni, isH2) _ => ?_
      dsimp only
      split
      · exact defined_ok
      · exact ih _ (by omega) _ _ _ rfl
    · exact defined_ok

/-- **No byte outside of the buffer** is read. -/
theorem defined_tryTls (buf : Bytes) : Defined (tryTls buf) := by
  rw [tryTls]
  split
  · exact defined_ok
  rw [index_of_lt (by omega), ok_bind, index_of_lt (by omega), ok_bind]
  split
  · exact defined_ok
  rw [index_of_lt (by omega), ok_bind]
  split
  · exact defined_ok
  dsimp only
  split
  · exact defined_ok
  rw [index_of_lt (by omega), ok_bind]
  split
  · exact defined_ok
  refine (defined_be16 (by omega)).bind fun csLen _ => ?_
  split
  · exact defined_ok
  rw [index_of_lt (by omega), ok_bind]
  split
  · exact defined_ok
  refine (defined_be16 (by omega)).bind fun extTotal _ => ?_
  exact (defined_extensionsGo (min_le_right _ _) _ _ _).bind fun _ _ => defined_ok

/-! ### What a client sends -/

/-- Bytes behind a length of two bytes. -/
def vec16 (bs : Bytes) : Bytes := beBytes 2 bs.length ++ bs

/-- Bytes behind a length of one byte. -/
def vec8 (bs : Bytes) : Bytes := UInt8.ofNat bs.length :: bs

/-- An extension of a `ClientHello`. -/
inductive Extension where
  /-- a `host_name`, and what else is in the list of names -/
  | serverName (name : Str) (others : Bytes)
  | alpn (protocols : List Bytes)
  | other (extType : UInt16) (data : Bytes)

namespace Extension

def extType : Extension → UInt16
  | serverName _ _ => 0x0000
  | alpn _ => 0x0010
  | other extType _ => extType

def data : Extension → Bytes
  | serverName name others => vec16 (0x00 :: (vec16 (utf8 name) ++ others))
  | alpn protocols => vec16 (protocols.flatMap vec8)
  | other _ data => data

/-- The bytes of an extension. -/
def bytes (ext : Extension) : Bytes := beBytes 2 ext.extType.toNat ++ vec16 ext.data

/-- The lengths fit, and an extension of another type is not one of the two. -/
def Ok : Extension → Prop
  | serverName name others => (vec16 (0x00 :: (vec16 (utf8 name) ++ others))).length < 2 ^ 16
  | alpn protocols => (∀ proto ∈ protocols, proto.length < 2 ^ 8) ∧
      (vec16 (protocols.flatMap vec8)).length < 2 ^ 16
  | other extType data => extType ≠ 0x0000 ∧ extType ≠ 0x0010 ∧ data.length < 2 ^ 16

/-- The name an extension has. -/
def name? : Extension → Option Str
  | serverName name _ => some name
  | alpn _ => none
  | other _ _ => none

/-- The protocols an extension has. -/
def protocols : Extension → List Bytes
  | serverName _ _ => []
  | alpn protocols => protocols
  | other _ _ => []

end Extension

/-- A `ClientHello` whose lengths fit. -/
structure ClientHello where
  version : UInt16
  random : Bytes
  sessionId : Bytes
  cipherSuites : Bytes
  compressionMethods : Bytes
  extensions : List Extension
  length_random : random.length = 32
  length_sessionId : sessionId.length < 2 ^ 8
  length_cipherSuites : cipherSuites.length < 2 ^ 16
  length_compressionMethods : compressionMethods.length < 2 ^ 8
  extensions_ok : ∀ ext ∈ extensions, ext.Ok
  length_extensions : (extensions.flatMap Extension.bytes).length < 2 ^ 16

namespace ClientHello

/-- The body of the handshake message. -/
def body (hello : ClientHello) : Bytes :=
  beBytes 2 hello.version.toNat ++ (hello.random ++ (vec8 hello.sessionId ++ (vec16 hello.cipherSuites
    ++ (vec8 hello.compressionMethods ++ vec16 (hello.extensions.flatMap Extension.bytes)))))

/-- The record, of protocol version 3.`minor`. -/
def record (hello : ClientHello) (minor : UInt8) : Bytes :=
  0x16 :: 0x03 :: minor :: vec16 (0x01 :: (beBytes 3 hello.body.length ++ hello.body))

/-- The names of its extensions. -/
def serverNames (hello : ClientHello) : List Str := hello.extensions.filterMap Extension.name?

/-- The protocols of its extensions. -/
def protocols (hello : ClientHello) : List Bytes := hello.extensions.flatMap Extension.protocols

end ClientHello

/-! ### Reading -/

theorem be16_of_drop {buf rest : Bytes} {pos n : Nat} (hn : n < 2 ^ 16)
    (h : buf.drop pos = beBytes 2 n ++ rest) : be16 buf pos = .ok n := by
  obtain ⟨hi, lo, hbytes⟩ := List.length_eq_two.mp (length_beBytes 2 n)
  have hvalue := beVal_beBytes_of_lt (w := 2) (n := n) hn
  rw [hbytes] at h hvalue
  have hnext : buf.drop (pos + 1) = lo :: rest := drop_succ_of_drop h
  rw [be16, index_of_drop h, ok_bind, index_of_drop hnext, ok_bind, hvalue]
  rfl

/-- **The list of protocols** is read to its end. -/
theorem alpnGo_protocols {buf rest : Bytes} {p : Nat} {protocols : List Bytes}
    (hlen : ∀ proto ∈ protocols, proto.length < 2 ^ 8) (isH2 : Bool)
    (h : buf.drop p = protocols.flatMap vec8 ++ rest) :
    alpnGo buf (p + (protocols.flatMap vec8).length) p isH2
      = .ok (isH2 || decide (utf8 "h2".toList ∈ protocols)) := by
  induction protocols generalizing p isH2 with
  | nil =>
    rw [alpnGo, if_neg (by rw [List.flatMap_nil, List.length_nil]; omega), decide_eq_false List.not_mem_nil,
      Bool.or_false]
    rfl
  | cons proto protocols ih =>
    rw [List.forall_mem_cons] at hlen
    obtain ⟨hproto, hlen⟩ := hlen
    rw [List.flatMap_cons, vec8, List.cons_append, List.cons_append, List.append_assoc] at h
    have hbuf := length_of_drop h (List.cons_ne_nil _ _)
    rw [List.length_cons, List.length_append] at hbuf
    have hnext := drop_succ_of_drop h
    have hsize : (UInt8.ofNat proto.length).toNat = proto.length := by
      rw [UInt8.toNat_ofNat', Nat.mod_eq_of_lt hproto]
    have hend : p + ((proto :: protocols).flatMap vec8).length
        = p + 1 + proto.length + (protocols.flatMap vec8).length := by
      rw [List.flatMap_cons, List.length_append, vec8, List.length_cons]
      omega
    rw [alpnGo, if_pos (by omega), index_of_drop h, ok_bind, hsize, if_pos (by omega),
      range_of_drop (by omega) hnext, ok_bind, hend, ih hlen _ (drop_add_of_drop hnext), Bool.or_assoc]
    congr 2
    simp only [List.mem_cons, eq_comm (a := proto), Bool.decide_or]

/-- **The name** of a `server_name` extension is found in its data, wherever these stand and whatever other names are
    behind it. -/
theorem sniName_data {buf rest : Bytes} {pos : Nat} {name : Str} {others : Bytes}
    (hok : (Extension.serverName name others).Ok)
    (h : buf.drop pos = (Extension.serverName name others).data ++ rest) (sni : Option Str) :
    sniName buf pos (pos + (Extension.serverName name others).data.length) sni = .ok (some name) := by
  have hlen : (Extension.serverName name others).data.length = 5 + (utf8 name).length + others.length := by
    simp only [Extension.data, vec16, List.length_append, List.length_cons, length_beBytes]
    omega
  have hsmall : (Extension.serverName name others).data.length < 2 ^ 16 := hok
  simp only [Extension.data, vec16, List.append_assoc, List.cons_append] at h
  have htype := drop_add_of_drop h
  rw [length_beBytes] at htype
  have hlength := drop_succ_of_drop htype
  have hname := drop_add_of_drop hlength
  rw [length_beBytes] at hname
  have hbuf := length_of_drop htype (List.cons_ne_nil _ _)
  simp only [List.length_cons, List.length_append, length_beBytes] at hbuf
  rw [sniName, if_pos (by omega), index_of_drop htype, ok_bind, if_pos rfl, if_pos (by omega),
    be16_of_drop (by omega) hlength, ok_bind, if_pos (by omega), range_of_drop (by omega) hname, ok_bind,
    fromUtf8_utf8]
  rfl

/-- **One extension**: its name, if it has one, and whether it has the protocol. -/
theorem sniffExtension_data {buf rest : Bytes} {pos : Nat} {ext : Extension} (hok : ext.Ok)
    (h : buf.drop pos = ext.data ++ rest) (sni : Option Str) (isH2 : Bool) :
    sniffExtension buf ext.extType.toNat pos (pos + ext.data.length) sni isH2
      = .ok (ext.name?.or sni, isH2 || decide (utf8 "h2".toList ∈ ext.protocols)) := by
  have hnone : decide (utf8 "h2".toList ∈ ([] : List Bytes)) = false := rfl
  cases ext with
  | serverName name others =>
    have hlen : 2 ≤ (Extension.serverName name others).data.length := by
      simp only [Extension.data, vec16, List.length_append, length_beBytes]
      omega
    rw [sniffExtension, if_pos ⟨rfl, by omega⟩, sniName_data hok h, ok_bind, Extension.protocols, hnone,
      Bool.or_false]
    rfl
  | alpn protocols =>
    obtain ⟨hprotocols, hsmall⟩ := hok
    have hlen : (Extension.alpn protocols).data.length = 2 + (protocols.flatMap vec8).length := by
      simp only [Extension.data, vec16, List.length_append, length_beBytes]
    rw [Extension.data, vec16, List.append_assoc] at h
    have hlist := drop_add_of_drop h
    rw [length_beBytes] at hlist
    rw [vec16, List.length_append, length_beBytes] at hsmall
    have hend : min (pos + 2 + (protocols.flatMap vec8).length) (pos + (Extension.alpn protocols).data.length)
        = pos + 2 + (protocols.flatMap vec8).length := by omega
    rw [sniffExtension, if_neg (by rintro ⟨heq, -⟩; cases heq), if_pos ⟨rfl, by omega⟩,
      be16_of_drop (by omega) h, ok_bind, hend, alpnGo_protocols hprotocols isH2 hlist, ok_bind]
    rfl
  | other extType data =>
    obtain ⟨hname, halpn, -⟩ := hok
    rw [sniffExtension, if_neg fun heq => hname (UInt16.toNat_inj.mp heq.1),
      if_neg fun heq => halpn (UInt16.toNat_inj.mp heq.1), Extension.protocols, hnone, Bool.or_false]
    rfl

theorem length_data_of_ok {ext : Extension} (hok : ext.Ok) : ext.data.length < 2 ^ 16 := by
  cases ext with
  | serverName name others => exact hok
  | alpn protocols => exact hok.2
  | other extType data => exact hok.2.2

/-- With one name at most, the first name is the one that was read last. -/
theorem names_cons {sni : Option Str} {ext : Extension} {exts : List Extension}
    (h : (sni.toList ++ (ext :: exts).filterMap Extension.name?).length ≤ 1) :
    sni.toList ++ (ext :: exts).filterMap Extension.name?
      = (ext.name?.or sni).toList ++ exts.filterMap Extension.name? := by
  cases hname : ext.name? with
  | none => rw [List.filterMap_cons_none hname, Option.none_or]
  | some name =>
    rw [List.filterMap_cons_some hname] at h ⊢
    cases sni with
    | none => rfl
    | some name' =>
      rw [List.length_append, List.length_cons, Option.toList_some, List.length_singleton] at h
      omega

/-- **The extensions**, in whatever order: the loop may leave early, when it has found both. -/
theorem extensionsGo_extensions {buf rest : Bytes} {pos : Nat} {exts : List Extension}
    (hok : ∀ ext ∈ exts, ext.Ok) (sni : Option Str) (isH2 : Bool)
    (hnames : (sni.toList ++ exts.filterMap Extension.name?).length ≤ 1)
    (h : buf.drop pos = exts.flatMap Extension.bytes ++ rest) :
    (extensionsGo buf (pos + (exts.flatMap Extension.bytes).length) pos sni isH2).map
        (fun found => found.1.map fun name => (name, found.2))
      = .ok ((sni.toList ++ exts.filterMap Extension.name?).head?.map fun name =>
        (name, isH2 || decide (utf8 "h2".toList ∈ exts.flatMap Extension.protocols))) := by
  induction exts generalizing pos sni isH2 with
  | nil =>
    rw [extensionsGo, if_neg (by rw [List.flatMap_nil, List.length_nil]; omega)]
    cases sni <;> simp [Except.map, pure, Except.pure]
  | cons ext exts ih =>
    rw [List.forall_mem_cons] at hok
    obtain ⟨hext, hok⟩ := hok
    -- this extension has the name, or the ones before or behind it do
    have hcons := names_cons hnames
    rw [hcons] at hnames ⊢
    rw [List.flatMap_cons, Extension.bytes, vec16] at h
    simp only [List.append_assoc] at h
    have hlength := drop_add_of_drop h
    rw [length_beBytes] at hlength
    have hdata : buf.drop (pos + 4) = ext.data ++ (exts.flatMap Extension.bytes ++ rest) := by
      have hdrop := drop_add_of_drop hlength
      rwa [length_beBytes] at hdrop
    have hrest := drop_add_of_drop hdata
    -- the end that the loop runs to is behind the rest of the extensions
    have hend : pos + ((ext :: exts).flatMap Extension.bytes).length
        = pos + 4 + ext.data.length + (exts.flatMap Extension.bytes).length := by
      simp only [List.flatMap_cons, Extension.bytes, vec16, List.length_append, length_beBytes]
      omega
    rw [extensionsGo, hend, if_pos (by omega), be16_of_drop ext.extType.toNat_lt h, ok_bind,
      be16_of_drop (length_data_of_ok hext) hlength, ok_bind, min_eq_left (by omega)]
    dsimp only
    rw [sniffExtension_data hext hdata, ok_bind]
    rw [List.flatMap_cons]
    simp only [List.mem_append, Bool.decide_or]
    rw [← Bool.or_assoc]
    set sni' := ext.name?.or sni
    set isH2' := isH2 || decide (utf8 "h2".toList ∈ ext.protocols)
    split
    · -- the loop ends early: name and protocol are found, and there is no second name
      rename_i hboth
      obtain ⟨hsome, hh2⟩ := Bool.and_eq_true_iff.mp hboth
      obtain ⟨name, hname⟩ := Option.isSome_iff_exists.mp hsome
      rw [hname, hh2, Bool.true_or]
      rfl
    · exact ih hok sni' isH2' hnames hrest

/-! ### A `ClientHello` -/

theorem read_vec8 {buf bs rest : Bytes} {pos : Nat} (hbs : bs.length < 2 ^ 8)
    (h : buf.drop pos = vec8 bs ++ rest) :
    (∃ b, index buf pos = .ok b ∧ b.toNat = bs.length) ∧ buf.drop (pos + (1 + bs.length)) = rest := by
  have hdrop := drop_add_of_drop h
  rw [vec8, List.length_cons, Nat.add_comm bs.length] at hdrop
  refine ⟨⟨UInt8.ofNat bs.length, index_of_drop h, ?_⟩, hdrop⟩
  rw [UInt8.toNat_ofNat', Nat.mod_eq_of_lt hbs]

theorem read_vec16 {buf bs rest : Bytes} {pos : Nat} (hbs : bs.length < 2 ^ 16)
    (h : buf.drop pos = vec16 bs ++ rest) :
    be16 buf pos = .ok bs.length ∧ buf.drop (pos + (2 + bs.length)) = rest := by
  have hdrop := drop_add_of_drop h
  rw [vec16, List.append_assoc] at h
  rw [vec16, List.length_append, length_beBytes] at hdrop
  exact ⟨be16_of_drop hbs h, hdrop⟩

/-- What is sniffed in a `ClientHello` with this name and these protocols. -/
def helloResult (name : Str) (protocols : List Bytes) : SniffResult :=
  ⟨some name, if utf8 "h2".toList ∈ protocols then "h2".toList else "tls".toList⟩

/-- Where the fields of a record are that the code looks at by their positions, and what is left behind them. -/
theorem record_fields (hello : ClientHello) (minor : UInt8) (rest : Bytes) :
    (hello.record minor ++ rest)[0]? = some 0x16 ∧ (hello.record minor ++ rest)[1]? = some 0x03 ∧
      (hello.record minor ++ rest)[5]? = some 0x01 ∧
      (hello.record minor ++ rest).drop 43
        = vec8 hello.sessionId ++ (vec16 hello.cipherSuites ++ (vec8 hello.compressionMethods
          ++ (vec16 (hello.extensions.flatMap Extension.bytes) ++ rest))) := by
  have h3 : (hello.record minor ++ rest).drop 3 = beBytes 2 (4 + hello.body.length) ++ 0x01 ::
      (beBytes 3 hello.body.length ++ (hello.body ++ rest)) := by
    rw [ClientHello.record, vec16, List.length_cons, List.length_append, length_beBytes, Nat.add_right_comm]
    simp only [List.cons_append, List.append_assoc]
    rfl
  have h5 := drop_add_of_drop h3
  rw [length_beBytes] at h5
  have h6 := drop_succ_of_drop h5
  have h9 := drop_add_of_drop h6
  rw [length_beBytes, ClientHello.body] at h9
  simp only [List.append_assoc] at h9
  have h11 := drop_add_of_drop h9
  rw [length_beBytes] at h11
  have h43 := drop_add_of_drop h11
  rw [hello.length_random] at h43
  refine ⟨rfl, rfl, ?_, h43⟩
  rw [show 5 = 3 + 2 + 0 from rfl, ← List.getElem?_drop, h5]
  rfl

/-- **A `ClientHello`** is read from its fields on; what the record says of its version and its length is not
    looked at. -/
theorem tryTls_of_fields {buf rest : Bytes} {hello : ClientHello} {name : Str}
    (hname : hello.serverNames = [name]) (h0 : buf[0]? = some 0x16) (h1 : buf[1]? = some 0x03)
    (h5 : buf[5]? = some 0x01)
    (h43 : buf.drop 43 = vec8 hello.sessionId ++ (vec16 hello.cipherSuites ++ (vec8 hello.compressionMethods
      ++ (vec16 (hello.extensions.flatMap Extension.bytes) ++ rest)))) :
    tryTls buf = .ok (some (helloResult name hello.protocols)) := by
  have hlength := length_of_drop h43 (List.cons_ne_nil _ _)
  simp only [List.length_append, vec8, vec16, List.length_cons, length_beBytes] at hlength
  -- the lengths of the fields, each of which says where the next one starts
  obtain ⟨⟨sidLen, hsid, hsidLen⟩, hsuites⟩ := read_vec8 hello.length_sessionId h43
  obtain ⟨hsuitesLen, hmethods⟩ := read_vec16 hello.length_cipherSuites hsuites
  obtain ⟨⟨methodsLen, hmethodsAt, hmethodsLen⟩, hexts⟩ := read_vec8 hello.length_compressionMethods hmethods
  obtain ⟨hextsLen, -⟩ := read_vec16 hello.length_extensions hexts
  rw [vec16, List.append_assoc] at hexts
  have hextsAt := drop_add_of_drop hexts
  rw [length_beBytes] at hextsAt
  have hnames : none.toList ++ hello.extensions.filterMap Extension.name? = [name] := hname
  have hfound := extensionsGo_extensions hello.extensions_ok none false
    (by rw [hnames, List.length_singleton]) hextsAt
  rw [hnames, Bool.false_or] at hfound
  rw [tryTls, if_neg (by omega), index_of_getElem? h0, ok_bind, index_of_getElem? h1, ok_bind,
    if_neg (by simp), index_of_getElem? h5, ok_bind, if_neg (by simp)]
  dsimp only
  rw [if_neg (by omega), hsid, ok_bind, hsidLen, if_neg (by omega), hsuitesLen, ok_bind, if_neg (by omega),
    hmethodsAt, ok_bind, hmethodsLen, if_neg (by omega), hextsLen, ok_bind, min_eq_left (by omega)]
  -- what the loop over the extensions has found is made into the result
  generalize extensionsGo buf _ _ none false = found at hfound ⊢
  match found with
  | .error e => cases hfound
  | .ok (sni, isH2) =>
    obtain ⟨name', rfl, heq⟩ := Option.map_eq_some_iff.mp (Except.ok.inj hfound)
    obtain ⟨rfl, rfl⟩ := Prod.mk.inj heq
    rw [ok_bind, helloResult, ClientHello.protocols]
    simp only [Option.map_some, decide_eq_true_eq]
    rfl

/-- **A record**, whatever the other fields of its `ClientHello` and the order of its extensions. -/
theorem tryTls_record {hello : ClientHello} {name : Str} (hname : hello.serverNames = [name]) (minor : UInt8)
    (rest : Bytes) :
    tryTls (hello.record minor ++ rest) = .ok (some (helloResult name hello.protocols)) := by
  obtain ⟨h0, h1, h5, h43⟩ := record_fields hello minor rest
  exact tryTls_of_fields hname h0 h1 h5 h43

end Reflex.App
