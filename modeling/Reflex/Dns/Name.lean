import Reflex.Dns.Cache

namespace Reflex.Dns

open RustStd

/-!
# DNS — names on the wire and the keys of the cache

A name on the wire is a sequence of labels of arbitrary bytes, and a compression pointer continues
it elsewhere in the message.  The cache keys a message by a text: labels decoded lossily, joined
with dots and folded to lower case, up to the first pointer.

* `wireName` — the name of a question with its pointers followed;
* `cacheKey_eq_iff` — two messages have one key when their labels, cut at the dots inside them,
  read alike;
* `cacheKey_faithful_iff` — when equal keys mean equal questions.
-/

/-! ### Names -/

/-- The labels the loop of `extract_qname` visits, as they are on the wire. -/
def byteLabels : Bytes → Option (List Bytes)
  | [] => none
  | len :: rest =>
      if len = 0 then some []
      else if len &&& 0xC0 = 0xC0 then some []
      else if rest.length < len.toNat then none
      else (byteLabels (rest.drop len.toNat)).map fun labels => rest.take len.toNat :: labels
termination_by bs => bs.length
decreasing_by
  rw [List.length_drop, List.length_cons]
  omega

/-- A name up to its end or its first pointer: the labels, and the offset in the low fourteen bits
    of the pointer. -/
def nameStretch : Bytes → Option (List Bytes × Option Nat)
  | [] => none
  | len :: rest =>
      if len = 0 then some ([], none)
      else if len &&& 0xC0 = 0xC0 then
        rest.head?.map fun lo => ([], some ((len &&& 0x3F).toNat * 256 + lo.toNat))
      else if rest.length < len.toNat then none
      else (nameStretch (rest.drop len.toNat)).map fun stretch =>
        (rest.take len.toNat :: stretch.1, stretch.2)
termination_by bs => bs.length
decreasing_by
  rw [List.length_drop, List.length_cons]
  omega

/-- The name that starts with the given rest of `msg`: a pointer continues it at its offset.
    `jumps` bounds how many pointers are followed. -/
def nameFrom (msg : Bytes) : Nat → Bytes → Option (List Bytes)
  | jumps, bs =>
      match nameStretch bs with
      | none => none
      | some (labels, none) => some labels
      | some (labels, some offset) =>
          match jumps with
          | 0 => none
          | jumps + 1 => (nameFrom msg jumps (msg.drop offset)).map (labels ++ ·)

/-- The name of the question.  A chain of more pointers than the message has bytes runs in a
    circle. -/
def wireName (msg : Bytes) : Option (List Bytes) := nameFrom msg msg.length (msg.drop 12)

/-- The question section parses, and asks for `name` and `qtype`. -/
structure Asks (msg : Bytes) (name : List Bytes) (qtype : UInt16) : Prop where
  name : wireName msg = some name
  qtype : extractQtype msg = some qtype

/-- The ASCII case fold of a byte. -/
def lowerByte (b : UInt8) : UInt8 := if 0x41 ≤ b ∧ b ≤ 0x5A then b + 0x20 else b

/-- Names that agree label by label up to ASCII case. -/
def SameName (n₁ n₂ : List Bytes) : Prop :=
  n₁.map (List.map lowerByte) = n₂.map (List.map lowerByte)

instance (n₁ n₂ : List Bytes) : Decidable (SameName n₁ n₂) :=
  inferInstanceAs (Decidable (_ = _))

/-- The name is there for the source to read as it is: no label stands behind a pointer, every
    label is UTF-8, and none has a dot in it. -/
structure Plain (msg : Bytes) (name : List Bytes) : Prop where
  visible : byteLabels (msg.drop 12) = some name
  utf8 : ∀ label ∈ name, (fromUtf8 label).isSome
  dotFree : ∀ label ∈ name, 0x2E ∉ label

/-- The texts a list of labels reads as once they are cut at every dot. -/
def dotPieces (labels : List Bytes) : List Str :=
  labels.flatMap fun label => (toAsciiLowercase (fromUtf8Lossy label)).splitOn '.'

/-- The texts a message's name reads as; what is behind a pointer is not read. -/
def readAs (msg : Bytes) : Option (List Str) := (byteLabels (msg.drop 12)).map dotPieces

/-! ### What the source reads -/

/-- The loop of `extract_qname` decodes the labels it visits. -/
theorem qnameLabels_eq (bs : Bytes) :
    qnameLabels bs = (byteLabels bs).map (List.map fromUtf8Lossy) := by
  induction bs using byteLabels.induct with
  | case1 => rw [qnameLabels, byteLabels, Option.map_none]
  | case2 rest =>
    rw [qnameLabels, byteLabels, if_pos rfl, if_pos rfl]
    rfl
  | case3 len rest hlen hptr =>
    rw [qnameLabels, byteLabels, if_neg hlen, if_neg hlen, if_pos hptr, if_pos hptr]
    rfl
  | case4 len rest hlen hptr hshort =>
    rw [qnameLabels, byteLabels, if_neg hlen, if_neg hlen, if_neg hptr, if_neg hptr,
      if_pos hshort, if_pos hshort]
    rfl
  | case5 len rest hlen hptr hshort ih =>
    rw [qnameLabels, byteLabels, if_neg hlen, if_neg hlen, if_neg hptr, if_neg hptr,
      if_neg hshort, if_neg hshort, ih, Option.map_map, Option.map_map]
    rfl

/-- Labels on the wire are not empty. -/
theorem nil_notMem_byteLabels {bs : Bytes} {labels : List Bytes}
    (h : byteLabels bs = some labels) : [] ∉ labels := by
  induction bs using byteLabels.induct generalizing labels with
  | case1 => simp [byteLabels] at h
  | case2 rest =>
    rw [byteLabels, if_pos rfl] at h
    simp [← Option.some.inj h]
  | case3 len rest hlen hptr =>
    rw [byteLabels, if_neg hlen, if_pos hptr] at h
    simp [← Option.some.inj h]
  | case4 len rest hlen hptr hshort =>
    rw [byteLabels, if_neg hlen, if_neg hptr, if_pos hshort] at h
    cases h
  | case5 len rest hlen hptr hshort ih =>
    rw [byteLabels, if_neg hlen, if_neg hptr, if_neg hshort, Option.map_eq_some_iff] at h
    obtain ⟨tail, htail, rfl⟩ := h
    rw [List.mem_cons, not_or]
    refine ⟨?_, ih htail⟩
    have hpos : len.toNat ≠ 0 := fun h0 => hlen (UInt8.toNat_inj.mp h0)
    intro hnil
    have := congrArg List.length hnil
    rw [List.length_nil, List.length_take] at this
    omega

/-- The labels of a name up to its first pointer are those the source visits. -/
theorem byteLabels_of_nameStretch {bs : Bytes} {stretch : List Bytes × Option Nat}
    (h : nameStretch bs = some stretch) : byteLabels bs = some stretch.1 := by
  induction bs using byteLabels.induct generalizing stretch with
  | case1 => simp [nameStretch] at h
  | case2 rest =>
    rw [nameStretch, if_pos rfl] at h
    rw [byteLabels, if_pos rfl, ← Option.some.inj h]
  | case3 len rest hlen hptr =>
    rw [nameStretch, if_neg hlen, if_pos hptr, Option.map_eq_some_iff] at h
    obtain ⟨lo, -, rfl⟩ := h
    rw [byteLabels, if_neg hlen, if_pos hptr]
  | case4 len rest hlen hptr hshort =>
    rw [nameStretch, if_neg hlen, if_neg hptr, if_pos hshort] at h
    cases h
  | case5 len rest hlen hptr hshort ih =>
    rw [nameStretch, if_neg hlen, if_neg hptr, if_neg hshort, Option.map_eq_some_iff] at h
    obtain ⟨tail, htail, rfl⟩ := h
    rw [byteLabels, if_neg hlen, if_neg hptr, if_neg hshort, ih htail, Option.map_some]

/-- Where a name parses, the source has labels to visit. -/
theorem exists_byteLabels {msg : Bytes} {name : List Bytes} (h : wireName msg = some name) :
    ∃ labels, byteLabels (msg.drop 12) = some labels := by
  rw [wireName, nameFrom.eq_def] at h
  rcases hstretch : nameStretch (msg.drop 12) with _ | stretch
  · simp only [hstretch] at h
    cases h
  · exact ⟨stretch.1, byteLabels_of_nameStretch hstretch⟩

/-- The name part of a key is the folded text of the labels. -/
theorem cacheKey_of_byteLabels {msg : Bytes} {labels : List Bytes} (transport : Str)
    (h : byteLabels (msg.drop 12) = some labels) :
    (cacheKey transport msg).qname
      = join ['.'] (labels.map fun label => toAsciiLowercase (fromUtf8Lossy label)) := by
  have hqname : (extractQname msg).getD [] = join ['.'] (labels.map fromUtf8Lossy) := by
    rw [extractQname_eq, qnameLabels_eq, h]
    cases labels with
    | nil => rfl
    | cons label labels => rfl
  show toAsciiLowercase ((extractQname msg).getD []) = _
  rw [hqname, toAsciiLowercase_join, List.map_map]
  rfl

/-- **Keys.** Two questions that parse have one key when they have one type and their labels, cut at
    the dots inside them, read alike. -/
theorem cacheKey_eq_iff (transport : Str) {q₁ q₂ : Bytes} {n₁ n₂ : List Bytes} {t₁ t₂ : UInt16}
    (h₁ : Asks q₁ n₁ t₁) (h₂ : Asks q₂ n₂ t₂) :
    cacheKey transport q₁ = cacheKey transport q₂ ↔ t₁ = t₂ ∧ readAs q₁ = readAs q₂ := by
  obtain ⟨l₁, hl₁⟩ := exists_byteLabels h₁.name
  obtain ⟨l₂, hl₂⟩ := exists_byteLabels h₂.name
  -- no label becomes empty, so the joined names are equal only if the labels are
  have hnil : ∀ {bs : Bytes} {labels : List Bytes}, byteLabels bs = some labels →
      [] ∉ labels.map fun label => toAsciiLowercase (fromUtf8Lossy label) := by
    intro bs labels hlabels hmem
    obtain ⟨label, hlabel, hempty⟩ := List.mem_map.mp hmem
    have hne : label ≠ [] := fun h => nil_notMem_byteLabels hlabels (h ▸ hlabel)
    exact fromUtf8Lossy_ne_nil hne (List.map_eq_nil_iff.mp hempty)
  have hqname : (cacheKey transport q₁).qname = (cacheKey transport q₂).qname ↔
      readAs q₁ = readAs q₂ := by
    rw [cacheKey_of_byteLabels transport hl₁, cacheKey_of_byteLabels transport hl₂,
      join_eq_join_iff '.' (hnil hl₁) (hnil hl₂), readAs, readAs, hl₁, hl₂, Option.map_some,
      Option.map_some, Option.some.injEq, List.flatMap_map, List.flatMap_map]
    rfl
  have hqtype : (cacheKey transport q₁).qtype = (cacheKey transport q₂).qtype ↔ t₁ = t₂ := by
    show (extractQtype q₁).getD 1 = (extractQtype q₂).getD 1 ↔ _
    rw [h₁.qtype, h₂.qtype]
    rfl
  rw [← hqname, ← hqtype]
  constructor
  · intro h
    exact ⟨congrArg CacheKey.qtype h, congrArg CacheKey.qname h⟩
  · rintro ⟨hqt, hqn⟩
    show CacheKey.mk transport (cacheKey transport q₁).qname (cacheKey transport q₁).qtype = _
    rw [hqn, hqt]
    rfl

/-! ### Plain names -/

theorem lowerByte_of_not_upper {b : UInt8} (h : ¬ (0x41 ≤ b ∧ b ≤ 0x5A)) : lowerByte b = b :=
  if_neg h

theorem eq_dot_of_lowerByte {b : UInt8} (h : lowerByte b = 0x2E) : b = 0x2E := by
  unfold lowerByte at h
  split at h
  · rename_i hupper
    have hlow : 65 ≤ b.toNat := UInt8.le_iff_toNat_le.mp hupper.1
    have hhigh : b.toNat ≤ 90 := UInt8.le_iff_toNat_le.mp hupper.2
    have hsum : (b.toNat + 32) % 256 = 46 := by
      simpa [UInt8.toNat_add] using congrArg UInt8.toNat h
    omega
  · exact h

/-- Folding a character folds its encoding byte by byte. -/
theorem utf8EncodeChar_toLower (c : Char) :
    String.utf8EncodeChar c.toLower = (String.utf8EncodeChar c).map lowerByte := by
  by_cases hupper : c.isUpper = true
  · have hrange : c.val ≥ 'A'.val ∧ c.val ≤ 'Z'.val := of_decide_eq_true hupper
    have hlow : 65 ≤ c.toNat := UInt32.le_iff_toNat_le.mp hrange.1
    have hhigh : c.toNat ≤ 90 := UInt32.le_iff_toNat_le.mp hrange.2
    -- the 26 letters, one by one
    have hall : ∀ n < 26, String.utf8EncodeChar (Char.ofNat (65 + n)).toLower
        = (String.utf8EncodeChar (Char.ofNat (65 + n))).map lowerByte := by decide
    have := hall (c.toNat - 65) (by omega)
    rwa [Nat.add_sub_cancel' hlow, Char.ofNat_toNat] at this
  · rw [toLower_of_not_isUpper (by simpa using hupper)]
    have hbyte : ∀ b ∈ String.utf8EncodeChar c, lowerByte b = id b := by
      intro b hb
      apply lowerByte_of_not_upper
      rintro ⟨hlow, hhigh⟩
      have hlow' : 65 ≤ b.toNat := UInt8.le_iff_toNat_le.mp hlow
      have hhigh' : b.toNat ≤ 90 := UInt8.le_iff_toNat_le.mp hhigh
      -- a byte in this range is the character itself
      have hc := ascii_mem_utf8EncodeChar (by omega) hb
      apply hupper
      have hval : c.val.toNat = b.toNat := hc
      show decide (c.val ≥ 'A'.val ∧ c.val ≤ 'Z'.val) = true
      simp only [ge_iff_le, decide_eq_true_eq, UInt32.le_iff_toNat_le, hval]
      exact ⟨hlow', hhigh'⟩
    rw [List.map_congr_left hbyte, List.map_id]

theorem utf8_toAsciiLowercase (s : Str) : utf8 (toAsciiLowercase s) = (utf8 s).map lowerByte := by
  induction s with
  | nil => rfl
  | cons c s ih =>
    have hcons : toAsciiLowercase (c :: s) = c.toLower :: toAsciiLowercase s := rfl
    rw [hcons, utf8_cons, utf8_cons, List.map_append, ih, utf8EncodeChar_toLower]

/-- A plain label is one piece, and the encoding of that piece is the folded label. -/
theorem dotPieces_label {label : Bytes} (hutf8 : (fromUtf8 label).isSome) (hdot : 0x2E ∉ label) :
    ∃ s, (toAsciiLowercase (fromUtf8Lossy label)).splitOn '.' = [s] ∧
      utf8 s = label.map lowerByte := by
  obtain ⟨s, hs⟩ := Option.isSome_iff_exists.mp hutf8
  obtain rfl := (fromUtf8_eq_some_iff label s).mp hs
  rw [fromUtf8Lossy_utf8]
  refine ⟨toAsciiLowercase s, List.splitOn_eq_singleton ?_, utf8_toAsciiLowercase s⟩
  intro hmem
  -- the dot would be a byte of the folded label, and folding makes no dots
  have hbyte : 0x2E ∈ utf8 (toAsciiLowercase s) := List.mem_flatMap.mpr ⟨'.', hmem, by decide⟩
  rw [utf8_toAsciiLowercase, List.mem_map] at hbyte
  obtain ⟨b, hb, hlower⟩ := hbyte
  exact hdot (eq_dot_of_lowerByte hlower ▸ hb)

/-- The encodings of the pieces of plain labels are the folded labels. -/
theorem map_utf8_dotPieces {labels : List Bytes} (hutf8 : ∀ label ∈ labels, (fromUtf8 label).isSome)
    (hdot : ∀ label ∈ labels, 0x2E ∉ label) :
    (dotPieces labels).map utf8 = labels.map (List.map lowerByte) := by
  induction labels with
  | nil => rfl
  | cons label labels ih =>
    obtain ⟨s, hsplit, henc⟩ := dotPieces_label (hutf8 label (by simp)) (hdot label (by simp))
    have htail := ih (fun l hl => hutf8 l (by simp [hl])) (fun l hl => hdot l (by simp [hl]))
    have hcons : dotPieces (label :: labels) = s :: dotPieces labels := by
      rw [dotPieces, List.flatMap_cons, hsplit]
      rfl
    rw [hcons, List.map_cons, List.map_cons, henc, htail]

/-- Plain names read alike exactly when they are the same name. -/
theorem readAs_eq_iff_sameName {q₁ q₂ : Bytes} {n₁ n₂ : List Bytes} (h₁ : Plain q₁ n₁)
    (h₂ : Plain q₂ n₂) : readAs q₁ = readAs q₂ ↔ SameName n₁ n₂ := by
  rw [readAs, readAs, h₁.visible, h₂.visible, Option.map_some, Option.map_some, Option.some.injEq,
    SameName, ← map_utf8_dotPieces h₁.utf8 h₁.dotFree, ← map_utf8_dotPieces h₂.utf8 h₂.dotFree]
  exact (List.map_injective_iff.mpr utf8_injective).eq_iff.symm

/-! ### Faithful keys -/

/-- **When equal keys mean equal questions.** For two questions that parse, the key keeps them apart
    exactly when questions of one type whose labels read alike are the same; for names written
    plainly that is always so, and the key then decides the question. -/
theorem cacheKey_faithful_iff (transport : Str) (q₁ q₂ : Bytes) (n₁ n₂ : List Bytes)
    (t₁ t₂ : UInt16) (h₁ : Asks q₁ n₁ t₁) (h₂ : Asks q₂ n₂ t₂) :
    ((cacheKey transport q₁ = cacheKey transport q₂ → SameName n₁ n₂ ∧ t₁ = t₂) ↔
        (t₁ = t₂ → readAs q₁ = readAs q₂ → SameName n₁ n₂)) ∧
      (Plain q₁ n₁ → Plain q₂ n₂ →
        (cacheKey transport q₁ = cacheKey transport q₂ ↔ SameName n₁ n₂ ∧ t₁ = t₂)) := by
  rw [cacheKey_eq_iff transport h₁ h₂]
  constructor
  · constructor
    · intro h ht hread
      exact (h ⟨ht, hread⟩).1
    · rintro h ⟨ht, hread⟩
      exact ⟨h ht hread, ht⟩
  · intro hp₁ hp₂
    rw [readAs_eq_iff_sameName hp₁ hp₂, and_comm]

/-- A query for the IPv4 address of the name with the given labels. -/
def queryOf (labels : List Bytes) : Bytes :=
  [0, 1, 1, 0, 0, 1, 0, 0, 0, 0, 0, 0]
    ++ (labels.flatMap fun label => UInt8.ofNat label.length :: label) ++ [0, 0, 1, 0, 1]

/-- `a.b` in two spellings: the questions have one key, and the names are the same. -/
theorem cacheKey_faithful_a_b :
    ∃ n₁ n₂, cacheKey [] (queryOf [[0x61], [0x62]]) = cacheKey [] (queryOf [[0x41], [0x62]]) ∧
      Asks (queryOf [[0x61], [0x62]]) n₁ 1 ∧ Asks (queryOf [[0x41], [0x62]]) n₂ 1 ∧
      SameName n₁ n₂ := by
  have h₁ : Asks (queryOf [[0x61], [0x62]]) [[0x61], [0x62]] 1 := ⟨by decide +kernel, by decide +kernel⟩
  have h₂ : Asks (queryOf [[0x41], [0x62]]) [[0x41], [0x62]] 1 := ⟨by decide +kernel, by decide +kernel⟩
  have hp₁ : Plain (queryOf [[0x61], [0x62]]) [[0x61], [0x62]] :=
    ⟨by decide +kernel, by decide +kernel, by decide +kernel⟩
  have hp₂ : Plain (queryOf [[0x41], [0x62]]) [[0x41], [0x62]] :=
    ⟨by decide +kernel, by decide +kernel, by decide +kernel⟩
  have hkey : cacheKey [] (queryOf [[0x61], [0x62]]) = cacheKey [] (queryOf [[0x41], [0x62]]) := by
    decide +kernel
  have hsame := ((cacheKey_faithful_iff [] _ _ _ _ _ _ h₁ h₂).2 hp₁ hp₂).mp hkey
  exact ⟨_, _, hkey, h₁, h₂, hsame.1⟩

/-- The one label `a.b` has the key of the name with the labels `a` and `b`. -/
theorem cacheKey_not_faithful :
    ¬ ∀ (transport : Str) (q₁ q₂ : Bytes) (n₁ n₂ : List Bytes) (t₁ t₂ : UInt16),
      Asks q₁ n₁ t₁ → Asks q₂ n₂ t₂ → cacheKey transport q₁ = cacheKey transport q₂ →
        SameName n₁ n₂ ∧ t₁ = t₂ := by
  intro h
  have hbad := h [] (queryOf [[0x61, 0x2E, 0x62]]) (queryOf [[0x61], [0x62]])
    [[0x61, 0x2E, 0x62]] [[0x61], [0x62]] 1 1 ⟨by decide +kernel, by decide +kernel⟩
    ⟨by decide +kernel, by decide +kernel⟩ (by decide +kernel)
  exact absurd hbad.1 (by decide)

end Reflex.Dns
