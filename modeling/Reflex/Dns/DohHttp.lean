import Reflex.RustStd.Num
import Reflex.RustStd.Slice

namespace Reflex.Dns

open RustStd

/-!
# DNS — the answer of a DoH server over HTTP/1.1

`parse_doh_http_response` of `dns/upstream.rs`.  The end of the body is added up modulo `2 ^ 64`; a
range that ends before it starts is a panic.

* `statedLength` — the length that the header block states, a number of any size;
* `FirstBlankLine` — where the header block ends;
* `BodyAsStated` — no panic, and no other body than the stated one;
* `bodyAsStated_iff` — exactly when that holds.
-/

/-! ### The code -/

/-- How `parse_doh_http_response` fails. -/
inductive DohError where
  | message (text : Str)
  | panic
  deriving DecidableEq, Repr

/-- The end of a header block, `\r\n\r\n`. -/
def blankLine : Bytes := [13, 10, 13, 10]

/-- The test of `find` on a header line. -/
def isContentLength (line : Str) : Bool := "content-length:".toList <+: toAsciiLowercase line

/-- The text in which `parse` looks for a length. -/
def contentLengthText (headers : Str) : Option Str :=
  (((lines headers).find? isContentLength).bind (splitOnce ':')).map fun parts => trim parts.2

/-- `content_length`. -/
def contentLength (headers : Str) : Option Nat :=
  (contentLengthText headers).bind (parseUint (2 ^ 64 - 1))

/-- `status_line` of a response whose header block has `headerEnd` bytes. -/
def statusLine (resp : Bytes) (headerEnd : Nat) : Str :=
  (fromUtf8 (resp.take ((resp.idxOf? 13).getD headerEnd))).getD []

/-- `status_line.contains("200")`. -/
def isSuccess (resp : Bytes) (headerEnd : Nat) : Bool := "200".toList <:+: statusLine resp headerEnd

/-- The `body` that is cut out of a response. -/
def dohBody (resp : Bytes) (headerEnd : Nat) : Except DohError Bytes :=
  let bodyStart := headerEnd + 4
  match contentLength ((fromUtf8 (resp.take headerEnd)).getD []) with
  | some len =>
      let bodyEnd := (bodyStart + len) % 2 ^ 64
      if resp.length < bodyEnd then
        .error (.message ("DoH response body truncated (expected ".toList ++ display len
          ++ " bytes)".toList))
      else if bodyEnd < bodyStart then .error .panic
      else .ok (slice resp bodyStart (bodyEnd - bodyStart))
  | none => .ok (resp.drop bodyStart)

/-- `parse_doh_http_response`. -/
def parseDohHttpResponse (resp : Bytes) : Except DohError Bytes :=
  match windowsPosition blankLine resp with
  | none => .error (.message "malformed DoH HTTP response: no header boundary".toList)
  | some headerEnd =>
      if !isSuccess resp headerEnd then
        .error (.message ("DoH server returned non-200: ".toList ++ statusLine resp headerEnd))
      else do
        let body ← dohBody resp headerEnd
        if body = [] then .error (.message "DoH response body is empty".toList) else .ok body

/-! ### What a response says -/

/-- The length stated by the first `Content-Length` line of a header block.  Bytes that are no text
    do not hide it, and the number may have any size. -/
def statedLength (header : Bytes) : Option Nat :=
  (contentLengthText (fromUtf8Lossy header)).bind decimalValue

/-- The header block ends at the first blank line, behind which is `rest`. -/
def FirstBlankLine (resp header rest : Bytes) : Prop :=
  resp = header ++ blankLine ++ rest ∧ ∀ j < header.length, ¬ blankLine <+: resp.drop j

/-- The response does not make the code panic, and a body it yields is the one it states. -/
def BodyAsStated (resp : Bytes) : Prop :=
  parseDohHttpResponse resp ≠ .error .panic ∧
    ∀ body, parseDohHttpResponse resp = .ok body →
      ∃ header rest, FirstBlankLine resp header rest ∧
        match statedLength header with
        | some len => len ≤ rest.length ∧ body = rest.take len
        | none => body = rest

/-- The length that a successful response states can be added to the length of what stands before
    the body.  If it cannot be read, it is that of all the bytes there are, or there are none. -/
def LengthUsable (resp : Bytes) : Prop :=
  ∀ header rest len, FirstBlankLine resp header rest → isSuccess resp header.length →
    statedLength header = some len →
      if (fromUtf8 header).isSome ∧ len < 2 ^ 64 then header.length + 4 + len < 2 ^ 64
      else rest = [] ∨ rest.length = len

/-- The code reads a stated length if the whole header block is text and the length fits. -/
theorem contentLength_eq (header : Bytes) :
    contentLength ((fromUtf8 header).getD [])
      = (statedLength header).filter fun len => (fromUtf8 header).isSome ∧ len < 2 ^ 64 := by
  cases htext : fromUtf8 header with
  | none =>
    have hnil : contentLength [] = none := by decide
    simp [hnil]
  | some headers =>
    have hlossy : fromUtf8Lossy header = headers := by rw [fromUtf8Lossy, htext]
    rw [statedLength, hlossy, contentLength, Option.getD_some]
    cases contentLengthText headers with
    | none => rfl
    | some value =>
      have hfits : ∀ len : Nat, len ≤ 2 ^ 64 - 1 ↔ len < 2 ^ 64 := fun len => by omega
      simp only [Option.bind_some, parseUint_eq, Option.isSome_some, true_and, hfits]

section Response

variable {resp header rest : Bytes}

theorem exists_firstBlankLine {i : Nat} (h : windowsPosition blankLine resp = some i) :
    FirstBlankLine resp (resp.take i) (resp.drop (i + 4)) ∧ (resp.take i).length = i := by
  obtain ⟨⟨rest, hrest⟩, hbefore⟩ := windowsPosition_eq_some h
  have hlen : i + 4 ≤ resp.length := by
    have := congrArg List.length hrest
    simp only [blankLine, List.length_append, List.length_cons, List.length_nil,
      List.length_drop] at this
    omega
  have htake : (resp.take i).length = i := by
    rw [List.length_take]
    omega
  have hdrop : resp.drop (i + 4) = rest := by
    rw [← List.drop_drop, ← hrest]
    exact List.drop_left' rfl
  refine ⟨⟨?_, fun j hj => hbefore j (htake ▸ hj)⟩, htake⟩
  rw [hdrop, List.append_assoc, hrest, List.take_append_drop]

theorem FirstBlankLine.unique {header' rest' : Bytes} (h : FirstBlankLine resp header rest)
    (h' : FirstBlankLine resp header' rest') : header = header' ∧ rest = rest' := by
  have hat : ∀ {header rest : Bytes}, resp = header ++ blankLine ++ rest →
      blankLine <+: resp.drop header.length := by
    rintro header rest rfl
    rw [List.append_assoc, List.drop_left]
    exact List.prefix_append _ _
  have hlen : header.length = header'.length := by
    rcases Nat.lt_trichotomy header.length header'.length with hlt | heq | hlt
    · exact absurd (hat h.1) (h'.2 _ hlt)
    · exact heq
    · exact absurd (hat h'.1) (h.2 _ hlt)
  have heq := h.1.symm.trans h'.1
  rw [List.append_assoc, List.append_assoc] at heq
  obtain ⟨hheader, hrest⟩ := List.append_inj heq hlen
  exact ⟨hheader, List.append_cancel_left hrest⟩

theorem FirstBlankLine.length_eq (h : FirstBlankLine resp header rest) :
    resp.length = header.length + 4 + rest.length := by
  rw [h.1, List.length_append, List.length_append]
  rfl

theorem FirstBlankLine.take_eq (h : FirstBlankLine resp header rest) :
    resp.take header.length = header := by
  rw [h.1, List.append_assoc, List.take_left]

theorem FirstBlankLine.drop_eq (h : FirstBlankLine resp header rest) :
    resp.drop (header.length + 4) = rest := by
  rw [h.1]
  exact List.drop_left' (by rw [List.length_append]; rfl)

/-! ### The body -/

/-- Without a length that can be read, the body is everything that is left. -/
theorem dohBody_of_unread (h : FirstBlankLine resp header rest)
    (hlen : contentLength ((fromUtf8 header).getD []) = none) :
    dohBody resp header.length = .ok rest := by
  rw [dohBody, h.take_eq, hlen, h.drop_eq]

/-- A body with a length is that long, or reported as truncated. -/
theorem dohBody_of_lt {len : Nat} (h : FirstBlankLine resp header rest)
    (hlen : contentLength ((fromUtf8 header).getD []) = some len)
    (hlt : header.length + 4 + len < 2 ^ 64) :
    dohBody resp header.length
      = if rest.length < len then
          .error (.message ("DoH response body truncated (expected ".toList ++ display len
            ++ " bytes)".toList))
        else .ok (rest.take len) := by
  rw [dohBody, h.take_eq, hlen]
  simp only [Nat.mod_eq_of_lt hlt, h.length_eq, Nat.add_lt_add_iff_left]
  rw [if_neg (c := header.length + 4 + len < header.length + 4) (by omega),
    Nat.add_sub_cancel_left, slice, h.drop_eq]

/-- **The sum wraps around**, and the range ends before it starts. -/
theorem dohBody_of_overflow {len : Nat} (h : FirstBlankLine resp header rest)
    (hlen : contentLength ((fromUtf8 header).getD []) = some len) (hfits : len < 2 ^ 64)
    (hover : 2 ^ 64 ≤ header.length + 4 + len) :
    dohBody resp header.length = .error .panic := by
  have hend : (header.length + 4 + len) % 2 ^ 64 < header.length + 4 := by
    rcases Nat.lt_or_ge (header.length + 4) (2 ^ 64) with hlt | hge
    · rw [Nat.mod_eq_sub_mod hover, Nat.mod_eq_of_lt (by omega)]
      omega
    · exact lt_of_lt_of_le (Nat.mod_lt _ (by decide)) hge
  rw [dohBody, h.take_eq, hlen]
  simp only [h.length_eq]
  rw [if_neg (by omega), if_pos hend]

/-! ### When the body is the stated one -/

theorem bodyAsStated_of_message {text : Str}
    (h : parseDohHttpResponse resp = .error (.message text)) : BodyAsStated resp := by
  rw [BodyAsStated, h]
  exact ⟨by simp, fun body hbody => by cases hbody⟩

/-- The only header block is the one that ends at the first blank line. -/
theorem FirstBlankLine.lengthUsable_iff (h : FirstBlankLine resp header rest) :
    LengthUsable resp ↔ (isSuccess resp header.length → ∀ len, statedLength header = some len →
      if (fromUtf8 header).isSome ∧ len < 2 ^ 64 then header.length + 4 + len < 2 ^ 64
      else rest = [] ∨ rest.length = len) := by
  constructor
  · exact fun husable hstatus len => husable header rest len h hstatus
  · intro husable header' rest' len h' hstatus hlen
    obtain ⟨rfl, rfl⟩ := h.unique h'
    exact husable hstatus len hlen

theorem FirstBlankLine.bodyAsStated_iff_of_ok {body : Bytes} (h : FirstBlankLine resp header rest)
    (hparse : parseDohHttpResponse resp = .ok body) :
    BodyAsStated resp ↔ match statedLength header with
      | some len => len ≤ rest.length ∧ body = rest.take len
      | none => body = rest := by
  rw [BodyAsStated, hparse]
  constructor
  · rintro ⟨-, hbody⟩
    obtain ⟨header', rest', h', hstated⟩ := hbody body rfl
    obtain ⟨rfl, rfl⟩ := h.unique h'
    exact hstated
  · intro hstated
    refine ⟨by simp, fun body' hbody => ?_⟩
    obtain rfl := Except.ok.inj hbody
    exact ⟨header, rest, h, hstated⟩

/-- A response that is cut to nothing is an error, and any other body is returned. -/
theorem parseDohHttpResponse_of_ok {body : Bytes}
    (hpos : windowsPosition blankLine resp = some header.length)
    (hstatus : isSuccess resp header.length) (hbody : dohBody resp header.length = .ok body) :
    parseDohHttpResponse resp
      = if body = [] then .error (.message "DoH response body is empty".toList) else .ok body := by
  rw [parseDohHttpResponse, hpos]
  simp only [hstatus, hbody]
  rfl

theorem parseDohHttpResponse_of_error {e : DohError}
    (hpos : windowsPosition blankLine resp = some header.length)
    (hstatus : isSuccess resp header.length) (hbody : dohBody resp header.length = .error e) :
    parseDohHttpResponse resp = .error e := by
  rw [parseDohHttpResponse, hpos]
  simp only [hstatus, hbody]
  rfl

/-- **A length that is not read**: everything that is left is returned. -/
theorem bodyAsStated_iff_of_unread (h : FirstBlankLine resp header rest)
    (hpos : windowsPosition blankLine resp = some header.length)
    (hstatus : isSuccess resp header.length)
    (hunread : contentLength ((fromUtf8 header).getD []) = none) :
    BodyAsStated resp ↔ ∀ len, statedLength header = some len → rest = [] ∨ rest.length = len := by
  have hparse := parseDohHttpResponse_of_ok hpos hstatus (dohBody_of_unread h hunread)
  by_cases hrest : rest = []
  · rw [if_pos hrest] at hparse
    exact iff_of_true (bodyAsStated_of_message hparse) fun _ _ => .inl hrest
  · rw [if_neg hrest] at hparse
    rw [h.bodyAsStated_iff_of_ok hparse]
    cases statedLength header with
    | none => simp
    | some len =>
      simp only [Option.some_inj, hrest, false_or, forall_eq']
      constructor
      · rintro ⟨hle, htake⟩
        have := congrArg List.length htake
        rw [List.length_take] at this
        omega
      · rintro rfl
        exact ⟨le_refl _, List.take_length.symm⟩

/-- **A length that is read** does no harm unless it is too long to be added up. -/
theorem bodyAsStated_iff_of_read {len : Nat} (h : FirstBlankLine resp header rest)
    (hpos : windowsPosition blankLine resp = some header.length)
    (hstatus : isSuccess resp header.length) (hstated : statedLength header = some len)
    (hread : contentLength ((fromUtf8 header).getD []) = some len) (hfits : len < 2 ^ 64) :
    BodyAsStated resp ↔ header.length + 4 + len < 2 ^ 64 := by
  by_cases hlt : header.length + 4 + len < 2 ^ 64
  · refine iff_of_true ?_ hlt
    have hbody := dohBody_of_lt h hread hlt
    by_cases hshort : rest.length < len
    · rw [if_pos hshort] at hbody
      exact bodyAsStated_of_message (parseDohHttpResponse_of_error hpos hstatus hbody)
    · rw [if_neg hshort] at hbody
      have hparse := parseDohHttpResponse_of_ok hpos hstatus hbody
      by_cases hnil : rest.take len = []
      · rw [if_pos hnil] at hparse
        exact bodyAsStated_of_message hparse
      · rw [if_neg hnil] at hparse
        rw [h.bodyAsStated_iff_of_ok hparse, hstated]
        exact ⟨not_lt.mp hshort, rfl⟩
  · refine iff_of_false ?_ hlt
    have hpanic := dohBody_of_overflow h hread hfits (not_lt.mp hlt)
    exact fun hright => hright.1 (parseDohHttpResponse_of_error hpos hstatus hpanic)

end Response

/-- A DoH server makes the code panic, or return another body than the one it states, exactly if it
    answers with success and a length that cannot be used: one that is too long to be added to what
    stands before the body, or one that the code does not read, in a header block that is not text
    or from 64 bits on, while other bytes follow than as many as it says. -/
theorem bodyAsStated_iff (resp : Bytes) : BodyAsStated resp ↔ LengthUsable resp := by
  cases hpos : windowsPosition blankLine resp with
  | none =>
    -- without a blank line the response is refused, and there is no length to use
    have hnone := windowsPosition_eq_none (by decide) hpos
    refine iff_of_true (bodyAsStated_of_message (by rw [parseDohHttpResponse, hpos])) ?_
    intro header rest len hblank
    refine absurd ?_ (hnone header.length)
    rw [hblank.1, List.append_assoc, List.drop_left]
    exact List.prefix_append _ _
  | some i =>
    obtain ⟨hblank, hi⟩ := exists_firstBlankLine hpos
    generalize resp.take i = header at hblank hi
    generalize resp.drop (i + 4) = rest at hblank
    subst hi
    rw [hblank.lengthUsable_iff]
    by_cases hstatus : isSuccess resp header.length
    · simp only [hstatus, true_implies]
      -- the length as the code reads it, against the one that the header states
      have hread := contentLength_eq header
      cases hstated : statedLength header with
      | none =>
        rw [hstated] at hread
        rw [bodyAsStated_iff_of_unread hblank hpos hstatus hread, hstated]
        simp
      | some len =>
        rw [hstated, Option.filter_some] at hread
        simp only [Option.some_inj, forall_eq']
        by_cases hreadable : (fromUtf8 header).isSome ∧ len < 2 ^ 64
        · rw [if_pos (decide_eq_true hreadable)] at hread
          rw [if_pos hreadable]
          exact bodyAsStated_iff_of_read hblank hpos hstatus hstated hread hreadable.2
        · rw [if_neg fun h => hreadable (of_decide_eq_true h)] at hread
          rw [if_neg hreadable, bodyAsStated_iff_of_unread hblank hpos hstatus hread, hstated]
          simp only [Option.some_inj, forall_eq']
    · refine iff_of_true ?_ fun h => absurd h hstatus
      -- another status is refused, whatever the length says
      have hparse : parseDohHttpResponse resp = .error (.message
          ("DoH server returned non-200: ".toList ++ statusLine resp header.length)) := by
        rw [parseDohHttpResponse, hpos]
        simp [hstatus]
      exact bodyAsStated_of_message hparse

/-- A response that states the largest length there is. -/
def longestResponse : Bytes :=
  utf8 "HTTP/1.1 200 OK\r\nContent-Length: 18446744073709551615\r\n\r\n!".toList

theorem not_bodyAsStated_longestResponse : ¬ ∀ resp, BodyAsStated resp :=
  fun h => (h longestResponse).1 (by decide)

/-- A length in a header block that is not text is not looked at. -/
example : parseDohHttpResponse (utf8 "HTTP/1.1 200\r\nX: ".toList ++ [0xFF]
      ++ utf8 "\r\nContent-Length: 1\r\n\r\n!?".toList) = .ok (utf8 "!?".toList) := by
  decide

end Reflex.Dns
