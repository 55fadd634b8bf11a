import Mathlib.Logic.Function.Basic
import Reflex.App.PercentDecode
import Reflex.Dns.DohHttp

namespace Reflex.App

open RustStd Machine
open Dns (blankLine FirstBlankLine exists_firstBlankLine)

/-!
# The Clash API — requests

`read_request` of `app/clash_api.rs` reads a request from a client that nothing is known of yet: first until
there is a blank line, then until the body has as many bytes as the headers say.

* `readHeaderGo_eq_ok_iff` — when the first loop has a header block, in whatever pieces it comes;
* `readBodyGo_spec` — what the second loop leaves;
* `BodyExact`, `LengthFits` — no fault and the stated body, and the lengths that can be added up;
* `bodyExact_iff` — the first holds of exactly the streams with the second;
* `handled_iff` — the same together with the names in paths.
-/

/-! ### The code -/

/-- What one read into a chunk of 4096 bytes gives: no bytes are the end of the stream. -/
inductive ReadOutcome where
  | bytes (chunk : Bytes) (fits : chunk.length ≤ 4096)
  | error

/-- How `read_request` fails. -/
inductive RequestError where
  | io
  | utf8
  | message (text : Str)

/-- `HttpRequest`. -/
structure HttpRequest where
  method : Str
  path : Str
  headers : Str → Option Str
  body : Bytes

/-- `find_header_end`. -/
def findHeaderEnd (buf : Bytes) : Option Nat := windowsPosition blankLine buf

/-- The first loop of `read_request`: the buffer, where the header block ends, and the reads to come. -/
def readHeaderGo : List ReadOutcome → Bytes → Except RequestError (Bytes × Nat × List ReadOutcome)
  | [], _ => .error (.message "connection closed before request".toList)
  | .error :: _, _ => .error .io
  | .bytes chunk _ :: reads, buf =>
      if chunk = [] then .error (.message "connection closed before request".toList)
      else
        let buf := buf ++ chunk
        match findHeaderEnd buf with
        | some pos => .ok (buf, pos, reads)
        | none =>
            if buf.length ≤ 64 * 1024 then readHeaderGo reads buf
            else .error (.message "request headers too large".toList)

/-- `split("\r\n")`. -/
def splitCrlf : Str → List Str
  | [] => [[]]
  | '\r' :: '\n' :: rest => [] :: splitCrlf rest
  | c :: rest =>
      match splitCrlf rest with
      | [] => [[c]]
      | line :: lines => (c :: line) :: lines

/-- The method and the path of a request line. -/
def parseRequestLine (requestLine : Str) : Except RequestError (Str × Str) :=
  match splitWhitespace requestLine with
  | [] => .error (.message "missing method".toList)
  | [_] => .error (.message "missing path".toList)
  | method :: path :: _ => .ok (method, path)

/-- The headers of the other lines: a later line takes the place of an earlier one of the same name. -/
def parseHeaders (lines : List Str) : Str → Option Str :=
  (lines.filterMap (splitOnce ':')).foldl
    (fun headers part => Function.update headers (toAsciiLowercase (trim part.1)) (some (trim part.2)))
    fun _ => none

/-- The text of the header block: method, path, and a lookup of the headers by their names. -/
def parseHead (headersStr : Str) : Except RequestError (Str × Str × (Str → Option Str)) :=
  match splitCrlf headersStr with
  | [] => .error (.message "missing request line".toList)
  | requestLine :: lines => do
      let (method, path) ← parseRequestLine requestLine
      return (method, path, parseHeaders lines)

/-- `content_len`. -/
def contentLen (headers : Str → Option Str) : Nat :=
  ((headers "content-length".toList).bind (parseUint (2 ^ 64 - 1))).getD 0

/-- The second loop of `read_request`. -/
def readBodyGo (bodyStart contentLen : Nat) (reads : List ReadOutcome) (buf : Bytes) :
    Checked (Except RequestError Bytes) := do
  let bodyEnd ← add 64 bodyStart contentLen
  if bodyEnd ≤ buf.length then return .ok buf
  else match reads with
    | [] => return .error (.message "connection closed before body".toList)
    | .error :: _ => return .error .io
    | .bytes chunk _ :: reads =>
        if chunk = [] then return .error (.message "connection closed before body".toList)
        else if (buf ++ chunk).length ≤ 2 * 1024 * 1024 then
          readBodyGo bodyStart contentLen reads (buf ++ chunk)
        else return .error (.message "request body too large".toList)

/-- `read_request`. -/
def readRequest (reads : List ReadOutcome) : Checked (Except RequestError HttpRequest) :=
  match readHeaderGo reads [] with
  | .error e => return .error e
  | .ok (buf, headerEnd, reads) => do
      let head ← range buf 0 headerEnd
      match fromUtf8 head with
      | none => return .error .utf8
      | some headersStr =>
        match parseHead headersStr with
        | .error e => return .error e
        | .ok (method, path, headers) =>
          let bodyStart ← add 64 headerEnd 4
          match ← readBodyGo bodyStart (contentLen headers) reads buf with
          | .error e => return .error e
          | .ok buf =>
            let bodyEnd ← add 64 bodyStart (contentLen headers)
            let body ← range buf bodyStart bodyEnd
            return .ok { method, path, headers, body }

/-! ### What a client says -/

/-- The bytes that come before the end of the stream or an error. -/
def received : List ReadOutcome → Bytes
  | .bytes chunk _ :: reads => if chunk = [] then [] else chunk ++ received reads
  | _ => []

/-- The header block is complete with the first `k` reads, and it was not before, nor was it too long. -/
structure HeadRead (reads : List ReadOutcome) (k : Nat) (header : Bytes) : Prop where
  complete : ∃ rest, FirstBlankLine (received (reads.take k)) header rest
  incomplete : ∀ j < k, (∀ header' rest, ¬ FirstBlankLine (received (reads.take j)) header' rest) ∧
    (received (reads.take j)).length ≤ 64 * 1024

/-- The length that the headers state, a number of any size. -/
def statedLength (headersStr : Str) : Option Nat :=
  (parseHeaders (splitCrlf headersStr).tail "content-length".toList).bind decimalValue

/-- There are a method and a path. -/
def HasRequestLine (headersStr : Str) : Prop :=
  2 ≤ (splitWhitespace ((splitCrlf headersStr).headD [])).length

/-- No fault, and a body that is returned is the one that the headers state: as many bytes from behind the
    first blank line. -/
def BodyExact (reads : List ReadOutcome) : Prop :=
  Defined (readRequest reads) ∧ ∀ request, readRequest reads = .ok (.ok request) →
    ∃ header rest headersStr, FirstBlankLine (received reads) header rest ∧
      fromUtf8 header = some headersStr ∧ (statedLength headersStr).getD 0 ≤ rest.length ∧
      request.body = rest.take ((statedLength headersStr).getD 0)

/-- The length that the headers state, if they are read to their end, can be added to their own. -/
def LengthFits (reads : List ReadOutcome) : Prop :=
  ∀ k header headersStr len, HeadRead reads k header → fromUtf8 header = some headersStr →
    HasRequestLine headersStr → statedLength headersStr = some len → header.length + 4 + len < 2 ^ 64

/-! ### Header blocks -/

section Blank

variable {bs header rest : Bytes}

/-- Where the code finds the end of the header block. -/
theorem findHeaderEnd_of_firstBlankLine (h : FirstBlankLine bs header rest) :
    findHeaderEnd bs = some header.length := by
  have hat : blankLine <+: bs.drop header.length := by
    rw [h.1, List.append_assoc, List.drop_left]
    exact List.prefix_append _ _
  unfold findHeaderEnd
  cases hpos : windowsPosition blankLine bs with
  | none => exact absurd hat (windowsPosition_eq_none (by decide) hpos _)
  | some i =>
    obtain ⟨hblank, hi⟩ := exists_firstBlankLine hpos
    obtain ⟨rfl, -⟩ := h.unique hblank
    rw [hi]

theorem findHeaderEnd_eq_none : findHeaderEnd bs = none ↔ ∀ header rest, ¬ FirstBlankLine bs header rest := by
  constructor
  · intro hnone header rest h
    rw [findHeaderEnd_of_firstBlankLine h] at hnone
    cases hnone
  · intro h
    unfold findHeaderEnd
    cases hpos : windowsPosition blankLine bs with
    | none => rfl
    | some i => exact absurd (exists_firstBlankLine hpos).1 (h _ _)

/-- More bytes do not move the first blank line. -/
theorem FirstBlankLine.append (h : FirstBlankLine bs header rest) (more : Bytes) :
    FirstBlankLine (bs ++ more) header (rest ++ more) := by
  refine ⟨by rw [h.1, List.append_assoc], fun j hj hpre => h.2 j hj ?_⟩
  have hlength := h.length_eq
  rw [List.drop_append_of_le_length (by omega)] at hpre
  exact List.prefix_of_prefix_length_le hpre (List.prefix_append _ _)
    (by rw [List.length_drop, hlength]; show 4 ≤ _; omega)

/-- The bytes in front of the blank line. -/
theorem range_header (h : FirstBlankLine bs header rest) : range bs 0 header.length = .ok header := by
  have hlength := h.length_eq
  rw [range_of_le (Nat.zero_le _) (by omega), List.drop_zero, Nat.sub_zero, h.take_eq]

end Blank

/-! ### The loops -/

theorem received_nil : received [] = [] := rfl

theorem received_cons {chunk : Bytes} (hchunk : chunk ≠ []) (fits : chunk.length ≤ 4096)
    (reads : List ReadOutcome) : received (.bytes chunk fits :: reads) = chunk ++ received reads := by
  rw [received, if_neg hchunk]

/-- After `k` reads the buffer has a header block, and before it had none, nor too many bytes. -/
structure HeaderAt (buf : Bytes) (reads : List ReadOutcome) (k : Nat) (buf' : Bytes) (headerEnd : Nat)
    (reads' : List ReadOutcome) : Prop where
  buf_eq : buf' = buf ++ received (reads.take k)
  found : findHeaderEnd buf' = some headerEnd
  reads_eq : reads' = reads.drop k
  before : ∀ j < k, findHeaderEnd (buf ++ received (reads.take j)) = none ∧
    (buf ++ received (reads.take j)).length ≤ 64 * 1024

section HeaderLoop

variable {buf buf' : Bytes} {reads reads' : List ReadOutcome} {k headerEnd : Nat}

/-- Without bytes there is no header block. -/
theorem HeaderAt.received_ne_nil (h : HeaderAt buf reads k buf' headerEnd reads')
    (hnone : findHeaderEnd buf = none) : received (reads.take k) ≠ [] := by
  intro hnil
  have hfound := h.found
  rw [h.buf_eq, hnil, List.append_nil, hnone] at hfound
  cases hfound

/-- A read that gives bytes, while the block is not complete and the limit is not passed, leaves the rest to the later
    reads. -/
theorem headerAt_succ_iff {chunk : Bytes} (hchunk : chunk ≠ []) {fits : chunk.length ≤ 4096}
    (hnone : findHeaderEnd buf = none) (hlen : buf.length ≤ 64 * 1024) :
    HeaderAt buf (.bytes chunk fits :: reads) (k + 1) buf' headerEnd reads' ↔
      HeaderAt (buf ++ chunk) reads k buf' headerEnd reads' := by
  have htake (j : Nat) : buf ++ received ((ReadOutcome.bytes chunk fits :: reads).take (j + 1))
      = buf ++ chunk ++ received (reads.take j) := by
    rw [List.take_succ_cons, received_cons hchunk, List.append_assoc]
  constructor
  · rintro ⟨hbuf, hfound, hreads, hbefore⟩
    refine ⟨hbuf.trans (htake k), hfound, hreads, fun j hj => ?_⟩
    rw [← htake]
    exact hbefore (j + 1) (Nat.succ_lt_succ hj)
  · rintro ⟨hbuf, hfound, hreads, hbefore⟩
    refine ⟨hbuf.trans (htake k).symm, hfound, hreads, fun j hj => ?_⟩
    cases j with
    | zero =>
      rw [List.take_zero, received_nil, List.append_nil]
      exact ⟨hnone, hlen⟩
    | succ j =>
      rw [htake]
      exact hbefore j (Nat.lt_of_succ_lt_succ hj)

/-- **The first loop** has a header block after some of the reads, in whatever pieces it comes. -/
theorem readHeaderGo_eq_ok_iff (hnone : findHeaderEnd buf = none) (hlen : buf.length ≤ 64 * 1024) :
    readHeaderGo reads buf = .ok (buf', headerEnd, reads') ↔
      ∃ k, HeaderAt buf reads k buf' headerEnd reads' := by
  induction reads generalizing buf with
  | nil =>
    refine iff_of_false (fun h => by cases h) fun ⟨k, h⟩ => h.received_ne_nil hnone ?_
    rw [List.take_nil]
    rfl
  | cons read reads ih =>
    cases read with
    | error =>
      refine iff_of_false (fun h => by cases h) fun ⟨k, h⟩ => h.received_ne_nil hnone ?_
      cases k <;> rfl
    | bytes chunk fits =>
      rw [readHeaderGo]
      by_cases hchunk : chunk = []
      · rw [if_pos hchunk]
        refine iff_of_false (fun h => by cases h) fun ⟨k, h⟩ => h.received_ne_nil hnone ?_
        cases k with
        | zero => rfl
        | succ k => rw [List.take_succ_cons, received, if_pos hchunk]
      · -- a read with bytes and no end of the block yet: the rest decides, from the longer buffer on
        have hsucc : (∃ k, HeaderAt buf (.bytes chunk fits :: reads) k buf' headerEnd reads') ↔
            ∃ k, HeaderAt (buf ++ chunk) reads k buf' headerEnd reads' := by
          constructor
          · rintro ⟨k, h⟩
            cases k with
            | zero => exact absurd rfl (h.received_ne_nil hnone)
            | succ k => exact ⟨k, (headerAt_succ_iff hchunk hnone hlen).mp h⟩
          · rintro ⟨k, h⟩
            exact ⟨k + 1, (headerAt_succ_iff hchunk hnone hlen).mpr h⟩
        have hzero : buf ++ chunk ++ received (reads.take 0) = buf ++ chunk := by
          rw [List.take_zero, received_nil, List.append_nil]
        rw [if_neg hchunk, hsucc]
        dsimp only
        -- this chunk completes the block, or the loop goes on if the limit is kept
        cases hfind : findHeaderEnd (buf ++ chunk) with
        | some pos =>
          constructor
          · intro h
            cases h
            exact ⟨0, hzero.symm, hfind, rfl, fun j hj => absurd hj (Nat.not_lt_zero j)⟩
          · rintro ⟨k, h⟩
            cases k with
            | zero =>
              have hbuf := h.buf_eq.trans hzero
              have hfound := h.found
              rw [hbuf, hfind] at hfound
              rw [hbuf, h.reads_eq, Option.some.inj hfound]
              rfl
            | succ k =>
              have hbefore := (h.before 0 (Nat.succ_pos k)).1
              rw [hzero, hfind] at hbefore
              cases hbefore
        | none =>
          dsimp only
          by_cases hle : (buf ++ chunk).length ≤ 64 * 1024
          · rw [if_pos hle]
            exact ih hfind hle
          · rw [if_neg hle]
            refine iff_of_false (fun h => by cases h) ?_
            rintro ⟨k, h⟩
            cases k with
            | zero =>
              have hfound := h.found
              rw [h.buf_eq, hzero, hfind] at hfound
              cases hfound
            | succ k =>
              have hbefore := (h.before 0 (Nat.succ_pos k)).2
              rw [hzero] at hbefore
              exact hle hbefore

/-- The header block ends within the first chunk that is too much. -/
theorem length_le_of_readHeaderGo (hlen : buf.length ≤ 64 * 1024)
    (h : readHeaderGo reads buf = .ok (buf', headerEnd, reads')) : buf'.length ≤ 64 * 1024 + 4096 := by
  induction reads generalizing buf with
  | nil => cases h
  | cons read reads ih =>
    cases read with
    | error => cases h
    | bytes chunk fits =>
      rw [readHeaderGo] at h
      split at h
      · cases h
      · dsimp only at h
        split at h
        · cases h
          rw [List.length_append]
          omega
        · split at h
          · rename_i hle
            exact ih hle h
          · cases h

/-- The loop loses nothing that it receives: the bytes it has, with the reads to come, are those there were. -/
theorem received_of_readHeaderGo (h : readHeaderGo reads buf = .ok (buf', headerEnd, reads')) :
    buf ++ received reads = buf' ++ received reads' := by
  induction reads generalizing buf with
  | nil => cases h
  | cons read reads ih =>
    cases read with
    | error => cases h
    | bytes chunk fits =>
      rw [readHeaderGo] at h
      split at h
      · cases h
      · rename_i hchunk
        rw [received_cons hchunk, ← List.append_assoc]
        dsimp only at h
        split at h
        · cases h
          rfl
        · split at h
          · exact ih h
          · cases h

end HeaderLoop

/-- **The header block** of a stream is what the first loop has. -/
theorem headRead_iff {reads : List ReadOutcome} {k : Nat} {header : Bytes} :
    HeadRead reads k header ↔ ∃ buf rest reads', FirstBlankLine buf header rest ∧
      HeaderAt [] reads k buf header.length reads' := by
  constructor
  · rintro ⟨⟨rest, hblank⟩, hincomplete⟩
    refine ⟨received (reads.take k), rest, reads.drop k, hblank, rfl, findHeaderEnd_of_firstBlankLine hblank,
      rfl, fun j hj => ?_⟩
    rw [List.nil_append, findHeaderEnd_eq_none]
    exact hincomplete j hj
  · rintro ⟨buf, rest, reads', hblank, hbuf, -, -, hbefore⟩
    rw [List.nil_append] at hbuf
    refine ⟨⟨rest, hbuf ▸ hblank⟩, fun j hj => ?_⟩
    have hj' := hbefore j hj
    rwa [List.nil_append, findHeaderEnd_eq_none] at hj'

/-- What the second loop does where the end of the body is a number: it fails, or the buffer holds the body
    and nothing is lost. -/
theorem readBodyGo_of_lt {bodyStart len : Nat} (hlt : bodyStart + len < 2 ^ 64) (reads : List ReadOutcome)
    (buf : Bytes) : (∃ e, readBodyGo bodyStart len reads buf = .ok (.error e)) ∨
      ∃ buf' reads', readBodyGo bodyStart len reads buf = .ok (.ok buf') ∧ bodyStart + len ≤ buf'.length ∧
        buf ++ received reads = buf' ++ received reads' := by
  induction reads generalizing buf with
  | nil =>
    rw [readBodyGo.eq_def, add_of_lt hlt, ok_bind]
    split
    · rename_i hle
      exact Or.inr ⟨buf, [], rfl, hle, rfl⟩
    · exact Or.inl ⟨_, rfl⟩
  | cons read reads ih =>
    rw [readBodyGo.eq_def, add_of_lt hlt, ok_bind]
    split
    · rename_i hle
      exact Or.inr ⟨buf, read :: reads, rfl, hle, rfl⟩
    · cases read with
      | error => exact Or.inl ⟨_, rfl⟩
      | bytes chunk fits =>
        dsimp only
        by_cases hchunk : chunk = []
        · rw [if_pos hchunk]
          exact Or.inl ⟨_, rfl⟩
        · rw [if_neg hchunk, received_cons hchunk, ← List.append_assoc]
          split
          · exact ih (buf ++ chunk)
          · exact Or.inl ⟨_, rfl⟩

theorem readBodyGo_of_le {bodyStart len : Nat} (hle : 2 ^ 64 ≤ bodyStart + len) (reads : List ReadOutcome)
    (buf : Bytes) : readBodyGo bodyStart len reads buf = .error .overflow := by
  rw [readBodyGo.eq_def, add_of_le hle, error_bind]

/-! ### The request -/

/-- The text of the header block has a method and a path, or it is refused. -/
theorem parseHead_cases (headersStr : Str) :
    (¬ HasRequestLine headersStr ∧ ∃ e, parseHead headersStr = .error e) ∨
      (HasRequestLine headersStr ∧ ∃ method path,
        parseHead headersStr = .ok (method, path, parseHeaders (splitCrlf headersStr).tail)) := by
  unfold HasRequestLine parseHead
  rcases splitCrlf headersStr with _ | ⟨requestLine, lines⟩
  · have hnil : splitWhitespace [] = [] := by decide
    refine Or.inl ⟨?_, _, rfl⟩
    rw [List.headD_nil, hnil]
    decide
  · rw [List.headD_cons, List.tail_cons]
    dsimp only
    unfold parseRequestLine
    rcases splitWhitespace requestLine with _ | ⟨method, _ | ⟨path, rest⟩⟩
    · exact Or.inl ⟨by decide, _, rfl⟩
    · exact Or.inl ⟨Nat.not_succ_le_self 1, _, rfl⟩
    · exact Or.inr ⟨Nat.le_add_left 2 _, method, path, rfl⟩

/-- The code reads a stated length of 64 bits. -/
theorem contentLen_eq (headersStr : Str) : contentLen (parseHeaders (splitCrlf headersStr).tail) =
    ((statedLength headersStr).filter (· < 2 ^ 64)).getD 0 := by
  unfold contentLen statedLength
  cases parseHeaders (splitCrlf headersStr).tail "content-length".toList with
  | none => rfl
  | some value =>
    rw [Option.bind_some, Option.bind_some, parseUint_eq]
    congr 2
    funext n
    exact decide_eq_decide.mpr (by omega)

/-- The request behind a header block that is accepted. -/
theorem readRequest_of_header {reads reads' : List ReadOutcome} {buf header rest : Bytes}
    {headersStr : Str} (hread : readHeaderGo reads [] = .ok (buf, header.length, reads'))
    (hblank : FirstBlankLine buf header rest) (htext : fromUtf8 header = some headersStr)
    (hline : HasRequestLine headersStr) : ∃ method path, readRequest reads =
      readBodyGo (header.length + 4) (contentLen (parseHeaders (splitCrlf headersStr).tail)) reads' buf >>=
        fun
        | .error e => .ok (.error e)
        | .ok buf => do
            let bodyEnd ← add 64 (header.length + 4)
              (contentLen (parseHeaders (splitCrlf headersStr).tail))
            let body ← range buf (header.length + 4) bodyEnd
            return .ok { method, path, headers := parseHeaders (splitCrlf headersStr).tail, body } := by
  rcases parseHead_cases headersStr with ⟨hno, -⟩ | ⟨-, method, path, hparse⟩
  · exact absurd hline hno
  have hlen := hblank.length_eq
  have hbound := length_le_of_readHeaderGo (Nat.zero_le _) hread
  have hhead := range_header hblank
  refine ⟨method, path, ?_⟩
  rw [readRequest, hread]
  dsimp only
  rw [hhead, ok_bind, htext]
  dsimp only
  rw [hparse]
  dsimp only
  rw [add_of_lt (by omega), ok_bind]
  rfl

/-- A header block that is not read to its end, or is no text, or has no method and path, is an error. -/
theorem readRequest_cases (reads : List ReadOutcome) :
    (∃ e, readRequest reads = .ok (.error e)) ∨
      ∃ buf header rest reads' headersStr, readHeaderGo reads [] = .ok (buf, header.length, reads') ∧
        FirstBlankLine buf header rest ∧ fromUtf8 header = some headersStr ∧ HasRequestLine headersStr := by
  cases hread : readHeaderGo reads [] with
  | error e =>
    refine Or.inl ⟨e, ?_⟩
    rw [readRequest, hread]
    rfl
  | ok found =>
    obtain ⟨buf, headerEnd, reads'⟩ := found
    obtain ⟨k, hat⟩ := (readHeaderGo_eq_ok_iff rfl (Nat.zero_le _)).mp hread
    obtain ⟨hblank, hlength⟩ := exists_firstBlankLine hat.found
    generalize buf.take headerEnd = header at hblank hlength
    subst hlength
    have hhead := range_header hblank
    cases htext : fromUtf8 header with
    | none =>
      refine Or.inl ⟨.utf8, ?_⟩
      rw [readRequest, hread]
      dsimp only
      rw [hhead, ok_bind, htext]
      rfl
    | some headersStr =>
      -- a head in UTF-8 has a request line, or is refused for the lack of it
      rcases parseHead_cases headersStr with ⟨-, e, hparse⟩ | ⟨hline, -⟩
      · refine Or.inl ⟨e, ?_⟩
        rw [readRequest, hread]
        dsimp only
        rw [hhead, ok_bind, htext]
        dsimp only
        rw [hparse]
        rfl
      · exact Or.inr ⟨buf, header, _, reads', headersStr, rfl, hblank, htext, hline⟩

/-- **The stated body.** A header block that is accepted, with a length that can be added up. -/
theorem bodyExact_of_lt {reads reads' : List ReadOutcome} {buf header rest : Bytes} {headersStr : Str}
    (hread : readHeaderGo reads [] = .ok (buf, header.length, reads'))
    (hblank : FirstBlankLine buf header rest) (htext : fromUtf8 header = some headersStr)
    (hline : HasRequestLine headersStr)
    (hlt : ∀ len, statedLength headersStr = some len → header.length + 4 + len < 2 ^ 64) :
    BodyExact reads := by
  have hbound := length_le_of_readHeaderGo (Nat.zero_le _) hread
  have hlength := hblank.length_eq
  -- the length that is used is the stated one, or zero
  have hlen : contentLen (parseHeaders (splitCrlf headersStr).tail) = (statedLength headersStr).getD 0 := by
    rw [contentLen_eq]
    cases hstated : statedLength headersStr with
    | none => rfl
    | some len =>
      have hfits := hlt len hstated
      rw [Option.filter_some, if_pos (decide_eq_true (by omega))]
  have hend : header.length + 4 + (statedLength headersStr).getD 0 < 2 ^ 64 := by
    cases hstated : statedLength headersStr with
    | none => rw [Option.getD_none]; omega
    | some len => exact hlt len hstated
  obtain ⟨method, path, hrequest⟩ := readRequest_of_header hread hblank htext hline
  rw [hlen] at hrequest
  -- reading the body fails, or ends with enough bytes
  rcases readBodyGo_of_lt hend reads' buf with ⟨e, he⟩ | ⟨buf', more, hbuf', hle, hmore⟩
  · rw [he, ok_bind] at hrequest
    rw [BodyExact, hrequest]
    exact ⟨defined_ok, fun request h => by cases h⟩
  · rw [hbuf', ok_bind] at hrequest
    dsimp only at hrequest
    rw [add_of_lt hend, ok_bind, range_of_le (Nat.le_add_right _ _) hle, ok_bind, Nat.add_sub_cancel_left]
      at hrequest
    rw [BodyExact, hrequest]
    refine ⟨defined_ok, fun request h => ?_⟩
    obtain rfl := Except.ok.inj (Except.ok.inj h)
    have hreceived : received reads = buf ++ received reads' := received_of_readHeaderGo hread
    -- the body is taken behind the blank line of the whole input
    have hstream := FirstBlankLine.append hblank (received reads')
    rw [← hreceived] at hstream
    have hrest : rest ++ received reads' = buf'.drop (header.length + 4) ++ received more := by
      rw [← hstream.drop_eq, hreceived, hmore, List.drop_append_of_le_length (by omega)]
    have hdrop : (buf'.drop (header.length + 4)).length = buf'.length - (header.length + 4) :=
      List.length_drop
    refine ⟨header, _, headersStr, hstream, htext, ?_, ?_⟩
    · rw [hrest, List.length_append, hdrop]
      omega
    · rw [hrest, List.take_append_of_le_length (by rw [hdrop]; omega)]

/-- **A length that cannot be added up** is a fault, or it is not read and an empty body is returned. -/
theorem not_bodyExact_of_le {reads reads' : List ReadOutcome} {buf header rest : Bytes} {headersStr : Str}
    {len : Nat} (hread : readHeaderGo reads [] = .ok (buf, header.length, reads'))
    (hblank : FirstBlankLine buf header rest) (htext : fromUtf8 header = some headersStr)
    (hline : HasRequestLine headersStr) (hstated : statedLength headersStr = some len)
    (hle : 2 ^ 64 ≤ header.length + 4 + len) : ¬ BodyExact reads := by
  have hbound := length_le_of_readHeaderGo (Nat.zero_le _) hread
  have hlength := hblank.length_eq
  obtain ⟨method, path, hrequest⟩ := readRequest_of_header hread hblank htext hline
  have hlen := contentLen_eq headersStr
  rw [hstated, Option.filter_some] at hlen
  rintro ⟨hdefined, hbody⟩
  by_cases hfits : len < 2 ^ 64
  · rw [if_pos (decide_eq_true hfits), Option.getD_some] at hlen
    rw [hrequest, hlen, readBodyGo_of_le hle, error_bind] at hdefined
    exact not_defined_error hdefined
  · rw [if_neg (by rw [decide_eq_true_eq]; exact hfits), Option.getD_none] at hlen
    have hshort : header.length + 4 + 0 ≤ buf.length := by omega
    have hnow : readBodyGo (header.length + 4) 0 reads' buf = .ok (.ok buf) := by
      rw [readBodyGo.eq_def, add_of_lt (by omega), ok_bind, if_pos hshort]
      rfl
    rw [hlen, hnow, ok_bind] at hrequest
    dsimp only at hrequest
    rw [add_of_lt (by omega), ok_bind, range_of_le (Nat.le_add_right _ _) hshort, ok_bind,
      Nat.add_sub_cancel_left, List.take_zero] at hrequest
    obtain ⟨header', rest', headersStr', hblank', htext', hrest', hbody'⟩ := hbody _ hrequest
    have hreceived : received reads = buf ++ received reads' := received_of_readHeaderGo hread
    have hstream := FirstBlankLine.append hblank (received reads')
    rw [← hreceived] at hstream
    obtain ⟨rfl, -⟩ := hstream.unique hblank'
    obtain rfl := Option.some.inj (htext.symm.trans htext')
    rw [hstated, Option.getD_some] at hrest' hbody'
    have hempty := congrArg List.length hbody'
    rw [List.length_nil, List.length_take_of_le hrest'] at hempty
    omega

/-- **Exactly the lengths** that can be added up do no harm. -/
theorem bodyExact_iff (reads : List ReadOutcome) : BodyExact reads ↔ LengthFits reads := by
  constructor
  · intro hexact k header headersStr len hhead htext hline hstated
    obtain ⟨buf, rest, reads', hblank, hat⟩ := headRead_iff.mp hhead
    have hread := (readHeaderGo_eq_ok_iff rfl (Nat.zero_le _)).mpr ⟨k, hat⟩
    by_contra hle
    exact not_bodyExact_of_le hread hblank htext hline hstated (Nat.not_lt.mp hle) hexact
  · intro hfits
    rcases readRequest_cases reads with
      ⟨e, he⟩ | ⟨buf, header, rest, reads', headersStr, hread, hblank, htext, hline⟩
    · rw [BodyExact, he]
      exact ⟨defined_ok, fun request h => by cases h⟩
    · obtain ⟨k, hat⟩ := (readHeaderGo_eq_ok_iff rfl (Nat.zero_le _)).mp hread
      have hhead : HeadRead reads k header := headRead_iff.mpr ⟨buf, rest, reads', hblank, hat⟩
      exact bodyExact_of_lt hread hblank htext hline fun len =>
        hfits k header headersStr len hhead htext hline

/-! ### Requests and the names in their paths -/

/-- The request is read without a fault and with the stated body, and a name in its path is decoded without
    one, to the text that it encodes if it is an encoding. -/
def Handled (reads : List ReadOutcome) (name : Str) : Prop :=
  BodyExact reads ∧ Defined (percentDecode name) ∧ ∀ s, PercentEncodes s name → percentDecode name = .ok s

/-- **Requests and names** are handled exactly if the length in the headers can be added up and no `%` in the
    name cuts a character. -/
theorem handled_iff (reads : List ReadOutcome) (name : Str) :
    Handled reads name ↔ LengthFits reads ∧ ¬ HasCut name := by
  rw [Handled, bodyExact_iff, defined_percentDecode_iff]
  exact ⟨fun h => ⟨h.1, h.2.1⟩, fun h => ⟨h.1, h.2, fun _ => percentDecode_of_encodes⟩⟩

/-- A request that states the largest length a `usize` holds, and brings no body. -/
def largestLength : Bytes := utf8 "GET / HTTP/1.1\r\nContent-Length: 18446744073709551615\r\n\r\n".toList

/-- The request is a fault, and so is a name in which a character of two bytes follows a letter behind a
    `%`. -/
theorem not_handled :
    ¬ Handled [.bytes largestLength (by decide +kernel)] [] ∧ ¬ Handled [] "%aé".toList := by
  constructor
  · intro h
    have hfault : (readRequest [.bytes largestLength (by decide +kernel)]).isOk = false := by decide +kernel
    obtain ⟨result, hresult⟩ := h.1.1
    rw [hresult] at hfault
    cases hfault
  · intro h
    have hfault : (percentDecode "%aé".toList).isOk = false := by decide +kernel
    obtain ⟨result, hresult⟩ := h.2.1
    rw [hresult] at hfault
    cases hfault


end Reflex.App
