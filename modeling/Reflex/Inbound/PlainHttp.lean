import Reflex.Inbound.Mixed

namespace Reflex.Inbound

open RustStd ByteStream

/-!
# Inbounds — HTTP requests other than CONNECT

A client of an HTTP proxy sends a request that is no `CONNECT` for the server it names, and the proxy is to
pass it on.  `handle_http` of `inbound/mixed.rs` finds a target for it and then treats it like a `CONNECT`.

* `readHttpHead_isHead` — what is read is the head of the request;
* `yields_handleHttp` — what becomes of the connection;
* `namedBy_of_parseHttpConnect` — requests whose target is the host and the port that they name;
* `never_forwarded` — no request is passed on.
-/

/-! ### Requests -/

/-- The two line ends that a head ends with. -/
def emptyLine : Bytes := [0x0D, 0x0A, 0x0D, 0x0A]

/-- The head of the request at the front of a stream: what comes up to the first empty line, with it. -/
structure IsHead (stream head : Bytes) : Prop where
  front : head <+: stream
  ended : emptyLine <:+ head
  first : ∀ n < head.length, ¬ emptyLine <:+ head.take n

/-- The method of a request. -/
def requestMethod (request : Str) : Str :=
  let line := (lines request).headD []
  match splitOnce ' ' line with
  | some (method, _) => method
  | none => line

/-- The target of a request. -/
def requestTarget (request : Str) : Str :=
  match splitOnce ' ' ((lines request).headD []) with
  | some (_, rest) =>
      match splitOnce ' ' rest with
      | some (target, _) => target
      | none => rest
  | none => []

/-- The authority in a target in absolute form, and the port of its scheme. -/
def absoluteAuthority (target : Str) : Option (Str × UInt16) :=
  let scheme := target.takeWhile fun c => c ≠ ':' && c ≠ '/'
  let rest := target.drop scheme.length
  if "://".toList <+: rest then
    some ((rest.drop 3).takeWhile fun c => c ≠ '/' && c ≠ '?' && c ≠ '#',
      if toAsciiLowercase scheme = "https".toList then 443 else 80)
  else none

/-- The value in a line if it is a `Host` field, whose name is in any case. -/
def hostValue (line : Str) : Option Str :=
  match splitOnce ':' line with
  | some (name, value) => if toAsciiLowercase name = "host".toList then some (trim value) else none
  | none => none

/-- The host and the port of an authority, in which an IPv6 address is in brackets. -/
def authorityHost (dflt : UInt16) (authority : Str) : Str × UInt16 :=
  match authority with
  | '[' :: rest =>
      (rest.takeWhile (· ≠ ']'),
        match rest.dropWhile (· ≠ ']') with
        | ']' :: ':' :: port => portOr dflt port
        | _ => dflt)
  | _ =>
      match rsplitOnce ':' authority with
      | some (host, port) => (host, portOr dflt port)
      | none => (authority, dflt)

/-- The host and the port that a request names: those of its target in absolute form, or else of `Host`. -/
def namedBy (request : Str) : Option (Str × UInt16) :=
  match absoluteAuthority (requestTarget request) with
  | some (authority, dflt) => some (authorityHost dflt authority)
  | none => (((lines request).drop 1).findSome? hostValue).map (authorityHost 80)

/-- What a client is told when there is a tunnel. -/
def established : Bytes := utf8 "HTTP/1.1 200 Connection Established\r\n\r\n".toList

/-! ### What is read -/

/-- The loop stops at the first empty line: no shorter front of the head ends with one, from what was read
    already on. -/
theorem readHttpHead_eq_ok {stream buf head rest : Bytes}
    (h : readHttpHead stream buf = .ok (head, rest)) :
    (∃ read, head = buf ++ read ∧ stream = read ++ rest) ∧ emptyLine <:+ head ∧
      ∀ n, buf.length < n → n < head.length → ¬ emptyLine <:+ head.take n := by
  induction stream generalizing buf with
  | nil => cases h
  | cons b stream ih =>
    rw [readHttpHead] at h
    split at h
    · rename_i hend
      obtain ⟨rfl, rfl⟩ := Prod.mk.inj (Except.ok.inj h)
      refine ⟨⟨[b], rfl, rfl⟩, hend, fun n hlow hhigh => ?_⟩
      rw [List.length_append, List.length_singleton] at hhigh
      omega
    · rename_i hend
      split at h
      · obtain ⟨⟨read, hhead, hstream⟩, hended, hfirst⟩ := ih h
        refine ⟨⟨b :: read, ?_, ?_⟩, hended, fun n hlow hhigh => ?_⟩
        · rw [hhead, List.append_assoc, List.singleton_append]
        · rw [hstream, List.cons_append]
        · rcases Nat.lt_or_ge (buf ++ [b]).length n with hn | hn
          · exact hfirst n hn hhigh
          · -- the front that ends with the byte just read
            have hlen : n = (buf ++ [b]).length := by
              rw [List.length_append, List.length_singleton] at hn ⊢
              omega
            rw [hhead, hlen, List.take_left]
            exact hend
      · cases h

/-- **The head** is what `handle_http` reads, and nothing behind it. -/
theorem readHttpHead_isHead {stream head rest : Bytes} (h : readHttpHead stream [] = .ok (head, rest)) :
    IsHead stream head ∧ stream = head ++ rest := by
  obtain ⟨⟨read, hhead, hstream⟩, hended, hfirst⟩ := readHttpHead_eq_ok h
  rw [List.nil_append] at hhead
  subst hhead
  refine ⟨⟨⟨rest, hstream.symm⟩, hended, fun n hn => ?_⟩, hstream⟩
  cases n with
  | zero => exact fun hzero => (nomatch List.suffix_nil.mp hzero)
  | succ n => exact hfirst (n + 1) (Nat.succ_pos n) hn

/-- A stream has one head at most. -/
theorem IsHead.unique {stream head head' : Bytes} (h : IsHead stream head) (h' : IsHead stream head') :
    head = head' := by
  -- otherwise the shorter one is a front of the longer one that ends with an empty line
  have hle : ∀ {x y : Bytes}, IsHead stream x → IsHead stream y → y.length ≤ x.length := by
    intro x y hx hy
    by_contra hlt
    have hfront : x <+: y := List.prefix_of_prefix_length_le hx.front hy.front (by omega)
    refine hy.first x.length (by omega) ?_
    rw [← List.prefix_iff_eq_take.mp hfront]
    exact hx.ended
  exact List.IsPrefix.eq_of_length (List.prefix_of_prefix_length_le h.front h'.front (hle h' h))
    (Nat.le_antisymm (hle h' h) (hle h h'))

/-- **What becomes of a connection**: the head is gone from it, and the client is told that there is a
    tunnel. -/
theorem yields_handleHttp {tag : Str} {s s' : Conn} {handed : Handed} :
    Yields (handleHttp tag) s handed s' ↔
      ∃ head request target, readHttpHead s.input [] = .ok (head, s'.input) ∧ fromUtf8 head = some request ∧
        parseHttpConnect request = .ok target ∧ s'.output = s.output ++ established ∧
        handed = .dispatcher { target, inboundTag := tag } := by
  simp only [handleHttp, yields_bind, yields_readHead, yields_ofExcept, yields_writeAll, yields_pure]
  constructor
  · rintro ⟨head, s₁, ⟨hread, hout⟩, request, s₂, ⟨hrequest, rfl⟩, target, s₃, ⟨htarget, rfl⟩, -, s₄, rfl,
      rfl, rfl⟩
    refine ⟨head, request, target, hread, ?_, htarget, by rw [hout]; rfl, rfl⟩
    rcases hutf : fromUtf8 head with _ | r
    · rw [hutf] at hrequest
      cases hrequest
    · rw [hutf] at hrequest
      rw [Except.ok.inj hrequest]
  · rintro ⟨head, request, target, hread, hutf, htarget, hout, rfl⟩
    refine ⟨head, ⟨s'.input, s.output⟩, ⟨hread, rfl⟩, request, _, ⟨by rw [hutf], rfl⟩, target, _,
      ⟨htarget, rfl⟩, (), _, rfl, rfl, ?_⟩
    obtain ⟨input', output'⟩ := s'
    exact congrArg (Conn.mk input') hout.symm

/-! ### Targets -/

theorem hostValue_of_host {line : Str} (h : "Host:".toList <+: line) :
    hostValue line = some (trim (line.drop 5)) := by
  obtain ⟨value, rfl⟩ := h
  have hname : ':' ∉ "Host".toList := by decide
  have hsplit : splitOnce ':' ("Host:".toList ++ value) = some ("Host".toList, value) :=
    splitOnce_append hname value
  rw [hostValue, hsplit]
  rfl

/-- The first line that has a value is the first one with the condition that says so. -/
theorem findSome?_eq_bind_find? {α β : Type*} {f : α → Option β} {p : α → Bool} {xs : List α}
    (h : ∀ x ∈ xs, p x = (f x).isSome) : xs.findSome? f = (xs.find? p).bind f := by
  induction xs with
  | nil => rfl
  | cons x xs ih =>
    obtain ⟨hx, hxs⟩ := List.forall_mem_cons.mp h
    rw [List.findSome?_cons, List.find?_cons, hx, ih hxs]
    cases hfx : f x with
    | none => rfl
    | some y => exact hfx.symm

theorem authorityHost_eq_hostPort {dflt : UInt16} {authority : Str} (h : authority.head? ≠ some '[') :
    authorityHost dflt authority = ((hostPort dflt authority).host, (hostPort dflt authority).port) := by
  rw [authorityHost.eq_def, hostPort]
  split
  · exact absurd rfl h
  · cases rsplitOnce ':' authority with
    | none => rfl
    | some p => rfl

/-- **Targets.** A request in origin form, with `Host` written so and without an IPv6 address in it, gets the
    target that it names. -/
theorem namedBy_of_parseHttpConnect {request : Str} {target : Target}
    (hmethod : toAsciiLowercase (requestMethod request) ≠ "connect".toList)
    (horigin : absoluteAuthority (requestTarget request) = none)
    (hcase : ∀ line ∈ (lines request).drop 1, (hostValue line).isSome → "Host:".toList <+: line)
    (hliteral : ∀ line ∈ (lines request).drop 1, ∀ value, hostValue line = some value →
      value.head? ≠ some '[')
    (h : parseHttpConnect request = .ok target) : namedBy request = some (target.host, target.port) := by
  have hfind : ((lines request).drop 1).findSome? hostValue =
      (((lines request).drop 1).find? fun line => "Host:".toList.isPrefixOf line).bind hostValue := by
    refine findSome?_eq_bind_find? fun line hline => ?_
    rw [Bool.eq_iff_iff, List.isPrefixOf_iff_prefix]
    exact ⟨fun hhost => by rw [hostValue_of_host hhost]; rfl, hcase line hline⟩
  rw [namedBy, horigin, hfind]
  rw [requestMethod] at hmethod
  rw [parseHttpConnect] at h
  rcases hline : splitOnce ' ' ((lines request).headD []) with _ | ⟨method, rest⟩
  · rw [hline] at h
    cases h
  · simp only [hline] at h hmethod
    rw [if_neg hmethod] at h
    cases hhost : ((lines request).drop 1).find? fun line => "Host:".toList.isPrefixOf line with
    | none =>
      rw [hhost] at h
      cases h
    | some line =>
      rw [hhost] at h
      obtain rfl := Except.ok.inj h
      have hvalue : hostValue line = some (trim (line.drop 5)) :=
        hostValue_of_host (List.isPrefixOf_iff_prefix.mp (List.find?_some hhost))
      have hhead := hliteral line (List.mem_of_find?_eq_some hhost) _ hvalue
      rw [Option.bind_some, hvalue, Option.map_some, authorityHost_eq_hostPort hhead]

/-! ### Forwarding -/

/-- A request other than `CONNECT` at the front of the stream `s`, which `handle_http` accepts: it hands
    `conn` to the dispatcher and leaves the stream as `s'`. -/
structure PlainRequest (tag : Str) (s s' : Conn) (head : Bytes) (request : Str) (conn : InboundTcpStream) :
    Prop where
  isHead : IsHead s.input head
  text : fromUtf8 head = some request
  plain : requestMethod request ≠ "CONNECT".toList
  accepted : Yields (handleHttp tag) s (.dispatcher conn) s'

/-- The request is passed on: the stream that the dispatcher gets starts with it, the target is what it names,
    and the client is not told that there is a tunnel. -/
structure Forwarded (s s' : Conn) (head : Bytes) (request : Str) (conn : InboundTcpStream) : Prop where
  stream : head <+: conn.peeked ++ s'.input
  target : namedBy request = some (conn.target.host, conn.target.port)
  client : ∀ written, s'.output = s.output ++ written → ¬ established <:+: written

/-- **Requests are never passed on.** The dispatcher gets what follows the head, and the client is told that
    there is a tunnel. -/
theorem never_forwarded {tag : Str} {s s' : Conn} {head : Bytes} {request : Str} {conn : InboundTcpStream}
    (h : PlainRequest tag s s' head request conn) :
    ¬ Forwarded s s' head request conn ∧ s.input = head ++ (conn.peeked ++ s'.input) ∧
      s'.output = s.output ++ established := by
  obtain ⟨head', request', target, hread, -, -, hout, hconn⟩ := yields_handleHttp.mp h.accepted
  obtain ⟨hhead, hinput⟩ := readHttpHead_isHead hread
  obtain rfl := h.isHead.unique hhead
  obtain rfl := Handed.dispatcher.inj hconn
  exact ⟨fun hforwarded => hforwarded.client established hout (List.infix_refl _), hinput, hout⟩

/-- A request for `http://example.com/`. -/
def getRequest : Bytes := utf8 "GET / HTTP/1.1\r\nHost: example.com\r\n\r\n".toList

/-- It is accepted, with the target that it names. -/
theorem plainRequest_getRequest :
    PlainRequest "in".toList ⟨getRequest, []⟩ ⟨[], established⟩ getRequest
      "GET / HTTP/1.1\r\nHost: example.com\r\n\r\n".toList
      { target := .domain "example.com".toList 80, inboundTag := "in".toList } := by
  have hread : readHttpHead getRequest [] = .ok (getRequest, []) := by rfl
  exact {
    isHead := (readHttpHead_isHead hread).1
    text := fromUtf8_utf8 _
    plain := by decide
    accepted := yields_handleHttp.mpr
      ⟨getRequest, _, _, hread, fromUtf8_utf8 _, by decide, rfl, rfl⟩ }

/-- The server never sees the request, and the client sees a tunnel. -/
theorem never_forwarded_getRequest :
    ¬ Forwarded ⟨getRequest, []⟩ ⟨[], established⟩ getRequest
        "GET / HTTP/1.1\r\nHost: example.com\r\n\r\n".toList
        { target := .domain "example.com".toList 80, inboundTag := "in".toList } ∧
      getRequest = getRequest ++ ([] ++ []) ∧ established = [] ++ established :=
  never_forwarded plainRequest_getRequest

/-- A request that is accepted and not passed on: nothing is left of it for the server. -/
theorem not_forwarded_getRequest :
    ∃ conn s', PlainRequest "in".toList ⟨getRequest, []⟩ s' getRequest
        "GET / HTTP/1.1\r\nHost: example.com\r\n\r\n".toList conn ∧
      ¬ Forwarded ⟨getRequest, []⟩ s' getRequest
        "GET / HTTP/1.1\r\nHost: example.com\r\n\r\n".toList conn := by
  refine ⟨_, _, plainRequest_getRequest, fun hforwarded => ?_⟩
  have hstream : getRequest = [] := List.prefix_nil.mp hforwarded.stream
  have hlength : getRequest.length = 37 := by decide
  rw [hstream] at hlength
  cases hlength

end Reflex.Inbound
