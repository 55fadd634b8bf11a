import Reflex.Lib.Dialogue
import Reflex.RustStd.Num

namespace Reflex.Dns

open RustStd ByteStream

/-!
# DNS — messages over TCP

`tcp_framed_exchange` of `dns/upstream.rs` and `handle_tcp_conn` of `inbound/dns.rs`: a message goes behind
its length in two bytes.  Both sides cut a length to sixteen bits.

* `handleTcpConn_frames` — the inbound answers the queries of a connection in their order, up to the first
  that it cannot answer;
* `exchange_iff` — what an exchange between the two gives, in every order of delivery.
-/

/-! ### The code -/

/-- How a connection fails; `closed` is the end of the stream where a length is expected. -/
inductive TcpError where
  | closed
  | unexpectedEof
  | message (text : Str)
  deriving DecidableEq, Repr

/-- `ensure!`. -/
def ensureTcp (cond : Bool) (text : Str) : Handler TcpError Unit :=
  if cond then pure () else bail (.message text)

/-- `read_u16`; `eof` is how it fails at the end of the stream. -/
def readLen (eof : TcpError) : Handler TcpError Nat := do
  let bs ← readExact eof 2
  return beVal bs

/-- `(len as u16).to_be_bytes()` and the message. -/
def frame (msg : Bytes) : Bytes := beBytes 2 (msg.length % 2 ^ 16) ++ msg

/-- The answer to a query: two bytes with its length, and the message. -/
def readAnswer : Handler TcpError Bytes := do
  let len ← readLen .unexpectedEof
  ensureTcp (decide (12 ≤ len)) ("dns tcp response too short: ".toList ++ display len)
  ensureTcp (decide (len ≤ 65535)) ("dns tcp response too large: ".toList ++ display len)
  readExact .unexpectedEof len

/-- `tcp_framed_exchange`. -/
def tcpFramedExchange (msg : Bytes) : Handler TcpError Bytes := do
  writeAll (beBytes 2 (msg.length % 2 ^ 16))
  writeAll msg
  readAnswer

/-- `DnsQueryTx` as one connection sees it: what comes back through `reply_tx` for its `k`-th query, if anything. -/
abbrev QueryReplies := Nat → Bytes → Option Bytes

/-- One round of `handle_tcp_conn`. -/
def answerQuery (eof : TcpError) (resolver : QueryReplies) (k : Nat) : Handler TcpError Unit := do
  let len ← readLen eof
  ensureTcp (decide (len ≤ 4096)) ("DNS TCP message too large: ".toList ++ display len)
  let message ← readExact .unexpectedEof len
  let resp ← ofExcept (match resolver k message with
    | some resp => .ok resp
    | none => .error (.message "dns resolver dropped reply".toList))
  writeAll (beBytes 2 (resp.length % 2 ^ 16))
  writeAll resp

/-- `handle_tcp_conn` on a stream that ends: the end in place of a length is no failure. -/
def handleTcpConn (resolver : QueryReplies) : Handler TcpError Unit := fun s =>
  match forever .closed (answerQuery .closed resolver) s with
  | (.error .closed, s') => (.ok (), s')
  | r => r

/-- `handle_tcp_conn` on a stream that stays open: it waits for more. -/
def tcpServer (resolver : QueryReplies) : Handler TcpError Unit :=
  forever .unexpectedEof (answerQuery .unexpectedEof resolver)

/-! ### Reading and writing -/

theorem writeAll_append (bs cs : Bytes) {α : Type} (k : Unit → Handler TcpError α) :
    (writeAll bs >>= fun _ => writeAll cs >>= k) = writeAll (bs ++ cs) >>= k := by
  funext s
  show k () _ = k () _
  rw [List.append_assoc]

theorem tcpFramedExchange_eq (msg : Bytes) :
    tcpFramedExchange msg = writeAll (frame msg) >>= fun _ => readAnswer :=
  writeAll_append _ msg _

theorem causal_ensureTcp (eof : TcpError) (cond : Bool) (text : Str) : Causal eof (ensureTcp cond text) :=
  (causal_pure _ ()).ite (causal_bail _ _)

theorem reads_ensureTcp {cond : Bool} (h : cond = true) (text : Str) : Reads (ensureTcp cond text) [] () := by
  rw [ensureTcp, if_pos h]
  exact reads_pure rfl

theorem causal_readLen (eof : TcpError) : Causal eof (readLen eof) :=
  (causal_readExact eof 2).bind fun _ => causal_pure _ _

theorem causal_readAnswer : Causal .unexpectedEof readAnswer :=
  (causal_readLen _).bind fun _ => (causal_ensureTcp _ _ _).bind fun _ => (causal_ensureTcp _ _ _).bind
    fun _ => causal_readExact _ _

theorem causal_answerQuery (resolver : QueryReplies) (k : Nat) :
    Causal .unexpectedEof (answerQuery .unexpectedEof resolver k) :=
  (causal_readLen _).bind fun _ => (causal_ensureTcp _ _ _).bind fun _ => (causal_readExact _ _).bind fun _ =>
    (causal_ofExcept _ _).bind fun _ => (causal_writeAll _ _).bind fun _ => causal_writeAll _ _

/-- The length in front of a message is that of the message modulo `2 ^ 16`. -/
theorem reads_readLen (eof : TcpError) (n : Nat) : Reads (readLen eof) (beBytes 2 (n % 2 ^ 16)) (n % 2 ^ 16) := by
  refine (reads_readExact eof (length_beBytes 2 _)).bind_nil (reads_pure ?_)
  exact beVal_beBytes_of_lt (Nat.mod_lt _ (by decide))

/-! ### One round -/

section Rounds

variable {eof : TcpError} {resolver : QueryReplies}

/-- What is read of a message behind its length: the length is cut to sixteen bits. -/
def cut (msg : Bytes) : Bytes := msg.take (msg.length % 2 ^ 16)

theorem length_cut (msg : Bytes) : (cut msg).length = msg.length % 2 ^ 16 :=
  List.length_take_of_le (Nat.mod_le _ _)

theorem cut_of_lt {msg : Bytes} (h : msg.length < 2 ^ 16) : cut msg = msg := by
  rw [cut, Nat.mod_eq_of_lt h, List.take_length]

/-- What is left of a longer message comes behind what is read of it. -/
theorem frame_eq (msg rest : Bytes) : frame msg ++ rest
    = beBytes 2 (msg.length % 2 ^ 16) ++ (cut msg ++ (msg.drop (msg.length % 2 ^ 16) ++ rest)) := by
  rw [frame, List.append_assoc, ← List.append_assoc (cut msg), cut, List.take_append_drop]

theorem answerQuery_of_answer (eof : TcpError) {msg resp : Bytes} {k : Nat} (hlen : msg.length % 2 ^ 16 ≤ 4096)
    (hresp : resolver k (cut msg) = some resp) (rest output : Bytes) :
    answerQuery eof resolver k ⟨frame msg ++ rest, output⟩
      = (.ok (), ⟨msg.drop (msg.length % 2 ^ 16) ++ rest, output ++ frame resp⟩) := by
  have hanswer : Reads (ofExcept (match resolver k (cut msg) with
      | some resp => .ok resp
      | none => .error (TcpError.message "dns resolver dropped reply".toList))) [] resp :=
    reads_ofExcept (by rw [hresp])
  rw [frame_eq]
  unfold answerQuery
  rw [bind_of_ok (reads_readLen eof _ _ _), bind_of_reads_nil (reads_ensureTcp (decide_eq_true hlen) _),
    bind_of_ok (reads_readExact _ (length_cut msg) _ _), bind_of_reads_nil hanswer]
  show ((Except.ok (), _) : Except TcpError Unit × Conn) = _
  rw [frame, List.append_assoc]

theorem answerQuery_of_long {msg : Bytes} {k : Nat} (hlen : ¬ msg.length % 2 ^ 16 ≤ 4096)
    (rest output : Bytes) : ∃ text input,
      answerQuery eof resolver k ⟨frame msg ++ rest, output⟩ = (.error (.message text), ⟨input, output⟩) := by
  rw [frame_eq]
  unfold answerQuery
  rw [bind_of_ok (reads_readLen eof _ _ _), decide_eq_false hlen]
  exact ⟨_, _, rfl⟩

theorem answerQuery_of_none {msg : Bytes} {k : Nat} (hlen : msg.length % 2 ^ 16 ≤ 4096)
    (hresp : resolver k (cut msg) = none) (rest output : Bytes) : ∃ text input,
      answerQuery eof resolver k ⟨frame msg ++ rest, output⟩ = (.error (.message text), ⟨input, output⟩) := by
  rw [frame_eq]
  unfold answerQuery
  rw [bind_of_ok (reads_readLen eof _ _ _), bind_of_reads_nil (reads_ensureTcp (decide_eq_true hlen) _),
    bind_of_ok (reads_readExact _ (length_cut msg) _ _), hresp]
  exact ⟨_, _, rfl⟩

theorem answerQuery_nil (k : Nat) (output : Bytes) :
    answerQuery eof resolver k ⟨[], output⟩ = (.error eof, ⟨[], output⟩) := rfl

/-- A round that returns has taken a length. -/
theorem length_unread_answerQuery (k : Nat) (input : Bytes)
    (h : result (answerQuery eof resolver k) input = .ok ()) :
    (unread (answerQuery eof resolver k) input).length < input.length := by
  have hyields : Yields (answerQuery eof resolver k) ⟨input, []⟩ ()
      (answerQuery eof resolver k ⟨input, []⟩).2 := Prod.ext h rfl
  obtain ⟨len, s₁, hlen, hensures⟩ := yields_bind.mp hyields
  obtain ⟨bs, s₂, hbs, hbs'⟩ := yields_bind.mp hlen
  obtain ⟨hinput, htwo, -⟩ := yields_readExact.mp hbs
  obtain ⟨-, rfl⟩ := yields_pure.mp hbs'
  obtain ⟨_, s₃, hensure, hreads⟩ := yields_bind.mp hensures
  obtain rfl : s₂ = s₃ := by
    unfold ensureTcp at hensure
    split_ifs at hensure
    · exact (yields_pure.mp hensure).2
    · exact absurd hensure not_yields_bail
  obtain ⟨message, s₄, hmessage, hresolves⟩ := yields_bind.mp hreads
  obtain ⟨hinput₂, -, -⟩ := yields_readExact.mp hmessage
  obtain ⟨resp, s₅, hresp, hwrites⟩ := yields_bind.mp hresolves
  obtain ⟨-, rfl⟩ := yields_ofExcept.mp hresp
  obtain ⟨_, s₆, hwrite, hlast⟩ := yields_bind.mp hwrites
  rw [yields_writeAll.mp hwrite] at hlast
  -- what is left is the input behind the length and the message
  have hunread : unread (answerQuery eof resolver k) input = s₅.input :=
    (congrArg Conn.input (yields_writeAll.mp hlast)).trans rfl
  have hinput' : input = bs ++ s₂.input := hinput
  rw [hunread, hinput', hinput₂, List.length_append, List.length_append, htwo]
  omega

end Rounds

/-! ### A connection -/

section Connection

variable {resolver : QueryReplies}

/-- The answers to the queries of a connection, up to the first that is too long or is not answered. -/
def answers (resolver : QueryReplies) : Nat → List Bytes → List Bytes
  | _, [] => []
  | k, msg :: msgs =>
      if msg.length ≤ 4096 then
        match resolver k msg with
        | some resp => resp :: answers resolver (k + 1) msgs
        | none => []
      else []

theorem answers_cons {msg : Bytes} {k : Nat} {resp : Bytes} (hlen : msg.length ≤ 4096)
    (hresp : resolver k msg = some resp) (msgs : List Bytes) :
    answers resolver k (msg :: msgs) = resp :: answers resolver (k + 1) msgs := by
  rw [answers, if_pos hlen, hresp]

theorem loop_frames (eof : TcpError) (resolver : QueryReplies) {msgs : List Bytes}
    (hlen : ∀ msg ∈ msgs, msg.length < 2 ^ 16) {n : Nat} (hn : msgs.length < n) (k : Nat) (output : Bytes) :
    ∃ e input, loop eof (answerQuery eof resolver) n k ⟨msgs.flatMap frame, output⟩
        = (.error e, ⟨input, output ++ (answers resolver k msgs).flatMap frame⟩) ∧
      ((answers resolver k msgs).length = msgs.length → e = eof ∧ input = []) ∧
      ((answers resolver k msgs).length ≠ msgs.length → ∃ text, e = .message text) := by
  induction msgs generalizing n k output with
  | nil =>
    obtain ⟨n, rfl⟩ : ∃ n', n = n' + 1 := ⟨n - 1, by omega⟩
    refine ⟨eof, [], ?_, fun _ => ⟨rfl, rfl⟩, fun h => absurd rfl h⟩
    show (answerQuery eof resolver k >>= _) ⟨[], output⟩ = _
    rw [bind_of_error (answerQuery_nil k output)]
    show _ = (_, (⟨[], output ++ []⟩ : Conn))
    rw [List.append_nil]
  | cons msg msgs ih =>
    obtain ⟨n, rfl⟩ : ∃ n', n = n' + 1 := ⟨n - 1, by omega⟩
    have hmsg : msg.length < 2 ^ 16 := hlen msg List.mem_cons_self
    have hmod : msg.length % 2 ^ 16 = msg.length := Nat.mod_eq_of_lt hmsg
    have hquery : cut msg = msg := cut_of_lt hmsg
    -- a query that is not answered ends the connection
    have hstops (hanswers : answers resolver k (msg :: msgs) = [])
        (hfails : ∃ text input, answerQuery eof resolver k ⟨frame msg ++ msgs.flatMap frame, output⟩
          = (.error (.message text), ⟨input, output⟩)) :
        ∃ e input, loop eof (answerQuery eof resolver) (n + 1) k ⟨(msg :: msgs).flatMap frame, output⟩
            = (.error e, ⟨input, output ++ (answers resolver k (msg :: msgs)).flatMap frame⟩) ∧
          ((answers resolver k (msg :: msgs)).length = (msg :: msgs).length → e = eof ∧ input = []) ∧
          ((answers resolver k (msg :: msgs)).length ≠ (msg :: msgs).length → ∃ text, e = .message text) := by
      obtain ⟨text, input, hfails⟩ := hfails
      rw [hanswers]
      refine ⟨.message text, input, ?_, fun h => absurd h (Nat.succ_ne_zero _).symm, fun _ => ⟨text, rfl⟩⟩
      rw [List.flatMap_nil, List.append_nil]
      exact bind_of_error hfails
    by_cases h4096 : msg.length ≤ 4096
    · cases hresp : resolver k msg with
      | some resp =>
        rw [answers_cons h4096 hresp]
        obtain ⟨e, input, hloop, hall, hsome⟩ :=
          ih (fun m hm => hlen m (List.mem_cons_of_mem msg hm)) (Nat.lt_of_succ_lt_succ hn) (k + 1)
            (output ++ frame resp)
        refine ⟨e, input, ?_, fun h => hall (Nat.succ.inj h), fun h => hsome fun h' => h (congrArg Nat.succ h')⟩
        have hround := answerQuery_of_answer eof (by rw [hmod]; exact h4096)
          (by rw [hquery]; exact hresp) (msgs.flatMap frame) output
        rw [hmod, List.drop_length, List.nil_append] at hround
        rw [List.flatMap_cons, List.flatMap_cons, ← List.append_assoc]
        exact (bind_of_ok hround).trans hloop
      | none =>
        refine hstops ?_ (answerQuery_of_none (by rw [hmod]; exact h4096) (by rw [hquery]; exact hresp) _ _)
        rw [answers, if_pos h4096, hresp]
    · refine hstops ?_ (answerQuery_of_long (by rw [hmod]; exact h4096) _ _)
      rw [answers, if_neg h4096]

theorem length_le_flatMap_frame (msgs : List Bytes) : msgs.length ≤ (msgs.flatMap frame).length := by
  induction msgs with
  | nil => exact le_rfl
  | cons msg msgs ih =>
    rw [List.flatMap_cons, List.length_append, List.length_cons, frame, List.length_append, length_beBytes]
    omega

theorem causal_tcpServer (resolver : QueryReplies) : Causal .unexpectedEof (tcpServer resolver) :=
  causal_forever (causal_answerQuery resolver) fun k input h => length_unread_answerQuery k input h

/-- **The queries of a connection** are answered in their order, up to the first that is too long or gets no
    answer, whatever part of them has arrived; and the handler returns if all of them were answered. -/
theorem handleTcpConn_frames (resolver : QueryReplies) (msgs : List Bytes)
    (hlen : ∀ msg ∈ msgs, msg.length < 2 ^ 16) :
    (∀ input, input <+: msgs.flatMap frame →
        written (tcpServer resolver) input <+: (answers resolver 0 msgs).flatMap frame) ∧
      written (handleTcpConn resolver) (msgs.flatMap frame) = (answers resolver 0 msgs).flatMap frame ∧
      (result (handleTcpConn resolver) (msgs.flatMap frame) = .ok () ↔
        (answers resolver 0 msgs).length = msgs.length) := by
  have hfuel : msgs.length < (msgs.flatMap frame).length + 1 := Nat.lt_succ_of_le (length_le_flatMap_frame msgs)
  refine ⟨fun input hinput => ?_, ?_⟩
  · obtain ⟨e, rest, hloop, -, -⟩ :=
      loop_frames .unexpectedEof resolver hlen hfuel 0 []
    have hwritten : written (tcpServer resolver) (msgs.flatMap frame)
        = (answers resolver 0 msgs).flatMap frame := congrArg (fun r => r.2.output) hloop
    rw [← hwritten]
    exact (causal_tcpServer resolver).written_grows hinput
  · obtain ⟨e, rest, hloop, hall, hsome⟩ := loop_frames .closed resolver hlen hfuel 0 []
    have hforever : forever .closed (answerQuery .closed resolver) ⟨msgs.flatMap frame, []⟩
        = (.error e, ⟨rest, (answers resolver 0 msgs).flatMap frame⟩) := hloop
    unfold written result handleTcpConn
    rw [hforever]
    by_cases hlength : (answers resolver 0 msgs).length = msgs.length
    · obtain ⟨rfl, -⟩ := hall hlength
      exact ⟨rfl, iff_of_true rfl hlength⟩
    · obtain ⟨text, rfl⟩ := hsome hlength
      exact ⟨rfl, iff_of_false (fun h => by cases h) hlength⟩

/-- Two queries, the second of which gets no answer. -/
theorem handleTcpConn_frames_two :
    written (handleTcpConn fun k msg => if k = 0 then some msg else none) ([[0x01], [0x02]].flatMap frame)
      = frame [0x01] := by
  have h := (handleTcpConn_frames (fun k msg => if k = 0 then some msg else none) [[0x01], [0x02]]
    (by decide)).2.1
  exact h

/-! ### An exchange -/

theorem readAnswer_frame (resp more : Bytes) : ∃ rest,
    readAnswer ⟨frame resp ++ more, []⟩ = (if 12 ≤ resp.length % 2 ^ 16 then .ok (cut resp)
      else .error (.message ("dns tcp response too short: ".toList ++ display (resp.length % 2 ^ 16))),
      ⟨rest, []⟩) := by
  have hlarge : resp.length % 2 ^ 16 ≤ 65535 := Nat.le_of_lt_succ (Nat.mod_lt _ (by decide))
  rw [frame_eq]
  unfold readAnswer
  rw [bind_of_ok (reads_readLen _ _ _ _)]
  by_cases h12 : 12 ≤ resp.length % 2 ^ 16
  · rw [bind_of_reads_nil (reads_ensureTcp (decide_eq_true h12) _),
      bind_of_reads_nil (reads_ensureTcp (decide_eq_true hlarge) _), if_pos h12]
    exact ⟨_, reads_readExact _ (length_cut resp) _ _⟩
  · rw [decide_eq_false h12, if_neg h12]
    exact ⟨_, rfl⟩

/-- Where a question and its answer end, from what each of the two does with the bytes of the other. -/
theorem ends_exchange {msg down : Bytes} {r : Except TcpError Bytes × Bytes} {q : Except TcpError Unit × Bytes}
    (hr : readAnswer ⟨down, []⟩ = (r.1, ⟨r.2, []⟩))
    (hq : tcpServer resolver ⟨frame msg, []⟩ = (q.1, ⟨q.2, down⟩)) :
    ∃ t, Dialogue.Ends (tcpFramedExchange msg) (tcpServer resolver) t ∧
      (∀ s, Dialogue.Reachable (tcpFramedExchange msg) (tcpServer resolver) s →
        Relation.ReflTransGen (Dialogue.Step (tcpFramedExchange msg) (tcpServer resolver)) s t) ∧
      result (tcpFramedExchange msg) t.toClient = r.1 := by
  have hclient : Causal .unexpectedEof (tcpFramedExchange msg) := by
    rw [tcpFramedExchange_eq]
    exact (causal_writeAll _ _).bind fun _ => causal_readAnswer
  have houtcome : Dialogue.Outcome (tcpFramedExchange msg) (tcpServer resolver) r q := by
    rw [tcpFramedExchange_eq]
    exact Dialogue.Outcome.call causal_readAnswer hr hq
  obtain ⟨t, ht, hresult, -⟩ := houtcome.ends
  exact ⟨t, ht, fun s hs => ht.reaches hclient (causal_tcpServer resolver) hs, congrArg Prod.fst hresult⟩

/-- The first round of a server that is sent one frame, and the rounds behind it. -/
theorem tcpServer_frame (msg : Bytes) : ∃ n, tcpServer resolver ⟨frame msg, []⟩
    = (answerQuery .unexpectedEof resolver 0 >>= fun _ =>
        loop .unexpectedEof (answerQuery .unexpectedEof resolver) n 1) ⟨frame msg ++ [], []⟩ := by
  rw [List.append_nil]
  exact ⟨_, rfl⟩

/-- **An exchange.** However the bytes are cut and delivered, the client ends with the resolver's answer, if
    the query has at most 4096 bytes and the answer at least twelve; of a query or an answer whose length does
    not fit into sixteen bits, what the cut length leaves of it is taken. -/
theorem exchange_iff (resolver : QueryReplies) (msg : Bytes) :
    ∃ t, Dialogue.Ends (tcpFramedExchange msg) (tcpServer resolver) t ∧
      (∀ s, Dialogue.Reachable (tcpFramedExchange msg) (tcpServer resolver) s →
        Relation.ReflTransGen (Dialogue.Step (tcpFramedExchange msg) (tcpServer resolver)) s t) ∧
      ∀ r, result (tcpFramedExchange msg) t.toClient = .ok r ↔
        msg.length % 2 ^ 16 ≤ 4096 ∧ ∃ resp, resolver 0 (cut msg) = some resp ∧
          12 ≤ resp.length % 2 ^ 16 ∧ r = cut resp := by
  obtain ⟨n, hserver⟩ : ∃ n, tcpServer resolver ⟨frame msg, []⟩
      = (answerQuery .unexpectedEof resolver 0 >>= fun _ =>
          loop .unexpectedEof (answerQuery .unexpectedEof resolver) n 1) ⟨frame msg ++ [], []⟩ :=
    tcpServer_frame msg
  -- without an answer the client waits for ever
  have hwaits {text : Str} {input : Bytes}
      (hround : answerQuery .unexpectedEof resolver 0 ⟨frame msg ++ [], []⟩
        = (.error (.message text), ⟨input, []⟩))
      (hnone : ∀ r, ¬ (msg.length % 2 ^ 16 ≤ 4096 ∧ ∃ resp, resolver 0 (cut msg) = some resp ∧
        12 ≤ resp.length % 2 ^ 16 ∧ r = cut resp)) :
      ∃ t, Dialogue.Ends (tcpFramedExchange msg) (tcpServer resolver) t ∧
        (∀ s, Dialogue.Reachable (tcpFramedExchange msg) (tcpServer resolver) s →
          Relation.ReflTransGen (Dialogue.Step (tcpFramedExchange msg) (tcpServer resolver)) s t) ∧
        ∀ r, result (tcpFramedExchange msg) t.toClient = .ok r ↔
          msg.length % 2 ^ 16 ≤ 4096 ∧ ∃ resp, resolver 0 (cut msg) = some resp ∧
            12 ≤ resp.length % 2 ^ 16 ∧ r = cut resp := by
    have hr : readAnswer ⟨[], []⟩ = (.error .unexpectedEof, ⟨[], []⟩) := rfl
    obtain ⟨t, ht, hreach, hresult⟩ := ends_exchange (r := (.error .unexpectedEof, [])) hr
      (q := (.error (.message text), input)) (hserver.trans (bind_of_error hround))
    refine ⟨t, ht, hreach, fun r => ?_⟩
    rw [hresult]
    exact iff_of_false (fun h => by cases h) (hnone r)
  by_cases hlen : msg.length % 2 ^ 16 ≤ 4096
  · obtain hresp | ⟨resp, hresp⟩ := Option.eq_none_or_eq_some (resolver 0 (cut msg))
    · obtain ⟨text, input, hround⟩ := answerQuery_of_none hlen hresp [] []
      refine hwaits hround fun r h => ?_
      obtain ⟨-, resp, hsome, -⟩ := h
      rw [hresp] at hsome
      cases hsome
    · have hround := answerQuery_of_answer .unexpectedEof hlen hresp [] []
      have hrest := (causal_loop (causal_answerQuery resolver) n 1).output
        (msg.drop (msg.length % 2 ^ 16) ++ []) (frame resp)
      obtain ⟨rest, hanswer⟩ := readAnswer_frame resp
        (written (loop .unexpectedEof (answerQuery .unexpectedEof resolver) n 1)
          (msg.drop (msg.length % 2 ^ 16) ++ []))
      have hq := hserver.trans ((bind_of_ok hround).trans hrest)
      by_cases h12 : 12 ≤ resp.length % 2 ^ 16
      · rw [if_pos h12] at hanswer
        obtain ⟨t, ht, hreach, hresult⟩ := ends_exchange (r := (.ok (cut resp), rest)) hanswer (q := (_, _)) hq
        refine ⟨t, ht, hreach, fun r => ?_⟩
        rw [hresult, Except.ok.injEq]
        constructor
        · rintro rfl
          exact ⟨hlen, resp, hresp, h12, rfl⟩
        · rintro ⟨-, resp', hresp', -, rfl⟩
          rw [Option.some.inj (hresp.symm.trans hresp')]
      · rw [if_neg h12] at hanswer
        obtain ⟨t, ht, hreach, hresult⟩ := ends_exchange (r := (.error _, rest)) hanswer (q := (_, _)) hq
        refine ⟨t, ht, hreach, fun r => ?_⟩
        rw [hresult]
        refine iff_of_false (fun h => by cases h) fun h => ?_
        obtain ⟨-, resp', hresp', h12', -⟩ := h
        exact h12 (Option.some.inj (hresp.symm.trans hresp') ▸ h12')
  · obtain ⟨text, input, hround⟩ := answerQuery_of_long hlen [] []
    exact hwaits hround fun r h => hlen h.1

end Connection

end Reflex.Dns
