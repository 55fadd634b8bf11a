import Mathlib.Logic.Function.Basic
import Mathlib.Logic.Relator
import Reflex.Dns.Wire
import Reflex.Lib.Transition
import Reflex.RustStd.Net

namespace Reflex.Dns

open RustStd

/-!
# DNS — queries through a direct UDP upstream

`DnsUpstream::query` of `dns/upstream.rs` for a `Udp` upstream without a detour, as a system of
concurrent queries, the sockets they share and the server.  A step is what happens between two
suspension points of one query, or an event of the network; an interleaving is a list of steps.

* `Carries` — a message carries the transaction ID and the question of another;
* `Outstanding` — what is under way on a socket;
* `Exclusive` — a query is sent while nothing with another transaction ID or question is under
  way on its socket;
* `Inv` — what holds as long as every query on the shared socket is sent so, `inv_step`.
-/

/-! ### Messages -/

/-- The transaction ID and the question of a message. -/
def identity (msg : Bytes) : Bytes × Question := (transactionId msg, question msg)

/-- `resp` carries the transaction ID and the question of `msg`. -/
def Carries (msg resp : Bytes) : Prop := identity resp = identity msg

instance (msg resp : Bytes) : Decidable (Carries msg resp) :=
  inferInstanceAs (Decidable (identity resp = identity msg))

/-- A datagram in the receive queue of a socket. -/
structure Datagram where
  source : SocketAddr
  payload : Bytes

/-- What `recv_from` leaves in the buffer of 4096 bytes. -/
def Datagram.received (d : Datagram) : Bytes := d.payload.take 4096

/-- The test for the `TC` bit, made from three bytes on. -/
def isTruncated (buf : Bytes) : Bool :=
  match buf[2]? with
  | some b => b &&& 0x02 != 0
  | none => false

/-! ### The system -/

/-- Why a query fails. -/
inductive QueryError where
  | io
  | elapsed
  | tooShort (len : Nat)
  deriving DecidableEq

/-- Where a query is suspended. -/
inductive Phase where
  /-- before `get_or_create_udp_socket` -/
  | start
  /-- in `get_or_create_udp_socket`, with a socket of its own, before the second look at the slot -/
  | bound (sock : Nat)
  /-- in `udp_query_with_socket`, before `send_to` -/
  | send (sock : Nat)
  /-- in `udp_query_with_socket`, in `recv_from` -/
  | recv (sock : Nat)
  /-- in `udp_query`, before it binds a socket -/
  | udpQuery
  /-- in `udp_query`, in `recv_from` -/
  | recvOwn (sock : Nat)
  /-- in `tcp_query` -/
  | tcpQuery
  /-- `query` has returned -/
  | done (result : Except QueryError Bytes)
  deriving DecidableEq

/-- Whether a query suspended here is inside the timeout of `query`, which begins after
    `get_or_create_udp_socket`. -/
def Phase.isTimed : Phase → Bool
  | .send _ | .recv _ | .udpQuery | .recvOwn _ | .tcpQuery => true
  | .start | .bound _ | .done _ => false

/-- Whether `query` has returned. -/
def Phase.isDone : Phase → Bool
  | .done _ => true
  | _ => false

/-- The socket a query waits for an answer on. -/
def Phase.waitsOn : Phase → Option Nat
  | .recv sock | .recvOwn sock => some sock
  | _ => none

/-- The socket a query was given by `get_or_create_udp_socket`. -/
def Phase.shared : Phase → Option Nat
  | .send sock | .recv sock => some sock
  | _ => none

/-- A call of `query`. -/
structure Query where
  msg : Bytes
  phase : Phase
  deriving DecidableEq

/-- The upstream and the network behind it.  Sockets and queries are numbered. -/
structure Net where
  /-- `udp_socket_v4` or `udp_socket_v6`, by the family of the upstream's address -/
  slot : Option Nat
  /-- the number of the next socket to be bound -/
  next : Nat
  queries : Nat → Option Query
  /-- by socket, the queries sent and not yet answered or lost -/
  owed : Nat → List Bytes
  /-- by socket, the receive queue -/
  unread : Nat → List Datagram

namespace Net

/-- No socket is open, no query is under way, and nothing is owed or unread. -/
def init : Net where
  slot := none
  next := 0
  queries := fun _ => none
  owed := fun _ => []
  unread := fun _ => []

/-- Query `i`, for `msg`, is now suspended at `phase`. -/
def move (n : Net) (i : Nat) (msg : Bytes) (phase : Phase) : Net :=
  { n with queries := Function.update n.queries i (some ⟨msg, phase⟩) }

/-- `query` is called. -/
def call (n : Net) (i : Nat) (msg : Bytes) : Option Net :=
  match n.queries i with
  | some _ => none
  | none => some (n.move i msg .start)

/-- `get_or_create_udp_socket` up to its second look at the slot: the socket in the slot, or a
    newly bound one. -/
def getOrCreateUdpSocket (n : Net) (i : Nat) : Option Net :=
  match n.queries i with
  | some ⟨msg, .start⟩ =>
      match n.slot with
      | some sock => some (n.move i msg (.send sock))
      | none => some ({ n with next := n.next + 1 }.move i msg (.bound n.next))
  | _ => none

/-- The second look at the slot: it keeps the socket it has. -/
def fillSlot (n : Net) (i : Nat) : Option Net :=
  match n.queries i with
  | some ⟨msg, .bound sock⟩ =>
      match n.slot with
      | some shared => some (n.move i msg (.send shared))
      | none => some ({ n with slot := some sock }.move i msg (.send sock))
  | _ => none

/-- A query leaves `sock` for the server. -/
def owe (n : Net) (sock : Nat) (msg : Bytes) : Net :=
  { n with owed := Function.update n.owed sock (n.owed sock ++ [msg]) }

/-- `send_to` of `udp_query_with_socket`. -/
def sendTo (n : Net) (i : Nat) : Option Net :=
  match n.queries i with
  | some ⟨msg, .send sock⟩ => some ((n.owe sock msg).move i msg (.recv sock))
  | _ => none

/-- A datagram is taken from the receive queue of `sock`. -/
def take (n : Net) (sock : Nat) (rest : List Datagram) : Net :=
  { n with unread := Function.update n.unread sock rest }

/-- `recv_from` of `udp_query_with_socket` and what follows: an answer from another address is
    dropped for `udp_query`, a truncated one for `tcp_query`, any other is returned. -/
def recvFrom (addr : SocketAddr) (n : Net) (i : Nat) : Option Net :=
  match n.queries i with
  | some ⟨msg, .recv sock⟩ =>
      match n.unread sock with
      | [] => none
      | d :: rest =>
          let phase :=
            -- neither the transaction ID nor the question of the datagram is looked at
            if d.source ≠ addr then .udpQuery
            else if isTruncated d.received then .tcpQuery
            else .done (.ok d.received)
          some ((n.take sock rest).move i msg phase)
  | _ => none

/-- `udp_query` up to its `recv_from`: the query leaves from a socket of its own. -/
def udpQuery (n : Net) (i : Nat) : Option Net :=
  match n.queries i with
  | some ⟨msg, .udpQuery⟩ =>
      some (({ n with next := n.next + 1 }.owe n.next msg).move i msg (.recvOwn n.next))
  | _ => none

/-- `recv_from` of `udp_query` and what follows; the source of the datagram is not looked at. -/
def recvFromOwn (n : Net) (i : Nat) : Option Net :=
  match n.queries i with
  | some ⟨msg, .recvOwn sock⟩ =>
      match n.unread sock with
      | [] => none
      | d :: rest =>
          let phase := if isTruncated d.received then .tcpQuery else .done (.ok d.received)
          some ((n.take sock rest).move i msg phase)
  | _ => none

/-- `tcp_query`: the server answers on the connection made for this query. -/
def tcpQuery (n : Net) (i : Nat) (resp : Bytes) : Option Net :=
  match n.queries i with
  | some ⟨msg, .tcpQuery⟩ =>
      if Carries msg resp then
        some (n.move i msg (.done
          -- the length behind the two-byte prefix is the only check of `tcp_query`
          (if resp.length < 12 then .error (.tooShort resp.length) else .ok resp)))
      else none
  | _ => none

/-- The server answers the `k`-th query it owes an answer on `sock`, from any of its addresses.
    The answer carries the transaction ID and the question of the query, in what of it fits the
    buffer it will be read into. -/
def reply (n : Net) (sock k : Nat) (d : Datagram) : Option Net :=
  match (n.owed sock)[k]? with
  | some msg =>
      if Carries msg d.received then
        some { n with
          owed := Function.update n.owed sock ((n.owed sock).eraseIdx k)
          unread := Function.update n.unread sock (n.unread sock ++ [d]) }
      else none
  | none => none

/-- The `k`-th query on `sock`, or the answer to it, is lost. -/
def lose (n : Net) (sock k : Nat) : Option Net :=
  if k < (n.owed sock).length then
    some { n with owed := Function.update n.owed sock ((n.owed sock).eraseIdx k) }
  else none

/-- The timeout of `query` elapses.  The socket in the slot stays, with what may still arrive. -/
def timeout (n : Net) (i : Nat) : Option Net :=
  match n.queries i with
  | some ⟨msg, phase⟩ =>
      if phase.isTimed then some (n.move i msg (.done (.error .elapsed))) else none
  | none => none

/-- A call into the operating system fails. -/
def fail (n : Net) (i : Nat) : Option Net :=
  match n.queries i with
  | some ⟨msg, phase⟩ =>
      if phase.isDone then none else some (n.move i msg (.done (.error .io)))
  | none => none

/-- The caller takes the result of a query that is done, and the query is gone. -/
def collect (n : Net) (i : Nat) : Option Net :=
  match n.queries i with
  | some ⟨_, .done _⟩ => some { n with queries := Function.update n.queries i none }
  | _ => none

/-- The steps of the system. -/
inductive Action where
  | call (i : Nat) (msg : Bytes)
  | getOrCreateUdpSocket (i : Nat)
  | fillSlot (i : Nat)
  | sendTo (i : Nat)
  | recvFrom (i : Nat)
  | udpQuery (i : Nat)
  | recvFromOwn (i : Nat)
  | tcpQuery (i : Nat) (resp : Bytes)
  | reply (sock k : Nat) (d : Datagram)
  | lose (sock k : Nat)
  | timeout (i : Nat)
  | fail (i : Nat)
  | collect (i : Nat)

/-- One step of the system; `addr` is the address of the upstream. -/
def step (addr : SocketAddr) (n : Net) : Action → Option Net
  | .call i msg => n.call i msg
  | .getOrCreateUdpSocket i => n.getOrCreateUdpSocket i
  | .fillSlot i => n.fillSlot i
  | .sendTo i => n.sendTo i
  | .recvFrom i => n.recvFrom addr i
  | .udpQuery i => n.udpQuery i
  | .recvFromOwn i => n.recvFromOwn i
  | .tcpQuery i resp => n.tcpQuery i resp
  | .reply sock k d => n.reply sock k d
  | .lose sock k => n.lose sock k
  | .timeout i => n.timeout i
  | .fail i => n.fail i
  | .collect i => n.collect i

/-! ### What is under way on a socket -/

/-- A query that waits on `sock`, a query sent from `sock` and not yet answered, or an unread
    datagram of `sock` has the transaction ID and the question `x`. -/
def Outstanding (n : Net) (sock : Nat) (x : Bytes × Question) : Prop :=
  (∃ i msg phase, n.queries i = some ⟨msg, phase⟩ ∧ phase.waitsOn = some sock ∧
    identity msg = x) ∨
  (∃ msg ∈ n.owed sock, identity msg = x) ∨
  ∃ d ∈ n.unread sock, identity d.received = x

/-- **Exclusive sending.** If `a` sends a query on the socket of the slot, then all that is under
    way on it has the same transaction ID and question. -/
def Exclusive (n : Net) (a : Action) : Prop :=
  ∀ i msg sock, a = .sendTo i → n.queries i = some ⟨msg, .send sock⟩ →
    ∀ x, n.Outstanding sock x → x = identity msg

/-- The invariant of exclusive sending: what is under way on a socket is all of one transaction ID and question. -/
structure Inv (n : Net) : Prop where
  /-- all that is under way on a socket has one transaction ID and question -/
  coherent : Relator.RightUnique n.Outstanding
  outstanding_lt : ∀ sock x, n.Outstanding sock x → sock < n.next
  slot_lt : ∀ sock, n.slot = some sock → sock < n.next
  bound_lt : ∀ i msg sock, n.queries i = some ⟨msg, .bound sock⟩ → sock < n.next
  /-- all queries use the socket of the slot -/
  shared : ∀ i msg phase sock, n.queries i = some ⟨msg, phase⟩ → phase.shared = some sock →
    n.slot = some sock
  /-- a query that returned a message returned one that carries its identity -/
  carries : ∀ i msg resp, n.queries i = some ⟨msg, .done (.ok resp)⟩ → Carries msg resp

theorem not_outstanding_init (sock : Nat) (x : Bytes × Question) : ¬ init.Outstanding sock x := by
  rintro (⟨i, msg, phase, hq, -⟩ | ⟨msg, hmsg, -⟩ | ⟨d, hd, -⟩)
  · cases hq
  · cases hmsg
  · cases hd

theorem inv_init : init.Inv := by
  constructor
  · intro sock x y hx
    exact absurd hx (not_outstanding_init sock x)
  · intro sock x hx
    exact absurd hx (not_outstanding_init sock x)
  · intro sock hslot
    cases hslot
  · intro i msg sock hq
    cases hq
  · intro i msg phase sock hq
    cases hq
  · intro i msg resp hq
    cases hq

/-! ### Frames -/

/-- A relation stays single-valued when it grows by pairs with the one value `b`, at arguments that
    had no other value. -/
theorem rightUnique_of_grow {α β : Type*} {R R' : α → β → Prop} {P : α → Prop} {b : β}
    (h : Relator.RightUnique R) (hgrow : ∀ a c, R' a c → (P a ∧ c = b) ∨ R a c)
    (hold : ∀ a c, P a → R a c → c = b) : Relator.RightUnique R' := by
  intro a c c' hc hc'
  -- of two values, each is either new, hence `b`, or old
  rcases hgrow a c hc with ⟨hp, rfl⟩ | hc <;> rcases hgrow a c' hc' with ⟨hp', rfl⟩ | hc'
  · rfl
  · exact (hold a c' hp hc').symm
  · exact hold a c hp' hc
  · exact h hc hc'

theorem queries_move {n : Net} {i j : Nat} {msg msg' : Bytes} {phase phase' : Phase}
    (h : (n.move i msg phase).queries j = some ⟨msg', phase'⟩) :
    (j = i ∧ msg' = msg ∧ phase' = phase) ∨ n.queries j = some ⟨msg', phase'⟩ := by
  by_cases hj : j = i
  · subst hj
    have hself : (n.move j msg phase).queries j = some ⟨msg, phase⟩ := Function.update_self ..
    rw [hself] at h
    cases h
    exact .inl ⟨rfl, rfl, rfl⟩
  · have hother : (n.move i msg phase).queries j = n.queries j := Function.update_of_ne hj ..
    rw [hother] at h
    exact .inr h

theorem outstanding_move {n : Net} {i : Nat} {msg : Bytes} {phase : Phase} {sock : Nat}
    {x : Bytes × Question} (h : (n.move i msg phase).Outstanding sock x) :
    (phase.waitsOn = some sock ∧ x = identity msg) ∨ n.Outstanding sock x := by
  rcases h with ⟨j, msg', phase', hq, hwait, hx⟩ | h
  · rcases queries_move hq with ⟨-, rfl, rfl⟩ | hq
    · exact .inl ⟨hwait, hx.symm⟩
    · exact .inr (.inl ⟨j, msg', phase', hq, hwait, hx⟩)
  · exact .inr (.inr h)

/-- A step that changes neither the slot nor the sockets and after which no more is under way
    keeps the invariant. -/
theorem Inv.mono {n n' : Net} (h : n.Inv) (hslot : n'.slot = n.slot) (hnext : n'.next = n.next)
    (hqueries : ∀ i q, n'.queries i = some q → n.queries i = some q)
    (hout : ∀ sock x, n'.Outstanding sock x → n.Outstanding sock x) : n'.Inv := by
  constructor
  · intro sock x y hx hy
    exact h.coherent (hout sock x hx) (hout sock y hy)
  · intro sock x hx
    rw [hnext]
    exact h.outstanding_lt sock x (hout sock x hx)
  · intro sock hs
    rw [hnext]
    exact h.slot_lt sock (hslot ▸ hs)
  · intro i msg sock hq
    rw [hnext]
    exact h.bound_lt i msg sock (hqueries i _ hq)
  · intro i msg phase sock hq hsh
    rw [hslot]
    exact h.shared i msg phase sock (hqueries i _ hq) hsh
  · intro i msg resp hq
    exact h.carries i msg resp (hqueries i _ hq)

/-- Query `i` moves on to a phase whose own conditions hold. -/
theorem Inv.move {n : Net} (h : n.Inv) {i : Nat} {msg : Bytes} {phase : Phase}
    (hwait : ∀ sock, phase.waitsOn = some sock →
      sock < n.next ∧ ∀ x, n.Outstanding sock x → x = identity msg)
    (hbound : ∀ sock, phase = .bound sock → sock < n.next)
    (hshared : ∀ sock, phase.shared = some sock → n.slot = some sock)
    (hdone : ∀ resp, phase = .done (.ok resp) → Carries msg resp) : (n.move i msg phase).Inv := by
  constructor
  · exact rightUnique_of_grow h.coherent (fun _ _ hx => outstanding_move hx)
      fun sock x hw => (hwait sock hw).2 x
  · intro sock x hx
    rcases outstanding_move hx with ⟨hwx, -⟩ | hx'
    · exact (hwait sock hwx).1
    · exact h.outstanding_lt sock x hx'
  · exact h.slot_lt
  · intro j msg' sock hq
    rcases queries_move hq with ⟨-, -, hphase⟩ | hq
    · exact hbound sock hphase.symm
    · exact h.bound_lt j msg' sock hq
  · intro j msg' phase' sock hq hsh
    rcases queries_move hq with ⟨-, -, rfl⟩ | hq
    · exact hshared sock hsh
    · exact h.shared j msg' phase' sock hq hsh
  · intro j msg' resp hq
    rcases queries_move hq with ⟨-, rfl, hphase⟩ | hq
    · exact hdone resp hphase.symm
    · exact h.carries j msg' resp hq

/-- A phase that waits on nothing, holds no socket and returns no message. -/
theorem Inv.move_idle {n : Net} (h : n.Inv) {i : Nat} {msg : Bytes} {phase : Phase}
    (hwait : phase.waitsOn = none) (hbound : ∀ sock, phase ≠ .bound sock)
    (hshared : phase.shared = none) (hdone : ∀ resp, phase ≠ .done (.ok resp)) :
    (n.move i msg phase).Inv := by
  -- all four conditions are void
  refine h.move ?_ ?_ ?_ ?_
  · intro sock hw
    rw [hwait] at hw
    cases hw
  · intro sock hb
    exact absurd hb (hbound sock)
  · intro sock hs
    rw [hshared] at hs
    cases hs
  · intro resp hd
    exact absurd hd (hdone resp)

/-- A new socket has nothing under way on it. -/
theorem Inv.bind {n : Net} (h : n.Inv) : { n with next := n.next + 1 }.Inv where
  coherent := h.coherent
  outstanding_lt sock x hx := Nat.lt_succ_of_lt (h.outstanding_lt sock x hx)
  slot_lt sock hs := Nat.lt_succ_of_lt (h.slot_lt sock hs)
  bound_lt i msg sock hq := Nat.lt_succ_of_lt (h.bound_lt i msg sock hq)
  shared := h.shared
  carries := h.carries

theorem outstanding_owe {n : Net} {sock sock' : Nat} {msg : Bytes} {x : Bytes × Question}
    (h : (n.owe sock msg).Outstanding sock' x) :
    (sock' = sock ∧ x = identity msg) ∨ n.Outstanding sock' x := by
  rcases h with h | ⟨msg', hmsg', hx⟩ | h
  · exact .inr (.inl h)
  · by_cases hs : sock' = sock
    · subst hs
      have hself : (n.owe sock' msg).owed sock' = n.owed sock' ++ [msg] := Function.update_self ..
      rw [hself, List.mem_append, List.mem_singleton] at hmsg'
      rcases hmsg' with hmsg' | rfl
      · exact .inr (.inr (.inl ⟨msg', hmsg', hx⟩))
      · exact .inl ⟨rfl, hx.symm⟩
    · have hother : (n.owe sock msg).owed sock' = n.owed sock' := Function.update_of_ne hs ..
      rw [hother] at hmsg'
      exact .inr (.inr (.inl ⟨msg', hmsg', hx⟩))
  · exact .inr (.inr (.inr h))

/-- **Sending** keeps the invariant if all that is under way on the socket has the identity of the
    query: the query then waits on a socket with one identity. -/
theorem Inv.send {n : Net} (h : n.Inv) {i sock : Nat} {msg : Bytes} {phase : Phase}
    (hwait : phase.waitsOn = some sock) (hlt : sock < n.next)
    (hexcl : ∀ x, n.Outstanding sock x → x = identity msg)
    (hshared : ∀ sock, phase.shared = some sock → n.slot = some sock) :
    ((n.owe sock msg).move i msg phase).Inv := by
  -- first the query leaves, then its sender waits: both add the one identity `hexcl` allows
  have howe : (n.owe sock msg).Inv := by
    refine ⟨?_, ?_, h.slot_lt, h.bound_lt, h.shared, h.carries⟩
    · refine rightUnique_of_grow h.coherent (fun _ _ hx => outstanding_owe hx) ?_
      rintro sock' x rfl hx
      exact hexcl x hx
    · intro sock' x hx
      rcases outstanding_owe hx with ⟨rfl, -⟩ | hx
      · exact hlt
      · exact h.outstanding_lt sock' x hx
  refine howe.move ?_ ?_ hshared ?_
  · intro sock' hw
    obtain rfl : sock = sock' := Option.some.inj (hwait.symm.trans hw)
    refine ⟨hlt, fun x hx => ?_⟩
    rcases outstanding_owe hx with ⟨-, rfl⟩ | hx
    · rfl
    · exact hexcl x hx
  · rintro sock' rfl
    cases hwait
  · rintro resp rfl
    cases hwait

theorem outstanding_take {n : Net} {sock sock' : Nat} {d : Datagram} {rest : List Datagram}
    {x : Bytes × Question} (hunread : n.unread sock = d :: rest)
    (h : (n.take sock rest).Outstanding sock' x) : n.Outstanding sock' x := by
  rcases h with h | h | ⟨d', hd', hx⟩
  · exact .inl h
  · exact .inr (.inl h)
  · refine .inr (.inr ⟨d', ?_, hx⟩)
    by_cases hs : sock' = sock
    · subst hs
      have hself : (n.take sock' rest).unread sock' = rest := Function.update_self ..
      rw [hself] at hd'
      rw [hunread]
      exact List.mem_cons_of_mem d hd'
    · have hother : (n.take sock rest).unread sock' = n.unread sock' := Function.update_of_ne hs ..
      rwa [hother] at hd'

/-- What a query reads from a socket with one identity carries its own. -/
theorem Inv.carries_received {n : Net} (h : n.Inv) {i sock : Nat} {msg : Bytes} {phase : Phase}
    {d : Datagram} {rest : List Datagram} (hq : n.queries i = some ⟨msg, phase⟩)
    (hwait : phase.waitsOn = some sock) (hunread : n.unread sock = d :: rest) :
    Carries msg d.received := by
  -- the datagram and the waiting query are both under way on the socket
  have hd : n.Outstanding sock (identity d.received) :=
    .inr (.inr ⟨d, by rw [hunread]; exact List.mem_cons_self .., rfl⟩)
  exact h.coherent hd (.inl ⟨i, msg, phase, hq, hwait, rfl⟩)

/-- **Receiving** keeps the invariant, whatever becomes of the datagram. -/
theorem Inv.receive {n : Net} (h : n.Inv) {i sock : Nat} {msg : Bytes} {phase phase' : Phase}
    {d : Datagram} {rest : List Datagram} (hq : n.queries i = some ⟨msg, phase⟩)
    (hwait : phase.waitsOn = some sock) (hunread : n.unread sock = d :: rest)
    (hphase : phase' = .udpQuery ∨ phase' = .tcpQuery ∨ phase' = .done (.ok d.received)) :
    ((n.take sock rest).move i msg phase').Inv := by
  have htake : (n.take sock rest).Inv :=
    h.mono rfl rfl (fun _ _ hq => hq) fun _ _ hx => outstanding_take hunread hx
  rcases hphase with rfl | rfl | rfl
  · exact htake.move_idle rfl nofun rfl nofun
  · exact htake.move_idle rfl nofun rfl nofun
  · refine htake.move nofun nofun nofun ?_
    rintro resp ⟨⟩
    exact h.carries_received hq hwait hunread

/-! ### One step -/

/-- Calling `query` adds a query and leaves the others as they are. -/
theorem call_eq_some {n n' : Net} {i : Nat} {msg : Bytes} (h : n.call i msg = some n') :
    n.queries i = none ∧ n' = n.move i msg .start := by
  unfold call at h
  split at h
  case h_1 => cases h
  case h_2 hq => exact ⟨hq, (Option.some.inj h).symm⟩

theorem inv_call {n n' : Net} {i : Nat} {msg : Bytes} (h : n.Inv) (hstep : n.call i msg = some n') :
    n'.Inv := by
  obtain ⟨-, rfl⟩ := call_eq_some hstep
  exact h.move_idle rfl nofun rfl nofun

theorem inv_getOrCreateUdpSocket {n n' : Net} {i : Nat} (h : n.Inv)
    (hstep : n.getOrCreateUdpSocket i = some n') : n'.Inv := by
  unfold getOrCreateUdpSocket at hstep
  split at hstep
  case h_2 => cases hstep
  case h_1 msg hq =>
    split at hstep
    case h_1 sock hslot =>
      cases hstep
      refine h.move nofun nofun ?_ nofun
      rintro sock' ⟨⟩
      exact hslot
    case h_2 =>
      cases hstep
      refine h.bind.move nofun ?_ nofun nofun
      rintro sock' ⟨⟩
      exact Nat.lt_succ_self n.next

theorem inv_fillSlot {n n' : Net} {i : Nat} (h : n.Inv) (hstep : n.fillSlot i = some n') :
    n'.Inv := by
  unfold fillSlot at hstep
  split at hstep
  case h_2 => cases hstep
  case h_1 msg sock hq =>
    split at hstep
    case h_1 shared hslot =>
      cases hstep
      refine h.move nofun nofun ?_ nofun
      rintro sock' ⟨⟩
      exact hslot
    case h_2 hslot =>
      cases hstep
      -- With an empty slot no query has been given a socket yet.
      have hfill : { n with slot := some sock }.Inv :=
        { coherent := h.coherent
          outstanding_lt := h.outstanding_lt
          slot_lt := by
            rintro sock' ⟨⟩
            exact h.bound_lt i msg sock hq
          bound_lt := h.bound_lt
          shared := by
            intro j msg' phase sock' hj hsh
            have := h.shared j msg' phase sock' hj hsh
            rw [hslot] at this
            cases this
          carries := h.carries }
      refine hfill.move nofun nofun ?_ nofun
      rintro sock' ⟨⟩
      rfl

theorem inv_sendTo {n n' : Net} {i : Nat} (h : n.Inv) (hexcl : n.Exclusive (.sendTo i))
    (hstep : n.sendTo i = some n') : n'.Inv := by
  unfold sendTo at hstep
  split at hstep
  case h_2 => cases hstep
  case h_1 msg sock hq =>
    cases hstep
    -- the only step that needs exclusive sending: other queries wait on the same socket
    have hslot : n.slot = some sock := h.shared i msg (.send sock) sock hq rfl
    refine h.send rfl (h.slot_lt sock hslot) (hexcl i msg sock rfl hq) ?_
    rintro sock' ⟨⟩
    exact hslot

theorem inv_recvFrom {addr : SocketAddr} {n n' : Net} {i : Nat} (h : n.Inv)
    (hstep : n.recvFrom addr i = some n') : n'.Inv := by
  unfold recvFrom at hstep
  split at hstep
  case h_2 => cases hstep
  case h_1 msg sock hq =>
    split at hstep
    case h_1 => cases hstep
    case h_2 d rest hunread =>
      cases hstep
      refine h.receive hq rfl hunread ?_
      split
      · exact .inl rfl
      · split
        · exact .inr (.inl rfl)
        · exact .inr (.inr rfl)

theorem inv_udpQuery {n n' : Net} {i : Nat} (h : n.Inv) (hstep : n.udpQuery i = some n') :
    n'.Inv := by
  unfold udpQuery at hstep
  split at hstep
  case h_2 => cases hstep
  case h_1 msg hq =>
    cases hstep
    refine h.bind.send rfl (Nat.lt_succ_self n.next) ?_ nofun
    intro x hx
    -- a socket of its own is new, so nothing is under way on it
    exact absurd (h.outstanding_lt n.next x hx) (lt_irrefl n.next)

theorem inv_recvFromOwn {n n' : Net} {i : Nat} (h : n.Inv) (hstep : n.recvFromOwn i = some n') :
    n'.Inv := by
  unfold recvFromOwn at hstep
  split at hstep
  case h_2 => cases hstep
  case h_1 msg sock hq =>
    split at hstep
    case h_1 => cases hstep
    case h_2 d rest hunread =>
      cases hstep
      refine h.receive hq rfl hunread ?_
      split
      · exact .inr (.inl rfl)
      · exact .inr (.inr rfl)

theorem inv_tcpQuery {n n' : Net} {i : Nat} {resp : Bytes} (h : n.Inv)
    (hstep : n.tcpQuery i resp = some n') : n'.Inv := by
  unfold tcpQuery at hstep
  split at hstep
  case h_2 => cases hstep
  case h_1 msg hq =>
    split at hstep
    case isFalse => cases hstep
    case isTrue hcarries =>
      cases hstep
      refine h.move nofun nofun nofun ?_
      intro resp' hdone
      split at hdone
      · cases hdone
      · cases hdone
        exact hcarries

theorem mem_of_mem_update_eraseIdx {α : Type*} {f : Nat → List α} {s s' k : Nat} {a : α}
    (h : a ∈ Function.update f s ((f s).eraseIdx k) s') : a ∈ f s' := by
  by_cases hs : s' = s
  · subst hs
    rw [Function.update_self] at h
    exact List.mem_of_mem_eraseIdx h
  · rwa [Function.update_of_ne hs] at h

theorem inv_reply {n n' : Net} {sock k : Nat} {d : Datagram} (h : n.Inv)
    (hstep : n.reply sock k d = some n') : n'.Inv := by
  unfold reply at hstep
  split at hstep
  case h_2 => cases hstep
  case h_1 msg howed =>
    split at hstep
    case isFalse => cases hstep
    case isTrue hcarries =>
      cases hstep
      refine h.mono rfl rfl (fun _ _ hq => hq) ?_
      rintro sock' x (hx | ⟨msg', hmsg', hx⟩ | ⟨d', hd', hx⟩)
      · exact .inl hx
      · exact .inr (.inl ⟨msg', mem_of_mem_update_eraseIdx hmsg', hx⟩)
      · simp only at hd'
        by_cases hs : sock' = sock
        · subst hs
          rw [Function.update_self, List.mem_append, List.mem_singleton] at hd'
          rcases hd' with hd' | rfl
          · exact .inr (.inr ⟨d', hd', hx⟩)
          · -- The new datagram has the identity of the query it answers.
            exact .inr (.inl ⟨msg, List.mem_of_getElem? howed, hcarries.symm.trans hx⟩)
        · rw [Function.update_of_ne hs] at hd'
          exact .inr (.inr ⟨d', hd', hx⟩)

theorem inv_lose {n n' : Net} {sock k : Nat} (h : n.Inv) (hstep : n.lose sock k = some n') :
    n'.Inv := by
  unfold lose at hstep
  split at hstep
  case isFalse => cases hstep
  case isTrue =>
    cases hstep
    refine h.mono rfl rfl (fun _ _ hq => hq) ?_
    rintro sock' x (hx | ⟨msg', hmsg', hx⟩ | hx)
    · exact .inl hx
    · exact .inr (.inl ⟨msg', mem_of_mem_update_eraseIdx hmsg', hx⟩)
    · exact .inr (.inr hx)

theorem inv_timeout {n n' : Net} {i : Nat} (h : n.Inv) (hstep : n.timeout i = some n') :
    n'.Inv := by
  unfold timeout at hstep
  split at hstep
  case h_2 => cases hstep
  case h_1 msg phase hq =>
    split at hstep
    · cases hstep
      exact h.move_idle rfl nofun rfl nofun
    · cases hstep

theorem inv_fail {n n' : Net} {i : Nat} (h : n.Inv) (hstep : n.fail i = some n') : n'.Inv := by
  unfold fail at hstep
  split at hstep
  case h_2 => cases hstep
  case h_1 msg phase hq =>
    split at hstep
    · cases hstep
    · cases hstep
      exact h.move_idle rfl nofun rfl nofun

theorem inv_collect {n n' : Net} {i : Nat} (h : n.Inv) (hstep : n.collect i = some n') :
    n'.Inv := by
  unfold collect at hstep
  split at hstep
  case h_2 => cases hstep
  case h_1 msg result hq =>
    cases hstep
    -- the query is gone; what it was owed stays under way on its socket
    have hsub : ∀ j q, Function.update n.queries i none j = some q → n.queries j = some q := by
      intro j q hj
      by_cases hji : j = i
      · subst hji
        rw [Function.update_self] at hj
        cases hj
      · rwa [Function.update_of_ne hji] at hj
    refine h.mono rfl rfl hsub ?_
    rintro sock x (⟨j, msg', phase, hj, hwait, hx⟩ | hx)
    · exact .inl ⟨j, msg', phase, hsub j _ hj, hwait, hx⟩
    · exact .inr hx

/-- **Every step** that sends exclusively keeps the invariant. -/
theorem inv_step {addr : SocketAddr} {n n' : Net} {a : Action} (h : n.Inv)
    (hstep : n.step addr a = some n') (hexcl : n.Exclusive a) : n'.Inv := by
  cases a with
  | call i msg => exact inv_call h hstep
  | getOrCreateUdpSocket i => exact inv_getOrCreateUdpSocket h hstep
  | fillSlot i => exact inv_fillSlot h hstep
  | sendTo i => exact inv_sendTo h hexcl hstep
  | recvFrom i => exact inv_recvFrom h hstep
  | udpQuery i => exact inv_udpQuery h hstep
  | recvFromOwn i => exact inv_recvFromOwn h hstep
  | tcpQuery i resp => exact inv_tcpQuery h hstep
  | reply sock k d => exact inv_reply h hstep
  | lose sock k => exact inv_lose h hstep
  | timeout i => exact inv_timeout h hstep
  | fail i => exact inv_fail h hstep
  | collect i => exact inv_collect h hstep

/-! ### The queries of a step -/

/-- The steps taken inside `query`, and those of the network. -/
def Action.isInternal : Action → Bool
  | .call _ _ | .collect _ => false
  | _ => true

/-- Every query under way in `n` is under way or done in `n'`, for the same message. -/
def Keeps (n n' : Net) : Prop :=
  ∀ i msg phase, n.queries i = some ⟨msg, phase⟩ → ∃ phase', n'.queries i = some ⟨msg, phase'⟩

theorem Keeps.of_eq {n n' : Net} (h : n'.queries = n.queries) : n.Keeps n' :=
  fun _ _ phase hq => ⟨phase, by rw [h]; exact hq⟩

theorem Keeps.of_update {n n' : Net} {i : Nat} {msg : Bytes} {phase phase' : Phase}
    (hq : n.queries i = some ⟨msg, phase⟩)
    (h : n'.queries = Function.update n.queries i (some ⟨msg, phase'⟩)) : n.Keeps n' := by
  intro j msg' phase'' hj
  by_cases hji : j = i
  · subst hji
    rw [hq] at hj
    cases hj
    exact ⟨phase', by rw [h, Function.update_self]⟩
  · exact ⟨phase'', by rw [h, Function.update_of_ne hji]; exact hj⟩

/-- A step inside the queries or of the network changes no message. -/
theorem keeps_step {addr : SocketAddr} {n n' : Net} {a : Action} (ha : a.isInternal = true)
    (hstep : n.step addr a = some n') : n.Keeps n' := by
  cases a with
  | call i msg => cases ha
  | collect i => cases ha
  | getOrCreateUdpSocket i =>
      simp only [step, getOrCreateUdpSocket] at hstep
      split at hstep
      case h_2 => cases hstep
      case h_1 msg hq => split at hstep <;> (cases hstep; exact .of_update hq rfl)
  | fillSlot i =>
      simp only [step, fillSlot] at hstep
      split at hstep
      case h_2 => cases hstep
      case h_1 msg sock hq => split at hstep <;> (cases hstep; exact .of_update hq rfl)
  | sendTo i =>
      simp only [step, sendTo] at hstep
      split at hstep
      case h_2 => cases hstep
      case h_1 msg sock hq => cases hstep; exact .of_update hq rfl
  | recvFrom i =>
      simp only [step, recvFrom] at hstep
      split at hstep
      case h_2 => cases hstep
      case h_1 msg sock hq => split at hstep <;> cases hstep; exact .of_update hq rfl
  | udpQuery i =>
      simp only [step, udpQuery] at hstep
      split at hstep
      case h_2 => cases hstep
      case h_1 msg hq => cases hstep; exact .of_update hq rfl
  | recvFromOwn i =>
      simp only [step, recvFromOwn] at hstep
      split at hstep
      case h_2 => cases hstep
      case h_1 msg sock hq => split at hstep <;> cases hstep; exact .of_update hq rfl
  | tcpQuery i resp =>
      simp only [step, tcpQuery] at hstep
      split at hstep
      case h_2 => cases hstep
      case h_1 msg hq => split at hstep <;> cases hstep; exact .of_update hq rfl
  | reply sock k d =>
      simp only [step, reply] at hstep
      split at hstep
      case h_2 => cases hstep
      case h_1 => split at hstep <;> cases hstep; exact .of_eq rfl
  | lose sock k =>
      simp only [step, lose] at hstep
      split at hstep <;> cases hstep; exact .of_eq rfl
  | timeout i =>
      simp only [step, timeout] at hstep
      split at hstep
      case h_2 => cases hstep
      case h_1 msg phase hq => split at hstep <;> cases hstep; exact .of_update hq rfl
  | fail i =>
      simp only [step, fail] at hstep
      split at hstep
      case h_2 => cases hstep
      case h_1 msg phase hq => split at hstep <;> cases hstep; exact .of_update hq rfl

theorem keeps_call {n n' : Net} {i : Nat} {msg : Bytes} (h : n.call i msg = some n') :
    n.Keeps n' := by
  obtain ⟨hq, rfl⟩ := call_eq_some h
  intro j msg' phase hj
  have hji : j ≠ i := by
    rintro rfl
    rw [hq] at hj
    cases hj
  exact ⟨phase, (Function.update_of_ne hji ..).trans hj⟩

/-- Taking a result removes the query and leaves the others as they are. -/
theorem collect_eq_some {n n' : Net} {i : Nat} (h : n.collect i = some n') :
    (∃ msg result, n.queries i = some ⟨msg, .done result⟩) ∧
      ∀ j, j ≠ i → n'.queries j = n.queries j := by
  unfold collect at h
  split at h
  case h_2 => cases h
  case h_1 msg result hq =>
    cases h
    exact ⟨⟨msg, result, hq⟩, fun j hji => Function.update_of_ne hji ..⟩

end Net

end Reflex.Dns
