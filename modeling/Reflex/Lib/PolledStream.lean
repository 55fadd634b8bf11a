import Mathlib.Data.List.Basic
import Mathlib.Tactic.Common

namespace PolledStream

/-!
# Polled byte streams

A transport that is polled for bytes: each poll brings some bytes, finds none yet or fails, and a
transport with nothing left is at its end.  How the bytes arrive is a list of events, and a buffer
that is too small takes the front of a segment.

* `poll` — one poll of a transport;
* `poll_cases` — what it takes away from what is still to come.
-/

/-- A piece of the stream that arrives at once. -/
structure Segment where
  bytes : List UInt8
  nonempty : bytes ≠ []

/-- What a transport has for its next poll. -/
inductive Event (ε : Type) where
  | data (seg : Segment)
  | pending
  | error (e : ε)

/-- How the stream arrives; at the end of the list it is at its end. -/
abbrev Transport (ε : Type) := List (Event ε)

/-- The result of a poll with the bytes put into the caller's buffer. -/
inductive Poll (ε : Type) where
  | pending
  | ready (bytes : List UInt8)
  | error (e : ε)

variable {ε : Type}

/-- The bytes a poll has put into the caller's buffer. -/
def Poll.bytes : Poll ε → List UInt8
  | .ready bs => bs
  | _ => []

theorem Poll.bytes_eq_nil {r : Poll ε} (hr : ∀ bs, r ≠ .ready bs) : r.bytes = [] := by
  cases r with
  | pending => rfl
  | ready bs => exact absurd rfl (hr bs)
  | error e => rfl

/-- The bytes still to come. -/
def Transport.bytes : Transport ε → List UInt8
  | [] => []
  | .data seg :: es => seg.bytes ++ Transport.bytes es
  | _ :: es => Transport.bytes es

/-- How many polls the transport answers at most before its end. -/
def Transport.size : Transport ε → Nat
  | [] => 0
  | .data seg :: es => seg.bytes.length + Transport.size es
  | _ :: es => 1 + Transport.size es

/-- The first segment to arrive. -/
def Transport.first? : Transport ε → Option Segment
  | [] => none
  | .data seg :: _ => some seg
  | _ :: es => Transport.first? es

/-- `poll_read` into a buffer with room for `cap` bytes. -/
def Transport.poll (cap : Nat) : Transport ε → Poll ε × Transport ε
  | [] => (.ready [], [])
  | .pending :: es => (.pending, es)
  | .error e :: es => (.error e, es)
  | .data seg :: es =>
      if h : cap < seg.bytes.length then
        (.ready (seg.bytes.take cap),
          .data ⟨seg.bytes.drop cap, by rw [ne_eq, List.drop_eq_nil_iff]; omega⟩ :: es)
      else (.ready seg.bytes, es)

/-- **One poll.** Into a buffer with room, a poll brings the next bytes, or finds none yet, or
    fails; it brings no bytes only at the end of the stream. -/
theorem poll_cases {cap : Nat} (hcap : 0 < cap) (t : Transport ε) :
    (t = [] ∧ t.poll cap = (.ready [], [])) ∨
      (∃ bs t', t.poll cap = (.ready bs, t') ∧ bs ≠ [] ∧ t.bytes = bs ++ t'.bytes ∧
        t.size = bs.length + t'.size ∧ t.first?.map (fun seg => seg.bytes.take cap) = some bs) ∨
      ∃ r t', t.poll cap = (r, t') ∧ (∀ bs, r ≠ .ready bs) ∧ t'.bytes = t.bytes ∧
        t.size = 1 + t'.size ∧ t'.first? = t.first? := by
  cases t with
  | nil => exact .inl ⟨rfl, rfl⟩
  | cons e es =>
    refine .inr ?_
    cases e with
    | pending => exact .inr ⟨.pending, es, rfl, by simp, rfl, rfl, rfl⟩
    | error e => exact .inr ⟨.error e, es, rfl, by simp, rfl, rfl, rfl⟩
    | data seg =>
      refine .inl ?_
      rw [Transport.poll]
      split
      · rename_i hlt
        refine ⟨_, _, rfl, ?_, ?_, ?_, rfl⟩
        · intro hnil
          rcases List.take_eq_nil_iff.mp hnil with hzero | hempty
          · omega
          · exact seg.nonempty hempty
        · simp only [Transport.bytes]
          rw [← List.append_assoc, List.take_append_drop]
        · simp only [Transport.size, List.length_take, List.length_drop]
          omega
      · refine ⟨seg.bytes, es, rfl, seg.nonempty, rfl, rfl, ?_⟩
        rw [Transport.first?, Option.map_some, List.take_of_length_le (by omega)]

/-- A poll takes what it brings from the front. -/
theorem bytes_poll (cap : Nat) (t : Transport ε) :
    (t.poll cap).1.bytes ++ (t.poll cap).2.bytes = t.bytes := by
  cases t with
  | nil => rfl
  | cons e es =>
    cases e with
    | pending => rfl
    | error e => rfl
    | data seg =>
      rw [Transport.poll]
      split
      · show seg.bytes.take cap ++ (seg.bytes.drop cap ++ Transport.bytes es) = _
        rw [← List.append_assoc, List.take_append_drop]
        rfl
      · rfl

/-- A poll brings no more than the buffer has room for. -/
theorem length_poll_le (cap : Nat) (t : Transport ε) : (t.poll cap).1.bytes.length ≤ cap := by
  cases t with
  | nil => exact Nat.zero_le cap
  | cons e es =>
    cases e with
    | pending => exact Nat.zero_le cap
    | error e => exact Nat.zero_le cap
    | data seg =>
      rw [Transport.poll]
      split
      · exact List.length_take_le cap seg.bytes
      · exact Nat.le_of_not_lt ‹_›

/-- A segment is delivered as far as there is room. -/
theorem poll_data (seg : Segment) (t : Transport ε) (cap : Nat) :
    (Transport.poll cap (.data seg :: t)).1 = .ready (seg.bytes.take cap) := by
  rw [Transport.poll]
  split
  · rfl
  · rw [List.take_of_length_le (by omega)]

/-- With nothing to come but the end, no poll is left to answer. -/
theorem eq_nil_of_size {t : Transport ε} (h : t.size = 0) : t = [] := by
  cases t with
  | nil => rfl
  | cons e es =>
    exfalso
    cases e with
    | data seg =>
      have hpos := List.length_pos_of_ne_nil seg.nonempty
      simp only [Transport.size] at h
      omega
    | pending =>
      simp only [Transport.size] at h
      omega
    | error e =>
      simp only [Transport.size] at h
      omega

/-- A stream with bytes to come has a first segment. -/
theorem exists_first_of_bytes {t : Transport ε} (h : t.bytes ≠ []) :
    ∃ seg, t.first? = some seg := by
  induction t with
  | nil => exact absurd rfl h
  | cons e es ih =>
    cases e with
    | data seg => exact ⟨seg, rfl⟩
    | pending => exact ih h
    | error e => exact ih h

end PolledStream
