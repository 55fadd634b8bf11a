import Mathlib.Data.List.ReduceOption
import Mathlib.Tactic.Common

/-!
# Receivers of a stream

A receiver is fed a stream in pieces of any size, and is polled for what it makes of it.

* `after`, `answers` — where a list of calls leads, and what the polls among them answer;
* `answers_of_simulation` — a receiver that follows another one on a stream answers as it does;
* `mailbox` — the receiver that gives out a message when its frame has come whole
  (`mailbox_oneByOne`, `mailbox_drain`);
* `pipe` — the receiver that gives out whatever has come (`pipe_asItComes`, `pipe_drain`).
-/

/-- A receiver that is fed pieces of a stream and polled for what has come complete. -/
structure Receiver (σ β ο : Type*) where
  feed : σ → List β → σ
  poll : σ → ο × σ

namespace Receiver

variable {σ τ α β ο ρ : Type*}

/-- A call of a receiver: it is fed a piece, or polled. -/
inductive Call (β : Type*) where
  | feed (piece : List β)
  | poll

/-- All that is fed. -/
def fed : List (Call β) → List β
  | [] => []
  | .feed piece :: calls => piece ++ fed calls
  | .poll :: calls => fed calls

/-- The state of a receiver behind some calls. -/
def after (R : Receiver σ β ο) : σ → List (Call β) → σ
  | s, [] => s
  | s, .feed piece :: calls => after R (R.feed s piece) calls
  | s, .poll :: calls => after R (R.poll s).2 calls

/-- The answers of the polls. -/
def answers (R : Receiver σ β ο) : σ → List (Call β) → List ο
  | _, [] => []
  | s, .feed piece :: calls => answers R (R.feed s piece) calls
  | s, .poll :: calls => (R.poll s).1 :: answers R (R.poll s).2 calls

theorem fed_append (calls calls' : List (Call β)) :
    fed (calls ++ calls') = fed calls ++ fed calls' := by
  induction calls with
  | nil => rfl
  | cons call calls ih =>
      cases call with
      | feed piece => rw [List.cons_append, fed, fed, ih, List.append_assoc]
      | poll => exact ih

@[simp] theorem fed_replicate_poll (m : Nat) : fed (List.replicate m (.poll : Call β)) = [] := by
  induction m with
  | zero => rfl
  | succ m ih => exact ih

theorem answers_append (R : Receiver σ β ο) (s : σ) (calls calls' : List (Call β)) :
    R.answers s (calls ++ calls') = R.answers s calls ++ R.answers (R.after s calls) calls' := by
  induction calls generalizing s with
  | nil => rfl
  | cons call calls ih =>
      cases call with
      | feed piece => exact ih (R.feed s piece)
      | poll => exact congrArg ((R.poll s).1 :: ·) (ih (R.poll s).2)

theorem after_append (R : Receiver σ β ο) (s : σ) (calls calls' : List (Call β)) :
    R.after s (calls ++ calls') = R.after (R.after s calls) calls' := by
  induction calls generalizing s with
  | nil => rfl
  | cons call calls ih =>
      cases call with
      | feed piece => exact ih (R.feed s piece)
      | poll => exact ih (R.poll s).2

/-- **Simulation.** `Sync rest s t`: the states correspond, and `rest` is still to be fed.  If feeding
    the beginning of that and polling keep the states in step, then on every run the answers
    correspond. -/
theorem answers_of_simulation (A : Receiver σ β ο) (B : Receiver τ β ρ) (f : ο → ρ)
    (Sync : List β → σ → τ → Prop)
    (hfeed : ∀ piece rest s t, Sync (piece ++ rest) s t → Sync rest (A.feed s piece) (B.feed t piece))
    (hpoll : ∀ rest s t, Sync rest s t →
      (B.poll t).1 = f (A.poll s).1 ∧ Sync rest (A.poll s).2 (B.poll t).2)
    (calls : List (Call β)) (rest : List β) {s : σ} {t : τ} (h : Sync (fed calls ++ rest) s t) :
    B.answers t calls = (A.answers s calls).map f ∧ Sync rest (A.after s calls) (B.after t calls) := by
  induction calls generalizing s t with
  | nil => exact ⟨rfl, h⟩
  | cons call calls ih =>
      cases call with
      | feed piece =>
          rw [fed, List.append_assoc] at h
          exact ih (hfeed piece _ s t h)
      | poll =>
          obtain ⟨hans, hsync⟩ := hpoll _ s t h
          obtain ⟨hrest, hafter⟩ := ih hsync
          refine ⟨?_, hafter⟩
          rw [answers, answers, List.map_cons, hans, hrest]

/-! ### A message for each frame -/

/-- The messages with their frames, and how many bytes have come of these. -/
def mailbox : Receiver (List (α × List β) × Nat) β (Option α) where
  feed s piece := (s.1, s.2 + piece.length)
  poll
    | ([], n) => (none, ([], n))
    | ((a, frame) :: due, n) =>
        if frame.length ≤ n then (some a, (due, n - frame.length)) else (none, ((a, frame) :: due, n))

/-- The stream of the frames. -/
def stream (due : List (α × List β)) : List β := (due.map Prod.snd).flatten

theorem stream_cons (a : α) (frame : List β) (due : List (α × List β)) :
    stream ((a, frame) :: due) = frame ++ stream due := rfl

/-- What a mailbox has given out is the beginning of what is due, and the rest is due still. -/
theorem mailbox_after (due : List (α × List β)) (n : Nat) (calls : List (Call β)) :
    ∃ k ≤ due.length, (mailbox.answers (due, n) calls).reduceOption = (due.take k).map Prod.fst ∧
      ∃ m, mailbox.after (due, n) calls = (due.drop k, m) ∧
        m + (stream (due.take k)).length = n + (fed calls).length := by
  induction calls generalizing due n with
  | nil => exact ⟨0, Nat.zero_le _, rfl, n, rfl, rfl⟩
  | cons call calls ih =>
      cases call with
      | feed piece =>
          obtain ⟨k, hk, hans, m, hafter, hm⟩ := ih due (n + piece.length)
          refine ⟨k, hk, hans, m, hafter, ?_⟩
          rw [hm, fed, List.length_append, Nat.add_assoc]
      | poll =>
          cases due with
          | nil => exact ih [] n
          | cons entry due =>
              obtain ⟨a, frame⟩ := entry
              by_cases hle : frame.length ≤ n
              · obtain ⟨k, hk, hans, m, hafter, hm⟩ := ih due (n - frame.length)
                have hpoll : mailbox.poll ((a, frame) :: due, n) = (some a, (due, n - frame.length)) :=
                  if_pos hle
                refine ⟨k + 1, Nat.succ_le_succ hk, ?_, m, ?_, ?_⟩
                · rw [answers, hpoll, List.reduceOption_cons_of_some, hans, List.take_succ_cons,
                    List.map_cons]
                · rw [after, hpoll, hafter, List.drop_succ_cons]
                · rw [List.take_succ_cons, stream_cons, List.length_append, fed]
                  omega
              · have hpoll : mailbox.poll ((a, frame) :: due, n) = (none, ((a, frame) :: due, n)) :=
                  if_neg hle
                obtain ⟨k, hk, hans, m, hafter, hm⟩ := ih ((a, frame) :: due) n
                refine ⟨k, hk, ?_, m, ?_, hm⟩
                · rw [answers, hpoll, List.reduceOption_cons_of_none, hans]
                · rw [after, hpoll, hafter]

/-- The next answer: the next message if its frame has come whole. -/
theorem mailbox_poll_drop (due : List (α × List β)) (k m : Nat) :
    (mailbox.poll (due.drop k, m)).1 =
      if (stream (due.take (k + 1))).length ≤ m + (stream (due.take k)).length
        then due[k]?.map Prod.fst else none := by
  induction due generalizing k with
  | nil => simp [mailbox]
  | cons entry due ih =>
      obtain ⟨a, frame⟩ := entry
      cases k with
      | zero =>
          have hlen : (stream [(a, frame)]).length = frame.length := by simp [stream]
          rw [List.take_succ_cons, List.take_zero, hlen]
          by_cases hle : frame.length ≤ m
          · rw [if_pos (by simpa [stream] using hle)]
            exact congrArg Prod.fst (if_pos hle)
          · rw [if_neg (by simpa [stream] using hle)]
            exact congrArg Prod.fst (if_neg hle)
      | succ k =>
          rw [List.drop_succ_cons, ih k, List.take_succ_cons, List.take_succ_cons, stream_cons,
            stream_cons, List.length_append, List.length_append, List.getElem?_cons_succ]
          refine if_congr ?_ rfl rfl
          omega

/-- The messages come one by one: `results` are the first of them, and the `next` answer is the next
    message if its frame lies within the first `received` bytes, and nothing otherwise. -/
structure OneByOne (messages : List α) (frames : List (List β)) (received : Nat) (results : List α)
    (next : Option α) : Prop where
  results_eq : results = messages.take results.length
  next_eq : next = if (frames.take (results.length + 1)).flatten.length ≤ received
    then messages[results.length]? else none

/-- **A mailbox** gives out the messages one by one. -/
theorem mailbox_oneByOne (due : List (α × List β)) (calls : List (Call β)) :
    OneByOne (due.map Prod.fst) (due.map Prod.snd) (fed calls).length
      (mailbox.answers (due, 0) calls).reduceOption
      (mailbox.poll (mailbox.after (due, 0) calls)).1 := by
  obtain ⟨k, hk, hans, m, hafter, hm⟩ := mailbox_after due 0 calls
  have hlen : ((due.take k).map Prod.fst).length = k := by
    rw [List.length_map, List.length_take_of_le hk]
  refine ⟨?_, ?_⟩
  · rw [hans, hlen, List.map_take]
  · rw [hans, hlen, hafter, mailbox_poll_drop, hm, Nat.zero_add, List.getElem?_map, ← List.map_take]
    rfl

/-- Once all frames have come, as many polls as there are messages bring them all. -/
theorem mailbox_drain (due : List (α × List β)) {n m : Nat} (hn : (stream due).length ≤ n)
    (hm : due.length ≤ m) :
    (mailbox.answers (due, n) (List.replicate m .poll)).reduceOption = due.map Prod.fst := by
  induction m generalizing due n with
  | zero =>
      obtain rfl := List.length_eq_zero_iff.mp (Nat.le_zero.mp hm)
      rfl
  | succ m ih =>
      cases due with
      | nil => exact ih [] hn (Nat.zero_le m)
      | cons entry due =>
          obtain ⟨a, frame⟩ := entry
          rw [stream_cons, List.length_append] at hn
          have hpoll : mailbox.poll ((a, frame) :: due, n) = (some a, (due, n - frame.length)) :=
            if_pos (by omega)
          rw [List.replicate_succ, answers, hpoll, List.reduceOption_cons_of_some,
            ih due (by omega) (Nat.le_of_succ_le_succ hm), List.map_cons]

/-- **All messages** are given out when the stream has come and enough polls follow. -/
theorem mailbox_complete (due : List (α × List β)) {calls : List (Call β)}
    (hfed : fed calls = stream due) {m : Nat} (hm : due.length ≤ m) :
    (mailbox.answers (due, 0) (calls ++ List.replicate m .poll)).reduceOption
      = due.map Prod.fst := by
  obtain ⟨k, hk, hans, n, hafter, hn⟩ := mailbox_after due 0 calls
  have hsplit : (stream due).length = (stream (due.take k)).length + (stream (due.drop k)).length := by
    rw [← List.length_append, stream, stream, stream, ← List.flatten_append, ← List.map_append,
      List.take_append_drop]
  rw [hfed] at hn
  rw [answers_append, List.reduceOption_append, hans, hafter,
    mailbox_drain _ (by omega) (by rw [List.length_drop]; omega), ← List.map_append,
    List.take_append_drop]

/-! ### Whatever has come -/

/-- What has come and was not given out. -/
def pipe : Receiver (List β) β (Option (List β)) where
  feed s piece := s ++ piece
  poll
    | [] => (none, [])
    | b :: bs => (some (b :: bs), [])

/-- The bytes come as they are: the `results` are the beginning of the `input`, and the `next` answer
    is all the rest, if there is any. -/
structure AsItComes (input : List β) (results : List (List β)) (next : Option (List β)) : Prop where
  exists_rest : ∃ rest, input = results.flatten ++ rest ∧
    ((rest = [] ∧ next = none) ∨ (rest ≠ [] ∧ next = some rest))

theorem pipe_poll_snd (s : List β) : (pipe.poll s).2 = [] := by
  cases s with
  | nil => rfl
  | cons b bs => rfl

/-- What a pipe has given out and what it holds is what has come. -/
theorem pipe_after (s : List β) (calls : List (Call β)) :
    (pipe.answers s calls).reduceOption.flatten ++ pipe.after s calls = s ++ fed calls := by
  induction calls generalizing s with
  | nil => exact (List.append_nil s).symm
  | cons call calls ih =>
      cases call with
      | feed piece =>
          rw [fed, ← List.append_assoc]
          exact ih (s ++ piece)
      | poll =>
          cases s with
          | nil => exact ih []
          | cons b bs =>
              show (b :: bs) ++ (pipe.answers [] calls).reduceOption.flatten
                ++ pipe.after [] calls = (b :: bs) ++ fed calls
              rw [List.append_assoc, ih []]
              rfl

/-- **A pipe** gives out the bytes as they come. -/
theorem pipe_asItComes (calls : List (Call β)) :
    AsItComes (fed calls) (pipe.answers [] calls).reduceOption (pipe.poll (pipe.after [] calls)).1 := by
  refine ⟨pipe.after [] calls, (pipe_after [] calls).symm, ?_⟩
  cases pipe.after [] calls with
  | nil => exact .inl ⟨rfl, rfl⟩
  | cons b bs => exact .inr ⟨List.cons_ne_nil b bs, rfl⟩

/-- **All bytes** are given out when one more poll follows. -/
theorem pipe_complete (calls : List (Call β)) {m : Nat} (hm : fed calls ≠ [] → 0 < m) :
    (pipe.answers [] (calls ++ List.replicate m .poll)).reduceOption.flatten = fed calls := by
  have h := pipe_after [] (calls ++ List.replicate m .poll)
  rw [fed_append, fed_replicate_poll, List.append_nil, List.nil_append] at h
  by_cases hfed : fed calls = []
  · rw [hfed] at h ⊢
    exact (List.append_eq_nil_iff.mp h).1
  · have hafter : pipe.after [] (calls ++ List.replicate m .poll) = [] := by
      obtain ⟨k, rfl⟩ := Nat.exists_eq_succ_of_ne_zero (Nat.pos_iff_ne_zero.mp (hm hfed))
      rw [List.replicate_succ', ← List.append_assoc, after_append]
      exact pipe_poll_snd _
    rwa [hafter, List.append_nil] at h

end Receiver
