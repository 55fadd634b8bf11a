import Mathlib.Data.List.Infix
import Mathlib.Logic.Relation
import Reflex.Lib.ByteStream

namespace ByteStream

/-!
# Two handlers that talk to each other

The bytes that one handler writes are the input of the other.  They are delivered in pieces of any size and
at any time, and a handler that needs more of them waits; `eof` is the failure of a handler that ran out of
input.

* `Causal` — more input changes nothing about what a handler did with less;
* `Dialogue.Ends.reaches` — a dialogue ends in one state, in whatever order its bytes are delivered;
* `Dialogue.Decides.bind` — dialogues are put together phase by phase;
* `Dialogue.Decides.ends` — in the end both have returned or neither.
-/

variable {ε δ α β γ : Type}

/-! ### What a handler does with its input -/

/-- How a handler ends. -/
def result (x : Handler ε α) (input : List UInt8) : Except ε α := (x ⟨input, []⟩).1

/-- What it leaves of its input. -/
def unread (x : Handler ε α) (input : List UInt8) : List UInt8 := (x ⟨input, []⟩).2.input

/-- What it writes. -/
def written (x : Handler ε α) (input : List UInt8) : List UInt8 := (x ⟨input, []⟩).2.output

/-- **Causality.** A handler does not see what was written before; with more input it does the same and has
    more left over, or it goes on where it had to wait. -/
structure Causal (eof : ε) (x : Handler ε α) : Prop where
  output : ∀ input output, x ⟨input, output⟩ =
    (result x input, ⟨unread x input, output ++ written x input⟩)
  returned : ∀ {input a}, result x input = .ok a → ∀ later,
    x ⟨input ++ later, []⟩ = (.ok a, ⟨unread x input ++ later, written x input⟩)
  failed : ∀ {input e}, result x input = .error e → e ≠ eof → ∀ later,
    result x (input ++ later) = .error e ∧ written x (input ++ later) = written x input
  waiting : ∀ {input}, result x input = .error eof → ∀ later,
    written x input <+: written x (input ++ later)

/-- What has been written stays written. -/
theorem Causal.written_grows {eof : ε} {x : Handler ε α} (hx : Causal eof x) {input input' : List UInt8}
    (h : input <+: input') : written x input <+: written x input' := by
  obtain ⟨later, rfl⟩ := h
  cases hresult : result x input with
  | ok a =>
    rw [written.eq_1 x (input ++ later), hx.returned hresult]
  | error e =>
    by_cases he : e = eof
    · subst he
      exact hx.waiting hresult later
    · rw [(hx.failed hresult he later).2]

/-! ### The steps of a handler -/

theorem causal_pure (eof : ε) (a : α) : Causal eof (pure a : Handler ε α) where
  output input output := by
    show ((Except.ok a, ⟨input, output⟩) : Except ε α × Conn) = (.ok a, ⟨input, output ++ []⟩)
    rw [List.append_nil]
  returned h later := by
    obtain rfl := Except.ok.inj h
    rfl
  failed h := by cases h
  waiting h := by cases h

theorem causal_bail (eof e : ε) : Causal eof (bail e : Handler ε α) where
  output input output := by
    show ((Except.error e, ⟨input, output⟩) : Except ε α × Conn) = (.error e, ⟨input, output ++ []⟩)
    rw [List.append_nil]
  returned h := by cases h
  failed h _ later := ⟨h, rfl⟩
  waiting _ later := List.nil_prefix

theorem causal_ofExcept (eof : ε) (x : Except ε α) : Causal eof (ofExcept x) where
  output input output := by
    show (x, (⟨input, output⟩ : Conn)) = (x, ⟨input, output ++ []⟩)
    rw [List.append_nil]
  returned h later := by
    obtain rfl : x = .ok _ := h
    rfl
  failed h _ later := ⟨h, rfl⟩
  waiting _ later := List.nil_prefix

theorem causal_writeAll (eof : ε) (bs : List UInt8) : Causal eof (writeAll bs : Handler ε Unit) where
  output input output := rfl
  returned h later := rfl
  failed h := by cases h
  waiting h := by cases h

theorem causal_readU8 (eof : ε) : Causal eof (readU8 eof) where
  output input output := by
    cases input with
    | nil =>
      show ((Except.error eof, ⟨[], output⟩) : Except ε UInt8 × Conn) = (.error eof, ⟨[], output ++ []⟩)
      rw [List.append_nil]
    | cons b rest =>
      show ((Except.ok b, ⟨rest, output⟩) : Except ε UInt8 × Conn) = (.ok b, ⟨rest, output ++ []⟩)
      rw [List.append_nil]
  returned {input a} h later := by
    cases input with
    | nil => cases h
    | cons b rest =>
      obtain rfl := Except.ok.inj h
      rfl
  failed {input e} h he later := by
    cases input with
    | nil => exact absurd (Except.error.inj h).symm he
    | cons b rest => cases h
  waiting {input} h later := by
    cases input with
    | nil => exact List.nil_prefix
    | cons b rest => cases h

theorem readExact_of_le (eof : ε) {n : Nat} {input output : List UInt8} (h : n ≤ input.length) :
    readExact eof n ⟨input, output⟩ = (.ok (input.take n), ⟨input.drop n, output⟩) := if_pos h

theorem readExact_of_lt (eof : ε) {n : Nat} {input output : List UInt8} (h : input.length < n) :
    readExact eof n ⟨input, output⟩ = (.error eof, ⟨[], output⟩) := if_neg (Nat.not_le.mpr h)

theorem written_readExact (eof : ε) (n : Nat) (input : List UInt8) :
    written (readExact eof n) input = [] := by
  unfold written
  by_cases h : n ≤ input.length
  · rw [readExact_of_le eof h]
  · rw [readExact_of_lt eof (Nat.not_le.mp h)]

theorem causal_readExact (eof : ε) (n : Nat) : Causal eof (readExact eof n) where
  output input output := by
    rw [written_readExact, List.append_nil]
    unfold result unread
    by_cases h : n ≤ input.length
    · rw [readExact_of_le eof h, readExact_of_le eof h]
    · rw [readExact_of_lt eof (Nat.not_le.mp h), readExact_of_lt eof (Nat.not_le.mp h)]
  returned {input a} h later := by
    unfold result at h
    by_cases hn : n ≤ input.length
    · have hlong : n ≤ (input ++ later).length := by
        rw [List.length_append]
        omega
      rw [readExact_of_le eof hn] at h
      rw [written_readExact, readExact_of_le eof hlong, unread, readExact_of_le eof hn,
        List.take_append_of_le_length hn, List.drop_append_of_le_length hn, ← Except.ok.inj h]
    · rw [readExact_of_lt eof (Nat.not_le.mp hn)] at h
      cases h
  failed {input e} h he later := by
    unfold result at h
    by_cases hn : n ≤ input.length
    · rw [readExact_of_le eof hn] at h
      cases h
    · rw [readExact_of_lt eof (Nat.not_le.mp hn)] at h
      exact absurd (Except.error.inj h).symm he
  waiting _ later := by
    rw [written_readExact]
    exact List.nil_prefix

/-! ### One step after another -/

theorem bind_of_ok {x : Handler ε α} {f : α → Handler ε β} {s s' : Conn} {a : α} (h : x s = (.ok a, s')) :
    (x >>= f) s = f a s' := by
  show Handler.andThen x f s = _
  rw [Handler.andThen, h]

theorem bind_of_error {x : Handler ε α} {f : α → Handler ε β} {s s' : Conn} {e : ε}
    (h : x s = (.error e, s')) : (x >>= f) s = (.error e, s') := by
  show Handler.andThen x f s = _
  rw [Handler.andThen, h]

/-- A step that takes no bytes leaves the conversation as it is for the next one. -/
theorem bind_of_reads_nil {x : Handler ε α} {f : α → Handler ε β} {a : α} (h : Reads x [] a) (s : Conn) :
    (x >>= f) s = f a s := bind_of_ok (h s.input s.output)

/-- Doing nothing with a result changes nothing, the first law of monads. -/
theorem andThen_return (x : Handler ε α) : id <$> x = x := by
  funext s
  show Handler.andThen x _ s = x s
  unfold Handler.andThen
  rcases x s with ⟨e | a, s'⟩
  · rfl
  · rfl

theorem andThen_assoc (x : Handler ε α) (f : α → Handler ε β) (g : β → Handler ε γ) :
    x >>= f >>= g = x >>= fun a => f a >>= g := by
  funext s
  show Handler.andThen (Handler.andThen x f) g s = Handler.andThen x _ s
  unfold Handler.andThen
  rcases x s with ⟨e | a, s'⟩
  · rfl
  · rfl

instance : LawfulMonad (Handler ε) :=
  LawfulMonad.mk' _ andThen_return (fun _ _ => rfl) andThen_assoc

section Bind

variable {eof : ε} {x : Handler ε α} {f : α → Handler ε β}

theorem Causal.bind_apply (hx : Causal eof x) (hf : ∀ a, Causal eof (f a)) {input : List UInt8} {a : α}
    (h : result x input = .ok a) (output : List UInt8) :
    (x >>= f) ⟨input, output⟩ = (result (f a) (unread x input),
      ⟨unread (f a) (unread x input), output ++ (written x input ++ written (f a) (unread x input))⟩) := by
  have happly := hx.output input output
  rw [h] at happly
  rw [bind_of_ok happly, (hf a).output, List.append_assoc]

theorem Causal.bind_apply_error (hx : Causal eof x) {input : List UInt8} {e : ε}
    (h : result x input = .error e) (output : List UInt8) :
    (x >>= f) ⟨input, output⟩ = (.error e, ⟨unread x input, output ++ written x input⟩) := by
  have happly := hx.output input output
  rw [h] at happly
  exact bind_of_error happly

/-- **Steps in a row** are causal if each of them is. -/
theorem Causal.bind (hx : Causal eof x) (hf : ∀ a, Causal eof (f a)) : Causal eof (x >>= f) where
  output input output := by
    cases h : result x input with
    | ok a =>
      unfold result unread written
      rw [hx.bind_apply hf h, hx.bind_apply hf h, List.nil_append]
    | error e =>
      unfold result unread written
      rw [hx.bind_apply_error h, hx.bind_apply_error h, List.nil_append]
  returned {input b} h later := by
    unfold result at h
    cases hresult : result x input with
    | ok a =>
      have hbind := hx.bind_apply hf hresult []
      rw [hbind] at h
      have hlater := (hf a).returned h later
      have hresult' : result (f a) (unread x input ++ later) = .ok b := congrArg Prod.fst hlater
      have hunread' : unread (f a) (unread x input ++ later) = unread (f a) (unread x input) ++ later :=
        congrArg (fun r => r.2.input) hlater
      have hwritten' : written (f a) (unread x input ++ later) = written (f a) (unread x input) :=
        congrArg (fun r => r.2.output) hlater
      rw [bind_of_ok (hx.returned hresult later), (hf a).output, hresult', hunread', hwritten', unread.eq_1
        (x >>= f), written.eq_1 (x >>= f), hbind, List.nil_append]
    | error e =>
      rw [hx.bind_apply_error hresult] at h
      cases h
  failed {input e} h he later := by
    unfold result at h
    unfold result written
    cases hresult : result x input with
    | ok a =>
      rw [hx.bind_apply hf hresult] at h
      obtain ⟨herror, hwritten⟩ := (hf a).failed h he later
      rw [bind_of_ok (hx.returned hresult later), (hf a).output, hx.bind_apply hf hresult, herror, hwritten,
        List.nil_append]
      exact ⟨rfl, rfl⟩
    | error e' =>
      rw [hx.bind_apply_error hresult] at h
      obtain rfl := Except.error.inj h
      obtain ⟨herror, hwritten⟩ := hx.failed hresult he later
      rw [hx.bind_apply_error herror, hx.bind_apply_error hresult, hwritten]
      exact ⟨rfl, rfl⟩
  waiting {input} h later := by
    unfold result at h
    unfold written
    cases hresult : result x input with
    | ok a =>
      rw [hx.bind_apply hf hresult] at h
      rw [bind_of_ok (hx.returned hresult later), (hf a).output, hx.bind_apply hf hresult, List.nil_append]
      exact (List.prefix_append_right_inj _).mpr ((hf a).waiting h later)
    | error e =>
      -- what the first step has written by now is in front of whatever comes then
      rw [hx.bind_apply_error hresult]
      have hprefix : written x input <+: written x (input ++ later) :=
        hx.written_grows (List.prefix_append _ _)
      cases hlater : result x (input ++ later) with
      | ok a =>
        rw [hx.bind_apply hf hlater]
        exact hprefix.trans (List.prefix_append _ _)
      | error e' =>
        rw [hx.bind_apply_error hlater]
        exact hprefix

/-- What the first step writes is in front. -/
theorem Causal.written_grows_bind (hx : Causal eof x) (hf : ∀ a, Causal eof (f a)) (input : List UInt8) :
    written x input <+: written (x >>= f) input := by
  rw [written.eq_1 (x >>= f)]
  cases h : result x input with
  | ok a =>
    rw [hx.bind_apply hf h]
    exact List.prefix_append _ _
  | error e =>
    rw [hx.bind_apply_error h]
    exact List.prefix_rfl

/-- Once the first step has returned, the rest of the input is for the second. -/
theorem Causal.bind_later (hx : Causal eof x) (hf : ∀ a, Causal eof (f a)) {input output : List UInt8} {a : α}
    (h : x ⟨input, []⟩ = (.ok a, ⟨[], output⟩)) (later : List UInt8) :
    (x >>= f) ⟨input ++ later, []⟩
      = (result (f a) later, ⟨unread (f a) later, output ++ written (f a) later⟩) := by
  have hresult : result x input = .ok a := congrArg Prod.fst h
  have hunread : unread x input = [] := congrArg (fun r => r.2.input) h
  have hwritten : written x input = output := congrArg (fun r => r.2.output) h
  rw [bind_of_ok (hx.returned hresult later), hunread, hwritten, List.nil_append, (hf a).output]

end Bind

theorem Causal.ite {eof : ε} {x y : Handler ε α} {p : Prop} [Decidable p] (hx : Causal eof x)
    (hy : Causal eof y) : Causal eof (if p then x else y) := by
  split_ifs
  · exact hx
  · exact hy

/-- A handler that waits for its first byte, and fails if there is none. -/
def awaiting (eof : ε) (x : Handler ε α) : Handler ε α := fun s =>
  if s.input = [] then (.error eof, s) else x s

@[simp] theorem awaiting_nil (eof : ε) (x : Handler ε α) (output : List UInt8) :
    awaiting eof x ⟨[], output⟩ = (.error eof, ⟨[], output⟩) := rfl

@[simp] theorem awaiting_cons (eof : ε) (x : Handler ε α) (b : UInt8) (rest output : List UInt8) :
    awaiting eof x ⟨b :: rest, output⟩ = x ⟨b :: rest, output⟩ := if_neg (List.cons_ne_nil b rest)

/-- A handler that goes by the first byte is causal if it waits for it. -/
theorem causal_awaiting {eof : ε} {x : Handler ε α} {f : UInt8 → Handler ε α}
    (hx : ∀ b rest output, x ⟨b :: rest, output⟩ = f b ⟨b :: rest, output⟩) (hf : ∀ b, Causal eof (f b)) :
    Causal eof (awaiting eof x) where
  output input output := by
    -- without a byte it waits and has written nothing; with one it is the handler behind it
    cases input with
    | nil =>
      show ((Except.error eof, ⟨[], output⟩) : Except ε α × Conn) = (.error eof, ⟨[], output ++ []⟩)
      rw [List.append_nil]
    | cons b rest =>
      unfold result unread written
      rw [awaiting_cons, awaiting_cons, hx, hx]
      exact (hf b).output (b :: rest) output
  returned {input a} h later := by
    cases input with
    | nil => cases h
    | cons b rest =>
      unfold result at h
      unfold unread written
      rw [awaiting_cons, hx] at h
      rw [List.cons_append, awaiting_cons, awaiting_cons, hx, hx]
      exact (hf b).returned h later
  failed {input e} h he later := by
    cases input with
    | nil => exact absurd (Except.error.inj h).symm he
    | cons b rest =>
      unfold result at h
      unfold result written
      rw [awaiting_cons, hx] at h
      rw [List.cons_append, awaiting_cons, awaiting_cons, hx, hx]
      exact (hf b).failed h he later
  waiting {input} h later := by
    cases input with
    | nil => exact List.nil_prefix
    | cons b rest =>
      unfold result at h
      unfold written
      rw [awaiting_cons, hx] at h
      rw [List.cons_append, awaiting_cons, awaiting_cons, hx, hx]
      exact (hf b).waiting h later

/-! ### Serving for ever -/

section Forever

variable (eof : ε) (x : Nat → Handler ε Unit)

/-- `x k`, `x (k + 1)` and so on, `n` times. -/
def loop : Nat → Nat → Handler ε Unit
  | 0, _ => bail eof
  | n + 1, k => x k >>= fun _ => loop n (k + 1)

/-- `x 0`, `x 1` and so on, as long as there is input.  A step that returns takes a byte at least. -/
def forever : Handler ε Unit := fun s => loop eof x (s.input.length + 1) 0 s

variable {eof x}

theorem causal_loop (hx : ∀ k, Causal eof (x k)) (n k : Nat) : Causal eof (loop eof x n k) := by
  induction n generalizing k with
  | zero => exact causal_bail eof eof
  | succ n ih => exact (hx k).bind fun _ => ih (k + 1)

/-- Beyond the length of the input the number of rounds does not matter. -/
theorem loop_congr (hx : ∀ k, Causal eof (x k))
    (htakes : ∀ k input, result (x k) input = .ok () → (unread (x k) input).length < input.length)
    {n m : Nat} {input : List UInt8} (hn : input.length < n) (hm : input.length < m) (k : Nat)
    (output : List UInt8) : loop eof x n k ⟨input, output⟩ = loop eof x m k ⟨input, output⟩ := by
  induction n generalizing m input k output with
  | zero => omega
  | succ n ih =>
    obtain ⟨m, rfl⟩ : ∃ m', m = m' + 1 := ⟨m - 1, by omega⟩
    show (x k >>= fun _ => loop eof x n (k + 1)) _ = (x k >>= fun _ => loop eof x m (k + 1)) _
    have happly := (hx k).output input output
    cases h : result (x k) input with
    | error e =>
      rw [h] at happly
      rw [bind_of_error happly, bind_of_error happly]
    | ok u =>
      rw [h] at happly
      have hlt := htakes k input h
      rw [bind_of_ok happly, bind_of_ok happly]
      exact ih (by omega) (by omega) (k + 1) _

theorem forever_eq (hx : ∀ k, Causal eof (x k))
    (htakes : ∀ k input, result (x k) input = .ok () → (unread (x k) input).length < input.length)
    {n : Nat} {input : List UInt8} (hn : input.length < n) (output : List UInt8) :
    forever eof x ⟨input, output⟩ = loop eof x n 0 ⟨input, output⟩ :=
  loop_congr hx htakes (Nat.lt_succ_self _) hn 0 output

/-- **Serving for ever** is causal, if every round is and takes something from the input. -/
theorem causal_forever (hx : ∀ k, Causal eof (x k))
    (htakes : ∀ k input, result (x k) input = .ok () → (unread (x k) input).length < input.length) :
    Causal eof (forever eof x) where
  output input output := by
    unfold result unread written
    -- every round takes something, so a loop with a bound for the whole input is the same
    rw [forever_eq hx htakes (Nat.lt_succ_self _), forever_eq hx htakes (Nat.lt_succ_self _)]
    exact (causal_loop hx _ 0).output input output
  returned {input a} h later := by
    have hlong : input.length < (input ++ later).length + 1 := by
      rw [List.length_append]
      omega
    unfold result at h
    unfold unread written
    rw [forever_eq hx htakes hlong] at h
    rw [forever_eq hx htakes hlong, forever_eq hx htakes (Nat.lt_succ_self _)]
    exact (causal_loop hx _ 0).returned h later
  failed {input e} h he later := by
    have hlong : input.length < (input ++ later).length + 1 := by
      rw [List.length_append]
      omega
    unfold result at h
    unfold result written
    rw [forever_eq hx htakes hlong] at h
    rw [forever_eq hx htakes hlong, forever_eq hx htakes (Nat.lt_succ_self _)]
    exact (causal_loop hx _ 0).failed h he later
  waiting {input} h later := by
    have hlong : input.length < (input ++ later).length + 1 := by
      rw [List.length_append]
      omega
    unfold result at h
    unfold written
    rw [forever_eq hx htakes hlong] at h
    rw [forever_eq hx htakes hlong, forever_eq hx htakes (Nat.lt_succ_self _)]
    exact (causal_loop hx _ 0).waiting h later

end Forever

/-! ### Dialogues -/

namespace Dialogue

/-- The bytes that each of the two was given. -/
@[ext] structure Delivered where
  toClient : List UInt8 := []
  toServer : List UInt8 := []

/-- One of the two was given more in `t`, or the same. -/
def Delivered.Before (s t : Delivered) : Prop := s.toClient <+: t.toClient ∧ s.toServer <+: t.toServer

/-- How many bytes were delivered. -/
def Delivered.size (s : Delivered) : Nat := s.toClient.length + s.toServer.length

theorem Delivered.Before.size_le {s t : Delivered} (h : s.Before t) : s.size ≤ t.size :=
  Nat.add_le_add h.1.length_le h.2.length_le

theorem Delivered.Before.antisymm {s t : Delivered} (h : s.Before t) (h' : t.Before s) : s = t :=
  Delivered.ext (h.1.eq_of_length (le_antisymm h.1.length_le h'.1.length_le))
    (h.2.eq_of_length (le_antisymm h.2.length_le h'.2.length_le))

section

variable (x : Handler ε α) (y : Handler δ β)

/-- Bytes that were written are delivered, in a piece of any size. -/
inductive Step : Delivered → Delivered → Prop
  | toServer {s : Delivered} {bytes : List UInt8} (hne : bytes ≠ [])
      (h : s.toServer ++ bytes <+: written x s.toClient) :
      Step s { s with toServer := s.toServer ++ bytes }
  | toClient {s : Delivered} {bytes : List UInt8} (hne : bytes ≠ [])
      (h : s.toClient ++ bytes <+: written y s.toServer) :
      Step s { s with toClient := s.toClient ++ bytes }

/-- A state in which the two can be. -/
def Reachable (s : Delivered) : Prop := Relation.ReflTransGen (Step x y) {} s

/-- Nothing is under way: each of the two has been delivered all that the other one writes. -/
structure Balanced (s : Delivered) : Prop where
  toServer : s.toServer = written x s.toClient
  toClient : s.toClient = written y s.toServer

/-- The dialogue can end in this state. -/
structure Ends (s : Delivered) : Prop where
  reachable : Reachable x y s
  balanced : Balanced x y s

/-- How the dialogue ends for each of the two, and what is left unread. -/
def Outcome (r : Except ε α × List UInt8) (q : Except δ β × List UInt8) : Prop :=
  ∃ down up, Reachable x y ⟨down, up⟩ ∧ x ⟨down, []⟩ = (r.1, ⟨r.2, up⟩) ∧ y ⟨up, []⟩ = (q.1, ⟨q.2, down⟩)

/-- Both return, and nothing is left unread. -/
def Meets (a : α) (b : β) : Prop := Outcome x y (.ok a, []) (.ok b, [])

/-- Both return if `p` holds, and nothing is left unread; otherwise both fail or wait for ever. -/
def Decides (p : Prop) (a : α) (b : β) : Prop :=
  ∃ r q, Outcome x y r q ∧ (p → r = (.ok a, []) ∧ q = (.ok b, [])) ∧
    (¬ p → (∃ e, r.1 = .error e) ∧ ∃ e, q.1 = .error e)

end

section Order

variable {eof : ε} {eof' : δ} {x : Handler ε α} {y : Handler δ β}

/-- Every step delivers something, so a dialogue of which the sizes are bounded comes to an end. -/
theorem Step.size_lt {s t : Delivered} (h : Step x y s t) : s.size < t.size := by
  cases h with
  | toServer hne h =>
    have hpos := List.length_pos_of_ne_nil hne
    simp only [Delivered.size, List.length_append]
    omega
  | toClient hne h =>
    have hpos := List.length_pos_of_ne_nil hne
    simp only [Delivered.size, List.length_append]
    omega

/-- One step stays behind every state in which nothing is under way. -/
theorem Step.before (hx : Causal eof x) (hy : Causal eof' y) {s s' t : Delivered} (h : Step x y s s')
    (hs : s.Before t) (ht : Balanced x y t) : s'.Before t := by
  cases h with
  | toServer hne h =>
    refine ⟨hs.1, h.trans ?_⟩
    rw [ht.toServer]
    exact hx.written_grows hs.1
  | toClient hne h =>
    refine ⟨h.trans ?_, hs.2⟩
    rw [ht.toClient]
    exact hy.written_grows hs.2

theorem Reachable.before (hx : Causal eof x) (hy : Causal eof' y) {s t : Delivered} (h : Reachable x y s)
    (ht : Balanced x y t) : s.Before t := by
  induction h with
  | refl => exact ⟨List.nil_prefix, List.nil_prefix⟩
  | tail _ hstep ih => exact hstep.before hx hy ih ht

/-- What has been delivered to a party is the start of what the other one has written. -/
theorem Reachable.prefix_written (hx : Causal eof x) (hy : Causal eof' y) {s : Delivered}
    (h : Reachable x y s) : s.toServer <+: written x s.toClient ∧ s.toClient <+: written y s.toServer := by
  induction h with
  | refl => exact ⟨List.nil_prefix, List.nil_prefix⟩
  | tail _ hstep ih =>
    cases hstep with
    | toServer hne h => exact ⟨h, ih.2.trans (hy.written_grows (List.prefix_append _ _))⟩
    | toClient hne h => exact ⟨ih.1.trans (hx.written_grows (List.prefix_append _ _)), h⟩

/-- As long as something is under way, a step can be taken. -/
theorem Reachable.balanced_or_step (hx : Causal eof x) (hy : Causal eof' y) {s : Delivered}
    (h : Reachable x y s) : Balanced x y s ∨ ∃ s', Step x y s s' := by
  obtain ⟨⟨up, hup⟩, down, hdown⟩ := h.prefix_written hx hy
  by_cases hup' : up = []
  · by_cases hdown' : down = []
    · subst hup' hdown'
      exact .inl ⟨by rw [← hup, List.append_nil], by rw [← hdown, List.append_nil]⟩
    · exact .inr ⟨_, .toClient hdown' (by rw [hdown])⟩
  · exact .inr ⟨_, .toServer hup' (by rw [hup])⟩

/-- A dialogue ends in one state at most. -/
theorem Ends.unique (hx : Causal eof x) (hy : Causal eof' y) {s t : Delivered} (hs : Ends x y s)
    (ht : Ends x y t) : s = t :=
  (hs.reachable.before hx hy ht.balanced).antisymm (ht.reachable.before hx hy hs.balanced)

/-- **The order of delivery** does not matter: from every state that can be reached, a dialogue that can end
    can only end as it does, and comes to it. -/
theorem Ends.reaches (hx : Causal eof x) (hy : Causal eof' y) {s t : Delivered} (ht : Ends x y t)
    (hs : Reachable x y s) : Relation.ReflTransGen (Step x y) s t := by
  -- by induction on the bytes that are still to be delivered
  induction hn : t.size - s.size using Nat.strong_induction_on generalizing s with
  | _ n ih =>
    rcases hs.balanced_or_step hx hy with hbalanced | ⟨s', hstep⟩
    · rw [Ends.unique hx hy ⟨hs, hbalanced⟩ ht]
    · have hs' : Reachable x y s' := hs.tail hstep
      have hle := (hs'.before hx hy ht.balanced).size_le
      have hlt := hstep.size_lt
      exact (ih (t.size - s'.size) (by omega) hs' rfl).head hstep

end Order

/-! ### Phases -/

section Phases

variable {eof : ε} {eof' : δ} {x : Handler ε α} {y : Handler δ β}

theorem Outcome.ends {r : Except ε α × List UInt8} {q : Except δ β × List UInt8} (h : Outcome x y r q) :
    ∃ t, Ends x y t ∧ (result x t.toClient, unread x t.toClient) = r ∧
      (result y t.toServer, unread y t.toServer) = q := by
  obtain ⟨down, up, hreach, hx, hy⟩ := h
  refine ⟨⟨down, up⟩, ⟨hreach, ⟨?_, ?_⟩⟩, ?_, ?_⟩
  · rw [written, hx]
  · rw [written, hy]
  · rw [result, unread, hx]
  · rw [result, unread, hy]

/-- **A question and its answer.** One of the two writes and then only reads. -/
theorem Outcome.call {k : Handler ε α} (hk : Causal eof k) {up down : List UInt8}
    {r : Except ε α × List UInt8} {q : Except δ β × List UInt8} (hr : k ⟨down, []⟩ = (r.1, ⟨r.2, []⟩))
    (hq : y ⟨up, []⟩ = (q.1, ⟨q.2, down⟩)) : Outcome (writeAll up >>= fun _ => k) y r q := by
  have hasks : up <+: written (writeAll up >>= fun _ => k) [] :=
    (causal_writeAll eof up).written_grows_bind (fun _ => hk) []
  have hsent : Reachable (writeAll up >>= fun _ => k) y ⟨[], up⟩ := by
    by_cases hup : up = []
    · subst hup
      exact .refl
    · exact .single (.toServer (s := {}) hup hasks)
  have hanswered : Reachable (writeAll up >>= fun _ => k) y ⟨down, up⟩ := by
    by_cases hdown : down = []
    · subst hdown
      exact hsent
    · refine hsent.tail (.toClient (s := ⟨[], up⟩) hdown ?_)
      rw [List.nil_append, written, hq]
  refine ⟨down, up, hanswered, ?_, hq⟩
  have hwrite : (writeAll up : Handler ε Unit) ⟨down, []⟩ = (.ok (), ⟨down, up⟩) := rfl
  refine (bind_of_ok hwrite).trans ((hk.output down up).trans ?_)
  rw [result, unread, written, hr, List.append_nil]

/-- Two parties that write nothing have as their outcome what each gives without input. -/
theorem Outcome.idle {r : Except ε α × List UInt8} {q : Except δ β × List UInt8}
    (hx : x ⟨[], []⟩ = (r.1, ⟨r.2, []⟩)) (hy : y ⟨[], []⟩ = (q.1, ⟨q.2, []⟩)) : Outcome x y r q :=
  ⟨[], [], .refl, hx, hy⟩

/-- Two that do the same with what the client writes cannot be told apart. -/
theorem Outcome.congr {y' : Handler δ β} (hx : Causal eof x) (hy : Causal eof' y)
    (hsame : ∀ {down up}, up <+: written x down → y ⟨up, []⟩ = y' ⟨up, []⟩)
    {r : Except ε α × List UInt8} {q : Except δ β × List UInt8} (h : Outcome x y r q) :
    Outcome x y' r q := by
  obtain ⟨down, up, hreach, hr, hq⟩ := h
  have hreach' : ∀ s, Reachable x y s → Reachable x y' s := by
    intro s hs
    induction hs with
    | refl => exact .refl
    | tail hs hstep ih =>
      refine ih.tail ?_
      cases hstep with
      | toServer hne h => exact .toServer hne h
      | toClient hne h =>
        have hup := (Reachable.prefix_written hx hy hs).1
        rw [written, hsame hup] at h
        exact .toClient hne h
  have hup := (Reachable.prefix_written hx hy hreach).1
  exact ⟨down, up, hreach' _ hreach, hr, by rw [← hsame hup, hq]⟩

variable {f : α → Handler ε γ} {ζ : Type} {g : β → Handler δ ζ}

/-- The steps of a first phase are steps of the whole. -/
theorem Reachable.bind (hx : Causal eof x) (hy : Causal eof' y) (hf : ∀ a, Causal eof (f a))
    (hg : ∀ b, Causal eof' (g b)) {s : Delivered} (h : Reachable x y s) :
    Reachable (x >>= f) (y >>= g) s := by
  induction h with
  | refl => exact .refl
  | tail _ hstep ih =>
    refine ih.tail ?_
    cases hstep with
    | toServer hne h => exact .toServer hne (h.trans (hx.written_grows_bind hf _))
    | toClient hne h => exact .toClient hne (h.trans (hy.written_grows_bind hg _))

/-- After a phase in which both fail nothing happens. -/
theorem Outcome.bind_failed (hx : Causal eof x) (hy : Causal eof' y) (hf : ∀ a, Causal eof (f a))
    (hg : ∀ b, Causal eof' (g b)) {e : ε} {e' : δ} {rest rest' : List UInt8}
    (h : Outcome x y (.error e, rest) (.error e', rest')) :
    Outcome (x >>= f) (y >>= g) (.error e, rest) (.error e', rest') := by
  obtain ⟨down, up, hreach, hr, hq⟩ := h
  exact ⟨down, up, hreach.bind hx hy hf hg, bind_of_error hr, bind_of_error hq⟩

/-- **One phase after another**: if two parties meet in the first phase, the outcome of the second is that of the
    whole. -/
theorem Meets.bind_outcome (hx : Causal eof x) (hy : Causal eof' y) (hf : ∀ a, Causal eof (f a))
    (hg : ∀ b, Causal eof' (g b)) {a : α} {b : β} {r : Except ε γ × List UInt8}
    {q : Except δ ζ × List UInt8} (h : Meets x y a b) (h' : Outcome (f a) (g b) r q) :
    Outcome (x >>= f) (y >>= g) r q := by
  obtain ⟨down, up, hreach, hxa, hyb⟩ := h
  obtain ⟨down', up', hreach', hfr, hgq⟩ := h'
  -- behind the first phase each of the two goes on with its second one
  have hclient (later : List UInt8) := hx.bind_later hf hxa later
  have hserver (later : List UInt8) := hy.bind_later hg hyb later
  refine ⟨down ++ down', up ++ up', ?_, ?_, ?_⟩
  · refine Relation.ReflTransGen.trans (hreach.bind hx hy hf hg) ?_
    -- a step of the second phase is one of both, with what was delivered in the first in front
    have hlift : ∀ s, Reachable (f a) (g b) s →
        Relation.ReflTransGen (Step (x >>= f) (y >>= g)) ⟨down, up⟩
          ⟨down ++ s.toClient, up ++ s.toServer⟩ := by
      intro s hs
      induction hs with
      | refl => rw [List.append_nil, List.append_nil]
      | @tail s s' _ hstep ih =>
        refine ih.tail ?_
        cases hstep with
        | @toServer bytes hne h =>
          show Step _ _ _ ⟨down ++ s.toClient, up ++ (s.toServer ++ bytes)⟩
          rw [← List.append_assoc]
          refine .toServer (s := ⟨down ++ s.toClient, up ++ s.toServer⟩) hne ?_
          rw [written, hclient, List.append_assoc]
          exact (List.prefix_append_right_inj _).mpr h
        | @toClient bytes hne h =>
          show Step _ _ _ ⟨down ++ (s.toClient ++ bytes), up ++ s.toServer⟩
          rw [← List.append_assoc]
          refine .toClient (s := ⟨down ++ s.toClient, up ++ s.toServer⟩) hne ?_
          rw [written, hserver, List.append_assoc]
          exact (List.prefix_append_right_inj _).mpr h
    exact hlift _ hreach'
  · rw [hclient, result, unread, written, hfr]
  · rw [hserver, result, unread, written, hgq]

/-! ### Both or neither -/

theorem Meets.decides {a : α} {b : β} (h : Meets x y a b) {p : Prop} (hp : p) : Decides x y p a b :=
  ⟨_, _, h, fun _ => ⟨rfl, rfl⟩, fun hn => absurd hp hn⟩

theorem Outcome.decides_not {e : ε} {e' : δ} {rest rest' : List UInt8}
    (h : Outcome x y (.error e, rest) (.error e', rest')) {p : Prop} (hp : ¬ p) (a : α) (b : β) :
    Decides x y p a b :=
  ⟨_, _, h, fun hy => absurd hy hp, fun _ => ⟨⟨e, rfl⟩, ⟨e', rfl⟩⟩⟩

theorem Decides.iff {p p' : Prop} (h : p ↔ p') {a : α} {b : β} (hd : Decides x y p a b) :
    Decides x y p' a b := by
  rwa [← propext h]

theorem Decides.congr {y' : Handler δ β} (hx : Causal eof x) (hy : Causal eof' y)
    (hsame : ∀ {down up}, up <+: written x down → y ⟨up, []⟩ = y' ⟨up, []⟩) {p : Prop} {a : α} {b : β}
    (h : Decides x y p a b) : Decides x y' p a b := by
  obtain ⟨r, q, hrq, hyes, hno⟩ := h
  exact ⟨r, q, hrq.congr hx hy hsame, hyes, hno⟩

/-- **Phase by phase.** If two parties go through a first phase or fail in it together, and so through a second one,
    then they do so through both. -/
theorem Decides.bind (hx : Causal eof x) (hy : Causal eof' y) (hf : ∀ a, Causal eof (f a))
    (hg : ∀ b, Causal eof' (g b)) {p p' : Prop} {a : α} {b : β} {c : γ} {d : ζ} (h : Decides x y p a b)
    (h' : p → Decides (f a) (g b) p' c d) : Decides (x >>= f) (y >>= g) (p ∧ p') c d := by
  obtain ⟨⟨r, rest⟩, ⟨q, rest'⟩, hrq, hyes, hno⟩ := h
  by_cases hp : p
  · obtain ⟨hr, hq⟩ := hyes hp
    rw [hr, hq] at hrq
    obtain ⟨r', q', hrq', hyes', hno'⟩ := h' hp
    exact ⟨r', q', Meets.bind_outcome hx hy hf hg hrq hrq', fun h => hyes' h.2,
      fun hn => hno' fun hp' => hn ⟨hp, hp'⟩⟩
  · obtain ⟨⟨e, rfl⟩, e', rfl⟩ := hno hp
    exact (hrq.bind_failed hx hy hf hg).decides_not (fun h => hp h.1) c d

/-- What one of the two sees of it. -/
theorem ok_iff_of_decided {p : Prop} {a : α} {r : Except ε α} (hyes : p → r = .ok a)
    (hno : ¬ p → ∃ e, r = .error e) (a' : α) : r = .ok a' ↔ p ∧ a' = a := by
  by_cases hp : p
  · rw [hyes hp, Except.ok.injEq, and_iff_right hp, eq_comm]
  · obtain ⟨e, he⟩ := hno hp
    rw [he]
    exact ⟨fun h => (by cases h), fun h => absurd h.1 hp⟩

/-- **In every order of delivery** the dialogue comes to its end, and there both have returned or neither. -/
theorem Decides.ends (hx : Causal eof x) (hy : Causal eof' y) {p : Prop} {a : α} {b : β}
    (h : Decides x y p a b) : ∃ t, Ends x y t ∧
      (∀ s, Reachable x y s → Relation.ReflTransGen (Step x y) s t) ∧
      (∀ a', result x t.toClient = .ok a' ↔ p ∧ a' = a) ∧
      (∀ b', result y t.toServer = .ok b' ↔ p ∧ b' = b) ∧
      (p → unread x t.toClient = [] ∧ unread y t.toServer = []) := by
  obtain ⟨⟨r, rest⟩, ⟨q, rest'⟩, hrq, hyes, hno⟩ := h
  obtain ⟨t, ht, hr, hq⟩ := hrq.ends
  obtain ⟨rfl, rfl⟩ := Prod.mk.inj hr
  obtain ⟨rfl, rfl⟩ := Prod.mk.inj hq
  refine ⟨t, ht, fun s hs => ht.reaches hx hy hs, ?_, ?_, fun hp => ?_⟩
  · exact ok_iff_of_decided (fun hp => (Prod.mk.inj (hyes hp).1).1) fun hn => (hno hn).1
  · exact ok_iff_of_decided (fun hp => (Prod.mk.inj (hyes hp).2).1) fun hn => (hno hn).2
  · exact ⟨(Prod.mk.inj (hyes hp).1).2, (Prod.mk.inj (hyes hp).2).2⟩

end Phases

end Dialogue

end ByteStream
