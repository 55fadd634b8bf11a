import Mathlib.Tactic.Common

namespace ByteStream

/-!
# Handlers of a byte stream

A handler reads the bytes of a peer one after another, writes bytes back and either returns or
fails; what it has written before a failure stays written.  `Yields x s a s'` says that a handler
returns `a`; the lemmas below take a handler apart step by step.  `Reads x bs a` says that it takes
just the bytes `bs` for it; these lemmas put an encoding together.
-/

/-- A connection: the bytes still to come from the peer and the bytes written to it. -/
structure Conn where
  input : List UInt8
  output : List UInt8 := []

variable {ε α β : Type}

/-- A handler that fails with `ε` or returns `α`. -/
def Handler (ε α : Type) := Conn → Except ε α × Conn

/-- Run the next handler on the connection as the first one leaves it. -/
def Handler.andThen (x : Handler ε α) (f : α → Handler ε β) : Handler ε β := fun s =>
  match x s with
  | (.ok a, s') => f a s'
  | (.error e, s') => (.error e, s')

instance : Monad (Handler ε) where
  pure a := fun s => (.ok a, s)
  bind := Handler.andThen

/-- Fail. -/
def bail (e : ε) : Handler ε α := fun s => (.error e, s)

/-- Read one byte; `eof` is the error at the end of the stream. -/
def readU8 (eof : ε) : Handler ε UInt8 := fun s =>
  match s.input with
  | b :: rest => (.ok b, { s with input := rest })
  | [] => (.error eof, s)

/-- Read exactly `n` bytes. -/
def readExact (eof : ε) (n : Nat) : Handler ε (List UInt8) := fun s =>
  if n ≤ s.input.length then (.ok (s.input.take n), { s with input := s.input.drop n })
  else (.error eof, { s with input := [] })

/-- Write bytes to the peer. -/
def writeAll (bs : List UInt8) : Handler ε Unit := fun s =>
  (.ok (), { s with output := s.output ++ bs })

/-- A step that does not touch the connection. -/
def ofExcept (x : Except ε α) : Handler ε α := fun s => (x, s)

/-- The handler returns `a` and leaves the connection as `s'`. -/
def Yields (x : Handler ε α) (s : Conn) (a : α) (s' : Conn) : Prop := x s = (.ok a, s')

@[simp] theorem yields_pure {a b : α} {s s' : Conn} :
    Yields (pure a : Handler ε α) s b s' ↔ a = b ∧ s = s' := by
  show ((Except.ok a, s) : Except ε α × Conn) = (.ok b, s') ↔ _
  simp

@[simp] theorem not_yields_bail {e : ε} {b : α} {s s' : Conn} :
    ¬ Yields (bail e : Handler ε α) s b s' := by
  simp [Yields, bail]

/-- A handler in two steps yields what its second step yields behind the first. -/
@[simp] theorem yields_bind {x : Handler ε α} {f : α → Handler ε β} {b : β} {s s'' : Conn} :
    Yields (x >>= f) s b s'' ↔ ∃ a s', Yields x s a s' ∧ Yields (f a) s' b s'' := by
  -- after a failure of the first step there is nothing to yield
  show Handler.andThen x f s = (.ok b, s'') ↔ _
  unfold Handler.andThen Yields
  rcases x s with ⟨e | a, s'⟩
  · simp
  · simp

@[simp] theorem yields_readU8 {eof : ε} {b : UInt8} {s s' : Conn} :
    Yields (readU8 eof) s b s' ↔ s.input = b :: s'.input ∧ s'.output = s.output := by
  obtain ⟨input, output⟩ := s
  obtain ⟨input', output'⟩ := s'
  cases input with
  | nil => simp [Yields, readU8]
  | cons c rest =>
    simp only [Yields, readU8, Prod.mk.injEq, Except.ok.injEq,
      Conn.mk.injEq, List.cons.injEq]
    tauto

@[simp] theorem yields_readExact {eof : ε} {n : Nat} {bs : List UInt8} {s s' : Conn} :
    Yields (readExact eof n) s bs s' ↔
      s.input = bs ++ s'.input ∧ bs.length = n ∧ s'.output = s.output := by
  obtain ⟨input, output⟩ := s
  obtain ⟨input', output'⟩ := s'
  simp only [Yields, readExact]
  split
  · rename_i hle
    simp only [Prod.mk.injEq, Except.ok.injEq, Conn.mk.injEq]
    constructor
    · rintro ⟨rfl, rfl, rfl⟩
      exact ⟨(List.take_append_drop n input).symm, List.length_take_of_le hle, rfl⟩
    · rintro ⟨rfl, rfl, rfl⟩
      simp
  · rename_i hlt
    simp only [Prod.mk.injEq, reduceCtorEq, false_and, false_iff]
    -- had the bytes been there, the length check would have passed
    rintro ⟨rfl, rfl, -⟩
    simp at hlt

@[simp] theorem yields_writeAll {bs : List UInt8} {u : Unit} {s s' : Conn} :
    Yields (writeAll bs : Handler ε Unit) s u s' ↔ s' = { s with output := s.output ++ bs } := by
  simp only [Yields, writeAll, Prod.mk.injEq, true_and]
  exact eq_comm

@[simp] theorem yields_ofExcept {x : Except ε α} {a : α} {s s' : Conn} :
    Yields (ofExcept x) s a s' ↔ x = .ok a ∧ s' = s := by
  simp only [Yields, ofExcept, Prod.mk.injEq]
  tauto

/-! ### Reading an encoding -/

/-- In front of any rest, the handler takes the bytes `bs` and returns `a`. -/
def Reads (x : Handler ε α) (bs : List UInt8) (a : α) : Prop :=
  ∀ rest output, Yields x ⟨bs ++ rest, output⟩ a ⟨rest, output⟩

/-- What is read is determined by the bytes. -/
theorem Reads.unique {x : Handler ε α} {bs : List UInt8} {a b : α} (ha : Reads x bs a)
    (hb : Reads x bs b) : a = b := by
  have heq := (ha [] []).symm.trans (hb [] [])
  exact Except.ok.inj (Prod.mk.inj heq).1

theorem reads_pure {a b : α} (h : a = b) : Reads (pure a : Handler ε α) [] b :=
  fun _ _ => yields_pure.mpr ⟨h, rfl⟩

/-- **One encoding after another** is read by one reader after another. -/
theorem Reads.bind {x : Handler ε α} {f : α → Handler ε β} {bs cs : List UInt8} {a : α} {b : β}
    (hx : Reads x bs a) (hf : Reads (f a) cs b) : Reads (x >>= f) (bs ++ cs) b := by
  intro rest output
  rw [List.append_assoc]
  exact yields_bind.mpr ⟨a, ⟨cs ++ rest, output⟩, hx (cs ++ rest) output, hf rest output⟩

/-- A second step that takes no bytes. -/
theorem Reads.bind_nil {x : Handler ε α} {f : α → Handler ε β} {bs : List UInt8} {a : α} {b : β}
    (hx : Reads x bs a) (hf : Reads (f a) [] b) : Reads (x >>= f) bs b := by
  have hbind := hx.bind hf
  rwa [List.append_nil] at hbind

theorem reads_readU8 (eof : ε) (b : UInt8) : Reads (readU8 eof) [b] b :=
  fun _ _ => yields_readU8.mpr ⟨rfl, rfl⟩

theorem reads_readExact (eof : ε) {n : Nat} {bs : List UInt8} (h : bs.length = n) :
    Reads (readExact eof n) bs bs :=
  fun _ _ => yields_readExact.mpr ⟨rfl, h, rfl⟩

theorem reads_ofExcept {x : Except ε α} {a : α} (h : x = .ok a) : Reads (ofExcept x) [] a :=
  fun _ _ => yields_ofExcept.mpr ⟨h, rfl⟩

end ByteStream
