import Reflex.Lib.PolledStream

namespace PolledStream

/-!
# Readers of a polled stream

A reader takes bytes off a transport, however they arrive, and returns or fails.  `Takes x bs r` says
that it takes just the bytes `bs` off a transport that brings them first, and ends with `r`.

* `Transport.readExact` — poll until `n` bytes are there;
* `takes_readExact`, `Takes.bind` — what a reader takes, put together from its steps;
* `readExact_eq_ok`, `bind_eq_ok` — what was taken when a reader has returned.
-/

variable {ε η α β : Type}

/-- A reader that fails with `η` or returns `α`. -/
def Reader (ε η α : Type) := Transport ε → Except η α × Transport ε

/-- Run the next reader on the transport as the first one leaves it. -/
def Reader.andThen (x : Reader ε η α) (f : α → Reader ε η β) : Reader ε η β := fun t =>
  match x t with
  | (.ok a, t') => f a t'
  | (.error e, t') => (.error e, t')

instance : Monad (Reader ε η) where
  pure a := fun t => (.ok a, t)
  bind := Reader.andThen

/-- Fail. -/
def Reader.bail (e : η) : Reader ε η α := fun t => (.error e, t)

/-- Poll until `n` bytes are there; `eof` is the error at an early end of the stream, `other` turns an
    error of the transport into one of the reader. -/
def Transport.readExact (eof : η) (other : ε → η) :
    Transport ε → Nat → Except η (List UInt8) × Transport ε
  | t, 0 => (.ok [], t)
  | [], _ + 1 => (.error eof, [])
  | .pending :: es, n + 1 => Transport.readExact eof other es (n + 1)
  | .error e :: es, _ + 1 => (.error (other e), es)
  | .data seg :: es, n + 1 =>
      if h : n + 1 < seg.bytes.length then
        (.ok (seg.bytes.take (n + 1)),
          .data ⟨seg.bytes.drop (n + 1), by rw [ne_eq, List.drop_eq_nil_iff]; omega⟩ :: es)
      else
        let (r, t) := Transport.readExact eof other es (n + 1 - seg.bytes.length)
        (r.map (seg.bytes ++ ·), t)

/-- `read_exact` into a buffer of `n` bytes. -/
def Reader.readExact (eof : η) (other : ε → η) (n : Nat) : Reader ε η (List UInt8) :=
  fun t => t.readExact eof other n

/-- A transport on which no poll fails. -/
def Transport.Clean (t : Transport ε) : Prop := ∀ e, Event.error e ∉ t

theorem Transport.Clean.tail {e : Event ε} {es : Transport ε}
    (h : Transport.Clean (e :: es : Transport ε)) : es.Clean :=
  fun e' he' => h e' (List.mem_cons_of_mem e he')

/-- Off a transport that brings `bs` first, however it cuts the bytes, the reader takes just these and
    ends with `r`. -/
def Takes (x : Reader ε η α) (bs : List UInt8) (r : Except η α) : Prop :=
  ∀ t rest, Transport.Clean t → t.bytes = bs ++ rest →
    ∃ t', x t = (r, t') ∧ Transport.Clean t' ∧ t'.bytes = rest

/-! ### What a reader takes -/

theorem takes_pure (a : α) : Takes (pure a : Reader ε η α) [] (.ok a) :=
  fun t _ hclean hbytes => ⟨t, rfl, hclean, hbytes⟩

theorem takes_bail (e : η) : Takes (Reader.bail e : Reader ε η α) [] (.error e) :=
  fun t _ hclean hbytes => ⟨t, rfl, hclean, hbytes⟩

/-- **One reader after another** takes one piece of the input after another, however it is cut into segments. -/
theorem Takes.bind {x : Reader ε η α} {f : α → Reader ε η β} {bs cs : List UInt8} {a : α}
    {r : Except η β} (hx : Takes x bs (.ok a)) (hf : Takes (f a) cs r) :
    Takes (x >>= f) (bs ++ cs) r := by
  intro t rest hclean hbytes
  rw [List.append_assoc] at hbytes
  obtain ⟨t', hx', hclean', hbytes'⟩ := hx t (cs ++ rest) hclean hbytes
  obtain ⟨t'', hf', hend⟩ := hf t' rest hclean' hbytes'
  refine ⟨t'', ?_, hend⟩
  show Reader.andThen x f t = _
  rw [Reader.andThen, hx']
  exact hf'

/-- A second reader that takes no bytes. -/
theorem Takes.bind_nil {x : Reader ε η α} {f : α → Reader ε η β} {bs : List UInt8} {a : α}
    {r : Except η β} (hx : Takes x bs (.ok a)) (hf : Takes (f a) [] r) : Takes (x >>= f) bs r := by
  have hbind := hx.bind hf
  rwa [List.append_nil] at hbind

/-- **Reading a given number of bytes**: these, and no others, however they are cut. -/
theorem takes_readExact (eof : η) (other : ε → η) {n : Nat} {bs : List UInt8} (h : bs.length = n) :
    Takes (Reader.readExact eof other n) bs (.ok bs) := by
  intro t rest hclean hbytes
  rw [Reader.readExact]
  induction t generalizing n bs with
  | nil =>
    -- at the end of the input nothing was asked for
    obtain ⟨rfl, rfl⟩ := List.append_eq_nil_iff.mp hbytes.symm
    subst h
    exact ⟨[], rfl, hclean, rfl⟩
  | cons e es ih =>
    cases n with
    | zero =>
      obtain rfl := List.length_eq_zero_iff.mp h
      exact ⟨e :: es, rfl, hclean, hbytes⟩
    | succ n =>
      cases e with
      | pending => exact ih h hclean.tail hbytes
      | error e => exact absurd List.mem_cons_self (hclean e)
      | data seg =>
        rw [Transport.bytes] at hbytes
        rw [Transport.readExact]
        split
        · -- the segment brings more than is needed
          rename_i hlt
          obtain ⟨htake, hdrop⟩ : bs = seg.bytes.take (n + 1) ∧
              rest = seg.bytes.drop (n + 1) ++ Transport.bytes es := by
            rw [← List.take_append_drop (n + 1) seg.bytes, List.append_assoc] at hbytes
            refine List.append_inj hbytes.symm ?_
            rw [h, List.length_take_of_le (Nat.le_of_lt hlt)]
          rw [htake, hdrop]
          refine ⟨_, rfl, ?_, rfl⟩
          rintro e he
          rcases List.mem_cons.mp he with heq | hmem
          · cases heq
          · exact hclean.tail e hmem
        · -- the whole segment is taken, and there is more to read
          obtain ⟨bs', rfl⟩ : ∃ bs', bs = seg.bytes ++ bs' := by
            obtain ⟨c, hc⟩ := List.prefix_of_prefix_length_le (hbytes ▸ List.prefix_append _ _)
              (List.prefix_append bs rest) (by omega)
            exact ⟨c, hc.symm⟩
          rw [List.append_assoc, List.append_cancel_left_eq] at hbytes
          rw [List.length_append] at h
          have hlen : bs'.length = n + 1 - seg.bytes.length := by omega
          obtain ⟨t', hread, hend⟩ := ih hlen hclean.tail hbytes
          rw [hread]
          exact ⟨t', rfl, hend⟩

/-- At the end of the stream a reader of some bytes fails with the error for an early end. -/
theorem readExact_of_end (eof : η) (other : ε → η) {n : Nat} (hn : 0 < n) {t : Transport ε}
    (hclean : t.Clean) (hbytes : t.bytes = []) :
    (t.readExact eof other n).1 = .error eof := by
  obtain ⟨n, rfl⟩ := Nat.exists_eq_add_of_lt hn
  induction t with
  | nil => rfl
  | cons e es ih =>
    cases e with
    | pending => exact ih hclean.tail hbytes
    | error e => exact absurd List.mem_cons_self (hclean e)
    | data seg => exact absurd (List.append_eq_nil_iff.mp hbytes).1 seg.nonempty

/-! ### What a reader has taken -/

theorem bind_eq_ok {x : Reader ε η α} {f : α → Reader ε η β} {t t'' : Transport ε} {b : β} :
    (x >>= f) t = (.ok b, t'') ↔ ∃ a t', x t = (.ok a, t') ∧ f a t' = (.ok b, t'') := by
  show Reader.andThen x f t = (.ok b, t'') ↔ _
  unfold Reader.andThen
  rcases x t with ⟨e | a, t'⟩
  · simp
  · simp

/-- After a failure of the first reader there is nothing to read. -/
theorem bind_of_error {x : Reader ε η α} {f : α → Reader ε η β} {t : Transport ε} {e : η}
    (h : (x t).1 = .error e) : ((x >>= f) t).1 = .error e := by
  show (Reader.andThen x f t).1 = _
  rw [Reader.andThen]
  rcases hx : x t with ⟨r, t'⟩
  rw [hx] at h
  obtain rfl : r = .error e := h
  rfl

theorem readExact_eq_ok {eof : η} {other : ε → η} {n : Nat} {t t' : Transport ε}
    {bs : List UInt8} (h : t.readExact eof other n = (.ok bs, t')) :
    t.bytes = bs ++ t'.bytes ∧ bs.length = n := by
  fun_induction Transport.readExact eof other t n generalizing bs t' with
  | case1 t =>
    obtain ⟨rfl, rfl⟩ := by simpa using h
    exact ⟨rfl, rfl⟩
  | case2 => simp at h
  | case3 es n ih => exact ih h
  | case4 => simp at h
  | case5 seg es n hlt =>
    obtain ⟨rfl, rfl⟩ := by simpa using h
    refine ⟨?_, List.length_take_of_le (Nat.le_of_lt hlt)⟩
    rw [Transport.bytes, Transport.bytes, ← List.append_assoc, List.take_append_drop]
  | case6 seg es n hle r t hread ih =>
    obtain ⟨hmap, rfl⟩ := Prod.mk.inj h
    cases r with
    | error e => cases hmap
    | ok cs =>
      obtain ⟨hbytes, hlen⟩ := ih hread
      obtain rfl := Except.ok.inj hmap
      rw [Transport.bytes, hbytes, List.append_assoc, List.length_append, hlen]
      exact ⟨rfl, by omega⟩

end PolledStream
