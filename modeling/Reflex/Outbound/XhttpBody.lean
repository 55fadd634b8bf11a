import Mathlib.Data.List.Infix
import Reflex.Lib.PolledStream
import Reflex.Lib.Transition
import Reflex.RustStd.Str

namespace Reflex.Xhttp

open RustStd PolledStream Transition

/-!
# XHTTP — the body of a response

`RespBodyReader` of `outbound/xhttp.rs`: a task takes the frames of the body and sends their data through a
channel, `poll_read` takes them from there.  A read that completes without a byte is the end of the stream
to the caller.

* `step` — the task and the reader, in any interleaving;
* `Inv.step` — what is delivered and what is still to come are the data of the body;
* `delivers_iff` — reads bring all of the data and end only at the end, exactly if no data frame is empty.
-/

/-- What `frame()` of the body brings. -/
inductive Frame (ε : Type) where
  | data (bytes : Bytes)
  | trailers
  | error (e : ε)
  deriving DecidableEq

/-- `RespBodyReader`, with what its task has still to read and with what the reader was given. -/
structure RespBodyReader (ε : Type) where
  body : List (Frame ε)
  /-- does the task run? -/
  running : Bool
  /-- the channel, which the task closes when it ends -/
  rx : List (Except ε Bytes)
  current : Bytes
  delivered : Bytes

namespace RespBodyReader

variable {ε : Type}

/-- `RespBodyReader::new`. -/
def new (body : List (Frame ε)) : RespBodyReader ε := ⟨body, true, [], [], []⟩

/-- How many pieces the channel holds. -/
def capacity : Nat := 64

/-- The loop of the task: the next frame, which is sent when there is room. -/
def frame (s : RespBodyReader ε) : Option (RespBodyReader ε) :=
  if s.running then
    match s.body with
    | [] => some { s with running := false }
    | .trailers :: body => some { s with body }
    | .data bytes :: body =>
        if s.rx.length < capacity then some { s with body, rx := s.rx ++ [.ok bytes] } else none
    | .error e :: body =>
        if s.rx.length < capacity then some { s with body, rx := s.rx ++ [.error e], running := false }
        else none
  else none

/-- `poll_read` into a buffer with room for `cap` bytes. -/
def pollRead (cap : Nat) (s : RespBodyReader ε) : Poll ε × RespBodyReader ε :=
  if s.current ≠ [] then (.ready (s.current.take cap), { s with current := s.current.drop cap })
  else
    match s.rx with
    | [] => if s.running then (.pending, s) else (.ready [], s)
    | .error e :: rx => (.error e, { s with rx })
    | .ok chunk :: rx =>
        if chunk = [] then (.ready [], { s with rx })
        else (.ready (chunk.take cap), { s with rx, current := chunk.drop cap })

inductive Event where
  /-- the task gets a frame -/
  | frame
  /-- the reader is polled -/
  | read (cap : Nat)

/-- One step: a frame of the body comes into the channel, or the reader is polled. -/
def step (s : RespBodyReader ε) : Event → Option (RespBodyReader ε)
  | .frame => s.frame
  | .read cap =>
      some { (s.pollRead cap).2 with delivered := s.delivered ++ (s.pollRead cap).1.bytes }

/-! ### What is still to come -/

/-- The data of the body, up to an error. -/
def content : List (Frame ε) → Bytes
  | [] => []
  | .data bytes :: body => bytes ++ content body
  | .trailers :: body => content body
  | .error _ :: _ => []

/-- The data in the channel. -/
def queued : List (Except ε Bytes) → Bytes
  | [] => []
  | .ok chunk :: rx => chunk ++ queued rx
  | .error _ :: rx => queued rx

/-- What the task has still to read. -/
def unread (s : RespBodyReader ε) : Bytes := if s.running then content s.body else []

/-- The body has ended, and all of it was taken. -/
structure Ended (s : RespBodyReader ε) : Prop where
  running : s.running = false
  rx : s.rx = []
  current : s.current = []

/-- The bytes of `body` are those that were delivered and those to come. -/
def Inv (body : List (Frame ε)) (s : RespBodyReader ε) : Prop :=
  s.delivered ++ (s.current ++ (queued s.rx ++ s.unread)) = content body

theorem queued_append (rx rx' : List (Except ε Bytes)) : queued (rx ++ rx') = queued rx ++ queued rx' := by
  induction rx with
  | nil => rfl
  | cons piece rx ih =>
    cases piece with
    | error e => exact ih
    | ok chunk => rw [List.cons_append, queued, queued, ih, List.append_assoc]

theorem inv_new (body : List (Frame ε)) : Inv body (new body) := rfl

/-- The task moves bytes from the body to the channel. -/
theorem Inv.frame {body : List (Frame ε)} {s s' : RespBodyReader ε} (hs : Inv body s)
    (h : s.frame = some s') : Inv body s' := by
  rw [RespBodyReader.frame] at h
  split at h
  · rename_i hrunning
    rw [Inv, unread, if_pos hrunning] at hs
    split at h
    · rename_i hbody
      obtain rfl := Option.some.inj h
      rw [hbody] at hs
      exact hs
    · rename_i body' hbody
      obtain rfl := Option.some.inj h
      rw [hbody] at hs
      rw [Inv, unread, if_pos hrunning]
      exact hs
    · rename_i bytes body' hbody
      obtain ⟨-, h⟩ := Option.ite_none_right_eq_some.mp h
      obtain rfl := Option.some.inj h
      rw [hbody, content, ← List.append_assoc (queued s.rx)] at hs
      rw [Inv, unread, if_pos hrunning, queued_append, queued, queued, List.append_nil]
      exact hs
    · rename_i e body' hbody
      obtain ⟨-, h⟩ := Option.ite_none_right_eq_some.mp h
      obtain rfl := Option.some.inj h
      rw [hbody, content] at hs
      rw [Inv, queued_append, queued, queued, List.append_nil]
      exact hs
  · cases h

/-- A read takes its bytes from the front of what is to come. -/
theorem pollRead_spec (cap : Nat) (s : RespBodyReader ε) :
    (s.pollRead cap).1.bytes ++ ((s.pollRead cap).2.current ++ queued (s.pollRead cap).2.rx)
        = s.current ++ queued s.rx ∧
      (s.pollRead cap).2.body = s.body ∧ (s.pollRead cap).2.running = s.running ∧
      (s.pollRead cap).2.delivered = s.delivered := by
  rw [pollRead]
  by_cases hcurrent : s.current ≠ []
  · rw [if_pos hcurrent]
    refine ⟨?_, rfl, rfl, rfl⟩
    show s.current.take cap ++ (s.current.drop cap ++ queued s.rx) = _
    rw [← List.append_assoc, List.take_append_drop]
  · rw [if_neg hcurrent]
    -- nothing is left of the last frame, so the next one comes from the channel
    have hnil := not_ne_iff.mp hcurrent
    split
    · split
      · exact ⟨rfl, rfl, rfl, rfl⟩
      · exact ⟨rfl, rfl, rfl, rfl⟩
    · rename_i e rx hrx
      rw [hrx]
      exact ⟨rfl, rfl, rfl, rfl⟩
    · rename_i chunk rx hrx
      rw [hrx, hnil]
      split
      · rename_i hchunk
        rw [hchunk]
        exact ⟨rfl, rfl, rfl, rfl⟩
      · refine ⟨?_, rfl, rfl, rfl⟩
        show chunk.take cap ++ (chunk.drop cap ++ queued rx) = chunk ++ queued rx
        rw [← List.append_assoc, List.take_append_drop]

/-- **One step** keeps the bytes together: delivered, held, queued and unread, they are those of the body. -/
theorem Inv.step {body : List (Frame ε)} {s s' : RespBodyReader ε} {e : Event} (hs : Inv body s)
    (h : s.step e = some s') : Inv body s' := by
  cases e with
  | frame => exact hs.frame h
  | read cap =>
    obtain rfl := Option.some.inj h
    obtain ⟨hbytes, hbody, hrunning, -⟩ := pollRead_spec cap s
    show s.delivered ++ (s.pollRead cap).1.bytes
      ++ ((s.pollRead cap).2.current ++ (queued (s.pollRead cap).2.rx ++ (s.pollRead cap).2.unread)) = _
    rw [unread, hbody, hrunning, List.append_assoc, ← List.append_assoc _ (queued _),
      ← List.append_assoc (Poll.bytes _), hbytes, List.append_assoc]
    exact hs

/-! ### Empty frames -/

/-- No data frame is empty, up to an error. -/
def NoEmpty : List (Frame ε) → Prop
  | [] => True
  | .data bytes :: body => bytes ≠ [] ∧ NoEmpty body
  | .trailers :: body => NoEmpty body
  | .error _ :: _ => True

/-- No empty piece is in the channel, and none will be. -/
structure Full (s : RespBodyReader ε) : Prop where
  body : s.running → NoEmpty s.body
  rx : .ok [] ∉ s.rx

theorem Full.frame {s s' : RespBodyReader ε} (hs : s.Full) (h : s.frame = some s') : s'.Full := by
  rw [RespBodyReader.frame] at h
  split at h
  · rename_i hrunning
    have hbody := hs.body hrunning
    split at h
    · obtain rfl := Option.some.inj h
      exact ⟨nofun, hs.rx⟩
    · rename_i body' heq
      obtain rfl := Option.some.inj h
      rw [heq] at hbody
      exact ⟨fun _ => hbody, hs.rx⟩
    · rename_i bytes body' heq
      obtain ⟨-, h⟩ := Option.ite_none_right_eq_some.mp h
      obtain rfl := Option.some.inj h
      rw [heq] at hbody
      refine ⟨fun _ => hbody.2, fun hmem => ?_⟩
      rcases List.mem_append.mp hmem with hmem | hmem
      · exact hs.rx hmem
      · exact hbody.1 (Except.ok.inj (List.mem_singleton.mp hmem)).symm
    · rename_i e body' heq
      obtain ⟨-, h⟩ := Option.ite_none_right_eq_some.mp h
      obtain rfl := Option.some.inj h
      refine ⟨nofun, fun hmem => ?_⟩
      rcases List.mem_append.mp hmem with hmem | hmem
      · exact hs.rx hmem
      · cases List.mem_singleton.mp hmem
  · cases h

/-- A read leaves less in the channel. -/
theorem rx_pollRead (cap : Nat) (s : RespBodyReader ε) : (s.pollRead cap).2.rx <:+ s.rx := by
  rw [pollRead]
  split
  · exact List.suffix_rfl
  · split
    · split <;> exact List.suffix_rfl
    · rename_i e rx hrx
      rw [hrx]
      exact List.suffix_cons ..
    · rename_i chunk rx hrx
      rw [hrx]
      split <;> exact List.suffix_cons ..

theorem Full.step {s s' : RespBodyReader ε} {e : Event} (hs : s.Full) (h : s.step e = some s') : s'.Full := by
  cases e with
  | frame => exact hs.frame h
  | read cap =>
    obtain rfl := Option.some.inj h
    obtain ⟨-, hbody, hrunning, -⟩ := pollRead_spec cap s
    refine ⟨fun hrun => ?_, fun hmem => hs.rx ((rx_pollRead cap s).subset hmem)⟩
    rw [hbody]
    exact hs.body (hrunning.symm.trans hrun)

/-- **A read without a byte** is at the end, if there are no empty pieces. -/
theorem Full.ended_of_pollRead {s : RespBodyReader ε} (hs : s.Full) {cap : Nat} (hcap : 0 < cap)
    (h : (s.pollRead cap).1 = .ready []) : s.Ended := by
  have hne : ∀ bytes : Bytes, bytes ≠ [] → bytes.take cap ≠ [] := by
    intro bytes hbytes htake
    rcases List.take_eq_nil_iff.mp htake with hzero | hnil
    · omega
    · exact hbytes hnil
  rw [pollRead] at h
  by_cases hcurrent : s.current ≠ []
  · rw [if_pos hcurrent] at h
    exact absurd (Poll.ready.inj h) (hne _ hcurrent)
  · rw [if_neg hcurrent] at h
    split at h
    · rename_i hrx
      split at h
      · cases h
      · exact ⟨Bool.eq_false_iff.mpr ‹_›, hrx, not_ne_iff.mp hcurrent⟩
    · cases h
    · rename_i chunk rx hrx
      split at h
      · rename_i hchunk
        exact absurd (hrx ▸ hchunk ▸ List.mem_cons_self) hs.rx
      · exact absurd (Poll.ready.inj h) (hne _ ‹_›)

/-- A read finds nothing while the task runs and the channel is empty. -/
theorem waiting_of_pollRead {s : RespBodyReader ε} {cap : Nat} (h : (s.pollRead cap).1 = .pending) :
    s.running = true ∧ s.rx = [] := by
  rw [pollRead] at h
  split at h
  · cases h
  · split at h
    · rename_i hrx
      split at h
      · exact ⟨‹_›, hrx⟩
      · cases h
    · cases h
    · split at h <;> cases h

/-! ### Delivery -/

/-- In every run: what was delivered is the front of the data, a read into a buffer with room completes
    without a byte only when the body has ended, and then all was delivered; and a read that finds nothing
    waits for the task, which can go on. -/
def Delivers (body : List (Frame ε)) : Prop :=
  ∀ events s, run step (new body) events = some s →
    s.delivered <+: content body ∧
      ∀ cap, 0 < cap → ((s.pollRead cap).1 = .ready [] → s.Ended ∧ s.delivered = content body) ∧
        ((s.pollRead cap).1 = .pending → ∃ s', s.step .frame = some s')

theorem delivers_of_noEmpty {body : List (Frame ε)} (hbody : NoEmpty body) : Delivers body := by
  intro events s hrun
  have hinv : Inv body s := invariant_of_steps (fun _ _ _ h hs => hs.step h) hrun (inv_new body)
  have hfull : s.Full := invariant_of_steps (fun _ _ _ h hs => hs.step h) hrun ⟨fun _ => hbody, nofun⟩
  refine ⟨⟨_, hinv⟩, fun cap hcap => ⟨fun hread => ?_, fun hread => ?_⟩⟩
  · have hended := hfull.ended_of_pollRead hcap hread
    refine ⟨hended, ?_⟩
    rw [Inv, unread, hended.running, hended.rx, hended.current] at hinv
    exact (List.append_nil _).symm.trans hinv
  · obtain ⟨hrunning, hrx⟩ := waiting_of_pollRead hread
    rw [RespBodyReader.step, RespBodyReader.frame, if_pos hrunning]
    have hroom : s.rx.length < capacity := by
      rw [hrx]
      exact Nat.zero_lt_succ _
    split
    · exact ⟨_, rfl⟩
    · exact ⟨_, rfl⟩
    · exact ⟨_, if_pos hroom⟩
    · exact ⟨_, if_pos hroom⟩

/-- Reads that keep up with the task come to the first empty frame. -/
theorem exists_run_empty {body : List (Frame ε)} (hbody : ¬ NoEmpty body) (delivered : Bytes) :
    ∃ events s, run step ⟨body, true, [], [], delivered⟩ events = some s ∧ s.running = true ∧
      s.current = [] ∧ s.rx = [.ok []] := by
  induction body generalizing delivered with
  | nil => exact absurd trivial hbody
  | cons f body ih =>
    cases f with
    | trailers =>
      obtain ⟨events, s, hrun, hs⟩ := ih hbody delivered
      exact ⟨.frame :: events, s, run_cons rfl hrun, hs⟩
    | error e => exact absurd trivial hbody
    | data bytes =>
      by_cases hbytes : bytes = []
      · subst hbytes
        exact ⟨[.frame], _, rfl, rfl, rfl, rfl⟩
      · obtain ⟨events, s, hrun, hs⟩ := ih (fun h => hbody ⟨hbytes, h⟩) (delivered ++ bytes)
        have hpoll : pollRead bytes.length ⟨body, true, [.ok bytes], [], delivered⟩
            = (.ready bytes, ⟨body, true, [], [], delivered⟩) := by
          rw [pollRead, if_neg (not_not.mpr rfl)]
          dsimp only
          rw [if_neg hbytes, List.take_length, List.drop_length]
        refine ⟨.frame :: .read bytes.length :: events, s, run_cons rfl (run_cons ?_ hrun), hs⟩
        show some { (pollRead bytes.length ⟨body, true, [.ok bytes], [], delivered⟩).2 with
          delivered :=
            delivered ++ (pollRead bytes.length ⟨body, true, [.ok bytes], [], delivered⟩).1.bytes } = _
        rw [hpoll]
        rfl

/-- **The body** is delivered, and reads without a byte mean that it has ended, exactly if no data frame is
    empty, up to an error. -/
theorem delivers_iff (body : List (Frame ε)) : Delivers body ↔ NoEmpty body := by
  refine ⟨fun h => ?_, delivers_of_noEmpty⟩
  by_contra hbody
  obtain ⟨events, s, hrun, hrunning, hcurrent, hrx⟩ := exists_run_empty hbody []
  have hread : (s.pollRead 1).1 = .ready [] := by
    rw [pollRead, if_neg (not_not.mpr hcurrent), hrx]
    rfl
  have hended := ((h events s hrun).2 1 Nat.one_pos).1 hread |>.1.running
  rw [hrunning] at hended
  cases hended

/-- An empty frame between two others is taken for the end of the body. -/
theorem not_delivers : ¬ Delivers ([.data [1], .data [], .data [2]] : List (Frame Unit)) := by
  intro h
  have hread := ((h [.frame, .frame, .read 1] _ rfl).2 1 Nat.one_pos).1 rfl
  exact absurd hread.1.running (by decide)

end RespBodyReader

end Reflex.Xhttp
