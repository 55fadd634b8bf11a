import Reflex.Lib.Numbered
import Reflex.Lib.Tally
import Reflex.Lib.Transition
import Reflex.Router.Basic
import Mathlib.Data.UInt
import Mathlib.Algebra.BigOperators.Pi

namespace Reflex.Stats

open RustStd Routing Transition Tally Numbered

/-!
# Statistics — the counters and the table of connections

`app/stats.rs` and `ConnectionTracker` of `app/clash_api.rs`, as `dispatch_tcp`, `run_udp_session` and
`dispatch_udp` use them.  Every atomic operation and every section under a lock is a step, and the tasks take theirs
in any order.

* `Phase.counts` — what a task has put into the counters so far;
* `Inv`, `inv_run` — the registry has one entry for a tag, and its counters hold what the tasks have put into them;
* `stats_run` — the snapshots of the API, in every state of every run;
* `Tracked`, `tracker_run` — the table lists the connections that are open.
-/

/-! ### Counters -/

/-- The fields of `TagStats` and of `TagSnapshot`. -/
inductive Counter where
  | tcpActive | udpActive | tcpTotal | udpTotal | bytesUp | bytesDown | errors
  deriving DecidableEq, Repr

/-- `TagStats`, where atomics have 64 bits, and `TagSnapshot`. -/
abbrev TagStats := Counter → UInt64

/-- `fetch_add`; `fetch_sub` adds the negative. -/
def TagStats.fetchAdd (st : TagStats) (c : Counter) (n : UInt64) : TagStats := Function.update st c (st c + n)

theorem TagStats.fetchAdd_eq (st : TagStats) (c : Counter) (n : UInt64) : st.fetchAdd c n = st + Pi.single c n := by
  funext d
  by_cases hd : d = c
  · subst hd
    simp [fetchAdd]
  · simp [fetchAdd, hd]

/-- `tcp_active` or `udp_active`. -/
def Counter.active : NetworkKind → Counter
  | .tcp => .tcpActive
  | .udp => .udpActive

/-- `tcp_total` or `udp_total`. -/
def Counter.total : NetworkKind → Counter
  | .tcp => .tcpTotal
  | .udp => .udpTotal

/-- One, if something is so, and zero otherwise. -/
def once (b : Bool) : UInt64 := if b then 1 else 0

@[simp] theorem once_true : once true = 1 := rfl

@[simp] theorem once_false : once false = 0 := rfl

/-! ### Tasks -/

/-- How the handling of a connection ends, as far as it is counted. -/
inductive Returned where
  | bytes (up down : UInt64)
  | quiet
  | error
  deriving DecidableEq, Repr

namespace Returned

/-- What `add_bytes` adds. -/
def up : Returned → UInt64
  | bytes up _ => up
  | _ => 0

def down : Returned → UInt64
  | bytes _ down => down
  | _ => 0

/-- Does `record_error` add one? -/
def failed : Returned → Bool
  | error => true
  | _ => false

@[simp] theorem up_bytes (up down : UInt64) : (bytes up down).up = up := rfl

@[simp] theorem down_bytes (up down : UInt64) : (bytes up down).down = down := rfl

@[simp] theorem failed_bytes (up down : UInt64) : (bytes up down).failed = false := rfl

@[simp] theorem up_error : error.up = 0 := rfl

@[simp] theorem down_error : error.down = 0 := rfl

@[simp] theorem failed_error : error.failed = true := rfl

end Returned

/-- How far a task is.  `stats` is the `TagStats` that it holds, `id` what it is registered as, if it is. -/
inductive Phase where
  | created
  -- `Stats::tag` has found nothing under the read lock
  | missed
  | holds (stats : Nat)
  -- `TcpGuard::new` or `UdpGuard::new`
  | counted (stats : Nat)
  | guarded (stats : Nat)
  -- `ConnectionTracker::register`
  | numbered (stats : Nat) (id : UInt64)
  | running (stats : Nat) (id : Option UInt64)
  -- `add_bytes` or `record_error`
  | returned (stats : Nat) (id : Option UInt64) (r : Returned)
  | addedUp (stats : Nat) (id : Option UInt64) (up down : UInt64)
  | ended (stats : Nat) (id : Option UInt64) (r : Returned)
  -- the `ConnGuard` is dropped before the `TcpGuard` or `UdpGuard`
  | dropping (stats : Nat) (r : Returned)
  | done (stats : Nat) (r : Returned)
  deriving DecidableEq, Repr

namespace Phase

/-- The statistics that a task holds. -/
def stats : Phase → Option Nat
  | created | missed => none
  | holds h | counted h | guarded h | numbered h _ | running h _ | returned h _ _ | addedUp h _ _ _
  | ended h _ _ | dropping h _ | done h _ => some h

/-- The number that a task has, and the one that it is in the table with. -/
def id : Phase → Option UInt64
  | numbered _ id => some id
  | running _ id | returned _ id _ | addedUp _ id _ _ | ended _ id _ => id
  | _ => none

def registered : Phase → Option UInt64
  | numbered _ _ => none
  | p => p.id

/-- The next operation on a counter: the statistics, the counter, what is added, and the phase behind it. -/
def count (n : NetworkKind) : Phase → Option (Nat × Counter × UInt64 × Phase)
  | holds h => some (h, .active n, 1, counted h)
  | counted h => some (h, .total n, 1, guarded h)
  | returned h id (.bytes up down) => some (h, .bytesUp, up, addedUp h id up down)
  | addedUp h id up down => some (h, .bytesDown, down, ended h id (.bytes up down))
  | returned h id .error => some (h, .errors, 1, ended h id .error)
  | dropping h r => some (h, .active n, -1, done h r)
  | _ => none

/-- A guard has counted the task, and is not dropped. -/
def isActive : Phase → Bool
  | created | missed | holds _ | done _ _ => false
  | _ => true

/-- The task is in the totals. -/
def isTotal : Phase → Bool
  | created | missed | holds _ | counted _ => false
  | _ => true

/-- The bytes that have been added, and whether an error has been recorded. -/
def up : Phase → UInt64
  | addedUp _ _ up _ => up
  | ended _ _ r | dropping _ r | done _ r => r.up
  | _ => 0

def down : Phase → UInt64
  | ended _ _ r | dropping _ r | done _ r => r.down
  | _ => 0

def hasFailed : Phase → Bool
  | ended _ _ r | dropping _ r | done _ r => r.failed
  | _ => false

/-- What a task has put into the counters so far. -/
def counts (n : NetworkKind) (p : Phase) : TagStats
  | .tcpActive => once (n = .tcp && p.isActive)
  | .udpActive => once (n = .udp && p.isActive)
  | .tcpTotal => once (n = .tcp && p.isTotal)
  | .udpTotal => once (n = .udp && p.isTotal)
  | .bytesUp => p.up
  | .bytesDown => p.down
  | .errors => once p.hasFailed

/-- Before its guard counts, a task has counted nothing. -/
theorem counts_eq_zero {n : NetworkKind} {p : Phase} (hactive : p.isActive = false) (htotal : p.isTotal = false)
    (hup : p.up = 0) (hdown : p.down = 0) (hfailed : p.hasFailed = false) : p.counts n = 0 := by
  funext c
  cases c <;> simp [counts, hactive, htotal, hup, hdown, hfailed]

theorem counts_of_stats_eq_none {n : NetworkKind} {p : Phase} (h : p.stats = none) : p.counts n = 0 := by
  cases p with
  | created => exact counts_eq_zero rfl rfl rfl rfl rfl
  | missed => exact counts_eq_zero rfl rfl rfl rfl rfl
  | _ => cases h

theorem counts_holds (n : NetworkKind) (h : Nat) : (holds h).counts n = 0 := counts_eq_zero rfl rfl rfl rfl rfl

/-- What an operation on a counter leads to. -/
theorem count_cases {n : NetworkKind} {p p' : Phase} {h : Nat} {c : Counter} {v : UInt64}
    (hcount : p.count n = some (h, c, v, p')) :
    (p = holds h ∧ c = .active n ∧ v = 1 ∧ p' = counted h) ∨
    (p = counted h ∧ c = .total n ∧ v = 1 ∧ p' = guarded h) ∨
    (∃ id down, p = returned h id (.bytes v down) ∧ c = .bytesUp ∧ p' = addedUp h id v down) ∨
    (∃ id up, p = addedUp h id up v ∧ c = .bytesDown ∧ p' = ended h id (.bytes up v)) ∨
    (∃ id, p = returned h id .error ∧ c = .errors ∧ v = 1 ∧ p' = ended h id .error) ∨
    ∃ r, p = dropping h r ∧ c = .active n ∧ v = -1 ∧ p' = done h r := by
  unfold count at hcount
  split at hcount
  all_goals cases hcount
  all_goals simp

/-- **Step lemma.** An operation on a counter counts for the task what it adds. -/
theorem counts_count {n : NetworkKind} {p p' : Phase} {h : Nat} {c : Counter} {v : UInt64}
    (hcount : p.count n = some (h, c, v, p')) :
    p.stats = some h ∧ p'.stats = some h ∧ p'.counts n = (p.counts n).fetchAdd c v := by
  obtain ⟨rfl, rfl, rfl, rfl⟩ | ⟨rfl, rfl, rfl, rfl⟩ | ⟨id, down, rfl, rfl, rfl⟩ | ⟨id, up, rfl, rfl, rfl⟩ |
    ⟨id, rfl, rfl, rfl, rfl⟩ | ⟨r, rfl, rfl, rfl, rfl⟩ := count_cases hcount
  all_goals refine ⟨rfl, rfl, ?_⟩
  all_goals funext d
  all_goals cases n <;> cases d <;> simp [TagStats.fetchAdd, Function.update, counts, isActive, isTotal, Phase.up,
    Phase.down, hasFailed, Counter.active, Counter.total]

end Phase

/-- A task of the dispatcher: its guard is a `TcpGuard` or a `UdpGuard`, and if it is registered, with `info`. -/
structure Task (μ : Type) where
  network : NetworkKind
  tag : Str
  info : Option μ
  phase : Phase := .created

variable {μ : Type}

/-- What a task may end with.  A UDP session reports nothing, and neither the bytes of a DNS connection. -/
def Task.mayReturn (t : Task μ) : Returned → Bool
  | .bytes _ _ => t.network = .tcp && t.info.isSome
  | .quiet => t.network = .udp || t.info.isNone
  | .error => t.network = .tcp

/-- What a task has put into the counters so far. -/
def Task.counts (t : Task μ) : TagStats := t.phase.counts t.network

/-- What a task has put into the counters of the statistics `h`. -/
def Task.share (t : Task μ) (h : Nat) : TagStats := if t.phase.stats = some h then t.counts else 0

/-! ### The system -/

/-- `Stats` and `ConnectionTracker`, with the tasks: `tags` is the registry, `cells` its `TagStats`, of which
    `allocated` have been built; `nextId` is what `next_id` has counted up to, which the atomic has in 64 bits. -/
structure Ledger (μ : Type) where
  tags : List (Str × Nat) := []
  cells : Nat → TagStats := fun _ => 0
  allocated : Nat := 0
  nextId : Nat := 1
  conns : UInt64 → Option μ := fun _ => none
  tasks : List (Task μ) := []

/-- The operations of a task. -/
inductive Op where
  -- `Stats::tag`, under the read lock and under the write lock
  | read | insert
  -- an atomic operation on a counter
  | count
  -- `ConnectionTracker::register`: `fetch_add`, and the table
  | number | register
  -- a task that is not registered goes on
  | handle
  | finish (r : Returned)
  -- the `ConnGuard` is dropped
  | untrack
  deriving DecidableEq, Repr

/-- What can happen; `delete` is `remove_by_id` of the API. -/
inductive Action (μ : Type) where
  | spawn (network : NetworkKind) (tag : Str) (info : Option μ)
  | task (k : Nat) (op : Op)
  | delete (id : UInt64)

namespace Ledger

/-- An operation of a task: its phase behind it, and the rest of the system. -/
def move (s : Ledger μ) (t : Task μ) : Op → Option (Phase × Ledger μ)
  | .read =>
      match t.phase, s.tags.lookup t.tag with
      | .created, some h => some (.holds h, s)
      | .created, none => some (.missed, s)
      | _, _ => none
  | .insert =>
      match t.phase, s.tags.lookup t.tag with
      -- another task may have been faster
      | .missed, some h => some (.holds h, s)
      | .missed, none => some (.holds s.allocated,
          { s with tags := s.tags ++ [(t.tag, s.allocated)], allocated := s.allocated + 1 })
      | _, _ => none
  | .count => do
      let (h, c, v, p) ← t.phase.count t.network
      return (p, { s with cells := Function.update s.cells h ((s.cells h).fetchAdd c v) })
  | .number =>
      match t.phase, t.info with
      | .guarded h, some _ => some (.numbered h (UInt64.ofNat s.nextId), { s with nextId := s.nextId + 1 })
      | _, _ => none
  | .register =>
      match t.phase, t.info with
      | .numbered h id, some info => some (.running h (some id),
          { s with conns := Function.update s.conns id (some info) })
      | _, _ => none
  | .handle =>
      match t.phase, t.info with
      | .guarded h, none => some (.running h none, s)
      | _, _ => none
  | .finish r =>
      match t.phase with
      | .running h id =>
          if t.mayReturn r then some (if r = .quiet then .ended h id r else .returned h id r, s) else none
      | _ => none
  | .untrack =>
      match t.phase with
      | .ended h (some id) r => some (.dropping h r, { s with conns := Function.update s.conns id none })
      | .ended h none r => some (.dropping h r, s)
      | _ => none

/-- One step: a task is spawned, a task does its next operation, or the API deletes an entry. -/
def step (s : Ledger μ) : Action μ → Option (Ledger μ)
  | .spawn network tag info => some { s with tasks := s.tasks ++ [{ network, tag, info }] }
  | .task k op => do
      let t ← s.tasks[k]?
      let (p, u) ← s.move t op
      return { u with tasks := s.tasks.set k { t with phase := p } }
  | .delete id => some { s with conns := Function.update s.conns id none }

/-- The counters of a tag, as `snapshot_all` shows them. -/
def snapshot (s : Ledger μ) (tag : Str) : Option TagStats := (s.tags.lookup tag).map s.cells

/-- `global_snapshot`. -/
def globalSnapshot (s : Ledger μ) : TagStats := s.tags.foldl (fun acc entry => acc + s.cells entry.2) 0

variable {s s' u : Ledger μ} {t : Task μ} {p : Phase} {op : Op}

/-! ### What an operation does -/

/-- The phase of a task behind an operation, and the rest of the system. -/
inductive Moves (s : Ledger μ) (t : Task μ) : Phase → Ledger μ → Prop where
  | found {h : Nat} (hphase : t.phase = .created ∨ t.phase = .missed) (hfound : s.tags.lookup t.tag = some h) :
      Moves s t (.holds h) s
  | missed (hphase : t.phase = .created) : Moves s t .missed s
  | inserted (hphase : t.phase = .missed) (hfree : s.tags.lookup t.tag = none) :
      Moves s t (.holds s.allocated)
        { s with tags := s.tags ++ [(t.tag, s.allocated)], allocated := s.allocated + 1 }
  | counted {h : Nat} {c : Counter} {v : UInt64} {p : Phase} (hcount : t.phase.count t.network = some (h, c, v, p)) :
      Moves s t p { s with cells := Function.update s.cells h ((s.cells h).fetchAdd c v) }
  | numbered {h : Nat} (hphase : t.phase = .guarded h) :
      Moves s t (.numbered h (UInt64.ofNat s.nextId)) { s with nextId := s.nextId + 1 }
  | registered {h : Nat} {id : UInt64} {info : μ} (hphase : t.phase = .numbered h id) (hinfo : t.info = some info) :
      Moves s t (.running h (some id)) { s with conns := Function.update s.conns id (some info) }
  | handled {h : Nat} (hphase : t.phase = .guarded h) : Moves s t (.running h none) s
  | finished {h : Nat} {id : Option UInt64} {r : Returned} (hphase : t.phase = .running h id) :
      Moves s t (.returned h id r) s
  | quiet {h : Nat} {id : Option UInt64} (hphase : t.phase = .running h id) : Moves s t (.ended h id .quiet) s
  | untracked {h : Nat} {id : UInt64} {r : Returned} (hphase : t.phase = .ended h (some id) r) :
      Moves s t (.dropping h r) { s with conns := Function.update s.conns id none }
  | closed {h : Nat} {r : Returned} (hphase : t.phase = .ended h none r) : Moves s t (.dropping h r) s

theorem moves_of_move (hmove : s.move t op = some (p, u)) : Moves s t p u := by
  -- the phases that an operation is not allowed in give no result
  cases op with
  | read =>
    simp only [move] at hmove
    split at hmove <;> cases hmove
    · rename_i hphase hfound
      exact .found (.inl hphase) hfound
    · rename_i hphase _
      exact .missed hphase
  | insert =>
    simp only [move] at hmove
    split at hmove <;> cases hmove
    · rename_i hphase hfound
      exact .found (.inr hphase) hfound
    · rename_i hphase hfree
      exact .inserted hphase hfree
  | count =>
    obtain ⟨⟨h, c, v, p'⟩, hcount, hmove⟩ := Option.bind_eq_some_iff.mp hmove
    cases hmove
    exact .counted hcount
  | number =>
    simp only [move] at hmove
    split at hmove <;> cases hmove
    rename_i hphase _
    exact .numbered hphase
  | register =>
    simp only [move] at hmove
    split at hmove <;> cases hmove
    rename_i hphase hinfo
    exact .registered hphase hinfo
  | handle =>
    simp only [move] at hmove
    split at hmove <;> cases hmove
    rename_i hphase _
    exact .handled hphase
  | finish r =>
    simp only [move] at hmove
    split at hmove
    · rename_i hphase
      split_ifs at hmove with hmay hquiet
      · cases hmove
        rw [hquiet]
        exact .quiet hphase
      · cases hmove
        exact .finished hphase
    · cases hmove
  | untrack =>
    simp only [move] at hmove
    split at hmove <;> cases hmove
    · rename_i hphase
      exact .untracked hphase
    · rename_i hphase
      exact .closed hphase

/-- A step: a task is spawned, an operation of a task, or an entry is removed from the table. -/
theorem step_cases {a : Action μ} (h : s.step a = some s') :
    (∃ network tag info, s' = { s with tasks := s.tasks ++ [{ network, tag, info }] }) ∨
    (∃ k t p u, s.tasks[k]? = some t ∧ Moves s t p u ∧ s' = { u with tasks := s.tasks.set k { t with phase := p } }) ∨
    ∃ id, a = .delete id ∧ s' = { s with conns := Function.update s.conns id none } := by
  cases a with
  | spawn network tag info => exact .inl ⟨network, tag, info, (Option.some.inj h).symm⟩
  | task k op =>
    obtain ⟨t, ht, h⟩ := Option.bind_eq_some_iff.mp h
    obtain ⟨⟨p, u⟩, hmove, h⟩ := Option.bind_eq_some_iff.mp h
    exact .inr (.inl ⟨k, t, p, u, ht, moves_of_move hmove, (Option.some.inj h).symm⟩)
  | delete id => exact .inr (.inr ⟨id, rfl, (Option.some.inj h).symm⟩)

/-- What an operation counts: nothing, or in the statistics that the task holds. -/
theorem Moves.counts (h : Moves s t p u) :
    (u.cells = s.cells ∧ p.counts t.network = t.phase.counts t.network ∧
        (p.stats = t.phase.stats ∨ p.counts t.network = 0)) ∨
      ∃ h c v, t.phase.stats = some h ∧ p.stats = some h ∧
        u.cells = Function.update s.cells h ((s.cells h).fetchAdd c v) ∧
        p.counts t.network = (t.phase.counts t.network).fetchAdd c v := by
  have hnone {q : Phase} (hstats : t.phase.stats = none) (hq : q.counts t.network = 0) :
      q.counts t.network = t.phase.counts t.network := hq.trans (Phase.counts_of_stats_eq_none hstats).symm
  have hsame {q : Phase} (hphase : t.phase = q) (hcells : u.cells = s.cells)
      (hcounts : p.counts t.network = q.counts t.network) (hstats : p.stats = q.stats) :
      u.cells = s.cells ∧ p.counts t.network = t.phase.counts t.network ∧
        (p.stats = t.phase.stats ∨ p.counts t.network = 0) := by
    rw [hphase]
    exact ⟨hcells, hcounts, .inl hstats⟩
  cases h with
  | found hphase _ =>
    refine .inl ⟨rfl, hnone ?_ (Phase.counts_holds ..), .inr (Phase.counts_holds ..)⟩
    rcases hphase with h | h <;> rw [h, Phase.stats]
  | missed hphase => exact .inl (hsame hphase rfl rfl rfl)
  | inserted hphase _ =>
    exact .inl ⟨rfl, hnone (by rw [hphase, Phase.stats]) (Phase.counts_holds ..), .inr (Phase.counts_holds ..)⟩
  | counted hcount =>
    obtain ⟨hstats, hstats', hcounts⟩ := Phase.counts_count hcount
    exact .inr ⟨_, _, _, hstats, hstats', rfl, hcounts⟩
  | numbered hphase => exact .inl (hsame hphase rfl rfl rfl)
  | registered hphase _ => exact .inl (hsame hphase rfl rfl rfl)
  | handled hphase => exact .inl (hsame hphase rfl rfl rfl)
  | finished hphase => exact .inl (hsame hphase rfl rfl rfl)
  | quiet hphase => exact .inl (hsame hphase rfl rfl rfl)
  | untracked hphase => exact .inl (hsame hphase rfl rfl rfl)
  | closed hphase => exact .inl (hsame hphase rfl rfl rfl)

/-! ### The counters -/

/-- **The invariant** of the counters: they hold what the tasks have put into them; the registry has one entry for a
    tag, which is never replaced, and each task holds the one of its tag. -/
structure Inv (s : Ledger μ) : Prop where
  balanced : Balanced Task.share s.cells s.tasks
  keys : (s.tags.map Prod.fst).Nodup
  entries : s.tags.map Prod.snd = List.range s.allocated
  holds : ∀ t ∈ s.tasks, ∀ h, t.phase.stats = some h → s.tags.lookup t.tag = some h

theorem inv_start : ({} : Ledger μ).Inv where
  balanced := balanced_nil
  keys := List.nodup_nil
  entries := rfl
  holds := fun _ ht => absurd ht List.not_mem_nil

/-- A counter of a task, and the statistics, move together. -/
theorem share_moves (h : Moves s t p u) (i : Nat) :
    u.cells i = s.cells i + (({ t with phase := p } : Task μ).share i - t.share i) := by
  obtain ⟨hcells, hcounts, hstats⟩ | ⟨h, c, v, hstats, hstats', hcells, hcounts⟩ := h.counts
  · have hshare : ({ t with phase := p } : Task μ).share i = t.share i := by
      rcases hstats with hsame | hzero
      · simp only [Task.share, Task.counts, hsame, hcounts]
      · simp only [Task.share, Task.counts, ← hcounts, hzero, ite_self]
    rw [hcells, hshare, sub_self, add_zero]
  · rw [hcells]
    by_cases hi : i = h
    · subst hi
      simp only [Function.update_self, Task.share, Task.counts, hstats, hstats', hcounts, TagStats.fetchAdd_eq,
        if_true, add_sub_cancel_left]
    · -- another tag's statistics
      have hne : ¬ some h = some i := fun heq => hi (Option.some.inj heq).symm
      simp only [Function.update_of_ne hi, Task.share, hstats, hstats', if_neg hne, sub_self, add_zero]

theorem lookup_eq_none_iff {l : List (Str × Nat)} {tag : Str} : l.lookup tag = none ↔ tag ∉ l.map Prod.fst := by
  rw [List.lookup_eq_none_iff, List.mem_map]
  constructor
  · rintro h ⟨e, he, rfl⟩
    simpa using h e he
  · intro h e he
    have hne : tag ≠ e.1 := fun heq => h ⟨e, he, heq.symm⟩
    simpa using hne

/-- What is registered stays, and a task holds the statistics that are registered for its tag. -/
theorem Moves.registry (h : Moves s t p u) (hs : s.Inv) (ht : t ∈ s.tasks) :
    (u.tags.map Prod.fst).Nodup ∧ u.tags.map Prod.snd = List.range u.allocated ∧
      (∀ tag h, s.tags.lookup tag = some h → u.tags.lookup tag = some h) ∧
      ∀ h, p.stats = some h → u.tags.lookup t.tag = some h := by
  -- most moves leave the registry alone, and the task holds what it held
  have hsame {q : Phase} (hphase : t.phase = q) (hstats : p.stats = q.stats) (htags : u.tags = s.tags)
      (hallocated : u.allocated = s.allocated) :
      (u.tags.map Prod.fst).Nodup ∧ u.tags.map Prod.snd = List.range u.allocated ∧
        (∀ tag h, s.tags.lookup tag = some h → u.tags.lookup tag = some h) ∧
        ∀ h, p.stats = some h → u.tags.lookup t.tag = some h := by
    rw [htags, hallocated, hstats, ← hphase]
    exact ⟨hs.keys, hs.entries, fun _ _ h => h, hs.holds t ht⟩
  cases h with
  | found hphase hfound =>
    refine ⟨hs.keys, hs.entries, fun _ _ h => h, fun h hstats => ?_⟩
    obtain rfl := Option.some.inj hstats
    exact hfound
  | missed hphase => exact hsame hphase rfl rfl rfl
  | inserted hphase hfree =>
    refine ⟨?_, ?_, fun tag h hfound => ?_, fun h hstats => ?_⟩
    · -- the new tag was not registered, and gets the next counters
      rw [List.map_append, List.nodup_append]
      refine ⟨hs.keys, List.nodup_singleton _, ?_⟩
      rintro tag htag _ hnew rfl
      have heq : tag = t.tag := List.mem_singleton.mp hnew
      exact lookup_eq_none_iff.mp hfree (heq ▸ htag)
    · rw [List.map_append, hs.entries, List.range_succ]
      rfl
    · rw [List.lookup_append, hfound]
      rfl
    · obtain rfl := Option.some.inj hstats
      rw [List.lookup_append, hfree]
      simp
  | counted hcount =>
    obtain ⟨hstats, hstats', -⟩ := Phase.counts_count hcount
    exact hsame rfl (hstats'.trans hstats.symm) rfl rfl
  | numbered hphase => exact hsame hphase rfl rfl rfl
  | registered hphase _ => exact hsame hphase rfl rfl rfl
  | handled hphase => exact hsame hphase rfl rfl rfl
  | finished hphase => exact hsame hphase rfl rfl rfl
  | quiet hphase => exact hsame hphase rfl rfl rfl
  | untracked hphase => exact hsame hphase rfl rfl rfl
  | closed hphase => exact hsame hphase rfl rfl rfl

/-- The step lemma: whatever a task does, the counters of a tag still hold what its tasks have put into them. -/
theorem inv_step {a : Action μ} (h : s.step a = some s') (hs : s.Inv) : s'.Inv := by
  obtain ⟨network, tag, info, rfl⟩ | ⟨k, t, p, u, hk, hmoves, rfl⟩ | ⟨id, -, rfl⟩ := step_cases h
  · refine { hs with balanced := hs.balanced.join fun i => rfl, holds := fun t ht h hstats => ?_ }
    rcases List.mem_append.mp ht with ht | ht
    · exact hs.holds t ht h hstats
    · rw [List.mem_singleton.mp ht] at hstats
      cases hstats
  · obtain ⟨hkeys, hentries, hstays, hholds⟩ := hmoves.registry hs (List.mem_of_getElem? hk)
    refine ⟨hs.balanced.step hk fun i => share_moves hmoves i, hkeys, hentries, fun t' ht' h hstats => ?_⟩
    rcases List.mem_or_eq_of_mem_set ht' with ht' | rfl
    · exact hstays _ _ (hs.holds t' ht' h hstats)
    · exact hholds h hstats
  · exact { hs with }

/-- **The counters** are right in every state of every run. -/
theorem inv_run {actions : List (Action μ)} (hrun : run step {} actions = some s) : s.Inv :=
  invariant_of_steps (fun _ _ _ => inv_step) hrun inv_start

/-! ### The snapshots -/

theorem eq_of_lookup_eq {l : List (Str × Nat)} (hl : (l.map Prod.snd).Nodup) {a b : Str} {h : Nat}
    (ha : l.lookup a = some h) (hb : l.lookup b = some h) : a = b := by
  obtain ⟨l₁, l₂, rfl, -⟩ := List.lookup_eq_some_iff.mp ha
  obtain ⟨l₃, l₄, heq, -⟩ := List.lookup_eq_some_iff.mp hb
  have hmem : (b, h) ∈ l₁ ++ (a, h) :: l₂ := by
    rw [heq]
    exact List.mem_append_right _ List.mem_cons_self
  exact (Prod.ext_iff.mp (List.inj_on_of_nodup_map hl (List.mem_append_right _ List.mem_cons_self) hmem rfl)).1

/-- The statistics of a tag hold what the tasks of the tag have counted. -/
theorem Inv.cells_eq (hs : s.Inv) {tag : Str} {h : Nat} (hfound : s.tags.lookup tag = some h) :
    s.cells h = ((s.tasks.filter (·.tag = tag)).map Task.counts).sum := by
  have hshare : ∀ t ∈ s.tasks, t.share h = if t.tag = tag then t.counts else 0 := by
    intro t ht
    unfold Task.share
    by_cases hstats : t.phase.stats = some h
    · have htag := eq_of_lookup_eq (hs.entries ▸ List.nodup_range) (hs.holds t ht h hstats) hfound
      rw [if_pos hstats, if_pos htag]
    · rw [if_neg hstats]
      split_ifs with htag
      · -- a task of the tag that holds no statistics yet
        have hnone : t.phase.stats = none := by
          by_contra hsome
          obtain ⟨h', hh'⟩ := Option.ne_none_iff_exists'.mp hsome
          have hsame := hs.holds t ht h' hh'
          rw [htag, hfound] at hsame
          exact hstats (Option.some.inj hsame ▸ hh')
        exact (Phase.counts_of_stats_eq_none hnone).symm
      · rfl
  rw [hs.balanced h, List.map_congr_left hshare, sum_map_ite]

/-- Without an entry, nothing has been counted. -/
theorem Inv.counts_of_lookup_eq_none (hs : s.Inv) {tag : Str} (hfree : s.tags.lookup tag = none) :
    ∀ t ∈ s.tasks.filter (·.tag = tag), t.counts = 0 := by
  intro t ht
  obtain ⟨ht, htag⟩ := List.mem_filter.mp ht
  refine Phase.counts_of_stats_eq_none ?_
  by_contra hsome
  obtain ⟨h, hh⟩ := Option.ne_none_iff_exists'.mp hsome
  have hfound := hs.holds t ht h hh
  rw [of_decide_eq_true htag, hfree] at hfound
  cases hfound

/-- The snapshot of a tag, with or without an entry. -/
theorem Inv.snapshot_eq (hs : s.Inv) (tag : Str) :
    (s.snapshot tag).getD 0 = ((s.tasks.filter (·.tag = tag)).map Task.counts).sum := by
  unfold snapshot
  cases hfound : s.tags.lookup tag with
  | some h => exact hs.cells_eq hfound
  | none =>
    rw [List.map_congr_left (hs.counts_of_lookup_eq_none hfound)]
    simp

/-- The sum over the registry is the sum over the tasks. -/
theorem Inv.globalSnapshot_eq (hs : s.Inv) : s.globalSnapshot = (s.tasks.map Task.counts).sum := by
  have hfold : s.globalSnapshot = ((List.range s.allocated).map s.cells).sum := by
    rw [← hs.entries, List.map_map, List.sum_eq_foldl, List.foldl_map]
    rfl
  have hshare : ∀ t ∈ s.tasks, ((List.range s.allocated).map t.share).sum = t.counts := by
    intro t ht
    cases hstats : t.phase.stats with
    | none =>
      have hzero : t.counts = 0 := Phase.counts_of_stats_eq_none hstats
      have hnone : ∀ i ∈ List.range s.allocated, t.share i = 0 := fun i _ => by simp [Task.share, hstats]
      rw [List.map_congr_left hnone, hzero]
      simp
    | some h =>
      have hmem : h ∈ List.range s.allocated := by
        rw [← hs.entries]
        obtain ⟨l₁, l₂, heq, -⟩ := List.lookup_eq_some_iff.mp (hs.holds t ht h hstats)
        rw [heq]
        exact List.mem_map_of_mem (List.mem_append_right _ List.mem_cons_self)
      have hone : ∀ i ∈ List.range s.allocated, t.share i = if i = h then t.counts else 0 := fun i _ => by
        simp only [Task.share, hstats, Option.some.injEq, eq_comm]
      rw [List.map_congr_left hone]
      exact sum_map_ite_eq List.nodup_range hmem t.counts
  rw [hfold, hs.balanced.sum_cells, List.map_congr_left hshare]

theorem sum_once (tasks : List (Task μ)) (q : Task μ → Bool) :
    (tasks.map fun t => once (q t)).sum = UInt64.ofNat (tasks.countP q) := by
  induction tasks with
  | nil => rfl
  | cons t tasks ih =>
    rw [List.map_cons, List.sum_cons, ih, List.countP_cons]
    cases q t with
    | true => simp [UInt64.ofNat_add, add_comm]
    | false => simp

/-- What the tasks have counted in `active` and `total` is how many are active, and how many are in the totals. -/
theorem sum_counts_active (tasks : List (Task μ)) (n : NetworkKind) :
    (tasks.map Task.counts).sum (.active n)
      = UInt64.ofNat (tasks.countP fun t => t.network = n && t.phase.isActive) := by
  rw [← sum_once, Pi.list_sum_apply, List.map_map]
  cases n <;> rfl

theorem sum_counts_total (tasks : List (Task μ)) (n : NetworkKind) :
    (tasks.map Task.counts).sum (.total n)
      = UInt64.ofNat (tasks.countP fun t => t.network = n && t.phase.isTotal) := by
  rw [← sum_once, Pi.list_sum_apply, List.map_map]
  cases n <;> rfl

/-- **The snapshots** in every state of every run: whichever task has built the statistics of a tag, they count the
    tasks that are active and all that have been counted, the bytes and the errors, and none twice; and so does the
    sum over the registry. -/
theorem stats_run {actions : List (Action μ)} (hrun : run step {} actions = some s) :
    (∀ tag, (s.snapshot tag).getD 0 = ((s.tasks.filter (·.tag = tag)).map Task.counts).sum) ∧
    s.globalSnapshot = (s.tasks.map Task.counts).sum ∧
    (∀ tag n, (s.snapshot tag).getD 0 (.active n)
      = UInt64.ofNat ((s.tasks.filter (·.tag = tag)).countP fun t => t.network = n && t.phase.isActive)) ∧
    ∀ tag n, (s.snapshot tag).getD 0 (.total n)
      = UInt64.ofNat ((s.tasks.filter (·.tag = tag)).countP fun t => t.network = n && t.phase.isTotal) := by
  have hs := inv_run hrun
  refine ⟨hs.snapshot_eq, hs.globalSnapshot_eq, fun tag n => ?_, fun tag n => ?_⟩
  · rw [hs.snapshot_eq, sum_counts_active]
  · rw [hs.snapshot_eq, sum_counts_total]

/-- Two tasks that look for the same statistics before either has built them; the first one ends. -/
def raceForStats : List (Action Unit) :=
  [.spawn .tcp [] none, .spawn .tcp [] none, .task 0 .read, .task 1 .read, .task 0 .insert, .task 1 .insert,
    .task 0 .count, .task 1 .count, .task 0 .count, .task 0 .handle, .task 0 (.finish .error), .task 0 .count,
    .task 0 .untrack, .task 0 .count]

theorem stats_run_race : ∃ s : Ledger Unit, run step {} raceForStats = some s ∧
    s.globalSnapshot = (s.tasks.map Task.counts).sum := by
  obtain ⟨s, hrun⟩ := Option.isSome_iff_exists.mp (by decide : (run step {} raceForStats).isSome = true)
  exact ⟨s, hrun, (stats_run hrun).2.1⟩

/-! ### The table of connections -/

/-- What an operation does to the table: a number is taken, an entry is made for it, or removed; or nothing. -/
theorem Moves.tracker (h : Moves s t p u) :
    (u.conns = s.conns ∧ u.nextId = s.nextId ∧ p.id = t.phase.id ∧ p.registered = t.phase.registered) ∨
    (u.conns = s.conns ∧ u.nextId = s.nextId + 1 ∧ p.id = some (UInt64.ofNat s.nextId) ∧ p.registered = none ∧
      t.phase.registered = none) ∨
    (∃ id, u.conns = Function.update s.conns id t.info ∧ u.nextId = s.nextId ∧ t.phase.id = some id ∧
      p.id = some id ∧ p.registered = some id ∧ t.phase.registered = none) ∨
    ∃ id, u.conns = Function.update s.conns id none ∧ u.nextId = s.nextId ∧ t.phase.registered = some id ∧
      p.id = none ∧ p.registered = none := by
  have hsame {q : Phase} (hphase : t.phase = q) (hconns : u.conns = s.conns) (hnext : u.nextId = s.nextId)
      (hid : p.id = q.id) (hregistered : p.registered = q.registered) :
      u.conns = s.conns ∧ u.nextId = s.nextId ∧ p.id = t.phase.id ∧ p.registered = t.phase.registered := by
    rw [hphase]
    exact ⟨hconns, hnext, hid, hregistered⟩
  cases h with
  | found hphase _ => rcases hphase with h | h <;> exact .inl (hsame h rfl rfl rfl rfl)
  | missed h => exact .inl (hsame h rfl rfl rfl rfl)
  | inserted h _ => exact .inl (hsame h rfl rfl rfl rfl)
  | counted hcount =>
    obtain ⟨h, -, -, rfl⟩ | ⟨h, -, -, rfl⟩ | ⟨id, down, h, -, rfl⟩ | ⟨id, up, h, -, rfl⟩ | ⟨id, h, -, -, rfl⟩ |
      ⟨r, h, -, -, rfl⟩ := Phase.count_cases hcount
    all_goals exact .inl (hsame h rfl rfl rfl rfl)
  | numbered h => exact .inr (.inl ⟨rfl, rfl, rfl, rfl, by rw [h]; rfl⟩)
  | registered h hinfo =>
    exact .inr (.inr (.inl ⟨_, by rw [hinfo], rfl, by rw [h]; rfl, rfl, rfl, by rw [h]; rfl⟩))
  | handled h => exact .inl (hsame h rfl rfl rfl rfl)
  | finished h => exact .inl (hsame h rfl rfl rfl rfl)
  | quiet h => exact .inl (hsame h rfl rfl rfl rfl)
  | untracked h => exact .inr (.inr (.inr ⟨_, rfl, rfl, by rw [h]; rfl, rfl, rfl⟩))
  | closed h => exact .inl (hsame h rfl rfl rfl rfl)

/-- The numbers of the tasks, those that they are in the table with, and what they are registered as. -/
def number (s : Ledger μ) (k : Nat) : Option UInt64 := s.tasks[k]?.bind (·.phase.id)
def entry (s : Ledger μ) (k : Nat) : Option UInt64 := s.tasks[k]?.bind (·.phase.registered)
def info (s : Ledger μ) (k : Nat) : Option μ := s.tasks[k]?.bind (·.info)

/-- **The invariant** of the table, while the numbers do not start over. -/
structure Tracked (deleted : UInt64 → Prop) (s : Ledger μ) : Prop where
  consistent : Consistent s.number s.entry s.info s.conns deleted
  fresh : ∀ k id, s.number k = some id → id.toNat < s.nextId

variable {deleted : UInt64 → Prop}

theorem tracked_start : ({} : Ledger μ).Tracked deleted where
  consistent := consistent_start
  fresh k id h := by cases h

/-- A task is changed, and the others are not. -/
theorem bind_getElem?_set {α : Type} {tasks : List (Task μ)} {k : Nat} {t : Task μ} (hk : tasks[k]? = some t)
    (t' : Task μ) (f : Task μ → Option α) :
    (fun j => (tasks.set k t')[j]?.bind f) = Function.update (fun j => tasks[j]?.bind f) k (f t') := by
  funext j
  rw [List.getElem?_set, Function.update_apply]
  by_cases hj : j = k
  · rw [if_pos hj.symm, if_pos hj, if_pos (List.getElem?_eq_some_iff.mp hk).1, Option.bind_some]
  · rw [if_neg (Ne.symm hj), if_neg hj]

/-- The step lemma, for an operation of a task. -/
theorem tracked_move {k : Nat} (hs : s.Tracked deleted) (hk : s.tasks[k]? = some t) (hmoves : Moves s t p u)
    (hbound : u.nextId ≤ 2 ^ 64) :
    ({ u with tasks := s.tasks.set k { t with phase := p } } : Ledger μ).Tracked deleted := by
  have hnumber : ({ u with tasks := s.tasks.set k { t with phase := p } } : Ledger μ).number
      = Function.update s.number k p.id := bind_getElem?_set hk _ (·.phase.id)
  have hentry : ({ u with tasks := s.tasks.set k { t with phase := p } } : Ledger μ).entry
      = Function.update s.entry k p.registered := bind_getElem?_set hk _ (·.phase.registered)
  have hinfo : ({ u with tasks := s.tasks.set k { t with phase := p } } : Ledger μ).info = s.info := by
    refine (bind_getElem?_set hk _ (·.info)).trans (Function.update_eq_self_iff.mpr ?_)
    rw [hk, Option.bind_some]
  have hid : s.number k = t.phase.id := by rw [number, hk, Option.bind_some]
  have hreg : s.entry k = t.phase.registered := by rw [entry, hk, Option.bind_some]
  have hstep : Consistent (Function.update s.number k p.id) (Function.update s.entry k p.registered) s.info u.conns
      deleted ∧ ∀ j id, Function.update s.number k p.id j = some id → id.toNat < u.nextId := by
    obtain ⟨hconns, hnext, hid', hreg'⟩ | ⟨hconns, hnext, hid', hreg', hnone⟩ |
      ⟨id, hconns, hnext, hnum, hid', hreg', hnone⟩ | ⟨id, hconns, hnext, hin, hid', hreg'⟩ := hmoves.tracker
    · -- the table is left as it is, and so are the numbers
      rw [hid', hreg', ← hid, ← hreg, Function.update_eq_self, Function.update_eq_self, hconns, hnext]
      exact ⟨hs.consistent, hs.fresh⟩
    · -- the next number is taken
      have hlt : s.nextId < 2 ^ 64 := by omega
      have hval : (UInt64.ofNat s.nextId).toNat = s.nextId := UInt64.toNat_ofNat_of_lt hlt
      rw [hreg', ← hnone, ← hreg, Function.update_eq_self, hid', hconns, hnext]
      refine ⟨hs.consistent.take (hreg.trans hnone) fun j hj => ?_, fun j id hj => ?_⟩
      · exact absurd (hs.fresh j _ hj) (by omega)
      · rw [Function.update_apply] at hj
        split_ifs at hj
        · rw [← Option.some.inj hj, hval]
          exact Nat.lt_succ_self _
        · exact Nat.lt_succ_of_lt (hs.fresh j id hj)
    · -- the task is entered
      have hinfo' : s.info k = t.info := by rw [info, hk, Option.bind_some]
      rw [hid', ← hnum, ← hid, Function.update_eq_self, hreg', hconns, hnext, ← hinfo']
      exact ⟨hs.consistent.enter (hid.trans hnum) (hreg.trans hnone), hs.fresh⟩
    · -- its entry is removed
      rw [hid', hreg', hconns, hnext]
      refine ⟨hs.consistent.leave (hreg.trans hin), fun j id hj => ?_⟩
      rw [Function.update_apply] at hj
      split_ifs at hj
      exact hs.fresh j id hj
  constructor
  · rw [hnumber, hentry, hinfo]
    exact hstep.1
  · rw [hnumber]
    exact hstep.2

/-- The numbers only grow, so that one bound at the end of a run is a bound all along it. -/
theorem nextId_step {a : Action μ} (h : s.step a = some s') : s.nextId ≤ s'.nextId := by
  obtain ⟨network, tag, info, rfl⟩ | ⟨k, t, p, u, -, hmoves, rfl⟩ | ⟨id, -, rfl⟩ := step_cases h
  · exact le_rfl
  · obtain ⟨-, hnext, -⟩ | ⟨-, hnext, -⟩ | ⟨id, -, hnext, -⟩ | ⟨id, -, hnext, -⟩ := hmoves.tracker
    all_goals
      show s.nextId ≤ u.nextId
      omega
  · exact le_rfl

/-- A new task has no number yet. -/
theorem bind_getElem?_concat {α : Type} {tasks : List (Task μ)} {t : Task μ} {f : Task μ → Option α} (hf : f t = none) :
    (fun j : Nat => (tasks ++ [t])[j]?.bind f) = fun j => tasks[j]?.bind f := by
  funext j
  rcases Nat.lt_trichotomy j tasks.length with hj | rfl | hj
  · rw [List.getElem?_append_left hj]
  · simp [hf]
  · rw [List.getElem?_eq_none (by simp; omega), List.getElem?_eq_none (by omega)]

/-- The step lemma for the table, for as long as the numbers do not start over. -/
theorem tracked_step {a : Action μ} (h : s.step a = some s') (hdeleted : ∀ id, a = .delete id → deleted id)
    (hs : s.nextId ≤ 2 ^ 64 → s.Tracked deleted) : s'.nextId ≤ 2 ^ 64 → s'.Tracked deleted := by
  intro hbound
  have hs := hs ((nextId_step h).trans hbound)
  obtain ⟨network, tag, info, rfl⟩ | ⟨k, t, p, u, hk, hmoves, rfl⟩ | ⟨id, ha, rfl⟩ := step_cases h
  · have hnumber : ({ s with tasks := s.tasks ++ [{ network, tag, info }] } : Ledger μ).number = s.number :=
      bind_getElem?_concat rfl
    have hentry : ({ s with tasks := s.tasks ++ [{ network, tag, info }] } : Ledger μ).entry = s.entry :=
      bind_getElem?_concat rfl
    refine ⟨?_, fun k id hk => hs.fresh k id (hnumber ▸ hk)⟩
    rw [hnumber, hentry]
    refine hs.consistent.congr_info fun k id hk => ?_
    obtain ⟨t, ht, -⟩ := Option.bind_eq_some_iff.mp hk
    have hlt := (List.getElem?_eq_some_iff.mp ht).1
    show (s.tasks ++ [_])[k]?.bind _ = s.tasks[k]?.bind _
    rw [List.getElem?_append_left hlt]
  · exact tracked_move hs hk hmoves hbound
  · exact ⟨hs.consistent.delete (hdeleted id ha), hs.fresh⟩

/-- **The table of connections** in every state of every run, while the numbers do not start over: no two
    connections have one number, and under a number that was not deleted the table has what is registered under it,
    until the connection is done. -/
theorem tracker_run {actions : List (Action μ)} (hrun : run step {} actions = some s) (hbound : s.nextId ≤ 2 ^ 64) :
    (∀ j k id, s.number j = some id → s.number k = some id → j = k) ∧
    (∀ id info, s.conns id = some info → ∃ k, s.entry k = some id ∧ s.info k = some info) ∧
    ∀ id, .delete id ∉ actions →
      ∀ info, s.conns id = some info ↔ ∃ k, s.entry k = some id ∧ s.info k = some info := by
  have hguard : Guarded step (fun (_ : Ledger μ) a => a ∈ actions) {} actions :=
    guarded_of_forall (fun a ha _ => ha) _
  have htracked : s.nextId ≤ 2 ^ 64 → s.Tracked fun id => .delete id ∈ actions :=
    invariant_of_run (fun _ _ _ h ha hs => tracked_step h (fun id hid => hid ▸ ha) hs) hrun hguard
      fun _ => tracked_start
  have hs := (htracked hbound).consistent
  exact ⟨hs.distinct, hs.listed, fun id hid info => hs.table_iff hid info⟩

/-- Three connections, two of them built at once: the second one is numbered first, the API deletes the entry of the
    first one while it is open, and the second one is done. -/
def threeConnections : List (Action Nat) :=
  [.spawn .tcp [] (some 10), .spawn .udp [] (some 20), .task 0 .read, .task 1 .read, .task 1 .insert, .task 0 .insert,
    .task 0 .count, .task 1 .count, .task 1 .count, .task 0 .count, .task 1 .number, .task 0 .number,
    .task 0 .register, .task 1 .register, .spawn .tcp [] (some 30), .task 2 .read, .task 2 .count,
    .task 1 (.finish .quiet), .task 2 .count, .delete 2, .task 2 .number, .task 1 .untrack, .task 2 .register,
    .task 1 .count]

/-- What the table has behind them: the third connection, and nothing under the numbers of the others, of which the
    first one is still open. -/
def listsThird (s : Ledger Nat) : Bool :=
  s.conns 1 = none && s.conns 2 = none && s.conns 3 = some 30 && s.number 0 = some 2 && s.entry 0 = some 2 &&
    decide (s.nextId ≤ 2 ^ 64)

theorem tracker_run_three :
    ∃ s, run step {} threeConnections = some s ∧ s.conns 2 = none ∧ s.entry 0 = some 2 ∧
      (∃ k, s.entry k = some 3 ∧ s.info k = some 30) ∧ (¬ ∃ k, s.entry k = some 1 ∧ s.info k = some 20) ∧
      ∀ k, s.number k = some 2 → k = 0 := by
  obtain ⟨s, hrun, hlists⟩ :=
    (Option.any_eq_true listsThird (run step {} threeConnections)).mp (by decide)
  simp only [listsThird, Bool.and_eq_true, decide_eq_true_eq] at hlists
  obtain ⟨⟨⟨⟨⟨hdone, hdeleted⟩, hlisted⟩, hnumber⟩, hopen⟩, hbound⟩ := hlists
  obtain ⟨hdistinct, -, htable⟩ := tracker_run hrun hbound
  have hthird : ∃ k, s.entry k = some 3 ∧ s.info k = some 30 :=
    (htable 3 (by simp [threeConnections]) 30).mp hlisted
  have hsecond : ¬ ∃ k, s.entry k = some 1 ∧ s.info k = some 20 := by
    rw [← htable 1 (by simp [threeConnections]) 20, hdone]
    exact nofun
  exact ⟨s, hrun, hdeleted, hopen, hthird, hsecond, fun k hk => hdistinct k 0 2 hk hnumber⟩

end Ledger

end Reflex.Stats
