import Mathlib.Logic.Function.Basic
import Reflex.Dns.Wire

namespace Reflex.Dns

open RustStd

/-!
# DNS — the cache and its in-flight table

Keys of `dns/cache.rs` and the table that keeps concurrent queries for one key down to one: the
first caller leads, later ones wait for what it broadcasts.

* `cacheKey` — the key `DnsResolver::handle` computes for a message, `cacheKey_eq_of_question_eq`;
* `Inflight.remove`, `Inflight.publish` — the two halves of `complete_inflight`, which sends after it has released
  the table (`completeInflight_eq`);
* `Inflight.Inv` — a registered sender belongs to an open channel of its key, `inv_tryLeadInflight`
  and `inv_completeInflight`.
-/

/-! ### Keys -/

/-- `CacheKey`. -/
structure CacheKey where
  transport : Str
  qname : Str
  qtype : UInt16
  deriving DecidableEq

/-- `CacheKey::new`. -/
def CacheKey.new (transport qname : Str) (qtype : UInt16) : CacheKey :=
  ⟨transport, toAsciiLowercase qname, qtype⟩

/-- The key `DnsResolver::handle` uses for a message: a missing name is empty, a missing type is
    `A`. -/
def cacheKey (transport : Str) (msg : Bytes) : CacheKey :=
  CacheKey.new transport ((extractQname msg).getD []) ((extractQtype msg).getD 1)

/-- Messages with one question have one key, whatever else is in them. -/
theorem cacheKey_eq_of_question_eq {m r : Bytes} (h : question r = question m) (transport : Str) :
    cacheKey transport r = cacheKey transport m := by
  rw [cacheKey, cacheKey, extractQname_eq_of_question_eq h, extractQtype_eq_of_question_eq h]

/-- `CacheResult`. -/
inductive CacheResult where
  | hit (resp : Bytes)
  | stale (resp : Bytes)
  | miss

/-! ### Queries in flight -/

/-- What a `broadcast` channel of capacity one has seen: nothing yet, its one value, or its sender
    dropped without a value. -/
inductive ChannelState where
  | live
  | sent (resp : Bytes)
  | closed
  deriving DecidableEq

/-- A `broadcast` channel with the key it was registered under. -/
structure Channel where
  key : CacheKey
  state : ChannelState
  deriving DecidableEq

/-- The `inflight` table.  Channels are numbered and outlive their registration: the waiters hold
    receivers. -/
structure Inflight where
  senders : CacheKey → Option Nat
  channels : Nat → Option Channel
  next : Nat

/-- `InflightResult`. -/
inductive InflightResult where
  | leader
  | waiter (rx : Nat)

namespace Inflight

/-- The table at the start, with no call in flight and no channel. -/
def init : Inflight where
  senders := fun _ => none
  channels := fun _ => none
  next := 0

/-- `try_lead_inflight`. -/
def tryLeadInflight (f : Inflight) (key : CacheKey) : InflightResult × Inflight :=
  match f.senders key with
  | some tx => (.waiter tx, f)
  | none =>
      (.leader,
        { senders := Function.update f.senders key (some f.next)
          channels := Function.update f.channels f.next (some ⟨key, .live⟩)
          next := f.next + 1 })

/-- `complete_inflight`: the sender is removed, and sends the response or is dropped. -/
def completeInflight (f : Inflight) (key : CacheKey) (resp : Option Bytes) : Inflight :=
  match f.senders key with
  | none => f
  | some tx =>
      let state := match resp with
        | some r => .sent r
        | none => .closed
      { f with
        senders := Function.update f.senders key none
        channels := Function.update f.channels tx
          ((f.channels tx).map fun channel => { channel with state }) }

/-- The critical section of `complete_inflight`: the sender is taken out of the table. -/
def remove (f : Inflight) (key : CacheKey) : Option Nat × Inflight :=
  (f.senders key, { f with senders := Function.update f.senders key none })

/-- The rest of `complete_inflight`: the sender sends the response or is dropped. -/
def publish (f : Inflight) (tx : Option Nat) (resp : Option Bytes) : Inflight :=
  match tx with
  | none => f
  | some tx =>
      let state := match resp with
        | some r => .sent r
        | none => .closed
      { f with
        channels := Function.update f.channels tx
          ((f.channels tx).map fun channel => { channel with state }) }

/-- One after the other, the halves are the whole. -/
theorem completeInflight_eq (f : Inflight) (key : CacheKey) (resp : Option Bytes) :
    f.completeInflight key resp = (f.remove key).2.publish (f.remove key).1 resp := by
  unfold completeInflight remove publish
  rcases h : f.senders key with _ | tx
  · -- without a sender there is nothing to remove
    have hidle : Function.update f.senders key none = f.senders := by
      rw [← h]
      exact Function.update_eq_self key f.senders
    simp only [hidle]
  · rfl

/-- A registered sender belongs to an open channel of its key. -/
structure Inv (f : Inflight) : Prop where
  registered : ∀ key tx, f.senders key = some tx → f.channels tx = some ⟨key, .live⟩
  lt_next : ∀ rx channel, f.channels rx = some channel → rx < f.next

theorem inv_init : init.Inv := by
  constructor
  · intro key tx h
    cases h
  · intro rx channel h
    cases h

theorem inv_tryLeadInflight {f : Inflight} (h : f.Inv) (key : CacheKey) :
    (f.tryLeadInflight key).2.Inv := by
  unfold tryLeadInflight
  split
  case h_1 => exact h
  case h_2 =>
    constructor
    · intro key' tx htx
      simp only at htx ⊢
      by_cases hkey : key' = key
      · subst hkey
        rw [Function.update_self] at htx
        cases htx
        rw [Function.update_self]
      · rw [Function.update_of_ne hkey] at htx
        have hopen := h.registered key' tx htx
        rwa [Function.update_of_ne (Nat.ne_of_lt (h.lt_next tx _ hopen))]
    · intro rx channel hrx
      simp only at hrx ⊢
      by_cases hnext : rx = f.next
      · omega
      · rw [Function.update_of_ne hnext] at hrx
        have := h.lt_next rx channel hrx
        omega

/-- `try_lead_inflight` sends nothing: what a channel has behind it, it had before. -/
theorem sent_tryLeadInflight {f : Inflight} {key key' : CacheKey} {rx : Nat} {r : Bytes}
    (hrx : (f.tryLeadInflight key).2.channels rx = some ⟨key', .sent r⟩) :
    f.channels rx = some ⟨key', .sent r⟩ := by
  unfold tryLeadInflight at hrx
  split at hrx
  case h_1 => exact hrx
  case h_2 =>
    simp only at hrx
    by_cases hnext : rx = f.next
    · subst hnext
      rw [Function.update_self] at hrx
      cases hrx
    · rwa [Function.update_of_ne hnext] at hrx

/-- A channel that has a value after `complete_inflight` had it before, or was registered under the
    key and has the value of this call. -/
theorem sent_completeInflight {f : Inflight} (h : f.Inv) {key key' : CacheKey} {resp : Option Bytes}
    {rx : Nat} {r : Bytes}
    (hrx : (f.completeInflight key resp).channels rx = some ⟨key', .sent r⟩) :
    f.channels rx = some ⟨key', .sent r⟩ ∨ (key' = key ∧ resp = some r) := by
  unfold completeInflight at hrx
  split at hrx
  case h_1 => exact .inl hrx
  case h_2 tx htx =>
    simp only at hrx
    by_cases hrxtx : rx = tx
    · subst hrxtx
      rw [Function.update_self, h.registered key rx htx] at hrx
      cases resp with
      | none => simp at hrx
      | some r' =>
          simp only [Option.map_some, Option.some.injEq, Channel.mk.injEq,
            ChannelState.sent.injEq] at hrx
          exact .inr ⟨hrx.1.symm, congrArg some hrx.2⟩
    · rw [Function.update_of_ne hrxtx] at hrx
      exact .inl hrx

/-- The table without a sender: the channels that are still registered are open. -/
theorem inv_remove {f : Inflight} (h : f.Inv) (key : CacheKey) : (f.remove key).2.Inv := by
  refine ⟨fun key' tx htx => ?_, h.lt_next⟩
  by_cases hkey : key' = key
  · subst hkey
    have hnone : (f.remove key').2.senders key' = none := Function.update_self ..
    rw [hnone] at htx
    cases htx
  · have hother : (f.remove key).2.senders key' = f.senders key' := Function.update_of_ne hkey ..
    rw [hother] at htx
    exact h.registered key' tx htx

/-- A sender that is out of the table sends. -/
theorem inv_publish {f : Inflight} (h : f.Inv) {rx : Nat} {key : CacheKey}
    (hlive : f.channels rx = some ⟨key, .live⟩) (hremoved : f.senders key ≠ some rx)
    (result : Option Bytes) : (f.publish (some rx) result).Inv := by
  constructor
  · intro key' tx htx
    have htx' : f.senders key' = some tx := htx
    have hopen := h.registered key' tx htx'
    have hne : tx ≠ rx := by
      rintro rfl
      obtain rfl : key' = key := congrArg Channel.key (Option.some.inj (hopen.symm.trans hlive))
      exact hremoved htx'
    exact (Function.update_of_ne hne ..).trans hopen
  · intro rx' channel hrx'
    by_cases hne : rx' = rx
    · exact hne ▸ h.lt_next rx _ hlive
    · have hother : (f.publish (some rx) result).channels rx' = f.channels rx' :=
        Function.update_of_ne hne ..
      exact h.lt_next rx' channel (hother.symm.trans hrx')

theorem inv_completeInflight {f : Inflight} (h : f.Inv) (key : CacheKey) (resp : Option Bytes) :
    (f.completeInflight key resp).Inv := by
  rw [completeInflight_eq]
  cases hsender : (f.remove key).1 with
  | none => exact inv_remove h key
  | some tx =>
    have hlive : (f.remove key).2.channels tx = some ⟨key, .live⟩ := h.registered key tx hsender
    have hnone : (f.remove key).2.senders key = none := Function.update_self ..
    have hremoved : (f.remove key).2.senders key ≠ some tx := by
      rw [hnone]
      exact nofun
    exact inv_publish (inv_remove h key) hlive hremoved resp

end Inflight

end Reflex.Dns
