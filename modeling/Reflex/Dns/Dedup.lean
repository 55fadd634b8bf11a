import Mathlib.Logic.Relation
import Reflex.Dns.Handle
import Reflex.Lib.Transition

namespace Reflex.Dns

open RustStd Relation

/-!
# DNS — one query in flight for each key

The part of `handle` that keeps concurrent calls for one key down to one query: the first call leads
and broadcasts its result, the others wait for it.  `Dedup` is the view of the system that matters
here, and `Dedup.Step` says what any step of the system does to it.

* `dedup_step` — a step of the system is a sequence of steps of the view;
* `Dedup.Inv` — each channel is led by one call, and its state follows that call;
* `inflight_dedup` — in every interleaving a key is registered exactly while one leader is at work,
  and every waiter gets what its own leader got.
-/

/-! ### The view -/

/-- What the state says about the calls and the in-flight table. -/
structure Dedup where
  inflight : Inflight
  calls : Nat → Option Handler.Call
  leaderOf : Nat → Option Nat
  received : List (Nat × Nat × Option Bytes)

/-- What the deduplication is about in a state of the system: table, calls, leaders and receipts. -/
def Handler.dedup {υ : Type} (s : Handler υ) : Dedup :=
  ⟨s.inflight, s.calls, s.leaderOf, s.received⟩

namespace Handler

/-- A leader that has not yet called `complete_inflight`. -/
def Stage.leads : Stage → Bool
  | .query .leader | .store .leader _ | .complete _ => true
  | _ => false

/-- A call that has nothing to do with the table, or not yet. -/
def Stage.aside : Stage → Bool
  | .lookup | .lead | .refreshed => true
  | .query purpose | .store purpose _ => decide (purpose ≠ .leader)
  | _ => false

end Handler

/-- What a waiter finds once the leader has its result: a value, or a closed channel. -/
def ChannelState.ofResult : Option Bytes → ChannelState
  | some resp => .sent resp
  | none => .closed

namespace Dedup

/-- Call `i` is a leader for `key` that has not yet called `complete_inflight`. -/
def Leads (d : Dedup) (i : Nat) (key : CacheKey) : Prop :=
  ∃ call, d.calls i = some call ∧ call.stage.leads = true ∧ call.key = key

/-- Call `i` is now at `stage`. -/
def move (d : Dedup) (i : Nat) (call : Handler.Call) (stage : Handler.Stage) : Dedup :=
  { d with calls := Function.update d.calls i (some { call with stage }) }

/-- What a step of the system may do to the view. -/
inductive Step (d : Dedup) : Dedup → Prop
  | spawn (i : Nat) (call : Handler.Call) (hnew : d.calls i = none) (haside : call.stage.aside = true) :
      Step d { d with calls := Function.update d.calls i (some call) }
  | aside (i : Nat) (call : Handler.Call) (stage : Handler.Stage) (hcall : d.calls i = some call)
      (hfrom : call.stage.aside = true)
      (hto : stage.aside = true ∨ ∃ result, stage = .done result) :
      Step d (d.move i call stage)
  | lead (i : Nat) (call : Handler.Call) (hcall : d.calls i = some call) (hstage : call.stage = .lead)
      (hfree : d.inflight.senders call.key = none) :
      Step d ({ d with
        inflight := (d.inflight.tryLeadInflight call.key).2
        leaderOf := Function.update d.leaderOf d.inflight.next (some i) }.move i call
          (.query .leader))
  | join (i : Nat) (call : Handler.Call) (rx : Nat) (hcall : d.calls i = some call)
      (hstage : call.stage = .lead) (htaken : d.inflight.senders call.key = some rx) :
      Step d (d.move i call (.wait rx))
  | advance (i : Nat) (call : Handler.Call) (stage : Handler.Stage) (hcall : d.calls i = some call)
      (hfrom : call.stage.leads = true) (hto : stage.leads = true) :
      Step d (d.move i call stage)
  | complete (i : Nat) (call : Handler.Call) (result : Option Bytes) (hcall : d.calls i = some call)
      (hstage : call.stage = .complete result) :
      Step d ({ d with inflight := (d.inflight.remove call.key).2 }.move i call
        (.send (d.inflight.remove call.key).1 result))
  | send (i : Nat) (call : Handler.Call) (tx : Option Nat) (result : Option Bytes)
      (hcall : d.calls i = some call) (hstage : call.stage = .send tx result) :
      Step d ({ d with inflight := d.inflight.publish tx result }.move i call (.done result))
  | recv (i : Nat) (call : Handler.Call) (rx : Nat) (key : CacheKey) (result : Option Bytes)
      (stage : Handler.Stage) (hcall : d.calls i = some call) (hstage : call.stage = .wait rx)
      (hready : d.inflight.channels rx = some ⟨key, .ofResult result⟩)
      (hto : stage.aside = true ∨ ∃ result, stage = .done result) :
      Step d ({ d with received := (i, rx, result) :: d.received }.move i call stage)

end Dedup

/-! ### Steps of the system -/

namespace Handler

variable {υ ι : Type} {cfg : Setup υ ι} {s s' : Handler υ}

@[simp] theorem dedup_move (i : Nat) (call : Call) (stage : Stage) :
    (s.move i call stage).dedup = s.dedup.move i call stage := rfl

@[simp] theorem dedup_finish (i : Nat) (call : Call) (result : Option Bytes) :
    (s.finish i call result).dedup = s.dedup.move i call (.done result) := by
  cases result <;> rfl

theorem dedup_spawn {i : Nat} {call : Call} (haside : call.stage.aside = true)
    (h : s.spawn i call = some s') : Dedup.Step s.dedup s'.dedup := by
  obtain ⟨hnew, rfl⟩ := spawn_cases h
  exact .spawn i call hnew haside

/-- A call that takes no part in the table of calls in flight returns, which is a step aside in the abstract
    system. -/
theorem dedup_finish_aside (t : Handler υ) {i : Nat} {call : Call} (hcall : s.calls i = some call)
    (hstage : call.stage.aside = true) (ht : t.dedup = s.dedup) (result : Option Bytes) :
    Dedup.Step s.dedup (t.finish i call result).dedup := by
  rw [dedup_finish, ht]
  exact .aside i call _ hcall hstage (.inr ⟨result, rfl⟩)

theorem dedup_lookup {i j : Nat} (h : s.lookup cfg i j = some s') :
    ReflTransGen Dedup.Step s.dedup s'.dedup := by
  obtain ⟨call, result, cache, hcall, hstage, -, hnext⟩ := lookup_cases h
  have haside : call.stage.aside = true := by rw [hstage]; rfl
  have hfinish := dedup_finish_aside { s with cache } hcall haside rfl
  rcases hnext with ⟨resp, -, rfl⟩ | ⟨resp, -, hspawn⟩ | ⟨-, rfl⟩
  · exact .single (hfinish _)
  · -- the call returns, then the refresh is spawned
    exact .tail (.single (hfinish _)) (dedup_spawn rfl hspawn)
  · exact .single (.aside i call _ hcall haside (.inl rfl))

theorem dedup_lead {i : Nat} (h : s.lead i = some s') : Dedup.Step s.dedup s'.dedup := by
  obtain ⟨call, hcall, hstage, ⟨hfree, rfl⟩ | ⟨rx, htaken, rfl⟩⟩ := lead_cases h
  · exact .lead i call hcall hstage hfree
  · exact .join i call rx hcall hstage htaken

theorem dedup_recv {i : Nat} (h : s.recv i = some s') : Dedup.Step s.dedup s'.dedup := by
  obtain ⟨call, rx, key, hcall, hstage, ⟨resp, hsent, rfl⟩ | ⟨hclosed, rfl⟩⟩ := recv_cases h
  · rw [dedup_finish]
    exact .recv i call rx key (some resp) _ hcall hstage hsent (.inr ⟨_, rfl⟩)
  · exact .recv i call rx key none _ hcall hstage hclosed (.inl rfl)

theorem dedup_respond {i : Nat} {input : ι} (h : s.respond cfg i input = some s') :
    Dedup.Step s.dedup s'.dedup := by
  obtain ⟨call, purpose, up, result, hcall, hstage, -, hnext⟩ := respond_cases h
  rcases hnext with ⟨hpurpose, rfl⟩ | ⟨rfl, -, rfl⟩ | ⟨rfl, -, rfl⟩ | ⟨resp, -, -, rfl⟩
  · refine dedup_finish_aside { s with up } hcall ?_ rfl result
    rcases hpurpose with rfl | ⟨rfl, -⟩
    · rw [hstage]
      rfl
    · rw [hstage]
      rfl
  · exact .advance i call _ hcall (by rw [hstage]; rfl) rfl
  · exact .aside i call _ hcall (by rw [hstage]; rfl) (.inl rfl)
  · cases purpose with
    | leader => exact .advance i call _ hcall (by rw [hstage]; rfl) rfl
    | retry => exact .aside i call _ hcall (by rw [hstage]; rfl) (.inl rfl)
    | refresh => exact .aside i call _ hcall (by rw [hstage]; rfl) (.inl rfl)
    | direct => exact .aside i call _ hcall (by rw [hstage]; rfl) (.inl rfl)

@[simp] theorem dedup_cacheSet (key : CacheKey) (resp : Bytes) :
    (s.cacheSet cfg key resp).dedup = s.dedup := by
  unfold cacheSet
  split <;> rfl

theorem dedup_store {i : Nat} (h : s.store cfg i = some s') : Dedup.Step s.dedup s'.dedup := by
  obtain ⟨call, purpose, resp, hcall, hstage, hnext⟩ := store_cases h
  rcases hnext with ⟨rfl, rfl⟩ | ⟨rfl, rfl⟩ | ⟨hpurpose, rfl⟩
  · rw [dedup_move, dedup_cacheSet]
    exact .advance i call _ hcall (by rw [hstage]; rfl) rfl
  · rw [dedup_move, dedup_cacheSet]
    exact .aside i call _ hcall (by rw [hstage]; rfl) (.inl rfl)
  · refine dedup_finish_aside _ hcall ?_ (dedup_cacheSet ..) _
    rcases hpurpose with rfl | rfl
    · rw [hstage]
      rfl
    · rw [hstage]
      rfl

theorem dedup_complete {i : Nat} (h : s.complete i = some s') : Dedup.Step s.dedup s'.dedup := by
  obtain ⟨call, result, hcall, hstage, rfl⟩ := complete_cases h
  exact .complete i call result hcall hstage

theorem dedup_send {i : Nat} (h : s.send i = some s') : Dedup.Step s.dedup s'.dedup := by
  obtain ⟨call, tx, result, hcall, hstage, rfl⟩ := send_cases h
  rw [dedup_finish]
  exact .send i call tx result hcall hstage

/-- **One step of the system** is some steps of the table, or none, so whatever these keep holds in every run of
    `handle`. -/
theorem dedup_step {a : Action ι} (h : s.step cfg a = some s') :
    ReflTransGen Dedup.Step s.dedup s'.dedup := by
  cases a with
  | handle i transport msg disableCache =>
    refine .single (dedup_spawn ?_ h)
    cases disableCache <;> rfl
  | lookup i j => exact dedup_lookup h
  | lead i => exact .single (dedup_lead h)
  | recv i => exact .single (dedup_recv h)
  | respond i input => exact .single (dedup_respond h)
  | store i => exact .single (dedup_store h)
  | complete i => exact .single (dedup_complete h)
  | send i => exact .single (dedup_send h)
  | tick nanos =>
    obtain rfl := Option.some.inj h
    exact .refl
  | evict key =>
    obtain rfl := Option.some.inj h
    exact .refl
  | flush ok =>
    obtain rfl := Option.some.inj h
    exact .refl
  | purge key =>
    obtain rfl := Option.some.inj h
    exact .refl

end Handler

namespace Dedup

open Handler (Call)

variable {d d' : Dedup}

/-! ### The invariant -/

/-- How far the leader of channel `rx` is, and what the channel has seen; `sender` is what the table
    has for the key. -/
inductive Progress (sender : Option Nat) (rx : Nat) : Handler.Stage → ChannelState → Prop
  | leading {stage : Handler.Stage} (hleads : stage.leads = true) (hsender : sender = some rx) :
      Progress sender rx stage .live
  | sending (result : Option Bytes) (hremoved : sender ≠ some rx) :
      Progress sender rx (.send (some rx) result) .live
  | returned (result : Option Bytes) : Progress sender rx (.done result) (.ofResult result)

/-- A channel that is not in the table follows its leader whatever else is there. -/
theorem Progress.of_ne {sender sender' : Option Nat} {rx : Nat} {stage : Handler.Stage}
    {state : ChannelState} (h : Progress sender rx stage state) (hsender : sender ≠ some rx)
    (hsender' : sender' ≠ some rx) : Progress sender' rx stage state := by
  cases h with
  | leading _ heq => exact absurd heq hsender
  | sending result _ => exact .sending result hsender'
  | returned result => exact .returned result

theorem Progress.sender_of_leads {sender : Option Nat} {rx : Nat} {stage : Handler.Stage}
    {state : ChannelState} (h : Progress sender rx stage state) (hleads : stage.leads = true) :
    sender = some rx := by
  cases h with
  | leading _ hsender => exact hsender
  | sending result hremoved => cases hleads
  | returned result => cases hleads

/-- A leader about to send has the channel in hand, open and no longer in the table. -/
theorem Progress.of_send {sender tx : Option Nat} {rx : Nat} {result : Option Bytes}
    {state : ChannelState} (h : Progress sender rx (.send tx result) state) :
    tx = some rx ∧ state = .live ∧ sender ≠ some rx := by
  cases h with
  | leading hleads _ => cases hleads
  | sending _ hremoved => exact ⟨rfl, rfl, hremoved⟩

theorem Progress.stage_ne_wait {sender : Option Nat} {rx rx' : Nat} {stage : Handler.Stage}
    {state : ChannelState} (h : Progress sender rx stage state) : stage ≠ .wait rx' := by
  rintro rfl
  cases h with
  | leading hleads _ => cases hleads

/-- The invariant of the abstract system: where the channel of a leader is, at each stage of its work, and what its
    waiters hold. -/
structure Inv (d : Dedup) : Prop where
  table : d.inflight.Inv
  /-- a leader at work has its channel in the table -/
  leading : ∀ i key, d.Leads i key → ∃ tx, d.inflight.senders key = some tx ∧ d.leaderOf tx = some i
  /-- a leader about to send has its channel in hand -/
  sending : ∀ i call tx result, d.calls i = some call → call.stage = .send tx result →
    ∃ rx, tx = some rx ∧ d.leaderOf rx = some i
  /-- a leader has a channel for its key, which follows it -/
  led : ∀ rx i, d.leaderOf rx = some i → ∃ call state, d.calls i = some call ∧
    d.inflight.channels rx = some ⟨call.key, state⟩ ∧ Progress (d.inflight.senders call.key) rx call.stage state
  /-- every channel has a leader -/
  owned : ∀ rx channel, d.inflight.channels rx = some channel → ∃ i, d.leaderOf rx = some i
  waiting : ∀ i call rx, d.calls i = some call → call.stage = .wait rx →
    ∃ state, d.inflight.channels rx = some ⟨call.key, state⟩
  received : ∀ i rx result, (i, rx, result) ∈ d.received →
    ∃ call, d.calls i = some call ∧ d.inflight.channels rx = some ⟨call.key, .ofResult result⟩

/-- What comes of a step outside the table. -/
theorem leads_eq_false {stage : Handler.Stage}
    (h : stage.aside = true ∨ ∃ result, stage = .done result) :
    stage.leads = false ∧ (∀ tx result, stage ≠ .send tx result) ∧ ∀ rx, stage ≠ .wait rx := by
  rcases h with haside | ⟨result, rfl⟩
  · cases stage with
    | query purpose => cases purpose <;> simp_all [Handler.Stage.leads, Handler.Stage.aside]
    | store purpose resp => cases purpose <;> simp_all [Handler.Stage.leads, Handler.Stage.aside]
    | _ => simp_all [Handler.Stage.leads, Handler.Stage.aside]
  · simp [Handler.Stage.leads]

/-- A leader has a channel for its key, which follows it. -/
theorem Inv.progress (h : d.Inv) {i rx : Nat} {call : Call} (hcall : d.calls i = some call)
    (hleader : d.leaderOf rx = some i) :
    ∃ state, d.inflight.channels rx = some ⟨call.key, state⟩ ∧
      Progress (d.inflight.senders call.key) rx call.stage state := by
  obtain ⟨call', state, hcall', hchannel, hprogress⟩ := h.led rx i hleader
  obtain rfl : call = call' := Option.some.inj (hcall.symm.trans hcall')
  exact ⟨state, hchannel, hprogress⟩

/-- A call that is aside or waits leads no channel. -/
theorem Inv.not_leader (h : d.Inv) {i : Nat} {call : Call} (hcall : d.calls i = some call)
    (hstage : call.stage.aside = true ∨ ∃ rx, call.stage = .wait rx) (rx : Nat) :
    d.leaderOf rx ≠ some i := by
  intro hleader
  obtain ⟨state, -, hprogress⟩ := h.progress hcall hleader
  rcases hstage with haside | ⟨rx', hwait⟩
  · generalize call.stage = stage at hprogress haside
    cases hprogress with
    | leading hleads _ =>
      rw [(leads_eq_false (.inl haside)).1] at hleads
      cases hleads
    | sending result _ => cases haside
    | returned result => cases haside
  · exact hprogress.stage_ne_wait hwait

theorem Inv.not_leader_new (h : d.Inv) {i : Nat} (hnew : d.calls i = none) (rx : Nat) :
    d.leaderOf rx ≠ some i := by
  intro hleader
  obtain ⟨call, state, hcall, -⟩ := h.led rx i hleader
  rw [hnew] at hcall
  cases hcall

/-- **A call that leads no channel** goes on to a stage outside the table, or waits for a channel of
    its key. -/
theorem Inv.update (h : d.Inv) {i : Nat} {call : Call} (hnot : ∀ rx, d.leaderOf rx ≠ some i)
    (hkey : ∀ old, d.calls i = some old → call.key = old.key) (hleads : call.stage.leads = false)
    (hsend : ∀ tx result, call.stage ≠ .send tx result)
    (hwait : ∀ rx, call.stage = .wait rx →
      ∃ state, d.inflight.channels rx = some ⟨call.key, state⟩) :
    ({ d with calls := Function.update d.calls i (some call) } : Dedup).Inv := by
  refine ⟨h.table, ?_, ?_, ?_, h.owned, ?_, ?_⟩
  · rintro j key ⟨c, hj, hcleads, hckey⟩
    rcases Transition.update_eq_some hj with ⟨rfl, rfl⟩ | ⟨-, hj⟩
    · rw [hleads] at hcleads
      cases hcleads
    · exact h.leading j key ⟨c, hj, hcleads, hckey⟩
  · intro j c tx result hj hstage
    rcases Transition.update_eq_some hj with ⟨rfl, rfl⟩ | ⟨-, hj⟩
    · exact absurd hstage (hsend tx result)
    · exact h.sending j c tx result hj hstage
  · intro rx j hleader
    have hji : j ≠ i := fun hji => hnot rx (hji ▸ hleader)
    obtain ⟨c, state, hc, hchannel, hprogress⟩ := h.led rx j hleader
    exact ⟨c, state, (Function.update_of_ne hji ..).trans hc, hchannel, hprogress⟩
  · intro j c rx hj hstage
    rcases Transition.update_eq_some hj with ⟨rfl, rfl⟩ | ⟨-, hj⟩
    · exact hwait rx hstage
    · exact h.waiting j c rx hj hstage
  · intro j rx result hmem
    obtain ⟨c, hc, hchannel⟩ := h.received j rx result hmem
    by_cases hji : j = i
    · subst hji
      refine ⟨call, Function.update_self .., ?_⟩
      rw [hkey c hc]
      exact hchannel
    · exact ⟨c, (Function.update_of_ne hji ..).trans hc, hchannel⟩

theorem Inv.move_aside (h : d.Inv) {i : Nat} {call : Call} {stage : Handler.Stage}
    (hcall : d.calls i = some call) (hfrom : call.stage.aside = true ∨ ∃ rx, call.stage = .wait rx)
    (hto : stage.aside = true ∨ ∃ result, stage = .done result) : (d.move i call stage).Inv := by
  obtain ⟨hleads, hsend, hwait⟩ := leads_eq_false hto
  refine h.update (h.not_leader hcall hfrom) ?_ hleads hsend fun rx hstage => ?_
  · intro old hold
    obtain rfl : call = old := Option.some.inj (hcall.symm.trans hold)
    rfl
  · exact absurd hstage (hwait rx)

/-! ### The steps of a leader -/

/-- A leader at work is the leader of the channel in the table. -/
theorem Inv.progress_of_leads (h : d.Inv) {i : Nat} {call : Call} (hcall : d.calls i = some call)
    (hleads : call.stage.leads = true) :
    ∃ tx, d.inflight.senders call.key = some tx ∧ d.leaderOf tx = some i ∧
      ∀ rx, d.leaderOf rx = some i → rx = tx := by
  obtain ⟨tx, hsender, hleader⟩ := h.leading i call.key ⟨call, hcall, hleads, rfl⟩
  refine ⟨tx, hsender, hleader, fun rx hrx => ?_⟩
  obtain ⟨state, -, hprogress⟩ := h.progress hcall hrx
  exact Option.some.inj ((hprogress.sender_of_leads hleads).symm.trans hsender)

/-- A move keeps every call and its key. -/
theorem exists_calls_move {i j : Nat} {call c : Call} (stage : Handler.Stage)
    (hcall : d.calls i = some call) (hc : d.calls j = some c) :
    ∃ c', (d.move i call stage).calls j = some c' ∧ c'.key = c.key := by
  by_cases hji : j = i
  · subst hji
    obtain rfl : call = c := Option.some.inj (hcall.symm.trans hc)
    exact ⟨{ call with stage }, Function.update_self .., rfl⟩
  · exact ⟨c, (Function.update_of_ne hji ..).trans hc, rfl⟩

/-- **A leader goes on.** The table may take out the sender of its channel `tx` and change the state
    of that channel, and nothing else. -/
theorem Inv.leader_moves (h : d.Inv) {i tx : Nat} {call : Call} {stage : Handler.Stage}
    {f : Inflight} {state : ChannelState} (hcall : d.calls i = some call)
    (hleader : d.leaderOf tx = some i) (hunique : ∀ rx, d.leaderOf rx = some i → rx = tx)
    (hlive : d.inflight.channels tx = some ⟨call.key, .live⟩) (hf : f.Inv)
    (hothers : ∀ rx, rx ≠ tx → f.channels rx = d.inflight.channels rx)
    (hchannel : f.channels tx = some ⟨call.key, state⟩)
    (hkeys : ∀ key, f.senders key = d.inflight.senders key ∨
      (d.inflight.senders key = some tx ∧ f.senders key = none))
    (hprogress : Progress (f.senders call.key) tx stage state) :
    ({ d with inflight := f }.move i call stage).Inv := by
  refine ⟨hf, ?_, ?_, ?_, ?_, ?_, ?_⟩
  · rintro j key ⟨c, hj, hleads, hkey⟩
    rcases Transition.update_eq_some hj with ⟨rfl, rfl⟩ | ⟨hji, hj⟩
    · subst hkey
      exact ⟨tx, hprogress.sender_of_leads hleads, hleader⟩
    · obtain ⟨tx', hsender, hleader'⟩ := h.leading j key ⟨c, hj, hleads, hkey⟩
      rcases hkeys key with hsame | ⟨htaken, -⟩
      · exact ⟨tx', hsame.trans hsender, hleader'⟩
      · -- the sender that was taken out is the one of call `i`
        obtain rfl : tx' = tx := Option.some.inj (hsender.symm.trans htaken)
        exact absurd (Option.some.inj (hleader'.symm.trans hleader)) hji
  · intro j c tx' result hj hstage
    rcases Transition.update_eq_some hj with ⟨rfl, rfl⟩ | ⟨hji, hj⟩
    · have hstage' : stage = .send tx' result := hstage
      rw [hstage'] at hprogress
      exact ⟨tx, hprogress.of_send.1, hleader⟩
    · exact h.sending j c tx' result hj hstage
  · intro rx j hleader'
    by_cases hji : j = i
    · subst hji
      obtain rfl := hunique rx hleader'
      exact ⟨{ call with stage }, state, Function.update_self .., hchannel, hprogress⟩
    · have hrx : rx ≠ tx := by
        rintro rfl
        exact hji (Option.some.inj (hleader'.symm.trans hleader))
      obtain ⟨c, st, hc, hch, hp⟩ := h.led rx j hleader'
      refine ⟨c, st, (Function.update_of_ne hji ..).trans hc, (hothers rx hrx).trans hch, ?_⟩
      rcases hkeys c.key with hsame | ⟨htaken, hnone⟩
      · show Progress (f.senders c.key) rx c.stage st
        rw [hsame]
        exact hp
      · -- the sender that was taken out is another one
        refine hp.of_ne ?_ ?_
        · rw [htaken]
          exact fun heq => hrx (Option.some.inj heq).symm
        · show f.senders c.key ≠ some rx
          rw [hnone]
          exact fun heq => (nomatch heq)
  · intro rx channel hrx
    by_cases hne : rx = tx
    · exact ⟨i, hne ▸ hleader⟩
    · exact h.owned rx channel ((hothers rx hne).symm.trans hrx)
  · intro j c rx hj hstage
    rcases Transition.update_eq_some hj with ⟨rfl, rfl⟩ | ⟨hji, hj⟩
    · exact absurd hstage hprogress.stage_ne_wait
    · obtain ⟨st, hst⟩ := h.waiting j c rx hj hstage
      by_cases hne : rx = tx
      · subst hne
        have hkey : c.key = call.key := congrArg Channel.key (Option.some.inj (hst.symm.trans hlive))
        exact ⟨state, by rw [hkey]; exact hchannel⟩
      · exact ⟨st, (hothers rx hne).trans hst⟩
  · intro j rx result hmem
    obtain ⟨c, hc, hch⟩ := h.received j rx result hmem
    have hne : rx ≠ tx := by
      rintro rfl
      -- the channel was open until now
      have := congrArg Channel.state (Option.some.inj (hch.symm.trans hlive))
      cases result <;> cases this
    obtain ⟨c', hc', hkey⟩ := exists_calls_move stage hcall hc
    exact ⟨c', hc', by rw [hkey]; exact (hothers rx hne).trans hch⟩

theorem Inv.move_leads (h : d.Inv) {i : Nat} {call : Call} {stage : Handler.Stage}
    (hcall : d.calls i = some call) (hfrom : call.stage.leads = true) (hto : stage.leads = true) :
    (d.move i call stage).Inv := by
  obtain ⟨tx, hsender, hleader, hunique⟩ := h.progress_of_leads hcall hfrom
  have hlive := h.table.registered call.key tx hsender
  exact h.leader_moves hcall hleader hunique hlive h.table (fun _ _ => rfl) hlive
    (fun _ => .inl rfl) (.leading hto hsender)

theorem Inv.complete (h : d.Inv) {i : Nat} {call : Call} {result : Option Bytes}
    (hcall : d.calls i = some call) (hstage : call.stage = .complete result) :
    ({ d with inflight := (d.inflight.remove call.key).2 }.move i call
      (.send (d.inflight.remove call.key).1 result)).Inv := by
  obtain ⟨tx, hsender, hleader, hunique⟩ := h.progress_of_leads hcall (by rw [hstage]; rfl)
  have hlive := h.table.registered call.key tx hsender
  have hnone : (d.inflight.remove call.key).2.senders call.key = none := Function.update_self ..
  have hfirst : (d.inflight.remove call.key).1 = some tx := hsender
  rw [hfirst]
  refine h.leader_moves hcall hleader hunique hlive (Inflight.inv_remove h.table call.key)
    (fun _ _ => rfl) hlive (fun key => ?_) ?_
  · by_cases hkey : key = call.key
    · exact .inr ⟨hkey ▸ hsender, hkey ▸ hnone⟩
    · exact .inl (Function.update_of_ne hkey ..)
  · rw [hnone]
    exact .sending result (by simp)

/-- The channel of a leader about to send is open, and no longer in the table. -/
theorem Inv.live_of_send (h : d.Inv) {i : Nat} {call : Call} {tx : Option Nat}
    {result : Option Bytes} (hcall : d.calls i = some call) (hstage : call.stage = .send tx result) :
    ∃ rx, tx = some rx ∧ d.leaderOf rx = some i ∧
      d.inflight.channels rx = some ⟨call.key, .live⟩ ∧ d.inflight.senders call.key ≠ some rx := by
  obtain ⟨rx, rfl, hleader⟩ := h.sending i call tx result hcall hstage
  obtain ⟨state, hchannel, hprogress⟩ := h.progress hcall hleader
  rw [hstage] at hprogress
  obtain ⟨-, rfl, hremoved⟩ := hprogress.of_send
  exact ⟨rx, rfl, hleader, hchannel, hremoved⟩

theorem publish_self {f : Inflight} {rx : Nat} {key : CacheKey}
    (hlive : f.channels rx = some ⟨key, .live⟩) (result : Option Bytes) :
    (f.publish (some rx) result).channels rx = some ⟨key, .ofResult result⟩ := by
  have hself : (f.publish (some rx) result).channels rx
      = (f.channels rx).map fun channel => { channel with state := .ofResult result } := by
    cases result <;> exact Function.update_self ..
  rw [hself, hlive]
  rfl

theorem Inv.send (h : d.Inv) {i : Nat} {call : Call} {tx : Option Nat} {result : Option Bytes}
    (hcall : d.calls i = some call) (hstage : call.stage = .send tx result) :
    ({ d with inflight := d.inflight.publish tx result }.move i call (.done result)).Inv := by
  obtain ⟨rx, rfl, hleader, hlive, hremoved⟩ := h.live_of_send hcall hstage
  refine h.leader_moves hcall hleader (fun rx' hrx' => ?_) hlive
    (Inflight.inv_publish h.table hlive hremoved result) (fun rx' hne => Function.update_of_ne hne ..)
    (publish_self hlive result) (fun _ => .inl rfl) (.returned result)
  -- a leader about to send has one channel, the one in its hand
  obtain ⟨state, -, hprogress⟩ := h.progress hcall hrx'
  rw [hstage] at hprogress
  exact (Option.some.inj hprogress.of_send.1).symm

/-- The table of a new leader: its key has the next channel, which is open. -/
theorem tryLeadInflight_register {f : Inflight} {key : CacheKey} (hfree : f.senders key = none) :
    (f.tryLeadInflight key).2.senders = Function.update f.senders key (some f.next) ∧
      (f.tryLeadInflight key).2.channels
        = Function.update f.channels f.next (some ⟨key, .live⟩) := by
  unfold Inflight.tryLeadInflight
  rw [hfree]
  exact ⟨rfl, rfl⟩

/-- A call becomes the leader of a new channel. -/
theorem Inv.lead (h : d.Inv) {i : Nat} {call : Call} (hcall : d.calls i = some call)
    (hstage : call.stage = .lead) (hfree : d.inflight.senders call.key = none) :
    ({ d with
        inflight := (d.inflight.tryLeadInflight call.key).2
        leaderOf := Function.update d.leaderOf d.inflight.next (some i) }.move i call
      (.query .leader)).Inv := by
  have hnot := h.not_leader hcall (.inl (by rw [hstage]; rfl))
  obtain ⟨hsenders, hchannels⟩ := tryLeadInflight_register hfree
  -- the old channels are those below `next`
  have hold : ∀ {rx : Nat} {channel : Channel}, d.inflight.channels rx = some channel →
      rx ≠ d.inflight.next := fun hrx => Nat.ne_of_lt (h.table.lt_next _ _ hrx)
  have hkeep : ∀ {rx : Nat} {channel : Channel}, d.inflight.channels rx = some channel →
      (d.inflight.tryLeadInflight call.key).2.channels rx = some channel := by
    intro rx channel hrx
    rw [hchannels, Function.update_of_ne (hold hrx)]
    exact hrx
  have hleaderOf : ∀ {rx : Nat} {channel : Channel}, d.inflight.channels rx = some channel →
      Function.update d.leaderOf d.inflight.next (some i) rx = d.leaderOf rx :=
    fun hrx => Function.update_of_ne (hold hrx) ..
  refine ⟨Inflight.inv_tryLeadInflight h.table call.key, ?_, ?_, ?_, ?_, ?_, ?_⟩
  · rintro j key ⟨c, hj, hleads, hkey⟩
    rcases Transition.update_eq_some hj with ⟨rfl, rfl⟩ | ⟨hji, hj⟩
    · subst hkey
      refine ⟨d.inflight.next, ?_, Function.update_self ..⟩
      show (d.inflight.tryLeadInflight call.key).2.senders call.key = _
      rw [hsenders, Function.update_self]
    · obtain ⟨tx, hsender, hleader⟩ := h.leading j key ⟨c, hj, hleads, hkey⟩
      have hne : key ≠ call.key := by
        rintro rfl
        rw [hfree] at hsender
        cases hsender
      refine ⟨tx, ?_, (hleaderOf (h.table.registered key tx hsender)).trans hleader⟩
      show (d.inflight.tryLeadInflight call.key).2.senders key = _
      rw [hsenders, Function.update_of_ne hne]
      exact hsender
  · intro j c tx result hj hsend
    rcases Transition.update_eq_some hj with ⟨rfl, rfl⟩ | ⟨hji, hj⟩
    · cases hsend
    · obtain ⟨rx, rfl, hleader, hlive, -⟩ := h.live_of_send hj hsend
      exact ⟨rx, rfl, (hleaderOf hlive).trans hleader⟩
  · intro rx j hleader
    by_cases hrx : rx = d.inflight.next
    · subst hrx
      have hself : Function.update d.leaderOf d.inflight.next (some i) d.inflight.next = some i :=
        Function.update_self ..
      obtain rfl : i = j := Option.some.inj (hself.symm.trans hleader)
      refine ⟨{ call with stage := .query .leader }, .live, Function.update_self .., ?_,
        .leading rfl ?_⟩
      · show (d.inflight.tryLeadInflight call.key).2.channels _ = _
        rw [hchannels, Function.update_self]
        rfl
      · show (d.inflight.tryLeadInflight call.key).2.senders call.key = _
        rw [hsenders, Function.update_self]
    · have hleader' : d.leaderOf rx = some j := (Function.update_of_ne hrx ..).symm.trans hleader
      have hji : j ≠ i := fun hji => hnot rx (hji ▸ hleader')
      obtain ⟨c, state, hc, hchannel, hprogress⟩ := h.led rx j hleader'
      refine ⟨c, state, (Function.update_of_ne hji ..).trans hc, hkeep hchannel, ?_⟩
      show Progress ((d.inflight.tryLeadInflight call.key).2.senders c.key) rx c.stage state
      by_cases hkey : c.key = call.key
      · -- the key was free, so the other leader of it has been taken out already
        rw [hsenders, hkey, Function.update_self]
        rw [hkey, hfree] at hprogress
        exact hprogress.of_ne (fun heq => (nomatch heq))
          (fun heq => hrx (Option.some.inj heq).symm)
      · rw [hsenders, Function.update_of_ne hkey]
        exact hprogress
  · intro rx channel hrx
    by_cases hne : rx = d.inflight.next
    · exact ⟨i, by rw [hne]; exact Function.update_self ..⟩
    · have hrx' : (d.inflight.tryLeadInflight call.key).2.channels rx = some channel := hrx
      rw [hchannels, Function.update_of_ne hne] at hrx'
      obtain ⟨j, hj⟩ := h.owned rx channel hrx'
      exact ⟨j, (hleaderOf hrx').trans hj⟩
  · intro j c rx hj hwait
    rcases Transition.update_eq_some hj with ⟨rfl, rfl⟩ | ⟨hji, hj⟩
    · cases hwait
    · obtain ⟨state, hstate⟩ := h.waiting j c rx hj hwait
      exact ⟨state, hkeep hstate⟩
  · intro j rx result hmem
    obtain ⟨c, hc, hchannel⟩ := h.received j rx result hmem
    obtain ⟨c', hc', hkey⟩ := exists_calls_move (.query .leader) hcall hc
    exact ⟨c', hc', by rw [hkey]; exact hkeep hchannel⟩

/-! ### Whole runs -/

theorem inv_init : (⟨Inflight.init, fun _ => none, fun _ => none, []⟩ : Dedup).Inv := by
  refine ⟨Inflight.inv_init, ?_, ?_, ?_, ?_, ?_, ?_⟩
  · rintro i key ⟨call, hcall, -⟩
    cases hcall
  · intro i call tx result hcall
    cases hcall
  · intro rx i hleader
    cases hleader
  · intro rx channel hrx
    cases hrx
  · intro i call rx hcall
    cases hcall
  · intro i rx result hmem
    cases hmem

theorem inv_step (h : d.Inv) (hstep : Step d d') : d'.Inv := by
  cases hstep with
  | spawn i call hnew haside =>
    obtain ⟨hleads, hsend, hwait⟩ := leads_eq_false (.inl haside)
    refine h.update (h.not_leader_new hnew) ?_ hleads hsend fun rx hstage => ?_
    · intro old hold
      rw [hnew] at hold
      cases hold
    · exact absurd hstage (hwait rx)
  | aside i call stage hcall hfrom hto => exact h.move_aside hcall (.inl hfrom) hto
  | lead i call hcall hstage hfree => exact h.lead hcall hstage hfree
  | join i call rx hcall hstage htaken =>
    refine h.update (h.not_leader hcall (.inl (by rw [hstage]; rfl))) ?_ rfl (by simp) ?_
    · intro old hold
      obtain rfl : call = old := Option.some.inj (hcall.symm.trans hold)
      rfl
    · rintro rx' hrx'
      obtain rfl : rx = rx' := by simpa using hrx'
      exact ⟨.live, h.table.registered call.key rx htaken⟩
  | advance i call stage hcall hfrom hto => exact h.move_leads hcall hfrom hto
  | complete i call result hcall hstage => exact h.complete hcall hstage
  | send i call tx result hcall hstage => exact h.send hcall hstage
  | recv i call rx key result stage hcall hstage hready hto =>
    -- the call moves aside, and its receipt is the one new entry
    have hmoved := h.move_aside hcall (.inr ⟨rx, hstage⟩) hto
    refine ⟨hmoved.table, hmoved.leading, hmoved.sending, hmoved.led, hmoved.owned,
      hmoved.waiting, ?_⟩
    intro j rx' result' hmem
    rcases List.mem_cons.mp hmem with heq | hmem
    · cases heq
      obtain ⟨state, hstate⟩ := h.waiting i call rx hcall hstage
      have hkey : key = call.key := congrArg Channel.key (Option.some.inj (hready.symm.trans hstate))
      exact ⟨{ call with stage }, Function.update_self .., by rw [hkey] at hready; exact hready⟩
    · exact hmoved.received j rx' result' hmem

end Dedup

namespace Handler

variable {υ ι : Type} {cfg : Setup υ ι}

theorem dedup_inv_step {s s' : Handler υ} {a : Action ι} (h : s.step cfg a = some s')
    (hinv : s.dedup.Inv) : s'.dedup.Inv := by
  have hsteps := dedup_step h
  generalize s'.dedup = d at hsteps
  induction hsteps with
  | refl => exact hinv
  | tail _ hstep ih => exact Dedup.inv_step ih hstep

/-- The invariant at the end of every run. -/
theorem dedup_inv_of_run {up : υ} {actions : List (Action ι)} {s : Handler υ}
    (hrun : Transition.run (step cfg) (init up) actions = some s) : s.dedup.Inv := by
  have hinit : (init up).dedup.Inv := Dedup.inv_init
  exact Transition.invariant_of_steps (fun s a s' hstep hinv => dedup_inv_step hstep hinv) hrun hinit

/-- A key is in the table exactly while one leader for it is at work. -/
theorem senders_isSome_iff {d : Dedup} (h : d.Inv) (key : CacheKey) :
    (d.inflight.senders key).isSome ↔ ∃! i, d.Leads i key := by
  constructor
  · intro hsome
    obtain ⟨tx, hsender⟩ := Option.isSome_iff_exists.mp hsome
    have hlive := h.table.registered key tx hsender
    obtain ⟨i, hleader⟩ := h.owned tx _ hlive
    obtain ⟨call, state, hcall, hchannel, hprogress⟩ := h.led tx i hleader
    obtain ⟨rfl, rfl⟩ : call.key = key ∧ state = .live := by
      have := hchannel.symm.trans hlive
      simpa using this
    -- the sender is still in the table, so its leader has not sent
    have hleads : call.stage.leads = true := by
      generalize call.stage = stage at hprogress
      generalize hstate : ChannelState.live = state at hprogress
      cases hprogress with
      | leading hleads _ => exact hleads
      | sending result hremoved => exact absurd hsender hremoved
      | returned result => cases result <;> cases hstate
    refine ⟨i, ⟨call, hcall, hleads, rfl⟩, fun j hj => ?_⟩
    obtain ⟨tx', hsender', hleader'⟩ := h.leading j call.key hj
    obtain rfl : tx' = tx := Option.some.inj (hsender'.symm.trans hsender)
    exact Option.some.inj (hleader'.symm.trans hleader)
  · rintro ⟨i, hi, -⟩
    obtain ⟨tx, hsender, -⟩ := h.leading i key hi
    exact Option.isSome_iff_exists.mpr ⟨tx, hsender⟩

/-- The receiver of a channel whose leader has returned is ready. -/
theorem recv_of_ready {s : Handler υ} {i rx : Nat} {call : Call} {key : CacheKey}
    {result : Option Bytes} (hcall : s.calls i = some call) (hstage : call.stage = .wait rx)
    (hready : s.inflight.channels rx = some ⟨key, .ofResult result⟩) :
    ∃ s', s.recv i = some s' ∧ s'.received = (i, rx, result) :: s.received := by
  obtain ⟨transport, msg, stage⟩ := call
  obtain rfl : stage = .wait rx := hstage
  unfold recv
  rw [hcall]
  cases result with
  | some resp =>
    have hsent : s.inflight.channels rx = some ⟨key, .sent resp⟩ := hready
    simp only [hsent]
    exact ⟨_, rfl, rfl⟩
  | none =>
    have hclosed : s.inflight.channels rx = some ⟨key, .closed⟩ := hready
    simp only [hclosed]
    exact ⟨_, rfl, rfl⟩

/-- **One query in flight.** In every interleaving of calls, upstream results, cache events and
    the passing of time: a key is in the table exactly while one leader for it has not yet called
    `complete_inflight`; what a waiter received is the result of the leader of its own channel, an
    error exactly when that leader failed; and a waiter has a leader for its key, which is at work,
    about to send or done, and once it is done the waiter can receive its result. -/
theorem inflight_dedup (cfg : Setup υ ι) (up : υ) (actions : List (Action ι)) (s : Handler υ)
    (hrun : Transition.run (step cfg) (init up) actions = some s) :
    (∀ key, (s.inflight.senders key).isSome ↔ ∃! i, s.dedup.Leads i key) ∧
      (∀ i rx result, (i, rx, result) ∈ s.received →
        ∃ call l leader, s.calls i = some call ∧ s.leaderOf rx = some l ∧
          s.calls l = some leader ∧ leader.key = call.key ∧ leader.stage = .done result) ∧
      ∀ i call rx, s.calls i = some call → call.stage = .wait rx →
        ∃ l leader, s.leaderOf rx = some l ∧ s.calls l = some leader ∧ leader.key = call.key ∧
          (leader.stage.leads = true ∨ (∃ result, leader.stage = .send (some rx) result) ∨
            ∃ result, leader.stage = .done result ∧ ∃ s', s.step cfg (.recv i) = some s' ∧
              s'.received = (i, rx, result) :: s.received) := by
  have hinv := dedup_inv_of_run hrun
  refine ⟨senders_isSome_iff hinv, ?_, ?_⟩
  · intro i rx result hmem
    -- the channel of a receipt has a leader, and its state is that of the leader's progress
    obtain ⟨call, hcall, hchannel⟩ := hinv.received i rx result hmem
    obtain ⟨l, hleader⟩ := hinv.owned rx _ hchannel
    obtain ⟨leader, state, hl, hchannel', hprogress⟩ := hinv.led rx l hleader
    obtain ⟨hkey, hstate⟩ : call.key = leader.key ∧ ChannelState.ofResult result = state := by
      have := hchannel.symm.trans hchannel'
      simpa using this
    refine ⟨call, l, leader, hcall, hleader, hl, hkey.symm, ?_⟩
    generalize leader.stage = stage at hprogress
    -- only a leader that has returned has put a result into the channel
    cases hprogress with
    | leading _ _ => cases result <;> cases hstate
    | sending _ _ => cases result <;> cases hstate
    | returned result' =>
      have : result = result' := by
        cases result <;> cases result' <;> cases hstate <;> rfl
      rw [this]
  · intro i call rx hcall hstage
    -- the channel of a waiter has a leader too, which is still at work or has left its result
    obtain ⟨state, hchannel⟩ := hinv.waiting i call rx hcall hstage
    obtain ⟨l, hleader⟩ := hinv.owned rx _ hchannel
    obtain ⟨leader, state', hl, hchannel', hprogress⟩ := hinv.led rx l hleader
    obtain ⟨hkey, rfl⟩ : call.key = leader.key ∧ state = state' := by
      have := hchannel.symm.trans hchannel'
      simpa using this
    refine ⟨l, leader, hleader, hl, hkey.symm, ?_⟩
    generalize leader.stage = stage at hprogress
    cases hprogress with
    | leading hleads _ => exact .inl hleads
    | sending result _ => exact .inr (.inl ⟨result, rfl⟩)
    | returned result =>
      exact .inr (.inr ⟨result, rfl, recv_of_ready hcall hstage hchannel⟩)

/-- An upstream that does what it is told. -/
def scripted : Setup Unit (Option Bytes) where
  cache := ⟨300, none, false⟩
  epoch := 0
  query := fun _ _ _ result => ((), result)

/-- Two calls miss the cache; one leads, and the other waits for its result. -/
def leaderAndWaiter (resp : Bytes) : List (Action (Option Bytes)) :=
  [.handle 0 [] (Resolver.letterQuery 1 0x61) false,
    .handle 1 [] (Resolver.letterQuery 2 0x61) false, .lookup 0 2, .lookup 1 2, .lead 0, .lead 1,
    .respond 0 (some resp), .store 0, .complete 0, .send 0, .recv 1]

/-- Two calls with one question: the first asks the upstream, and the second gets what the first one got. -/
theorem inflight_dedup_two :
    ∃ s, Transition.run (step scripted) (init ()) (leaderAndWaiter [7]) = some s ∧
      s.received = [(1, 0, some [7])] ∧
      ∃ call l leader, s.calls 1 = some call ∧ s.leaderOf 0 = some l ∧
        s.calls l = some leader ∧ leader.key = call.key ∧ leader.stage = .done (some [7]) := by
  obtain ⟨s, hs, hreceived⟩ := (Option.any_eq_true _ _).mp
    (show (Transition.run (step scripted) (init ()) (leaderAndWaiter [7])).any
      (fun s => decide (s.received = [(1, 0, some [7])])) = true by decide +kernel)
  have hmem : s.received = [(1, 0, some [7])] := of_decide_eq_true hreceived
  exact ⟨s, hs, hmem, (inflight_dedup scripted () _ s hs).2.1 1 0 (some [7]) (by rw [hmem]; simp)⟩

end Handler

end Reflex.Dns
