import Mathlib.Logic.Function.Basic
import Mathlib.Order.Nat
import Reflex.Lib.Custody
import Reflex.Lib.Transition

namespace Reflex.Outbound

open Custody Transition

/-!
# Outbounds — interrupting the connections of a group

`InterruptGroup` of `outbound/group.rs`.  `register` adds the sender of a connection's channel to the
list; `interrupt` takes the list under one lock, signals the connections it is meant for, and puts the
others back under another lock, over whatever the list holds by then.  A sender that is dropped ends
its connection as a signal does.

* `step_cases` — what one step does;
* `Inv.step` — where the senders of the live connections are;
* `faithful_take_iff`, `faithful_put_iff` — which steps keep the connections right;
* `faithful_iff` — a connection is interrupted exactly if an interrupt that is meant for it has started
  since it was registered, in every state of a run, exactly if every step meets `Undisturbed`.
-/

/-! ### The group -/

/-- `ConnItem`: the connection whose receiver belongs to `close_tx`. -/
structure ConnItem where
  closeTx : Nat
  isExternal : Bool
  deriving DecidableEq, Repr

/-- `!item.is_external || interrupt_external`. -/
def concerns (interruptExternal isExternal : Bool) : Bool := !isExternal || interruptExternal

/-- A call of `interrupt` between its two locks: the items of `all` it has not come to yet, and those it
    keeps. -/
structure InterruptCall where
  interruptExternal : Bool
  all : List ConnItem
  keep : List ConnItem := []
  deriving DecidableEq, Repr

/-- `InterruptGroup` with its calls; and of the connections, which are numbered in the order of their
    registration, whether they are external, whether they have ended, whether their channel has fired,
    and whether an interrupt that is meant for them has started since they were registered. -/
structure InterruptGroup where
  conns : List ConnItem := []
  calls : Nat → Option InterruptCall := fun _ => none
  registered : Nat := 0
  external : Nat → Bool := fun _ => false
  ended : Nat → Bool := fun _ => false
  fired : Nat → Bool := fun _ => false
  due : Nat → Bool := fun _ => false

/-- What a thread or a connection does, up to the next lock. -/
inductive GroupAction where
  | register (isExternal : Bool)
  | finish (id : Nat)
  | take (c : Nat) (interruptExternal : Bool)
  | signal (c : Nat)
  | put (c : Nat)
  deriving DecidableEq, Repr

namespace InterruptGroup

/-- `InterruptGroup::new`. -/
def new : InterruptGroup := {}

/-- `item.close_tx.is_closed()`: the receiver is gone. -/
def isClosed (s : InterruptGroup) (item : ConnItem) : Bool := s.ended item.closeTx

/-- `register`. -/
def register (s : InterruptGroup) (isExternal : Bool) : InterruptGroup :=
  { s with
    conns := (s.conns.filter fun item => !s.isClosed item) ++ [⟨s.registered, isExternal⟩]
    registered := s.registered + 1
    external := Function.update s.external s.registered isExternal }

/-- `interrupt` under its first lock. -/
def take (s : InterruptGroup) (c : Nat) (interruptExternal : Bool) : InterruptGroup :=
  { s with
    conns := []
    calls := Function.update s.calls c (some { interruptExternal, all := s.conns })
    due := fun id => s.due id ||
      (decide (id < s.registered) && concerns interruptExternal (s.external id)) }

/-- One round of the loop of `interrupt`, at `item` in front of `all`. -/
def signal (s : InterruptGroup) (c : Nat) (interruptExternal : Bool) (item : ConnItem)
    (all keep : List ConnItem) : InterruptGroup :=
  if s.isClosed item then
    { s with calls := Function.update s.calls c (some ⟨interruptExternal, all, keep⟩) }
  else if concerns interruptExternal item.isExternal then
    { s with
      calls := Function.update s.calls c (some ⟨interruptExternal, all, keep⟩)
      fired := Function.update s.fired item.closeTx true }
  else { s with calls := Function.update s.calls c (some ⟨interruptExternal, all, keep ++ [item]⟩) }

/-- `interrupt` under its second lock: the senders in the list are dropped. -/
def put (s : InterruptGroup) (c : Nat) (keep : List ConnItem) : InterruptGroup :=
  { s with
    conns := keep
    calls := Function.update s.calls c none
    fired := fun id => s.fired id || s.conns.any fun item => item.closeTx = id }

/-- One step: a connection is registered or ends, or a call of the interrupt enters one of its two locks or goes
    through what it took. -/
def step (s : InterruptGroup) : GroupAction → Option InterruptGroup
  | .register isExternal => some (s.register isExternal)
  | .finish id =>
      if id < s.registered then some { s with ended := Function.update s.ended id true } else none
  | .take c interruptExternal =>
      match s.calls c with
      | none => some (s.take c interruptExternal)
      | some _ => none
  | .signal c =>
      match s.calls c with
      | some ⟨interruptExternal, item :: all, keep⟩ =>
          some (s.signal c interruptExternal item all keep)
      | _ => none
  | .put c =>
      match s.calls c with
      | some ⟨_, [], keep⟩ => some (s.put c keep)
      | _ => none

/-! ### What it is for -/

/-- The call is about to signal the connection. -/
def AboutTo (call : InterruptCall) (id : Nat) : Prop :=
  ∃ item ∈ call.all, item.closeTx = id ∧ concerns call.interruptExternal item.isExternal = true

/-- Some call is about to signal the connection. -/
def Pending (calls : Nat → Option InterruptCall) (id : Nat) : Prop :=
  ∃ c call, calls c = some call ∧ AboutTo call id

/-- The channel of a live connection has fired, or is about to, exactly if an interrupt that is meant
    for it has started since it was registered. -/
def Faithful (s : InterruptGroup) : Prop :=
  ∀ id < s.registered, s.ended id = false →
    (s.due id = true ↔ s.fired id = true ∨ Pending s.calls id)

/-- No live connection is in the list that a call puts its own over, and no interrupt of all
    connections starts while a call holds a live one that it keeps. -/
def Undisturbed (s : InterruptGroup) : GroupAction → Prop
  | .take _ interruptExternal => interruptExternal = true → ∀ c call, s.calls c = some call →
      call.interruptExternal = false → ∀ item ∈ call.all ++ call.keep, item.isExternal = true →
        s.isClosed item = true
  | .put _ => ∀ item ∈ s.conns, s.isClosed item = true
  | _ => True

/-! ### Where the senders are -/

/-- The senders in the list, and in the hands of a call. -/
def items (s : InterruptGroup) : Option Nat → List ConnItem
  | none => s.conns
  | some c => (s.calls c).elim [] fun call => call.all ++ call.keep

/-- Every live connection whose channel has not fired has its sender in one place, a call keeps only
    those it is not meant for, and all that a call is about to signal are due. -/
structure Inv (s : InterruptGroup) : Prop where
  separate : Separate s.items
  item : ∀ {p item}, item ∈ s.items p → item.closeTx < s.registered ∧
    item.isExternal = s.external item.closeTx ∧ s.fired item.closeTx = false
  present : ∀ id < s.registered, s.ended id = false →
    s.fired id = true ∨ ∃ p, ∃ item ∈ s.items p, item.closeTx = id
  keep : ∀ {c call item}, s.calls c = some call → item ∈ call.keep →
    concerns call.interruptExternal item.isExternal = false
  aboutTo : ∀ {c call id}, s.calls c = some call → AboutTo call id → s.due id = true
  fresh : ∀ id, s.registered ≤ id → s.fired id = false ∧ s.due id = false

variable {s s' : InterruptGroup} {c id : Nat} {b : Bool} {item : ConnItem}
  {all keep : List ConnItem}

theorem inv_new : new.Inv where
  separate := by
    refine ⟨fun p => ?_, fun {p q a} hp => ?_⟩
    · cases p <;> exact List.nodup_nil
    · cases p <;> cases hp
  item {p item} h := by cases p <;> cases h
  present _ h := absurd h (Nat.not_lt_zero _)
  keep h := nomatch h
  aboutTo h := nomatch h
  fresh _ _ := ⟨rfl, rfl⟩

/-- A connection has one sender, in one place. -/
theorem Inv.eq_of_closeTx (hs : s.Inv) {p q : Option Nat} {x y : ConnItem} (hx : x ∈ s.items p)
    (hy : y ∈ s.items q) (heq : x.closeTx = y.closeTx) : x = y ∧ p = q := by
  have hext : x.isExternal = y.isExternal := by
    rw [(hs.item hx).2.1, (hs.item hy).2.1, heq]
  obtain rfl : x = y := by
    cases x
    cases y
    simp_all
  exact ⟨rfl, hs.separate.unique hx hy⟩

theorem mem_items_of_call {call : InterruptCall} (hcall : s.calls c = some call)
    (hitem : item ∈ call.all ++ call.keep) : item ∈ s.items (some c) := by
  simpa [items, hcall] using hitem

theorem Inv.register (hs : s.Inv) (isExternal : Bool) : (s.register isExternal).Inv where
  separate := by
    -- the number of the new sender is one that nobody has had before
    refine hs.separate.insert (i := none) (a := ⟨s.registered, isExternal⟩)
      List.filter_sublist.subperm rfl (fun p hp => ?_) fun p hp => ?_
    · cases p with
      | none => exact absurd rfl hp
      | some c => exact List.Subperm.refl _
    · exact absurd (hs.item hp).1 (lt_irrefl _)
  item {p item} h := by
    have hold : item ∈ s.items p → item.closeTx < s.registered + 1 ∧
        item.isExternal = Function.update s.external s.registered isExternal item.closeTx ∧
        s.fired item.closeTx = false := by
      intro hitem
      obtain ⟨hlt, hext, hfired⟩ := hs.item hitem
      exact ⟨Nat.lt_succ_of_lt hlt, by rw [Function.update_of_ne hlt.ne, hext], hfired⟩
    cases p with
    | none =>
      -- either it was in the registry already, or it is the new one
      rcases List.mem_append.mp h with hitem | hitem
      · exact hold (List.mem_of_mem_filter hitem)
      · obtain rfl := List.mem_singleton.mp hitem
        refine ⟨Nat.lt_succ_self _, ?_, (hs.fresh _ le_rfl).1⟩
        show isExternal = Function.update s.external s.registered isExternal s.registered
        rw [Function.update_self]
    | some c => exact hold h
  present id hid hopen := by
    rcases Nat.lt_succ_iff_lt_or_eq.mp hid with hlt | rfl
    · refine (hs.present id hlt hopen).imp_right ?_
      rintro ⟨p, item, hitem, rfl⟩
      refine ⟨p, item, ?_, rfl⟩
      cases p with
      | none =>
        apply List.mem_append_left
        have hlive : s.ended item.closeTx = false := hopen
        exact List.mem_filter.mpr ⟨hitem, by simp [isClosed, hlive]⟩
      | some c => exact hitem
    · exact .inr ⟨none, _, List.mem_append_right _ (List.mem_singleton_self _), rfl⟩
  keep := hs.keep
  aboutTo := hs.aboutTo
  fresh id hid := hs.fresh id (Nat.le_of_succ_le hid)

theorem Inv.finish (hs : s.Inv) (id : Nat) :
    Inv { s with ended := Function.update s.ended id true } where
  separate := hs.separate
  item := hs.item
  present id' hid hopen := by
    refine hs.present id' hid ?_
    by_cases heq : id' = id
    · simp [heq] at hopen
    · simpa [heq] using hopen
  keep := hs.keep
  aboutTo := hs.aboutTo
  fresh := hs.fresh

theorem items_none_of_call (hcall : s.calls c = none) : s.items (some c) = [] := by
  rw [items, hcall]
  rfl

theorem items_update_self (o : Option InterruptCall) (s : InterruptGroup)
    (h : s.calls = Function.update s'.calls c o) :
    s.items (some c) = o.elim [] fun call => call.all ++ call.keep := by
  rw [items, h, Function.update_self]

theorem items_update_of_ne {d : Nat} (hd : d ≠ c) (o : Option InterruptCall)
    (h : s.calls = Function.update s'.calls c o) : s.items (some d) = s'.items (some d) := by
  rw [items, h, Function.update_of_ne hd]
  rfl

theorem Inv.take (hs : s.Inv) (hcall : s.calls c = none) (b : Bool) : (s.take c b).Inv where
  separate := by
    -- the call takes over the whole registry, and had nothing before
    refine hs.separate.move (i := none) (j := some c) ?_ (fun _ => rfl) fun p hp hpc => ?_
    · rw [items_update_self _ (s.take c b) rfl]
      show (s.conns ++ []).Subperm s.conns
      rw [List.append_nil]
    · cases p with
      | none => exact absurd rfl hp
      | some d => rw [items_update_of_ne (fun h => hpc (congrArg some h)) _ rfl]
  item {p item} h := by
    cases p with
    | none => cases h
    | some d =>
      by_cases hd : d = c
      · subst hd
        rw [items_update_self _ (s.take d b) rfl] at h
        have hmem : item ∈ s.conns ++ [] := h
        rw [List.append_nil] at hmem
        exact hs.item (p := none) hmem
      · rw [items_update_of_ne hd _ rfl] at h
        exact hs.item h
  present id hid hopen := by
    -- an open connection was in the registry, and is now in the hands of the call, or was with another call
    refine (hs.present id hid hopen).imp_right ?_
    rintro ⟨p, item, hitem, rfl⟩
    cases p with
    | none =>
      refine ⟨some c, item, ?_, rfl⟩
      rw [items_update_self _ (s.take c b) rfl]
      exact List.mem_append_left _ hitem
    | some d =>
      have hd : d ≠ c := by
        rintro rfl
        rw [items_none_of_call hcall] at hitem
        cases hitem
      exact ⟨some d, item, by rwa [items_update_of_ne hd _ rfl], rfl⟩
  keep {d call item} hd hitem := by
    rcases update_eq_some hd with ⟨rfl, rfl⟩ | ⟨-, hd⟩
    · cases hitem
    · exact hs.keep hd hitem
  aboutTo {d call id} hd habout := by
    show (s.due id || (decide (id < s.registered) && concerns b (s.external id))) = true
    rcases update_eq_some hd with ⟨rfl, rfl⟩ | ⟨-, hd⟩
    · -- it is in the list that was taken
      obtain ⟨item, hitem, rfl, hconcerns⟩ := habout
      obtain ⟨hlt, hext, -⟩ := hs.item (p := none) hitem
      rw [← hext, hconcerns, decide_eq_true hlt]
      simp
    · rw [hs.aboutTo hd habout]
      rfl
  fresh id hid := by
    obtain ⟨hfired, hdue⟩ := hs.fresh id hid
    refine ⟨hfired, ?_⟩
    show (s.due id || (decide (id < s.registered) && concerns b (s.external id))) = false
    have hnot : ¬ id < s.registered := not_lt.mpr hid
    simp [hdue, hnot]

theorem Inv.put (hs : s.Inv) (hcall : s.calls c = some ⟨b, [], keep⟩) : (s.put c keep).Inv where
  separate := by
    refine hs.separate.move (i := some c) (j := none) ?_ (fun _ => ?_) fun p hpc hp => ?_
    · show keep.Subperm ((s.calls c).elim [] fun call => call.all ++ call.keep)
      rw [hcall]
      exact List.Subperm.refl _
    · exact items_update_self _ (s.put c keep) rfl
    · cases p with
      | none => exact absurd rfl hp
      | some d => rw [items_update_of_ne (fun h => hpc (congrArg some h)) _ rfl]
  item {p item} h := by
    -- the senders that are left were not in the list
    have hold : ∃ q, q ≠ none ∧ item ∈ s.items q := by
      cases p with
      | none => exact ⟨some c, Option.some_ne_none c, mem_items_of_call hcall h⟩
      | some d =>
        by_cases hd : d = c
        · subst hd
          rw [items_update_self _ (s.put d keep) rfl] at h
          cases h
        · rw [items_update_of_ne hd _ rfl] at h
          exact ⟨some d, Option.some_ne_none d, h⟩
    obtain ⟨q, hq, hitem⟩ := hold
    obtain ⟨hlt, hext, hfired⟩ := hs.item hitem
    refine ⟨hlt, hext, ?_⟩
    show (s.fired item.closeTx || s.conns.any fun x => x.closeTx = item.closeTx) = false
    rw [hfired, Bool.false_or, List.any_eq_false]
    intro x hx heq
    exact hq (hs.eq_of_closeTx hitem (q := none) hx (of_decide_eq_true heq).symm).2
  present id hid hopen := by
    show (s.fired id || s.conns.any fun x => x.closeTx = id) = true ∨ _
    rcases hs.present id hid hopen with hfired | ⟨p, item, hitem, rfl⟩
    · rw [hfired]
      exact .inl rfl
    · cases p with
      | none =>
        left
        rw [Bool.or_eq_true, List.any_eq_true]
        exact .inr ⟨item, hitem, decide_eq_true rfl⟩
      | some d =>
        right
        by_cases hd : d = c
        · subst hd
          rw [items, hcall] at hitem
          exact ⟨none, item, hitem, rfl⟩
        · exact ⟨some d, item, by rwa [items_update_of_ne hd _ rfl], rfl⟩
  keep {d call item} hd hitem := hs.keep (update_none_eq_some hd).2 hitem
  aboutTo {d call id} hd habout := hs.aboutTo (update_none_eq_some hd).2 habout
  fresh id hid := by
    obtain ⟨hfired, hdue⟩ := hs.fresh id hid
    refine ⟨?_, hdue⟩
    show (s.fired id || s.conns.any fun x => x.closeTx = id) = false
    rw [hfired, Bool.false_or, List.any_eq_false]
    intro x hx heq
    have hlt := (hs.item (p := none) hx).1
    rw [of_decide_eq_true heq] at hlt
    exact absurd hlt (not_lt.mpr hid)

/-- One round of the loop, where `fired'` and `keep'` are what it leaves. -/
theorem Inv.progress (hs : s.Inv) (hcall : s.calls c = some ⟨b, item :: all, keep⟩)
    {keep' : List ConnItem} {fired' : Nat → Bool}
    (hkeep : keep' = keep ∨ (keep' = keep ++ [item] ∧ concerns b item.isExternal = false))
    (hfired : fired' = s.fired ∨
      (fired' = Function.update s.fired item.closeTx true ∧ keep' = keep))
    (hstay : s.ended item.closeTx = false → fired' item.closeTx = true ∨ item ∈ keep') :
    Inv { s with
      calls := Function.update s.calls c (some ⟨b, all, keep'⟩), fired := fired' } := by
  set s' : InterruptGroup := { s with
    calls := Function.update s.calls c (some ⟨b, all, keep'⟩), fired := fired' } with hs'
  -- what the calls hold before and after the round: this one has `item` less, or keeps it
  have hcurrent : s.items (some c) = item :: (all ++ keep) := by
    rw [items, hcall]
    rfl
  have hnext : s'.items (some c) = all ++ keep' := items_update_self _ s' rfl
  have hothers : ∀ p, p ≠ some c → s'.items p = s.items p := by
    intro p hp
    cases p with
    | none => rfl
    | some d => exact items_update_of_ne (fun h => hp (congrArg some h)) _ rfl
  have hsub : ∀ p, (s'.items p).Subperm (s.items p) := by
    intro p
    by_cases hp : p = some c
    · rw [hp, hnext, hcurrent]
      rcases hkeep with rfl | ⟨rfl, -⟩
      · exact (List.sublist_cons_self _ _).subperm
      · rw [← List.append_assoc]
        exact (List.perm_append_singleton item (all ++ keep)).subperm
    · rw [hothers p hp]
  have hitem : item ∈ s.items (some c) := by
    rw [hcurrent]
    exact List.mem_cons_self
  have hmono : ∀ id, s.fired id = true → fired' id = true := by
    intro id hid
    rcases hfired with rfl | ⟨rfl, -⟩
    · exact hid
    · by_cases heq : id = item.closeTx
      · rw [heq, Function.update_self]
      · rwa [Function.update_of_ne heq]
  -- the fields of the invariant behind the first one: senders, open connections, those to keep, those to
  -- signal, and numbers that are not in use yet
  refine ⟨hs.separate.of_subperm hsub, ?_, ?_, ?_, ?_, ?_⟩
  · intro p x hx
    obtain ⟨hlt, hext, hunfired⟩ := hs.item ((hsub p).subset hx)
    refine ⟨hlt, hext, ?_⟩
    show fired' x.closeTx = false
    rcases hfired with rfl | ⟨rfl, rfl⟩
    · exact hunfired
    · -- the sender that was used is in no other hands
      rw [Function.update_of_ne, hunfired]
      intro heq
      obtain ⟨rfl, rfl⟩ := hs.eq_of_closeTx ((hsub p).subset hx) hitem heq
      have hnodup := hs.separate.nodup (some c)
      rw [hcurrent] at hnodup
      rw [hnext] at hx
      exact (List.nodup_cons.mp hnodup).1 hx
  · intro id hid hopen
    rcases hs.present id hid hopen with hdone | ⟨p, x, hx, rfl⟩
    · exact .inl (hmono id hdone)
    · by_cases hp : p = some c
      · subst hp
        rw [hcurrent, List.mem_cons] at hx
        rcases hx with rfl | hx
        · refine (hstay hopen).imp_right fun hmem => ⟨some c, x, ?_, rfl⟩
          rw [hnext]
          exact List.mem_append_right _ hmem
        · refine .inr ⟨some c, x, ?_, rfl⟩
          rw [hnext]
          rcases hkeep with rfl | ⟨rfl, -⟩
          · exact hx
          · rw [← List.append_assoc]
            exact List.mem_append_left _ hx
      · exact .inr ⟨p, x, by rwa [hothers p hp], rfl⟩
  · intro d call x hd hx
    rcases update_eq_some hd with ⟨rfl, rfl⟩ | ⟨-, hd⟩
    · have hold : ∀ y ∈ keep, concerns b y.isExternal = false := by
        intro y hy
        have hy' := hs.keep hcall hy
        exact hy'
      -- what the call kept before is to be kept, and so is `item` if it joins them
      rcases hkeep with rfl | ⟨rfl, hconcerns⟩
      · exact hold x hx
      · rcases List.mem_append.mp hx with hx | hx
        · exact hold x hx
        · rwa [List.mem_singleton.mp hx]
    · exact hs.keep hd hx
  · rintro d call id hd habout
    rcases update_eq_some hd with ⟨rfl, rfl⟩ | ⟨-, hd⟩
    · obtain ⟨x, hx, hid, hconcerns⟩ := habout
      exact hs.aboutTo hcall ⟨x, List.mem_cons_of_mem _ hx, hid, hconcerns⟩
    · exact hs.aboutTo hd habout
  · intro id hid
    obtain ⟨hunfired, hdue⟩ := hs.fresh id hid
    refine ⟨?_, hdue⟩
    show fired' id = false
    rcases hfired with rfl | ⟨rfl, -⟩
    · exact hunfired
    · rw [Function.update_of_ne, hunfired]
      rintro rfl
      exact absurd (hs.item hitem).1 (not_lt.mpr hid)

theorem Inv.signal (hs : s.Inv) (hcall : s.calls c = some ⟨b, item :: all, keep⟩) :
    (s.signal c b item all keep).Inv := by
  unfold InterruptGroup.signal
  split_ifs with hclosed hconcerns
  · refine hs.progress hcall (.inl rfl) (.inl rfl) fun hopen => ?_
    rw [isClosed, hopen] at hclosed
    cases hclosed
  · exact hs.progress hcall (.inl rfl) (.inr ⟨rfl, rfl⟩) fun _ => .inl (Function.update_self _ _ _)
  · refine hs.progress hcall (.inr ⟨rfl, by simpa using hconcerns⟩) (.inl rfl) fun _ => ?_
    exact .inr (List.mem_append_right _ (List.mem_singleton_self item))

/-- **One step**, by who takes it: a connection, or a call of the interrupt. -/
theorem step_cases {a : GroupAction} (h : s.step a = some s') :
    (∃ isExternal, a = .register isExternal ∧ s' = s.register isExternal) ∨
      (∃ id, a = .finish id ∧ s' = { s with ended := Function.update s.ended id true }) ∨
      (∃ c b, a = .take c b ∧ s.calls c = none ∧ s' = s.take c b) ∨
      (∃ c b item all keep, a = .signal c ∧ s.calls c = some ⟨b, item :: all, keep⟩ ∧
        s' = s.signal c b item all keep) ∨
      (∃ c b keep, a = .put c ∧ s.calls c = some ⟨b, [], keep⟩ ∧ s' = s.put c keep) := by
  cases a with
  | register isExternal => exact .inl ⟨isExternal, rfl, (Option.some.inj h).symm⟩
  | finish id =>
    obtain ⟨-, hs'⟩ := Option.ite_none_right_eq_some.mp h
    exact .inr (.inl ⟨id, rfl, (Option.some.inj hs').symm⟩)
  | take c b =>
    simp only [InterruptGroup.step] at h
    split at h
    · rename_i hcall
      exact .inr (.inr (.inl ⟨c, b, rfl, hcall, (Option.some.inj h).symm⟩))
    · cases h
  | signal c =>
    simp only [InterruptGroup.step] at h
    split at h
    · rename_i hcall
      exact .inr (.inr (.inr (.inl ⟨c, _, _, _, _, rfl, hcall, (Option.some.inj h).symm⟩)))
    · cases h
  | put c =>
    simp only [InterruptGroup.step] at h
    split at h
    · rename_i hcall
      exact .inr (.inr (.inr (.inr ⟨c, _, _, rfl, hcall, (Option.some.inj h).symm⟩)))
    · cases h

theorem Inv.step {a : GroupAction} (hs : s.Inv) (h : s.step a = some s') : s'.Inv := by
  rcases step_cases h with ⟨isExternal, -, rfl⟩ | ⟨id, -, rfl⟩ | ⟨c, b, -, hcall, rfl⟩ |
    ⟨c, b, item, all, keep, -, hcall, rfl⟩ | ⟨c, b, keep, -, hcall, rfl⟩
  · exact hs.register isExternal
  · exact hs.finish id
  · exact hs.take hcall b
  · exact hs.signal hcall
  · exact hs.put hcall

/-! ### Which connections are interrupted -/

theorem pending_update {calls : Nat → Option InterruptCall} {o : Option InterruptCall} :
    Pending (Function.update calls c o) id ↔
      (∃ call, o = some call ∧ AboutTo call id) ∨
        ∃ d, d ≠ c ∧ ∃ call, calls d = some call ∧ AboutTo call id := by
  constructor
  · rintro ⟨d, call, hd, habout⟩
    by_cases hdc : d = c
    · rw [hdc, Function.update_self] at hd
      exact .inl ⟨call, hd, habout⟩
    · rw [Function.update_of_ne hdc] at hd
      exact .inr ⟨d, hdc, call, hd, habout⟩
  · rintro (⟨call, rfl, habout⟩ | ⟨d, hdc, call, hd, habout⟩)
    · exact ⟨c, call, Function.update_self _ _ _, habout⟩
    · exact ⟨d, call, by rwa [Function.update_of_ne hdc], habout⟩

theorem pending_iff (calls : Nat → Option InterruptCall) (c id : Nat) :
    Pending calls id ↔
      (∃ call, calls c = some call ∧ AboutTo call id) ∨
        ∃ d, d ≠ c ∧ ∃ call, calls d = some call ∧ AboutTo call id := by
  have h : Pending (Function.update calls c (calls c)) id ↔ _ := pending_update
  rwa [Function.update_eq_self] at h

/-- A call that has come to `item` is about to signal it, or one behind it. -/
theorem aboutTo_cons (keep' : List ConnItem) :
    AboutTo ⟨b, item :: all, keep⟩ id ↔
      (item.closeTx = id ∧ concerns b item.isExternal = true) ∨ AboutTo ⟨b, all, keep'⟩ id := by
  simp only [AboutTo, List.mem_cons, exists_eq_or_imp]

theorem aboutTo_some {call : InterruptCall} {o : Option InterruptCall} (ho : o = some call) :
    (∃ call, o = some call ∧ AboutTo call id) ↔ AboutTo call id := by
  rw [ho]
  exact ⟨fun ⟨_, h, habout⟩ => Option.some.inj h ▸ habout, fun h => ⟨call, rfl, h⟩⟩

theorem not_pending_of_fresh (hs : s.Inv) (hid : s.registered ≤ id) : ¬ Pending s.calls id := by
  rintro ⟨c, call, hcall, habout⟩
  have hdue := hs.aboutTo hcall habout
  rw [(hs.fresh id hid).2] at hdue
  cases hdue

theorem Faithful.register (hgood : s.Faithful) (hs : s.Inv) (isExternal : Bool) :
    (s.register isExternal).Faithful := by
  intro id hid hopen
  rcases Nat.lt_succ_iff_lt_or_eq.mp hid with hlt | rfl
  · exact hgood id hlt hopen
  · -- nothing has happened to the new connection
    obtain ⟨hunfired, hdue⟩ := hs.fresh _ le_rfl
    refine iff_of_false (by simp [InterruptGroup.register, hdue]) ?_
    rintro (hfired | hpending)
    · rw [show s.fired s.registered = true from hfired] at hunfired
      cases hunfired
    · exact not_pending_of_fresh hs le_rfl hpending

theorem Faithful.finish (hgood : s.Faithful) (id : Nat) :
    Faithful { s with ended := Function.update s.ended id true } := by
  intro id' hid hopen
  refine hgood id' hid ?_
  by_cases heq : id' = id
  · simp [heq] at hopen
  · simpa [heq] using hopen

/-- A round of the loop leaves the live connections right. -/
theorem Faithful.signal (hgood : s.Faithful) (hcall : s.calls c = some ⟨b, item :: all, keep⟩) :
    (s.signal c b item all keep).Faithful := by
  have hold : ∀ keep', ∀ id < s.registered, s.ended id = false →
      (s.due id = true ↔ s.fired id = true ∨
        ((item.closeTx = id ∧ concerns b item.isExternal = true) ∨ AboutTo ⟨b, all, keep'⟩ id) ∨
          ∃ d, d ≠ c ∧ ∃ call, s.calls d = some call ∧ AboutTo call id) := by
    intro keep' id hid hopen
    have h := hgood id hid hopen
    rwa [pending_iff _ c, aboutTo_some hcall, aboutTo_cons keep'] at h
  unfold InterruptGroup.signal
  split_ifs with hclosed hconcerns
  · intro id hid hopen
    have hne : item.closeTx ≠ id := by
      rintro rfl
      exact absurd (hclosed.symm.trans hopen) (by simp)
    have h := hold keep id hid hopen
    rw [pending_update, aboutTo_some rfl]
    simpa [hne] using h
  · intro id hid hopen
    have h := hold keep id hid hopen
    rw [pending_update, aboutTo_some rfl]
    by_cases heq : item.closeTx = id
    · -- it was due, and it has been signalled
      subst heq
      simpa [hconcerns] using h
    · have hne : id ≠ item.closeTx := fun h => heq h.symm
      simpa [heq, hne] using h
  · intro id hid hopen
    have h := hold (keep ++ [item]) id hid hopen
    rw [pending_update, aboutTo_some rfl]
    simpa [hconcerns] using h

theorem pending_take (hcall : s.calls c = none) :
    Pending (s.take c b).calls id ↔ Pending s.calls id ∨
      ∃ item ∈ s.conns, item.closeTx = id ∧ concerns b item.isExternal = true := by
  show Pending (Function.update s.calls c _) id ↔ _
  rw [pending_update, aboutTo_some rfl, pending_iff s.calls c, hcall, or_comm]
  simp [AboutTo]

theorem due_take (hid : id < s.registered) :
    (s.take c b).due id = true ↔ s.due id = true ∨ concerns b (s.external id) = true := by
  simp [InterruptGroup.take, hid]

/-- **The first lock.** A call that takes the connections out of the registry keeps the group faithful exactly if it
    is not disturbed. -/
theorem faithful_take_iff (hgood : s.Faithful) (hs : s.Inv) (hcall : s.calls c = none) :
    s.Undisturbed (.take c b) ↔ (s.take c b).Faithful := by
  constructor
  · intro hguard id (hid : id < s.registered) (hopen : s.ended id = false)
    rw [due_take hid, hgood id hid hopen, pending_take hcall, or_assoc]
    refine ⟨?_, ?_⟩
    · rintro (hfired | hpending | hconcerns)
      · exact .inl hfired
      · exact .inr (.inl hpending)
      · rcases hs.present id hid hopen with hfired | ⟨p, item, hitem, rfl⟩
        · exact .inl hfired
        · rw [← (hs.item hitem).2.1] at hconcerns
          right
          cases p with
          | none => exact .inr ⟨item, hitem, rfl, hconcerns⟩
          | some d =>
            -- its sender is in the hands of another call, which is about to use it
            left
            obtain ⟨call, hd, hmem⟩ : ∃ call, s.calls d = some call ∧
                item ∈ call.all ++ call.keep := by
              rcases hd : s.calls d with _ | call
              · rw [items_none_of_call hd] at hitem
                cases hitem
              · refine ⟨call, rfl, ?_⟩
                rwa [items, hd] at hitem
            by_cases hcall' : concerns call.interruptExternal item.isExternal = true
            · rcases List.mem_append.mp hmem with hall | hkeep
              · exact ⟨d, call, hd, item, hall, rfl, hcall'⟩
              · rw [hs.keep hd hkeep] at hcall'
                cases hcall'
            · simp only [concerns, Bool.or_eq_true, Bool.not_eq_true', not_or,
                Bool.not_eq_true, Bool.not_eq_false] at hcall' hconcerns
              have hb : b = true := by simpa [hcall'.1] using hconcerns
              have hclosed := hguard hb d call hd hcall'.2 item hmem hcall'.1
              rw [isClosed, hopen] at hclosed
              cases hclosed
    · rintro (hfired | hpending | ⟨item, hitem, rfl, hconcerns⟩)
      · exact .inl hfired
      · exact .inr (.inl hpending)
      · refine .inr (.inr ?_)
        rwa [← (hs.item (p := none) hitem).2.1]
  · intro hgood' hb d call hd hie item hmem hext
    by_contra hclosed
    have hitem := mem_items_of_call hd hmem
    obtain ⟨hlt, -, hunfired⟩ := hs.item hitem
    have hopen : s.ended item.closeTx = false := by simpa [isClosed] using hclosed
    have hdue : (s.take c b).due item.closeTx = true :=
      (due_take hlt).mpr (.inr (by simp [concerns, hb]))
    rcases (hgood' _ hlt hopen).mp hdue with hfired | hpending
    · rw [show s.fired item.closeTx = true from hfired] at hunfired
      cases hunfired
    · rcases (pending_take hcall).mp hpending with
        ⟨d', call', hd', item', hall, heq, hconcerns⟩ | ⟨item', hconns, heq, -⟩
      · -- the call that holds it is not meant for it
        have hitem' := mem_items_of_call hd' (List.mem_append_left _ hall)
        obtain ⟨rfl, hdd⟩ := hs.eq_of_closeTx hitem' hitem heq
        obtain rfl := Option.some.inj hdd
        obtain rfl := Option.some.inj (hd.symm.trans hd')
        simp [concerns, hie, hext] at hconcerns
      · exact absurd (hs.eq_of_closeTx (p := none) hconns hitem heq).2 (by simp)

theorem pending_put (hcall : s.calls c = some ⟨b, [], keep⟩) :
    Pending (s.put c keep).calls id ↔ Pending s.calls id := by
  show Pending (Function.update s.calls c none) id ↔ _
  rw [pending_update, pending_iff s.calls c, hcall]
  simp [AboutTo]

/-- **The second lock.** A call that puts back what it keeps leaves the group faithful exactly if it is not
    disturbed. -/
theorem faithful_put_iff (hgood : s.Faithful) (hs : s.Inv)
    (hcall : s.calls c = some ⟨b, [], keep⟩) :
    s.Undisturbed (.put c) ↔ (s.put c keep).Faithful := by
  constructor
  · intro hguard id hid hopen
    have hany : (s.conns.any fun item => item.closeTx = id) = false := by
      rw [List.any_eq_false]
      intro item hitem heq
      have hclosed := hguard item hitem
      rw [isClosed, of_decide_eq_true heq] at hclosed
      exact absurd (hclosed.symm.trans hopen) (by simp)
    rw [pending_put hcall]
    simpa [InterruptGroup.put, hany] using hgood id hid hopen
  · intro hgood' item hitem
    by_contra hclosed
    have hopen : s.ended item.closeTx = false := by simpa [isClosed] using hclosed
    obtain ⟨hlt, -, hunfired⟩ := hs.item (p := none) hitem
    -- its sender is dropped, and nothing was meant for it
    have hfired : (s.put c keep).fired item.closeTx = true := by
      show (s.fired item.closeTx || s.conns.any fun x => x.closeTx = item.closeTx) = true
      rw [Bool.or_eq_true, List.any_eq_true]
      exact .inr ⟨item, hitem, decide_eq_true rfl⟩
    have hdue : s.due item.closeTx = true := (hgood' _ hlt hopen).mpr (.inl hfired)
    rcases (hgood _ hlt hopen).mp hdue with hfired | ⟨d, call, hd, item', hall, heq, -⟩
    · rw [hfired] at hunfired
      cases hunfired
    · have hitem' := mem_items_of_call hd (List.mem_append_left _ hall)
      exact absurd (hs.eq_of_closeTx hitem' (q := none) hitem heq).2 (by simp)

/-- Between the calls, a live connection was interrupted exactly if it was meant to be. -/
theorem Faithful.fired_iff_due (hgood : s.Faithful) (hidle : ∀ c, s.calls c = none)
    (hid : id < s.registered) (hopen : s.ended id = false) :
    s.fired id = true ↔ s.due id = true := by
  rw [hgood id hid hopen]
  refine ⟨Or.inl, ?_⟩
  rintro (hfired | ⟨c, call, hcall, -⟩)
  · exact hfired
  · rw [hidle c] at hcall
    cases hcall

/-- **Interrupting.** In every run of a group, its calls and its connections: every live connection is
    interrupted exactly if an interrupt that is meant for it has started since it was registered, in
    every state, exactly if every step meets `Undisturbed`. -/
theorem faithful_iff {actions : List GroupAction} (hrun : run step new actions = some s) :
    Guarded step Undisturbed new actions ↔
      ∀ before after t, actions = before ++ after → run step new before = some t → t.Faithful := by
  refine guarded_iff_always (fun _ _ _ h hs => Inv.step hs h) ?_ hrun inv_new
    fun id hid => absurd hid (Nat.not_lt_zero id)
  intro s a s' h hs hgood
  rcases step_cases h with ⟨isExternal, rfl, rfl⟩ | ⟨id, rfl, rfl⟩ | ⟨c, b, rfl, hcall, rfl⟩ |
    ⟨c, b, item, all, keep, rfl, hcall, rfl⟩ | ⟨c, b, keep, rfl, hcall, rfl⟩
  · exact iff_of_true trivial (hgood.register hs isExternal)
  · exact iff_of_true trivial (hgood.finish id)
  · exact faithful_take_iff hgood hs hcall
  · exact iff_of_true trivial (hgood.signal hcall)
  · exact faithful_put_iff hgood hs hcall

/-- An external connection is kept by one call and interrupted by the next. -/
def oneAfterTheOther : List GroupAction :=
  [.register true, .take 0 false, .signal 0, .put 0, .take 1 true, .signal 1, .put 1]

theorem faithful_iff_oneAfterTheOther : ∃ s, run step new oneAfterTheOther = some s ∧
    s.fired 0 = true ∧ s.ended 0 = false ∧
      ∀ before after t, oneAfterTheOther = before ++ after → run step new before = some t →
        t.Faithful := by
  have hguard : Guarded step Undisturbed new oneAfterTheOther := by
    simp [oneAfterTheOther, Guarded, Undisturbed, step, new, InterruptGroup.register,
      InterruptGroup.take, InterruptGroup.signal, InterruptGroup.put, isClosed, concerns]
  exact ⟨_, rfl, rfl, rfl, (faithful_iff rfl).mp hguard⟩

/-- A connection that is registered between the two locks loses its sender; and one that a call keeps
    is missed by an interrupt of all connections that starts meanwhile. -/
theorem not_faithful :
    (∃ s, run step new [.take 0 false, .register true, .put 0] = some s ∧
        s.ended 0 = false ∧ s.due 0 = false ∧ s.fired 0 = true ∧ ¬ s.Faithful) ∧
      ∃ s, run step new
          [.register true, .take 0 false, .take 1 true, .put 1, .signal 0, .put 0] = some s ∧
        s.ended 0 = false ∧ s.due 0 = true ∧ s.fired 0 = false ∧ ¬ s.Faithful := by
  refine ⟨⟨_, rfl, rfl, rfl, rfl, fun h => ?_⟩, ⟨_, rfl, rfl, rfl, rfl, fun h => ?_⟩⟩
  · exact absurd ((h 0 Nat.one_pos rfl).mpr (.inl rfl)) (by decide)
  · -- no call is left that could signal it
    rcases (h 0 Nat.one_pos rfl).mp rfl with hfired | ⟨c, call, hcall, -⟩
    · cases hfired
    · by_cases h0 : c = 0
      · subst h0
        cases hcall
      · by_cases h1 : c = 1
        · subst h1
          cases hcall
        · simp [InterruptGroup.register, InterruptGroup.take, InterruptGroup.signal,
            InterruptGroup.put, new, isClosed, concerns, h0, h1] at hcall

end InterruptGroup

end Reflex.Outbound
