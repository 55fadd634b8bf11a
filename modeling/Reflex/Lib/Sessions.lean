import Mathlib.Tactic.Common

namespace Sessions

/-!
# Sessions over one channel

Parties that share a channel tell their messages apart by IDs.  A ledger records the ID of each
party, which parties are live, under which IDs messages were sent, and which IDs were carried by
what a party was given.

* `Separate` — nobody sends under another ID or is given what carries another ID, and live parties
  have different IDs;
* `Separate.extend` — how a step may extend a ledger;
* `Separate.append`, `Separate.set`, `Separate.send`, `Separate.give` — the steps of parties that
  are kept in a table: one is added, changes, sends, or is given something.

Where the IDs are drawn from one counter, and a party may go on under another one that is drawn later:

* `Drawn` — what holds after so many draws, while the counter does not wrap;
* `Drawn.append`, `Drawn.set` — a party draws its first ID, and another one;
* `Drawn.ne` — the later ID of a party is never its first one.
-/

variable {F I : Type*}

/-- What has happened on a channel that is shared by the parties `F`. -/
structure Ledger (F I : Type*) where
  id : F → Option I
  live : F → Prop
  sent : List (F × I)
  given : List (F × I)

/-- Sending and receiving under one's own ID only. -/
structure Separate (l : Ledger F I) : Prop where
  sent : ∀ f i, (f, i) ∈ l.sent → l.id f = some i
  distinct : ∀ f g i, l.live f → l.live g → l.id f = some i → l.id g = some i → f = g
  given : ∀ f i, (f, i) ∈ l.given → l.id f = some i

/-- **Steps.** A ledger stays separate if IDs are kept, new entries are under the ID of their party,
    and a party that becomes live shares its ID with no other live one. -/
theorem Separate.extend {l l' : Ledger F I} (h : Separate l)
    (hid : ∀ f i, l.id f = some i → l'.id f = some i)
    (hsent : ∀ f i, (f, i) ∈ l'.sent → (f, i) ∈ l.sent ∨ l'.id f = some i)
    (hlive : ∀ f i, l'.live f → l'.id f = some i →
      (l.live f ∧ l.id f = some i) ∨ ∀ g, l'.live g → l'.id g = some i → g = f)
    (hgiven : ∀ f i, (f, i) ∈ l'.given → (f, i) ∈ l.given ∨ l'.id f = some i) :
    Separate l' where
  sent f i hmem := by
    rcases hsent f i hmem with hold | hnew
    · exact hid f i (h.sent f i hold)
    · exact hnew
  distinct f g i hf hg hfi hgi := by
    rcases hlive f i hf hfi with hold | hnew
    · rcases hlive g i hg hgi with hold' | hnew'
      · exact h.distinct f g i hold.1 hold'.1 hold.2 hold'.2
      · exact hnew' f hf hfi
    · exact (hnew g hg hgi).symm
  given f i hmem := by
    rcases hgiven f i hmem with hold | hnew
    · exact hid f i (h.given f i hold)
    · exact hnew

/-! ### Parties in a table -/

/-- The ledger of a table of parties, which are named by their places in it. -/
def ofTable {φ : Type*} (id : φ → I) (live : φ → Bool) (table : List φ) (sent given : List (Nat × I)) :
    Ledger Nat I where
  id f := table[f]?.map id
  live f := table[f]?.any live = true
  sent := sent
  given := given

section Table

variable {φ : Type*} {id : φ → I} {live : φ → Bool} {table : List φ} {sent given : List (Nat × I)}

theorem ofTable_nil : Separate (ofTable id live [] [] []) where
  sent _ _ h := nomatch h
  distinct _ _ _ h := nomatch h
  given _ _ h := nomatch h

/-- **A new party**, under an ID that no live party has. -/
theorem Separate.append (h : Separate (ofTable id live table sent given)) {p : φ}
    (hfree : ∀ q ∈ table, live q = true → id q ≠ id p) :
    Separate (ofTable id live (table ++ [p]) sent given) := by
  have hold : ∀ f, f < table.length → (table ++ [p])[f]? = table[f]? :=
    fun f hf => List.getElem?_append_left hf
  refine h.extend (fun f i hf => ?_) (fun f i hmem => .inl hmem) (fun f i hf hfi => ?_)
    fun f i hmem => .inl hmem
  · obtain ⟨q, hq, hi⟩ := Option.map_eq_some_iff.mp hf
    have hlt := (List.getElem?_eq_some_iff.mp hq).1
    exact Option.map_eq_some_iff.mpr ⟨q, (hold f hlt).trans hq, hi⟩
  · rcases Nat.lt_or_ge f table.length with hlt | hge
    · left
      simp only [ofTable, hold f hlt] at hf hfi
      exact ⟨hf, hfi⟩
    · -- the new party: no old one that is live has its ID
      right
      intro g hg hgi
      have hnew : ∀ k q, table.length ≤ k → (table ++ [p])[k]? = some q → k = table.length ∧ q = p := by
        intro k q hk hq
        rw [List.getElem?_append_right hk] at hq
        obtain ⟨hklt, hkq⟩ := List.getElem?_eq_some_iff.mp hq
        simp only [List.length_singleton, Nat.lt_one_iff] at hklt
        refine ⟨by omega, ?_⟩
        simpa [hklt] using hkq.symm
      obtain ⟨q, hq, hqi⟩ := Option.map_eq_some_iff.mp hfi
      obtain ⟨rfl, rfl⟩ := hnew f q hge hq
      obtain ⟨r, hr, hri⟩ := Option.map_eq_some_iff.mp hgi
      rcases Nat.lt_or_ge g table.length with hglt | hgge
      · have hr' := (hold g hglt).symm.trans hr
        have hlive : live r = true := by
          simp only [ofTable, hr, Option.any_some] at hg
          exact hg
        exact absurd (hri.trans hqi.symm) (hfree r (List.mem_of_getElem? hr') hlive)
      · exact (hnew g r hgge hr).1

/-- **A party changes** and keeps its ID; one that is not live does not become so. -/
theorem Separate.set (h : Separate (ofTable id live table sent given)) {f : Nat} {p p' : φ}
    (hf : table[f]? = some p) (hid : id p' = id p) (hlive : live p' = true → live p = true) :
    Separate (ofTable id live (table.set f p') sent given) := by
  have hget : ∀ g : Nat, (table.set f p')[g]? = if g = f then some p' else table[g]? := by
    intro g
    rw [List.getElem?_set]
    by_cases hgf : f = g
    · rw [if_pos hgf, if_pos hgf.symm, if_pos (hgf ▸ (List.getElem?_eq_some_iff.mp hf).1)]
    · rw [if_neg hgf, if_neg (Ne.symm hgf)]
  have hids : ∀ g : Nat, (table.set f p')[g]?.map id = table[g]?.map id := by
    intro g
    rw [hget]
    split
    · rename_i hgf
      rw [hgf, hf, Option.map_some, Option.map_some, hid]
    · rfl
  refine h.extend (fun g i hg => (hids g).trans hg) (fun g i hmem => .inl hmem)
    (fun g i hg hgi => .inl ⟨?_, (hids g).symm.trans hgi⟩) fun g i hmem => .inl hmem
  simp only [ofTable, hget] at hg ⊢
  split at hg
  · rename_i hgf
    rw [hgf, hf]
    exact hlive hg
  · exact hg

/-- **A party sends** under its own ID. -/
theorem Separate.send (h : Separate (ofTable id live table sent given)) {f : Nat} {p : φ}
    (hf : table[f]? = some p) {more : List (Nat × I)} (hmore : ∀ e ∈ more, e = (f, id p)) :
    Separate (ofTable id live table (sent ++ more) given) := by
  refine h.extend (fun g i hg => hg) (fun g i hmem => ?_) (fun g i hg hgi => .inl ⟨hg, hgi⟩)
    fun g i hmem => .inl hmem
  refine (List.mem_append.mp hmem).imp_right fun hmem => ?_
  obtain ⟨rfl, rfl⟩ := Prod.mk.inj (hmore _ hmem)
  show table[g]?.map id = some (id p)
  rw [hf, Option.map_some]

/-- **A party is given** what carries its own ID. -/
theorem Separate.give (h : Separate (ofTable id live table sent given)) {f : Nat} {p : φ}
    (hf : table[f]? = some p) : Separate (ofTable id live table sent (given ++ [(f, id p)])) := by
  refine h.extend (fun g i hg => hg) (fun g i hmem => .inl hmem)
    (fun g i hg hgi => .inl ⟨hg, hgi⟩) fun g i hmem => ?_
  refine (List.mem_append.mp hmem).imp_right fun hmem => ?_
  obtain ⟨rfl, rfl⟩ := Prod.mk.inj (List.mem_singleton.mp hmem)
  show table[g]?.map id = some (id p)
  rw [hf, Option.map_some]

end Table

/-! ### IDs that are drawn from a counter -/

/-- After at most `n` draws: every party has an ID below the counter, and the one that it goes on under, if there is
    one, was drawn behind it. -/
structure Drawn {φ : Type*} (id : φ → Nat) (later : φ → Option Nat) (n counter : Nat) (table : List φ) : Prop where
  counter_le : counter ≤ n
  id_lt : ∀ p ∈ table, id p < counter
  lt_later : ∀ p ∈ table, ∀ i ∈ later p, id p < i ∧ i ≤ n

section Drawn

variable {φ : Type*} {id : φ → Nat} {later : φ → Option Nat} {n counter : Nat} {table : List φ}

/-- Before the first draw there are no parties, and the counter is zero. -/
theorem drawn_nil : Drawn id later 0 0 ([] : List φ) where
  counter_le := Nat.le_refl 0
  id_lt _ hp := nomatch hp
  lt_later _ hp := nomatch hp

/-- More draws, of which the parties in the table have made none. -/
theorem Drawn.mono (h : Drawn id later n counter table) {n' counter' : Nat} (hn : n ≤ n')
    (hcounter : counter ≤ counter') (hle : counter' ≤ n') : Drawn id later n' counter' table where
  counter_le := hle
  id_lt p hp := Nat.lt_of_lt_of_le (h.id_lt p hp) hcounter
  lt_later p hp i hi := (h.lt_later p hp i hi).imp_right fun hi => Nat.le_trans hi hn

/-- **A party is added** under the ID that the counter stands at. -/
theorem Drawn.append (h : Drawn id later n counter table) {p : φ} (hid : id p = counter) (hlater : later p = none) :
    Drawn id later (n + 1) (counter + 1) (table ++ [p]) := by
  have hold := h.mono (Nat.le_succ n) (Nat.le_succ counter) (Nat.succ_le_succ h.counter_le)
  refine ⟨hold.counter_le, fun q hq => ?_, fun q hq i hi => ?_⟩
  · rcases List.mem_append.mp hq with hq | hq
    · exact hold.id_lt q hq
    · rw [List.mem_singleton.mp hq, hid]
      exact Nat.lt_succ_self counter
  · rcases List.mem_append.mp hq with hq | hq
    · exact hold.lt_later q hq i hi
    · rw [List.mem_singleton.mp hq, hlater] at hi
      cases hi

/-- **A party changes**, and goes on under a later ID or none. -/
theorem Drawn.set (h : Drawn id later n counter table) {f : Nat} {p p' : φ} (hf : table[f]? = some p)
    (hid : id p' = id p) (hlater : ∀ i ∈ later p', id p < i ∧ i ≤ n) :
    Drawn id later n counter (table.set f p') := by
  refine ⟨h.counter_le, fun q hq => ?_, fun q hq i hi => ?_⟩
  · rcases List.mem_or_eq_of_mem_set hq with hq | rfl
    · exact h.id_lt q hq
    · rw [hid]
      exact h.id_lt p (List.mem_of_getElem? hf)
  · rcases List.mem_or_eq_of_mem_set hq with hq | rfl
    · exact h.lt_later q hq i hi
    · rw [hid]
      exact hlater i hi

/-- **The later ID** of a party is another one. -/
theorem Drawn.ne (h : Drawn id later n counter table) {p : φ} (hp : p ∈ table) {i : Nat} (hi : i ∈ later p) :
    i ≠ id p := Nat.ne_of_gt (h.lt_later p hp i hi).1

end Drawn

end Sessions
