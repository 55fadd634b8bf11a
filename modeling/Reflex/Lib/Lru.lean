import Mathlib.Data.List.AList

namespace Lru

/-!
# Tables that forget the key used longest ago

A table has room for a number of keys.  Looking a key up marks it as used; a new key takes the place of the one
used longest ago where the table is full.

* `Ops` — the operations of such a table, and `Ops.Lawful`, what they do to each key;
* `Table` — a list of keys and values, the one used last in front;
* `Table.lawful` — it has the laws.
-/

variable {κ ν : Type*}

/-- The operations of a table `T` that maps keys to values. -/
structure Ops (T κ ν : Type*) where
  /-- a table with room for `cap` keys -/
  new : (cap : Nat) → 0 < cap → T
  /-- the value of a key -/
  lookup : T → κ → Option ν
  /-- a key is used -/
  touch : T → κ → T
  /-- a key gets a value -/
  put : T → κ → ν → T
  /-- a key is taken out -/
  pop : T → κ → T
  /-- the key that gives way when a key is put into the table -/
  evicted : T → κ → Option κ

/-- **The laws of a table**, in terms of what is under each key. -/
structure Ops.Lawful [DecidableEq κ] {T : Type*} (O : Ops T κ ν) : Prop where
  lookup_new : ∀ cap pos k, O.lookup (O.new cap pos) k = none
  lookup_touch : ∀ t k k', O.lookup (O.touch t k) k' = O.lookup t k'
  /-- the key has the value, the evicted one has none, and no other one changes -/
  lookup_put : ∀ t k v k', O.lookup (O.put t k v) k'
    = if k' = k then some v else if O.evicted t k = some k' then none else O.lookup t k'
  lookup_pop : ∀ t k k', O.lookup (O.pop t k) k' = if k' = k then none else O.lookup t k'

/-! ### A list of keys and values -/

/-- A table of at most `cap` keys, the one used last in front. -/
structure Table (κ ν : Type*) where
  cap : Nat
  entries : AList fun _ : κ => ν
  bounded : entries.keys.length ≤ cap
  pos : 0 < cap

namespace Table

variable [DecidableEq κ]

/-- The empty table. -/
def empty (cap : Nat) (pos : 0 < cap) : Table κ ν where
  cap := cap
  entries := ∅
  bounded := by simp
  pos := pos

/-- The value of a key. -/
def lookup (t : Table κ ν) (k : κ) : Option ν := t.entries.lookup k

/-- The key that gives way to `k`: the last one, if `k` is new and the table is full. -/
def evicted (t : Table κ ν) (k : κ) : Option κ :=
  if k ∈ t.entries ∨ t.entries.keys.length < t.cap then none else t.entries.keys.getLast?

/-- What is left of a table to make room for `k`. -/
def room (t : Table κ ν) (k : κ) : AList fun _ : κ => ν :=
  match t.evicted k with
  | none => t.entries
  | some old => t.entries.erase old

/-- There is room for one key, besides `k` itself. -/
theorem length_room (t : Table κ ν) (k : κ) : ((t.room k).keys.erase k).length < t.cap := by
  have hbounded := t.bounded
  have hpos := t.pos
  unfold room
  by_cases hfree : k ∈ t.entries ∨ t.entries.keys.length < t.cap
  · have hevicted : t.evicted k = none := if_pos hfree
    rw [hevicted]
    rcases hfree with hmem | hlt
    · have hlen := List.length_erase_of_mem (AList.mem_keys.mp hmem)
      have hne := List.length_pos_of_mem (AList.mem_keys.mp hmem)
      simp only
      omega
    · exact lt_of_le_of_lt List.length_erase_le hlt
  · have hevicted : t.evicted k = t.entries.keys.getLast? := if_neg hfree
    rw [hevicted]
    rcases hlast : t.entries.keys.getLast? with _ | old
    · rw [List.getLast?_eq_none_iff.mp hlast]
      exact hpos
    · have hmem : old ∈ t.entries.keys := List.mem_of_getLast? hlast
      have hlen := List.length_erase_of_mem hmem
      have hne := List.length_pos_of_mem hmem
      simp only [AList.keys_erase]
      exact lt_of_le_of_lt List.length_erase_le (by omega)

/-- `k` gets the value `v` and moves to the front. -/
def put (t : Table κ ν) (k : κ) (v : ν) : Table κ ν where
  cap := t.cap
  entries := (t.room k).insert k v
  bounded := by
    rw [AList.keys_insert, List.length_cons]
    exact t.length_room k
  pos := t.pos

/-- `k` moves to the front, if it is there. -/
def touch (t : Table κ ν) (k : κ) : Table κ ν :=
  match t.lookup k with
  | none => t
  | some v => t.put k v

/-- `k` is taken out. -/
def pop (t : Table κ ν) (k : κ) : Table κ ν where
  cap := t.cap
  entries := t.entries.erase k
  bounded := by
    rw [AList.keys_erase]
    exact le_trans List.length_erase_le t.bounded
  pos := t.pos

variable (t : Table κ ν) (k k' : κ)

/-- A key that is there gives way to none. -/
theorem evicted_of_lookup {v : ν} (h : t.lookup k = some v) : t.evicted k = none := by
  have hmem : k ∈ t.entries := AList.lookup_isSome.mp (Option.isSome_iff_exists.mpr ⟨v, h⟩)
  exact if_pos (.inl hmem)

/-- **Insertion**: the key has the value, the evicted one has none, and no other one changes. -/
theorem lookup_put (v : ν) : (t.put k v).lookup k'
    = if k' = k then some v else if t.evicted k = some k' then none else t.lookup k' := by
  show AList.lookup k' ((t.room k).insert k v) = _
  by_cases hk : k' = k
  · rw [if_pos hk, hk, AList.lookup_insert]
  · rw [if_neg hk, AList.lookup_insert_ne hk, room]
    rcases hevicted : t.evicted k with _ | old
    · rw [if_neg (Option.some_ne_none _).symm]
      rfl
    · by_cases hold : old = k'
      · rw [if_pos (congrArg some hold), ← hold]
        exact AList.lookup_erase old t.entries
      · rw [if_neg fun h => hold (Option.some.inj h)]
        exact AList.lookup_erase_ne (Ne.symm hold)

/-- Using a key changes the order only, and no lookup. -/
theorem lookup_touch : (t.touch k).lookup k' = t.lookup k' := by
  unfold touch
  rcases hv : t.lookup k with _ | v
  · rfl
  · simp only [lookup_put, t.evicted_of_lookup k hv]
    by_cases hk : k' = k
    · rw [if_pos hk, hk, hv]
    · rw [if_neg hk, if_neg (Option.some_ne_none _).symm]

/-- **Removal** takes the entry of its key and no other one. -/
theorem lookup_pop : (t.pop k).lookup k' = if k' = k then none else t.lookup k' := by
  show AList.lookup k' (t.entries.erase k) = _
  by_cases hk : k' = k
  · rw [if_pos hk, hk, AList.lookup_erase]
  · rw [if_neg hk, AList.lookup_erase_ne hk]
    rfl

/-- The operations of the list. -/
def ops : Ops (Table κ ν) κ ν where
  new := empty
  lookup := lookup
  touch := touch
  put := put
  pop := pop
  evicted := evicted

/-- **The list is such a table**: its lookups behave as is asked of any implementation. -/
theorem lawful : (ops : Ops (Table κ ν) κ ν).Lawful where
  lookup_new _ _ _ := rfl
  lookup_touch t k k' := t.lookup_touch k k'
  lookup_put t k v k' := t.lookup_put k k' v
  lookup_pop t k k' := t.lookup_pop k k'

end Table

end Lru
