import Mathlib.Algebra.Order.Ring.Nat
import Mathlib.Data.List.Infix
import Mathlib.Data.Nat.Bitwise
import Mathlib.Tactic.Common
import Mathlib.Tactic.Ring

namespace PrefixCode

/-!
# Bit strings and prefix codes

* `value`, `word` — a string of bits as a number, the highest bit first, and back;
* `word_isPrefix_iff` — when a word stands at the front of a string;
* `bitsOf`, `pack` — the bits of bytes, and the bytes of bits;
* `Instantaneous` — no word of a code is a proper start of another one, so the word at the front of a
  string is determined (`Instantaneous.eq_of_isPrefix`);
* `groups_sound` — a code that can be sorted bit by bit is instantaneous;
* `decode_encode` — a decoder that takes one word after another finds what was encoded, up to symbols
  with the same word.
-/

/-! ### Numbers -/

/-- The number that a string of bits stands for. -/
def value (bits : List Bool) : Nat := bits.foldl (fun n b => 2 * n + b.toNat) 0

/-- The `len` lowest bits of a number. -/
def word : Nat → Nat → List Bool
  | 0, _ => []
  | len + 1, code => code.testBit len :: word len code

@[simp] theorem value_nil : value [] = 0 := rfl

theorem value_concat (bits : List Bool) (b : Bool) : value (bits ++ [b]) = 2 * value bits + b.toNat := by
  rw [value, List.foldl_append]
  rfl

theorem value_append (xs ys : List Bool) : value (xs ++ ys) = value xs * 2 ^ ys.length + value ys := by
  induction ys using List.reverseRecOn with
  | nil => simp
  | append_singleton ys b ih =>
    rw [← List.append_assoc, value_concat, ih, value_concat, List.length_append, List.length_singleton,
      Nat.pow_succ]
    ring

theorem value_cons (b : Bool) (bits : List Bool) :
    value (b :: bits) = b.toNat * 2 ^ bits.length + value bits := by
  have h := value_append [b] bits
  simpa [value] using h

theorem value_lt (bits : List Bool) : value bits < 2 ^ bits.length := by
  induction bits with
  | nil => exact Nat.one_pos
  | cons b bits ih =>
    have hb := b.toNat_le
    rw [value_cons, List.length_cons, Nat.pow_succ]
    have hmul : b.toNat * 2 ^ bits.length ≤ 1 * 2 ^ bits.length := Nat.mul_le_mul_right _ hb
    omega

/-- Strings of one length are told apart by their numbers. -/
theorem value_inj {xs ys : List Bool} (hlen : xs.length = ys.length) (h : value xs = value ys) :
    xs = ys := by
  induction xs generalizing ys with
  | nil => exact (List.eq_nil_of_length_eq_zero hlen.symm).symm
  | cons x xs ih =>
    cases ys with
    | nil => cases hlen
    | cons y ys =>
      have hx := value_lt xs
      have hy := value_lt ys
      rw [value_cons, value_cons, Nat.succ.inj hlen] at h
      rw [Nat.succ.inj hlen] at hx
      have hhead : x = y := by
        cases x <;> cases y <;> simp only [Bool.toNat_false, Bool.toNat_true] at h <;> first
          | rfl
          | omega
      subst hhead
      rw [ih (Nat.succ.inj hlen) (Nat.add_left_cancel h)]

/-- The bits at the front are the high ones. -/
theorem value_take {n : Nat} (bits : List Bool) (h : n ≤ bits.length) :
    value (bits.take n) = value bits >>> (bits.length - n) := by
  have hdrop : (bits.drop n).length = bits.length - n := List.length_drop
  have hlt := value_lt (bits.drop n)
  conv_rhs => rw [← List.take_append_drop n bits]
  rw [value_append, List.length_append, List.length_take_of_le h, hdrop, Nat.add_sub_cancel_left,
    Nat.shiftRight_eq_div_pow, Nat.mul_comm, Nat.mul_add_div (Nat.two_pow_pos _), ← hdrop,
    Nat.div_eq_of_lt hlt, Nat.add_zero]

@[simp] theorem length_word (len code : Nat) : (word len code).length = len := by
  induction len with
  | zero => rfl
  | succ len ih => rw [word, List.length_cons, ih]

theorem getElem?_word {len q : Nat} (h : q < len) (code : Nat) :
    (word len code)[q]? = some (code.testBit (len - 1 - q)) := by
  induction len generalizing q with
  | zero => exact absurd h (Nat.not_lt_zero q)
  | succ len ih =>
    cases q with
    | zero => rfl
    | succ q =>
      rw [word, List.getElem?_cons_succ, ih (by omega)]
      congr 2
      omega

theorem value_word_mod (len code : Nat) : value (word len code) = code % 2 ^ len := by
  induction len with
  | zero => rw [word, value_nil, Nat.pow_zero, Nat.mod_one]
  | succ len ih =>
    rw [word, value_cons, length_word, ih, Nat.toNat_testBit, Nat.mod_pow_succ, Nat.mul_comm,
      Nat.add_comm]

theorem value_word {len code : Nat} (h : code < 2 ^ len) : value (word len code) = code := by
  rw [value_word_mod, Nat.mod_eq_of_lt h]

/-- **A word at the front** is there if the first bits have its number. -/
theorem word_isPrefix_iff {len code : Nat} (h : code < 2 ^ len) {bits : List Bool} :
    word len code <+: bits ↔ len ≤ bits.length ∧ value (bits.take len) = code := by
  constructor
  · intro hword
    have hlen := hword.length_le
    rw [length_word] at hlen
    refine ⟨hlen, ?_⟩
    rw [List.prefix_iff_eq_take, length_word] at hword
    rw [← hword, value_word h]
  · rintro ⟨hlen, hvalue⟩
    rw [List.prefix_iff_eq_take, length_word]
    refine value_inj (by rw [length_word, List.length_take_of_le hlen]) ?_
    rw [value_word h, hvalue]

/-! ### Bytes -/

/-- The bits of bytes, the highest one of each first. -/
def bitsOf (data : List UInt8) : List Bool := data.flatMap fun b => word 8 b.toNat

/-- The bytes that bits make up, eight by eight. -/
def packGo : Nat → List Bool → List UInt8
  | 0, _ => []
  | n + 1, bits => UInt8.ofNat (value (bits.take 8)) :: packGo n (bits.drop 8)

/-- The bytes of bits whose number is divisible by eight. -/
def pack (bits : List Bool) : List UInt8 := packGo (bits.length / 8) bits

@[simp] theorem length_bitsOf (data : List UInt8) : (bitsOf data).length = data.length * 8 := by
  induction data with
  | nil => rfl
  | cons b data ih =>
    rw [bitsOf, List.flatMap_cons, List.length_append, length_word, List.length_cons]
    rw [bitsOf] at ih
    omega

theorem bitsOf_packGo {n : Nat} {bits : List Bool} (h : bits.length = n * 8) :
    bitsOf (packGo n bits) = bits := by
  induction n generalizing bits with
  | zero => exact (List.eq_nil_of_length_eq_zero (by omega)).symm
  | succ n ih =>
    have htake : (bits.take 8).length = 8 := List.length_take_of_le (by omega)
    have hbyte := value_lt (bits.take 8)
    rw [htake] at hbyte
    have hword : word 8 (UInt8.ofNat (value (bits.take 8))).toNat = bits.take 8 := by
      refine value_inj (by rw [length_word, htake]) ?_
      rw [UInt8.toNat_ofNat', Nat.mod_eq_of_lt hbyte, value_word hbyte]
    have hdrop : (bits.drop 8).length = n * 8 := by
      rw [List.length_drop]
      omega
    have hrest := ih hdrop
    rw [bitsOf] at hrest
    rw [packGo, bitsOf, List.flatMap_cons, hword, hrest, List.take_append_drop]

/-- **Round trip** of bits that fill whole bytes. -/
theorem bitsOf_pack {bits : List Bool} (h : 8 ∣ bits.length) : bitsOf (pack bits) = bits :=
  bitsOf_packGo (Nat.div_mul_cancel h).symm

/-- A bit of bytes, as it is read. -/
theorem getElem?_bitsOf {data : List UInt8} {p : Nat} (h : p / 8 < data.length) :
    (bitsOf data)[p]? = some (data[p / 8].toNat.testBit (7 - p % 8)) := by
  induction data generalizing p with
  | nil => exact absurd h (Nat.not_lt_zero _)
  | cons b data ih =>
    rw [bitsOf, List.flatMap_cons]
    by_cases hp : p < 8
    · have hdiv : p / 8 = 0 := Nat.div_eq_of_lt hp
      rw [List.getElem?_append_left (by rw [length_word]; exact hp), getElem?_word hp]
      simp only [hdiv, List.getElem_cons_zero, Nat.mod_eq_of_lt hp]
    · have hdiv : p / 8 = (p - 8) / 8 + 1 := by omega
      have hmod : (p - 8) % 8 = p % 8 := by omega
      rw [List.length_cons] at h
      have hrest := ih (p := p - 8) (by omega)
      rw [bitsOf] at hrest
      rw [List.getElem?_append_right (by rw [length_word]; omega), length_word, hrest, hmod]
      simp only [hdiv, List.getElem_cons_succ]

/-! ### Codes -/

variable {ι α : Type*} {words : ι → List α}

/-- No word is a proper start of another one. -/
def Instantaneous (words : ι → List α) : Prop := ∀ i j, words i <+: words j → words i = words j

/-- The word at the front of a string is determined. -/
theorem Instantaneous.eq_of_isPrefix (h : Instantaneous words) {i j : ι} {l : List α}
    (hi : words i <+: l) (hj : words j <+: l) : words i = words j := by
  rcases List.prefix_or_prefix_of_prefix hi hj with hij | hji
  · exact h i j hij
  · exact (h j i hji).symm

/-- The words of symbols, one after the other. -/
def encode (words : ι → List α) (s : List ι) : List α := s.flatMap words

theorem length_le_length_encode (s : List ι) (h : ∀ i ∈ s, words i ≠ []) :
    s.length ≤ (encode words s).length := by
  induction s with
  | nil => exact Nat.zero_le _
  | cons i s ih =>
    have hpos := List.length_pos_iff.mpr (h i List.mem_cons_self)
    have hrest := ih fun j hj => h j (List.mem_cons_of_mem i hj)
    rw [encode] at hrest
    rw [encode, List.flatMap_cons, List.length_append, List.length_cons]
    omega

/-- A decoder that takes the word of a symbol that `next` finds at the front, as long as there is
    one. -/
def decode (words : ι → List α) (next : List α → Option ι) : Nat → List α → List ι
  | 0, _ => []
  | fuel + 1, l =>
      match next l with
      | none => []
      | some i => i :: decode words next fuel (l.drop (words i).length)

/-- **Round trip**, with `rep i` for the symbol that is found where the word of `i` stands. -/
theorem decode_encode {next : List α → Option ι} {rep : ι → ι} {s : List ι} {pad : List α}
    (hword : ∀ i ∈ s, words (rep i) = words i)
    (hnext : ∀ i ∈ s, ∀ l, next (words i ++ l) = some (rep i)) (hpad : next pad = none) {fuel : Nat}
    (hfuel : s.length < fuel) : decode words next fuel (encode words s ++ pad) = s.map rep := by
  induction s generalizing fuel with
  | nil =>
    obtain ⟨fuel, rfl⟩ : ∃ n, fuel = n + 1 := ⟨fuel - 1, by omega⟩
    show decode words next (fuel + 1) pad = []
    rw [decode, hpad]
  | cons i s ih =>
    rw [List.length_cons] at hfuel
    obtain ⟨fuel, rfl⟩ : ∃ n, fuel = n + 1 := ⟨fuel - 1, by omega⟩
    rw [encode, List.flatMap_cons, List.append_assoc, decode, hnext i List.mem_cons_self, List.map_cons]
    dsimp only
    rw [hword i List.mem_cons_self, List.drop_left]
    congr 1
    exact ih (fun j hj => hword j (List.mem_cons_of_mem i hj))
      (fun j hj => hnext j (List.mem_cons_of_mem i hj)) (by omega)

/-! ### Checking a code -/

/-- The symbols whose words start with `b`, with the rest of their words. -/
def behind (b : Bool) (ws : List (List Bool × ι)) : List (List Bool × ι) :=
  ws.filterMap fun (w, i) =>
    match w with
    | [] => none
    | c :: rest => if c = b then some (rest, i) else none

/-- Sorts the symbols of a code by their words, one bit after the other; `none` if a word ends where
    another one goes on. -/
def groups : Nat → List (List Bool × ι) → Option (List (List ι))
  | 0, _ => none
  | fuel + 1, ws =>
      if ws.all fun (w, _) => w.isEmpty then some [ws.map Prod.snd]
      else if ws.any fun (w, _) => w.isEmpty then none
      else do
        let zeros ← groups fuel (behind false ws)
        let ones ← groups fuel (behind true ws)
        return zeros ++ ones

theorem mem_behind {b : Bool} {ws : List (List Bool × ι)} {w : List Bool} {i : ι} :
    (w, i) ∈ behind b ws ↔ (b :: w, i) ∈ ws := by
  rw [behind, List.mem_filterMap]
  constructor
  · rintro ⟨⟨_ | ⟨c, rest⟩, j⟩, hmem, h⟩
    · cases h
    · obtain ⟨rfl, heq⟩ := Option.ite_none_right_eq_some.mp h
      obtain ⟨rfl, rfl⟩ := Prod.mk.inj (Option.some.inj heq)
      exact hmem
  · intro hmem
    exact ⟨(b :: w, i), hmem, if_pos rfl⟩

/-- **A code that can be sorted** is a prefix code, and only symbols of one group share a word. -/
theorem groups_sound {fuel : Nat} {ws : List (List Bool × ι)} {gs : List (List ι)}
    (h : groups fuel ws = some gs) {u v : List Bool} {i j : ι} (hu : (u, i) ∈ ws) (hv : (v, j) ∈ ws)
    (huv : u <+: v) : u = v ∧ ∃ g ∈ gs, i ∈ g ∧ j ∈ g := by
  induction fuel generalizing ws gs u v with
  | zero => cases h
  | succ fuel ih =>
    rw [groups] at h
    split at h
    · -- all words end here
      rename_i hall
      obtain rfl := Option.some.inj h
      have hnil : ∀ x y, (x, y) ∈ ws → x = [] := fun x y hx =>
        List.isEmpty_iff.mp (List.all_eq_true.mp hall (x, y) hx)
      rw [hnil u i hu, hnil v j hv]
      exact ⟨rfl, _, List.mem_singleton_self _, List.mem_map.mpr ⟨_, hu, rfl⟩,
        List.mem_map.mpr ⟨_, hv, rfl⟩⟩
    · split at h
      · cases h
      · rename_i hany
        obtain ⟨zeros, hzeros, h⟩ := Option.bind_eq_some_iff.mp h
        obtain ⟨ones, hones, h⟩ := Option.bind_eq_some_iff.mp h
        obtain rfl := Option.some.inj h
        have hne : u ≠ [] := by
          rintro rfl
          exact hany (List.any_eq_true.mpr ⟨_, hu, rfl⟩)
        obtain ⟨b, u, rfl⟩ := List.exists_cons_of_ne_nil hne
        obtain ⟨t, rfl⟩ := huv
        -- both words go on with the same bit
        have hrest : u <+: u ++ t := List.prefix_append u t
        cases b with
        | false =>
          obtain ⟨heq, g, hg, hi, hj⟩ := ih hzeros (mem_behind.mpr hu) (mem_behind.mpr hv) hrest
          exact ⟨congrArg _ heq, g, List.mem_append_left _ hg, hi, hj⟩
        | true =>
          obtain ⟨heq, g, hg, hi, hj⟩ := ih hones (mem_behind.mpr hu) (mem_behind.mpr hv) hrest
          exact ⟨congrArg _ heq, g, List.mem_append_right _ hg, hi, hj⟩

end PrefixCode
