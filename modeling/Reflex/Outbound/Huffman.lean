import Mathlib.Data.List.GetD
import Reflex.Lib.Machine
import Reflex.Lib.PrefixCode
import Reflex.RustStd.Slice
import Reflex.RustStd.Str

namespace Reflex.Hy2

open RustStd Machine PrefixCode

/-!
# Hysteria2 — the Huffman code of header strings

`huffman_decode` of `outbound/hy2.rs` looks for the shortest word of its table at the front of the bits
that are left, and among the symbols with that word for the first.

* `codeword_isPrefix` — the table is a prefix code but for two words that it has twice;
* `huffmanDecode_eq` — no index and no shift is out of bounds, and the loop takes one word after
  another;
* `huffman_roundTrips_iff` — what is encoded is decoded, exactly if the octet 22 is not in it.
-/

/-- `TABLE`: the word of every symbol and its length; 256 is the end of the string. -/
def huffmanTable : List (Nat × Nat) :=
  [(0x1ff8, 13), (0x7fffd8, 23), (0xfffffe2, 28), (0xfffffe3, 28), (0xfffffe4, 28),
   (0xfffffe5, 28), (0xfffffe6, 28), (0xfffffe7, 28), (0xfffffe8, 28), (0xffffea, 24),
   (0x3fffffff, 30), (0xfffffe9, 28), (0xfffffea, 28), (0x3ffffffe, 30), (0xfffffeb, 28),
   (0xfffffec, 28), (0xfffffed, 28), (0xfffffee, 28), (0xfffffef, 28), (0xffffff0, 28),
   (0xffffff1, 28), (0xffffff2, 28), (0x3ffffffe, 30), (0xffffff3, 28), (0xffffff4, 28),
   (0xffffff5, 28), (0xffffff6, 28), (0xffffff7, 28), (0xffffff8, 28), (0xffffff9, 28),
   (0xffffffa, 28), (0xffffffb, 28), (0x14, 6), (0x3f8, 10), (0x3f9, 10), (0xffa, 12),
   (0x1ff9, 13), (0x15, 6), (0xf8, 8), (0x7fa, 11), (0x3fa, 10), (0x3fb, 10), (0xf9, 8),
   (0x7fb, 11), (0xfa, 8), (0x16, 6), (0x17, 6), (0x18, 6), (0x0, 5), (0x1, 5), (0x2, 5),
   (0x19, 6), (0x1a, 6), (0x1b, 6), (0x1c, 6), (0x1d, 6), (0x1e, 6), (0x1f, 6), (0x5c, 7),
   (0xfb, 8), (0x7ffc, 15), (0x20, 6), (0xffb, 12), (0x3fc, 10), (0x1ffa, 13), (0x21, 6),
   (0x5d, 7), (0x5e, 7), (0x5f, 7), (0x60, 7), (0x61, 7), (0x62, 7), (0x63, 7), (0x64, 7),
   (0x65, 7), (0x66, 7), (0x67, 7), (0x68, 7), (0x69, 7), (0x6a, 7), (0x6b, 7), (0x6c, 7),
   (0x6d, 7), (0x6e, 7), (0x6f, 7), (0x70, 7), (0x71, 7), (0x72, 7), (0xfc, 8), (0x73, 7),
   (0xfd, 8), (0x1ffb, 13), (0x7fff0, 19), (0x1ffc, 13), (0x3ffc, 14), (0x22, 6),
   (0x7ffd, 15), (0x3, 5), (0x23, 6), (0x4, 5), (0x24, 6), (0x5, 5), (0x25, 6), (0x26, 6),
   (0x27, 6), (0x6, 5), (0x74, 7), (0x75, 7), (0x28, 6), (0x29, 6), (0x2a, 6), (0x7, 5),
   (0x2b, 6), (0x76, 7), (0x2c, 6), (0x8, 5), (0x9, 5), (0x2d, 6), (0x77, 7), (0x78, 7),
   (0x79, 7), (0x7a, 7), (0x7b, 7), (0x7ffe, 15), (0x7fc, 11), (0x3ffd, 14), (0x1ffd, 13),
   (0xffffffc, 28), (0xfffe6, 20), (0x3fffd2, 22), (0xfffe7, 20), (0xfffe8, 20),
   (0x3fffd3, 22), (0x3fffd4, 22), (0x3fffd5, 22), (0x7fffd9, 23), (0x3fffd6, 22),
   (0x7fffda, 23), (0x7fffdb, 23), (0x7fffdc, 23), (0x7fffdd, 23), (0x7fffde, 23),
   (0xffffeb, 24), (0x7fffdf, 23), (0xffffec, 24), (0xffffed, 24), (0x3fffd7, 22),
   (0x7fffe0, 23), (0xffffee, 24), (0x7fffe1, 23), (0x7fffe2, 23), (0x7fffe3, 23),
   (0x7fffe4, 23), (0x1fffdc, 21), (0x3fffd8, 22), (0x7fffe5, 23), (0x3fffd9, 22),
   (0x7fffe6, 23), (0x7fffe7, 23), (0xffffef, 24), (0x3fffda, 22), (0x1fffdd, 21),
   (0xfffe9, 20), (0x3fffdb, 22), (0x3fffdc, 22), (0x7fffe8, 23), (0x7fffe9, 23),
   (0x1fffde, 21), (0x7fffea, 23), (0x3fffdd, 22), (0x3fffde, 22), (0xfffff0, 24),
   (0x1fffdf, 21), (0x3fffdf, 22), (0x7fffeb, 23), (0x7fffec, 23), (0x1fffe0, 21),
   (0x1fffe1, 21), (0x3fffe0, 22), (0x1fffe2, 21), (0x7fffed, 23), (0x3fffe1, 22),
   (0x7fffee, 23), (0x7fffef, 23), (0xfffea, 20), (0x3fffe2, 22), (0x3fffe3, 22),
   (0x3fffe4, 22), (0x7ffff0, 23), (0x3fffe5, 22), (0x3fffe6, 22), (0x7ffff1, 23),
   (0x3ffffe0, 26), (0x3ffffe1, 26), (0xfffeb, 20), (0x7fff1, 19), (0x3fffe7, 22),
   (0x7ffff2, 23), (0x3fffe8, 22), (0x1ffffec, 25), (0x3ffffe2, 26), (0x3ffffe3, 26),
   (0x3ffffe4, 26), (0x7ffffde, 27), (0x7ffffdf, 27), (0x3ffffe5, 26), (0xfffff1, 24),
   (0x1ffffed, 25), (0x7fff2, 19), (0x1fffe3, 21), (0x3ffffe6, 26), (0x7ffffe0, 27),
   (0x7ffffe1, 27), (0x3ffffe7, 26), (0x7ffffe2, 27), (0xfffff2, 24), (0x1fffe4, 21),
   (0x1fffe5, 21), (0x3ffffe8, 26), (0x3ffffe9, 26), (0xffffffd, 28), (0x7ffffe3, 27),
   (0x7ffffe4, 27), (0x7ffffe5, 27), (0xfffec, 20), (0xfffff3, 24), (0xfffed, 20),
   (0x1fffe6, 21), (0x3fffe9, 22), (0x1fffe7, 21), (0x1fffe8, 21), (0x7ffff3, 23),
   (0x3fffea, 22), (0x3fffeb, 22), (0x1ffffee, 25), (0x1ffffef, 25), (0xfffff4, 24),
   (0xfffff5, 24), (0x3ffffea, 26), (0x7ffff4, 23), (0x3ffffeb, 26), (0x7ffffe6, 27),
   (0x3ffffec, 26), (0x3ffffed, 26), (0x7ffffe7, 27), (0x7ffffe8, 27), (0x7ffffe9, 27),
   (0x7ffffea, 27), (0x7ffffeb, 27), (0xffffffe, 28), (0x7ffffec, 27), (0x7ffffed, 27),
   (0x7ffffee, 27), (0x7ffffef, 27), (0x7fffff0, 27), (0x3ffffee, 26), (0x3fffffff, 30)]

/-! ### The decoder -/

/-- One round of the loop that fills the window. -/
def fetchBit (data : Bytes) (bitPos window fetched : Nat) : Checked Nat := do
  let bp := bitPos + fetched
  let byte ← index data (bp / 8)
  let bitIdx ← sub 7 (bp % 8)
  let bit ← shr 8 byte.toNat bitIdx
  let window ← shl 64 window 1
  return window ||| (bit &&& 1)

/-- The words of one length: the first symbol, and the length. -/
def matchLen (window tryBits len : Nat) : Checked (Option (Nat × Nat)) :=
  if tryBits < len then return none
  else do
    let shift ← sub tryBits len
    let candidate ← shr 64 window shift
    let sym := huffmanTable.findIdx? fun (code, codeLen) =>
      decide (codeLen = len ∧ code = candidate % 2 ^ 32)
    return sym.map fun sym => (sym, len)

/-- One round of the loop of `huffman_decode`. -/
def huffmanRound (data : Bytes) (totalBits bitPos : Nat) : Checked (Option (Nat × Nat)) := do
  let remaining ← sub totalBits bitPos
  let tryBits := min remaining 30
  let window ← (List.range tryBits).foldlM (fetchBit data bitPos) 0
  (List.range' 5 26).findSomeM? (matchLen window tryBits)

/-- A round that finds a symbol goes on. -/
theorem lt_of_huffmanRound {data : Bytes} {totalBits bitPos sym len : Nat}
    (h : huffmanRound data totalBits bitPos = .ok (some (sym, len))) : 0 < len := by
  have hlen : ∀ window tryBits l, matchLen window tryBits l = .ok (some (sym, len)) → len = l := by
    intro window tryBits l hl
    rw [matchLen] at hl
    split at hl
    · cases hl
    · obtain ⟨shift, -, hl⟩ := bind_eq_ok.mp hl
      obtain ⟨candidate, -, hl⟩ := bind_eq_ok.mp hl
      obtain ⟨s, -, hs⟩ := Option.map_eq_some_iff.mp (Except.ok.inj hl)
      exact (Prod.mk.inj hs).2.symm
  have hsome : ∀ window tryBits (ls : List Nat),
      ls.findSomeM? (matchLen window tryBits) = .ok (some (sym, len)) → len ∈ ls := by
    intro window tryBits ls hls
    induction ls with
    | nil => cases hls
    | cons l ls ih =>
      rw [List.findSomeM?_cons] at hls
      obtain ⟨r, hr, hls⟩ := bind_eq_ok.mp hls
      cases r with
      | none => exact List.mem_cons_of_mem l (ih hls)
      | some r =>
        obtain rfl := Option.some.inj (Except.ok.inj hls)
        rw [hlen _ _ _ hr]
        exact List.mem_cons_self
  obtain ⟨remaining, -, h⟩ := bind_eq_ok.mp h
  obtain ⟨window, -, h⟩ := bind_eq_ok.mp h
  have hmem := List.mem_range'_1.mp (hsome _ _ _ h)
  omega

/-- The loop of `huffman_decode`. -/
def huffmanGo (data : Bytes) (totalBits bitPos : Nat) (out : Bytes) : Checked Bytes :=
  if bitPos < totalBits then
    match _hround : huffmanRound data totalBits bitPos with
    | .error e => .error e
    | .ok none => .ok out
    | .ok (some (sym, len)) =>
        if sym = 256 then .ok out
        else huffmanGo data totalBits (bitPos + len) (out ++ [UInt8.ofNat sym])
  else .ok out
termination_by totalBits - bitPos
decreasing_by
  have hlen := lt_of_huffmanRound _hround
  omega

/-- `huffman_decode`. -/
def huffmanDecode (data : Bytes) : Checked Str := do
  let totalBits ← mul 64 data.length 8
  let out ← huffmanGo data totalBits 0 []
  return fromUtf8Lossy out

/-! ### The code -/

/-- The word of a symbol. -/
def codeword (sym : Nat) : List Bool :=
  let (code, len) := huffmanTable.getD sym (0, 0)
  word len code

/-- The first symbol with the word of this one. -/
def firstSymbol (sym : Nat) : Nat := if sym = 22 then 13 else if sym = 256 then 10 else sym

/-- The words of the octets, with ones up to the next byte. -/
def huffmanEncode (s : Bytes) : Bytes :=
  let bits := encode codeword (s.map UInt8.toNat)
  pack (bits ++ List.replicate ((8 - bits.length % 8) % 8) true)

/-- The table: its length, the bounds of its words, the two pairs of symbols with one word, and that bit
    by bit it falls apart into single symbols, but for the two pairs. -/
private theorem table_facts :
    huffmanTable.length = 257 ∧
    (∀ e ∈ huffmanTable, 5 ≤ e.2 ∧ e.2 ≤ 30 ∧ e.1 < 2 ^ e.2) ∧
    huffmanTable.getD 13 (0, 0) = huffmanTable.getD 22 (0, 0) ∧
    huffmanTable.getD 10 (0, 0) = huffmanTable.getD 256 (0, 0) ∧
    (groups 31 (huffmanTable.zipIdx.map fun (e, sym) => (word e.2 e.1, sym))).any (fun gs =>
      gs.all fun g => Nat.ble g.length 1 || g == [10, 256] || g == [13, 22]) = true := by
  decide +kernel

theorem length_huffmanTable : huffmanTable.length = 257 := table_facts.1

/-- Symbols with one word have one entry. -/
private theorem table_firstSymbol (sym : Nat) :
    huffmanTable.getD (firstSymbol sym) (0, 0) = huffmanTable.getD sym (0, 0) := by
  obtain ⟨-, -, h13, h10, -⟩ := table_facts
  unfold firstSymbol
  split_ifs with h22 h256
  · rw [h22, h13]
  · rw [h256, h10]
  · rfl

theorem getElem?_huffmanTable {sym : Nat} (h : sym < 257) :
    huffmanTable[sym]? = some (huffmanTable.getD sym (0, 0)) := by
  rw [← length_huffmanTable] at h
  rw [List.getD_eq_getElem _ _ h, List.getElem?_eq_getElem h]

theorem entry_bounds {sym : Nat} (h : sym < 257) :
    5 ≤ (huffmanTable.getD sym (0, 0)).2 ∧ (huffmanTable.getD sym (0, 0)).2 ≤ 30 ∧
      (huffmanTable.getD sym (0, 0)).1 < 2 ^ (huffmanTable.getD sym (0, 0)).2 :=
  table_facts.2.1 _ (List.mem_of_getElem? (getElem?_huffmanTable h))

theorem length_codeword (sym : Nat) : (codeword sym).length = (huffmanTable.getD sym (0, 0)).2 :=
  length_word ..

theorem codeword_firstSymbol (sym : Nat) : codeword (firstSymbol sym) = codeword sym := by
  rw [codeword, table_firstSymbol, codeword]

/-- **The table** is a prefix code, but the symbols 10 and 256 have the same word, and the symbols 13
    and 22. -/
theorem codeword_isPrefix {i j : Nat} (hi : i < 257) (hj : j < 257) (h : codeword i <+: codeword j) :
    codeword i = codeword j ∧ firstSymbol i = firstSymbol j := by
  obtain ⟨gs, hgs, hall⟩ := (Option.any_eq_true _ _).mp table_facts.2.2.2.2
  have hmem : ∀ sym, sym < 257 →
      (codeword sym, sym) ∈ huffmanTable.zipIdx.map fun (e, sym) => (word e.2 e.1, sym) := by
    intro sym hsym
    refine List.mem_map.mpr ⟨(huffmanTable.getD sym (0, 0), sym), ?_, rfl⟩
    exact List.mk_mem_zipIdx_iff_getElem?.mpr (getElem?_huffmanTable hsym)
  obtain ⟨heq, g, hg, hig, hjg⟩ := groups_sound hgs (hmem i hi) (hmem j hj) h
  refine ⟨heq, ?_⟩
  have hsmall := List.all_eq_true.mp hall g hg
  simp only [Bool.or_eq_true, beq_iff_eq, Nat.ble_eq] at hsmall
  rcases hsmall with (hone | rfl) | rfl
  · obtain ⟨k, rfl⟩ := List.length_eq_one_iff.mp
      (le_antisymm hone (List.length_pos_of_mem hig))
    rw [List.mem_singleton.mp hig, List.mem_singleton.mp hjg]
  · simp only [List.mem_cons, List.not_mem_nil, or_false] at hig hjg
    rcases hig with rfl | rfl <;> rcases hjg with rfl | rfl <;> rfl
  · simp only [List.mem_cons, List.not_mem_nil, or_false] at hig hjg
    rcases hig with rfl | rfl <;> rcases hjg with rfl | rfl <;> rfl

theorem firstSymbol_le (sym : Nat) : firstSymbol sym ≤ sym := by
  unfold firstSymbol
  split_ifs <;> omega

theorem exists_symbol_of_mem {e : Nat × Nat} (h : e ∈ huffmanTable) :
    ∃ sym < 257, huffmanTable.getD sym (0, 0) = e := by
  obtain ⟨sym, hlt, rfl⟩ := List.getElem_of_mem h
  refine ⟨sym, by rw [← length_huffmanTable]; exact hlt, ?_⟩
  rw [List.getD_eq_getElem _ _ hlt]

theorem codewords_instantaneous : Instantaneous fun sym : Fin 257 => codeword sym :=
  fun i j h => (codeword_isPrefix i.isLt j.isLt h).1

/-! ### The symbol at the front -/

/-- The symbol with the shortest word at the front, and the length of the word. -/
def symbolAt (rest : List Bool) : Option (Nat × Nat) :=
  (List.range' 5 26).findSome? fun len =>
    if rest.length < len then none
    else (huffmanTable.findIdx? fun (code, codeLen) =>
      decide (codeLen = len ∧ code = value (rest.take len))).map fun sym => (sym, len)

/-- Where an entry is found, its word is at the front. -/
theorem entry_isPrefix {sym : Nat} (h : sym < 257) {rest : List Bool} :
    codeword sym <+: rest ↔ (huffmanTable.getD sym (0, 0)).2 ≤ rest.length ∧
      (huffmanTable.getD sym (0, 0)).1 = value (rest.take (huffmanTable.getD sym (0, 0)).2) := by
  rw [codeword, word_isPrefix_iff (entry_bounds h).2.2, eq_comm (b := value _)]

private theorem lengths_split {len : Nat} (h : 5 ≤ len) (h' : len ≤ 30) :
    List.range' 5 26 = List.range' 5 (len - 5) ++ len :: List.range' (len + 1) (30 - len) := by
  obtain ⟨k, rfl⟩ := Nat.exists_eq_add_of_le h
  rw [← List.range'_succ, Nat.add_sub_cancel_left, List.range'_append_1]
  congr 1
  omega

/-- **The word at the front** is found under its first symbol. -/
theorem symbolAt_codeword {sym : Nat} (h : sym < 257) (l : List Bool) :
    symbolAt (codeword sym ++ l) = some (firstSymbol sym, (codeword sym).length) := by
  have hfront : codeword sym <+: codeword sym ++ l := List.prefix_append ..
  obtain ⟨hlow, hhigh, -⟩ := entry_bounds h
  obtain ⟨hle, hvalue⟩ := (entry_isPrefix h).mp hfront
  rw [← length_codeword] at hlow hhigh hle hvalue
  -- an entry that is found has the word of the symbol
  have hfound : ∀ i < 257, ∀ len ≤ (codeword sym ++ l).length,
      (huffmanTable.getD i (0, 0)).2 = len →
      (huffmanTable.getD i (0, 0)).1 = value ((codeword sym ++ l).take len) →
      codeword i = codeword sym ∧ firstSymbol i = firstSymbol sym := by
    rintro i hi len hlen rfl hval
    have heq : codeword i = codeword sym := codewords_instantaneous.eq_of_isPrefix
      (i := ⟨i, hi⟩) (j := ⟨sym, h⟩) ((entry_isPrefix hi).mpr ⟨hlen, hval⟩) hfront
    exact codeword_isPrefix hi h (by rw [heq])
  refine List.findSome?_eq_some_iff.mpr ⟨_, _, _, lengths_split hlow hhigh, ?_, fun len hlen => ?_⟩
  · have hfirst : firstSymbol sym < huffmanTable.length := by
      rw [length_huffmanTable]
      exact (firstSymbol_le sym).trans_lt h
    rw [if_neg (not_lt.mpr hle), Option.map_eq_some_iff]
    refine ⟨firstSymbol sym, List.findIdx?_eq_some_iff_getElem.mpr ⟨hfirst, ?_, ?_⟩, rfl⟩
    · have hentry : huffmanTable[firstSymbol sym] = huffmanTable.getD sym (0, 0) := by
        rw [← table_firstSymbol, List.getD_eq_getElem _ _ hfirst]
      rw [hentry]
      exact decide_eq_true ⟨(length_codeword sym).symm, hvalue⟩
    · intro j hj hpred
      have hj' : j < 257 := by
        rw [length_huffmanTable] at hfirst
        omega
      rw [← List.getD_eq_getElem huffmanTable (0, 0)] at hpred
      obtain ⟨hlenj, hvalj⟩ := of_decide_eq_true hpred
      have hsame := (hfound j hj' _ hle hlenj hvalj).2
      have hjle := firstSymbol_le j
      omega
  · have hlen := List.mem_range'_1.mp hlen
    rw [if_neg (by omega), Option.map_eq_none_iff, List.findIdx?_eq_none_iff]
    intro e he
    obtain ⟨i, hi, rfl⟩ := exists_symbol_of_mem he
    refine decide_eq_false fun ⟨hleni, hvali⟩ => ?_
    have hsame := (hfound i hi len (by omega) hleni hvali).1
    have hentry : (huffmanTable.getD i (0, 0)).2 = len := hleni
    rw [← hsame, length_codeword, hentry] at hlen
    omega

/-- What is found is a symbol whose word is at the front. -/
theorem symbolAt_spec {rest : List Bool} {sym len : Nat} (h : symbolAt rest = some (sym, len)) :
    sym < 257 ∧ len = (codeword sym).length ∧ len ≤ rest.length := by
  obtain ⟨l, -, h⟩ := List.exists_of_findSome?_eq_some h
  obtain ⟨hlen, h⟩ := Option.ite_none_left_eq_some.mp h
  obtain ⟨i, hi, heq⟩ := Option.map_eq_some_iff.mp h
  obtain ⟨rfl, rfl⟩ := Prod.mk.inj heq
  obtain ⟨hlt, hpred, -⟩ := List.findIdx?_eq_some_iff_getElem.mp hi
  have hsym : i < 257 := by
    rw [← length_huffmanTable]
    exact hlt
  rw [← List.getD_eq_getElem huffmanTable (0, 0)] at hpred
  refine ⟨hsym, ?_, not_lt.mp hlen⟩
  rw [length_codeword]
  exact (of_decide_eq_true hpred).1.symm

/-- Fewer than eight ones are no word. -/
theorem symbolAt_ones {k : Nat} (h : k < 8) : symbolAt (List.replicate k true) = none := by
  have hall : ∀ k < 8, symbolAt (List.replicate k true) = none := by decide +kernel
  exact hall k h

/-! ### One round -/

theorem foldlM_fetchBit (data : Bytes) {bitPos n : Nat} (hn : n ≤ 30)
    (hend : bitPos + n ≤ (bitsOf data).length) :
    (List.range n).foldlM (fetchBit data bitPos) 0
      = .ok (value (((bitsOf data).drop bitPos).take n)) := by
  induction n with
  | zero => rfl
  | succ n ih =>
    have hbyte : (bitPos + n) / 8 < data.length := by
      rw [length_bitsOf] at hend
      omega
    -- the next bit of the stream, in the byte that the code looks it up in
    have hbit := getElem?_bitsOf hbyte
    set bit := data[(bitPos + n) / 8].toNat.testBit (7 - (bitPos + n) % 8) with hbitDef
    have htake : ((bitsOf data).drop bitPos).take (n + 1)
        = ((bitsOf data).drop bitPos).take n ++ [bit] := by
      rw [List.take_add_one, List.getElem?_drop, hbit, Option.toList_some]
    have hlt := value_lt (((bitsOf data).drop bitPos).take n)
    -- up to 30 bits the value stays far below the width of the word
    have hpow : 2 ^ (((bitsOf data).drop bitPos).take n).length ≤ 2 ^ 30 :=
      Nat.pow_le_pow_right (by decide) ((List.length_take_le n _).trans (by omega))
    have hshift : data[(bitPos + n) / 8].toNat >>> (7 - (bitPos + n) % 8) &&& 1 = bit.toNat := by
      rw [Nat.and_one_is_mod, Nat.shiftRight_eq_div_pow, hbitDef, Nat.toNat_testBit]
    -- the new bit comes in at the low end, which a shift has cleared
    have hor : value (((bitsOf data).drop bitPos).take n) * 2 ||| bit.toNat
        = 2 * value (((bitsOf data).drop bitPos).take n) + bit.toNat := by
      have hbitLt : bit.toNat < 2 ^ 1 := Bool.toNat_lt bit
      rw [Nat.mul_comm]
      exact (Nat.two_pow_add_eq_or_of_lt hbitLt _).symm
    rw [List.range_succ, List.foldlM_append, ih (by omega) (by omega), ok_bind, List.foldlM_cons,
      fetchBit, index_of_lt hbyte, ok_bind, sub_of_le (by omega), ok_bind, shr_of_lt (by omega),
      ok_bind, shl_of_lt (by omega), ok_bind, hshift, htake, value_concat, Nat.shiftLeft_eq,
      Nat.pow_one, Nat.mod_eq_of_lt (by omega), hor]
    rfl

/-- **One round** finds the symbol at the front. -/
theorem huffmanRound_eq {data : Bytes} {bitPos : Nat} (h : bitPos ≤ (bitsOf data).length) :
    huffmanRound data (bitsOf data).length bitPos = .ok (symbolAt ((bitsOf data).drop bitPos)) := by
  set rest := (bitsOf data).drop bitPos with hrest
  have hlen : (bitsOf data).length - bitPos = rest.length := List.length_drop.symm
  have hend : bitPos + min rest.length 30 ≤ (bitsOf data).length := by omega
  have hwindow := foldlM_fetchBit data (min_le_right _ _) hend
  rw [huffmanRound, sub_of_le h, ok_bind, hlen]
  dsimp only
  rw [hwindow, ok_bind]
  refine findSomeM?_eq_ok fun len hmem => ?_
  have hle := List.mem_range'_1.mp hmem
  rw [matchLen]
  by_cases hshort : rest.length < len
  · rw [if_pos (lt_of_le_of_lt (min_le_left _ _) hshort), if_pos hshort]
    rfl
  · have hmin : len ≤ min rest.length 30 := by omega
    have hlt := value_lt (rest.take len)
    have hpow : 2 ^ (rest.take len).length ≤ 2 ^ 30 :=
      Nat.pow_le_pow_right (by decide) ((List.length_take_le len _).trans (by omega))
    -- the high bits of the window are the bits at the front
    have hcandidate : value (rest.take (min rest.length 30)) >>> (min rest.length 30 - len)
        = value (rest.take len) := by
      have hlong : len ≤ (rest.take (min rest.length 30)).length := by
        rw [List.length_take]
        omega
      have htake := value_take _ hlong
      rw [List.take_take, min_eq_left hmin, List.length_take_of_le (min_le_left _ _)] at htake
      exact htake.symm
    rw [if_neg (not_lt.mpr hmin), if_neg hshort, sub_of_le hmin, ok_bind, shr_of_lt (by omega), ok_bind,
      ← hrest, hcandidate, Nat.mod_eq_of_lt (by omega)]
    rfl

/-! ### The loop -/

/-- The symbol at the front, if it is not the end of the string. -/
def octetAt (rest : List Bool) : Option Nat := (symbolAt rest).bind fun (sym, _) =>
  if sym = 256 then none else some sym

theorem huffmanGo_eq {data : Bytes} {bitPos : Nat} (h : bitPos ≤ (bitsOf data).length) {fuel : Nat}
    (hfuel : (bitsOf data).length - bitPos < fuel) (out : Bytes) :
    huffmanGo data (bitsOf data).length bitPos out
      = .ok (out ++ (decode codeword octetAt fuel ((bitsOf data).drop bitPos)).map UInt8.ofNat) := by
  induction fuel generalizing bitPos out with
  | zero => exact absurd hfuel (Nat.not_lt_zero _)
  | succ fuel ih =>
    rw [huffmanGo, decode, octetAt]
    by_cases hlt : bitPos < (bitsOf data).length
    · rw [if_pos hlt, huffmanRound_eq h]
      cases hsym : symbolAt ((bitsOf data).drop bitPos) with
      | none => simp
      | some found =>
        obtain ⟨sym, len⟩ := found
        obtain ⟨hsymLt, hlen, hle⟩ := symbolAt_spec hsym
        have hpos := (entry_bounds hsymLt).1
        rw [← length_codeword, ← hlen] at hpos
        rw [List.length_drop] at hle
        dsimp only [Option.bind_some]
        -- the symbol for the end of the string stops the loop, any other is put out
        by_cases heos : sym = 256
        · rw [if_pos heos, if_pos heos]
          simp
        · rw [if_neg heos, if_neg heos, ih (by omega) (by omega)]
          dsimp only
          rw [List.drop_drop, hlen, List.map_cons, List.append_assoc, List.singleton_append]
    · have hnil : (bitsOf data).drop bitPos = [] := List.drop_eq_nil_of_le (by omega)
      have hnone : symbolAt [] = none := symbolAt_ones (k := 0) (by decide)
      rw [if_neg hlt, hnil, hnone]
      simp

/-- **The decoder** takes one word after another; it does not fault. -/
theorem huffmanDecode_eq {data : Bytes} (h : data.length * 8 < 2 ^ 64) :
    huffmanDecode data = .ok (fromUtf8Lossy
      ((decode codeword octetAt (data.length * 8 + 1) (bitsOf data)).map UInt8.ofNat)) := by
  have hfuel : (bitsOf data).length - 0 < data.length * 8 + 1 := by
    rw [length_bitsOf]
    omega
  have hgo := huffmanGo_eq (Nat.zero_le _) hfuel []
  rw [length_bitsOf, List.drop_zero, List.nil_append] at hgo
  rw [huffmanDecode, mul_of_lt h, ok_bind, hgo, ok_bind]
  rfl

/-! ### Round trip -/

theorem bitsOf_huffmanEncode (s : Bytes) :
    ∃ k < 8, bitsOf (huffmanEncode s) = encode codeword (s.map UInt8.toNat) ++ List.replicate k true := by
  set bits := encode codeword (s.map UInt8.toNat) with hbits
  refine ⟨(8 - bits.length % 8) % 8, Nat.mod_lt _ (by decide), bitsOf_pack ?_⟩
  rw [List.length_append, List.length_replicate]
  omega

/-- What is decoded: the octets, with 13 for 22. -/
theorem huffmanDecode_encode {s : Bytes} (h : (huffmanEncode s).length * 8 < 2 ^ 64) :
    huffmanDecode (huffmanEncode s)
      = .ok (fromUtf8Lossy (s.map fun b => if b = 22 then 13 else b)) := by
  obtain ⟨k, hk, hbits⟩ := bitsOf_huffmanEncode s
  have hsym : ∀ sym ∈ s.map UInt8.toNat, sym < 256 := by
    intro sym hmem
    obtain ⟨b, -, rfl⟩ := List.mem_map.mp hmem
    exact b.toNat_lt
  -- there are no more symbols than bits, as no codeword is empty
  have hfuel : (s.map UInt8.toNat).length < (huffmanEncode s).length * 8 + 1 := by
    have hne : ∀ sym ∈ s.map UInt8.toNat, codeword sym ≠ [] := by
      intro sym hmem
      have hbounds := entry_bounds (Nat.lt_succ_of_lt (hsym sym hmem))
      refine List.ne_nil_of_length_pos ?_
      rw [length_codeword]
      omega
    have hle := length_le_length_encode (s.map UInt8.toNat) hne
    rw [← length_bitsOf, hbits, List.length_append]
    omega
  -- the decoder takes the first symbol of a codeword, which differs for byte 22 only
  have hnext : ∀ sym ∈ s.map UInt8.toNat, ∀ l, octetAt (codeword sym ++ l) = some (firstSymbol sym) := by
    intro sym hmem l
    have hlt := hsym sym hmem
    have hne : firstSymbol sym ≠ 256 := by
      have := firstSymbol_le sym
      omega
    rw [octetAt, symbolAt_codeword (by omega)]
    exact if_neg hne
  -- the padding is shorter than a byte, all ones, and no codeword
  have hpad : octetAt (List.replicate k true) = none := by
    rw [octetAt, symbolAt_ones hk]
    rfl
  have hround := decode_encode (fun sym _ => codeword_firstSymbol sym) hnext hpad hfuel
  rw [huffmanDecode_eq h, hbits, hround, List.map_map, List.map_map]
  congr 2
  refine List.map_congr_left fun b hb => ?_
  show UInt8.ofNat (firstSymbol b.toNat) = _
  have hlt := b.toNat_lt
  by_cases h22 : b = 22
  · subst h22
    rfl
  · have hne : b.toNat ≠ 22 := fun heq => h22 (UInt8.toNat_inj.mp heq)
    rw [if_neg h22, firstSymbol, if_neg hne, if_neg (by omega), UInt8.ofNat_toNat]

/-- Two symbols share a word exactly if they are 10 and 256 or 13 and 22. -/
theorem codeword_isPrefix_iff {i j : Nat} (hi : i < 257) (hj : j < 257) (hij : i < j) :
    (codeword i <+: codeword j ∨ codeword j <+: codeword i) ↔ (i = 10 ∧ j = 256) ∨ (i = 13 ∧ j = 22) := by
  constructor
  · intro h
    have hsame : firstSymbol i = firstSymbol j := by
      rcases h with h | h
      · exact (codeword_isPrefix hi hj h).2
      · exact (codeword_isPrefix hj hi h).2.symm
    unfold firstSymbol at hsame
    split_ifs at hsame <;> omega
  · have hshared : ∀ {i j}, firstSymbol i = firstSymbol j → codeword i = codeword j := by
      intro i j h
      rw [← codeword_firstSymbol i, h, codeword_firstSymbol]
    rintro (⟨rfl, rfl⟩ | ⟨rfl, rfl⟩)
    · exact .inl (by rw [hshared (i := 10) (j := 256) rfl])
    · exact .inl (by rw [hshared (i := 13) (j := 22) rfl])

/-- **The Huffman code.** No word of the table is a proper start of another one, and two symbols share a
    word exactly if they are 10 and 256 or 13 and 22.  The decoder gives back what was encoded exactly if
    the octet 22 is not in it (and its number of bits fits into a `usize`). -/
theorem huffman_roundTrips_iff (s : Bytes) :
    (∀ i < 257, ∀ j < 257, i < j → ((codeword i <+: codeword j ∨ codeword j <+: codeword i) ↔
        (i = 10 ∧ j = 256) ∨ (i = 13 ∧ j = 22))) ∧
      (huffmanDecode (huffmanEncode s) = .ok (fromUtf8Lossy s) ↔
        22 ∉ s ∧ (huffmanEncode s).length * 8 < 2 ^ 64) := by
  refine ⟨fun i hi j hj hij => codeword_isPrefix_iff hi hj hij, fun h => ?_, fun ⟨hmem, hlen⟩ => ?_⟩
  · have hlen : (huffmanEncode s).length * 8 < 2 ^ 64 := by
      by_contra hlong
      rw [huffmanDecode, mul, if_neg hlong] at h
      cases h
    refine ⟨fun hmem => ?_, hlen⟩
    -- the character is in the octets, and not in what is decoded
    rw [huffmanDecode_encode hlen] at h
    have hchar := ofNat_mem_fromUtf8Lossy (x := 22) (by decide) hmem
    rw [← Except.ok.inj h] at hchar
    rcases mem_fromUtf8Lossy hchar with heq | hall
    · exact absurd heq (by decide)
    · obtain ⟨b, -, hb⟩ := List.mem_map.mp (hall 22 (by decide))
      split_ifs at hb with h22
      · exact absurd hb (by decide)
      · exact h22 hb
  · rw [huffmanDecode_encode hlen]
    congr 2
    conv_rhs => rw [← List.map_id s]
    refine List.map_congr_left fun b hb => if_neg ?_
    rintro rfl
    exact hmem hb

/-- The symbols 13 and 22 have one word, and a string of the second is decoded to the first. -/
theorem huffman_not_roundTrips :
    (codeword 13 = codeword 22 ∧ codeword 10 = codeword 256) ∧
      huffmanDecode (huffmanEncode [22]) = .ok ['\r'] ∧ fromUtf8Lossy [22] = [Char.ofNat 22] := by
  decide +kernel

end Reflex.Hy2
