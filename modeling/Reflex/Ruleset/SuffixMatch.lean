import Reflex.Ruleset.Matcher

namespace Reflex.Ruleset

open RustStd

/-!
# Rule sets — suffix matching on an FST

`DomainMatcher::matches_suffix` on an FST works on the bytes of the query with fixed buffers:
it collects at most 128 label ends, and it builds the keys it looks up in 260 bytes.

* `scanLabelEnds_joinRev` / `suffixLoop_joinRev` — on a name put together from labels the two
  loops visit the labels from the right;
* `foldl_appendLabel` — the key buffer holds the exact key as long as that has at most 260
  bytes, and is full otherwise;
* `fstMatchesSuffix_iff` — the answer is whether some rule's labels are a suffix of the
  query's, because the keys of rules of at most 255 bytes never reach the end of the buffer.
-/

/-! ### Names put together from the right -/

/-- The name with the given labels, rightmost label first. -/
def joinRev : List Bytes → Bytes
  | [] => []
  | [l] => l
  | l :: rest => joinRev rest ++ 0x2E :: l

/-- The positions of the dots of `joinRev ls`, from the right. -/
def dotsRev : List Bytes → List Nat
  | [] => []
  | [_] => []
  | _ :: rest => (joinRev rest).length :: dotsRev rest

theorem joinRev_cons {l : Bytes} {rest : List Bytes} (h : rest ≠ []) :
    joinRev (l :: rest) = joinRev rest ++ 0x2E :: l := by
  cases rest with
  | nil => exact absurd rfl h
  | cons r rest => rfl

/-- The bytes of a name are put together from the bytes of its labels. -/
theorem utf8_join (ls : List Str) : utf8 (join ['.'] ls) = joinRev (ls.reverse.map utf8) := by
  -- Induction from the left end of the name, which is the end of the reversed list.
  have hrev : ∀ rs : List Str, utf8 (join ['.'] rs.reverse) = joinRev (rs.map utf8) := by
    intro rs
    induction rs with
    | nil => rfl
    | cons l rs ih =>
      by_cases hrs : rs = []
      · subst hrs
        simp [join, joinRev]
      · rw [List.reverse_cons, join_append_singleton _ (by simpa using hrs), utf8_append, utf8_append,
          ih, List.map_cons, joinRev_cons (by simpa using hrs)]
        simp [show String.utf8EncodeChar '.' = [0x2E] from rfl]
  simpa using hrev ls.reverse

/-! ### Collecting the label ends -/

theorem scanLabelEnds_full (bytes : Bytes) (i : Nat) {ends : List Nat} (h : 128 ≤ ends.length) :
    scanLabelEnds bytes i ends = ends := by
  cases i with
  | zero => rfl
  | succ i => rw [scanLabelEnds, if_neg (by omega)]

/-- Bytes that are no dots are skipped. -/
theorem scanLabelEnds_skip (bytes : Bytes) (i n : Nat) (ends : List Nat)
    (h : ∀ j, i ≤ j → j < i + n → bytes[j]? ≠ some 0x2E) :
    scanLabelEnds bytes (i + n) ends = scanLabelEnds bytes i ends := by
  induction n with
  | zero => rfl
  | succ n ih =>
    -- A full buffer ends the scan at once, on both sides.
    by_cases hfull : ends.length < 128
    · rw [← Nat.add_assoc, scanLabelEnds, if_pos hfull, if_neg (h _ (by omega) (by omega)),
        ih fun j hi hj => h j hi (by omega)]
    · rw [scanLabelEnds_full _ _ (by omega), scanLabelEnds_full _ _ (by omega)]

/-- **The scan** finds the dots between the labels, up to 128 label ends; only the leftmost
    piece may have further dots in it. -/
theorem scanLabelEnds_joinRev (l : Bytes) (rest : List Bytes) (tail : Bytes) (ends : List Nat)
    (hcap : ends.length + rest.length ≤ 128)
    (hdots : ∀ m ∈ (l :: rest).dropLast, (0x2E : UInt8) ∉ m)
    (hlast : 0x2E ∉ (l :: rest).getLast (by simp) ∨ ends.length + rest.length = 128) :
    scanLabelEnds (joinRev (l :: rest) ++ tail) (joinRev (l :: rest)).length ends
      = ends ++ dotsRev (l :: rest) := by
  induction rest generalizing l tail ends with
  | nil =>
    -- The leftmost piece has no dots, or the buffer is full when the scan gets there.
    rcases hlast with hlast | hfull
    · have hskip := scanLabelEnds_skip (l ++ tail) 0 l.length ends fun j _ hj => by
        rw [List.getElem?_append_left (by omega)]
        exact fun h => hlast (List.mem_of_getElem? h)
      simpa [joinRev, dotsRev, scanLabelEnds] using hskip
    · rw [scanLabelEnds_full _ _ (by simp at hfull; omega)]
      simp [dotsRev]
  | cons r rest ih =>
    have hl : (0x2E : UInt8) ∉ l := hdots l (by simp)
    have hbytes : joinRev (l :: r :: rest) ++ tail
        = joinRev (r :: rest) ++ (0x2E :: (l ++ tail)) := by
      rw [joinRev_cons (by simp)]
      simp
    have hlen : (joinRev (l :: r :: rest)).length = (joinRev (r :: rest)).length + 1 + l.length := by
      rw [joinRev_cons (by simp)]
      simp
      omega
    rw [List.length_cons] at hcap
    -- The scan runs over the rightmost label, meets the dot before it and goes on.
    rw [hbytes, hlen, scanLabelEnds_skip]
    · rw [scanLabelEnds, if_pos (by omega), if_pos (by simp), ih]
      · simp [dotsRev]
      · simp
        omega
      · exact fun m hm => hdots m (by simp [hm])
      · rcases hlast with hlast | hfull
        · exact .inl (by simpa using hlast)
        · right
          simp at hfull ⊢
          omega
    · intro j hj hj'
      rw [List.getElem?_append_right (by omega), List.getElem?_cons,
        if_neg (by omega), List.getElem?_append_left (by omega)]
      exact fun h => hl (List.mem_of_getElem? h)

/-! ### Visiting the labels -/

/-- The lookups of `matches_suffix`, given the labels from the right. -/
def labelsLoop (set : FstSet) : List Bytes → Bytes → Bool
  | [], _ => false
  | l :: rest, buf =>
      if set.contains (appendLabel buf l) then true
      else labelsLoop set rest (appendLabel buf l)

/-- **The loop** cuts the labels out of the name again. -/
theorem suffixLoop_joinRev (set : FstSet) (l : Bytes) (rest : List Bytes) (tail buf : Bytes) :
    suffixLoop set (joinRev (l :: rest) ++ tail)
        ((joinRev (l :: rest)).length :: dotsRev (l :: rest)) buf
      = labelsLoop set (l :: rest) buf := by
  induction rest generalizing l tail buf with
  | nil => simp [suffixLoop, labelsLoop, dotsRev, joinRev]
  | cons r rest ih =>
    have hjoin : joinRev (l :: r :: rest) = joinRev (r :: rest) ++ 0x2E :: l :=
      joinRev_cons (by simp)
    -- The slice between two label ends is the label.
    have hlabel : ((joinRev (l :: r :: rest) ++ tail).take (joinRev (l :: r :: rest)).length).drop
        ((joinRev (r :: rest)).length + 1) = l := by
      rw [List.take_left, hjoin, List.append_cons, List.drop_left' (by simp)]
    have hbytes : joinRev (l :: r :: rest) ++ tail
        = joinRev (r :: rest) ++ (0x2E :: (l ++ tail)) := by
      simp [hjoin]
    rw [dotsRev, suffixLoop, labelsLoop]
    simp only [hlabel]
    rw [hbytes, ih]
    simp

/-- The loop finds a key of the set among the keys of the label prefixes. -/
theorem labelsLoop_iff (set : FstSet) (ls : List Bytes) (buf : Bytes) :
    labelsLoop set ls buf = true ↔
      ∃ pre, pre ≠ [] ∧ pre <+: ls ∧ set.contains (pre.foldl appendLabel buf) = true := by
  induction ls generalizing buf with
  | nil => simp [labelsLoop]
  | cons l ls ih =>
    rw [labelsLoop]
    -- A hit is a prefix of one label; otherwise the prefix goes on.
    by_cases hc : set.contains (appendLabel buf l) = true
    · simp only [hc, if_true, true_iff]
      exact ⟨[l], by simp, by simp, hc⟩
    · rw [if_neg hc, ih]
      constructor
      · rintro ⟨pre, -, hpre, hset⟩
        exact ⟨l :: pre, by simp, by simpa using hpre, hset⟩
      · rintro ⟨pre, hne, hpre, hset⟩
        rcases List.prefix_cons_iff.mp hpre with rfl | ⟨pre', rfl, hpre'⟩
        · exact absurd rfl hne
        · refine ⟨pre', ?_, hpre', hset⟩
          rintro rfl
          exact hc hset

/-! ### The key buffer -/

/-- The exact key of a list of labels: every label followed by a dot. -/
def keyBytes (ls : List Bytes) : Bytes := ls.flatMap fun l => l ++ [0x2E]

theorem keyBytes_cons (l : Bytes) (ls : List Bytes) : keyBytes (l :: ls) = l ++ 0x2E :: keyBytes ls := by
  simp [keyBytes]

@[simp] theorem keyBytes_append_singleton (ls : List Bytes) (l : Bytes) :
    keyBytes (ls ++ [l]) = keyBytes ls ++ (l ++ [0x2E]) := by
  simp [keyBytes]

/-- **The buffer** holds the exact key if that fits, and is full otherwise. -/
theorem foldl_appendLabel (ls : List Bytes) :
    (ls.foldl appendLabel [] = keyBytes ls ∧ (keyBytes ls).length ≤ keyBufLen) ∨
      (keyBufLen < (keyBytes ls).length ∧ (ls.foldl appendLabel []).length = keyBufLen) := by
  induction ls using List.reverseRecOn with
  | nil => exact .inl ⟨rfl, Nat.zero_le _⟩
  | append_singleton ls l ih =>
    rw [List.foldl_append, List.foldl_cons, List.foldl_nil, keyBytes_append_singleton]
    -- Either the key fits so far, or the buffer was filled by an earlier label.
    rcases ih with ⟨heq, hle⟩ | ⟨hlong, hfull⟩
    · rw [heq]
      by_cases hfit : (keyBytes ls).length + l.length + 1 ≤ keyBufLen
      · left
        have htake : l.take (keyBufLen - ((keyBytes ls).length + 1)) = l :=
          List.take_of_length_le (by omega)
        refine ⟨?_, by simp; omega⟩
        simp only [appendLabel, htake]
        rw [if_pos (by simp; omega), List.append_assoc]
      · right
        refine ⟨by simp; omega, ?_⟩
        -- The label, or the dot behind it, does not fit: the buffer ends up full.
        simp only [appendLabel]
        split
        · rename_i hlt
          simp only [List.length_append, List.length_take, List.length_singleton] at hlt ⊢
          omega
        · rename_i hge
          simp only [List.length_append, List.length_take] at hge ⊢
          omega
    · right
      refine ⟨by simp; omega, ?_⟩
      -- A full buffer takes nothing more.
      have hnone : keyBufLen - ((ls.foldl appendLabel []).length + 1) = 0 := by omega
      simp only [appendLabel, hnone, List.take_zero, List.append_nil]
      rw [if_neg (by omega), hfull]

/-! ### Keys and label lists -/

/-- The key of a rule spells the reversed labels. -/
theorem utf8_suffixToFstKey (d : Str) :
    utf8 (suffixToFstKey d) = keyBytes ((labels d).reverse.map utf8) := by
  have hkey : ∀ ls : List Str, ls ≠ [] → utf8 (join ['.'] ls ++ ['.']) = keyBytes (ls.map utf8) := by
    intro ls hls
    induction ls using List.reverseRecOn with
    | nil => exact absurd rfl hls
    | append_singleton ls l ih =>
      by_cases hnil : ls = []
      · subst hnil
        simp [join, keyBytes, show String.utf8EncodeChar '.' = [0x2E] from rfl]
      · rw [join_append_singleton _ hnil, List.append_assoc, utf8_append, ih hnil, List.map_append,
          List.map_cons, List.map_nil, keyBytes_append_singleton]
        simp [show String.utf8EncodeChar '.' = [0x2E] from rfl]
  exact hkey _ (by simp)

theorem length_keyBytes {ls : List Bytes} (h : ls ≠ []) :
    (keyBytes ls).length = (joinRev ls).length + 1 := by
  induction ls with
  | nil => exact absurd rfl h
  | cons l ls ih =>
    by_cases hls : ls = []
    · subst hls
      simp [keyBytes, joinRev]
    · have := ih hls
      rw [joinRev_cons hls, keyBytes_cons, List.length_append, List.length_append, List.length_cons,
        List.length_cons, this]
      omega

/-- Labels without dots can be read off their key. -/
theorem splitOn_keyBytes {ls : List Bytes} (hls : ∀ l ∈ ls, (0x2E : UInt8) ∉ l) :
    (keyBytes ls).splitOn 0x2E = ls ++ [[]] := by
  induction ls with
  | nil => rfl
  | cons l ls ih =>
    rw [List.forall_mem_cons] at hls
    rw [keyBytes_cons, List.splitOn_append_cons_self_of_not_mem hls.1, ih hls.2, List.cons_append]

theorem length_le_count_keyBytes (ls : List Bytes) : ls.length ≤ (keyBytes ls).count 0x2E := by
  induction ls with
  | nil => simp
  | cons l ls ih =>
    rw [keyBytes_cons, List.count_append, List.count_cons_self, List.length_cons]
    omega

theorem count_keyBytes {ls : List Bytes} (hls : ∀ l ∈ ls, (0x2E : UInt8) ∉ l) :
    (keyBytes ls).count 0x2E = ls.length := by
  induction ls with
  | nil => simp [keyBytes]
  | cons l ls ih =>
    rw [List.forall_mem_cons] at hls
    rw [keyBytes_cons, List.count_append, List.count_cons_self, List.length_cons, ih hls.2,
      List.count_eq_zero_of_not_mem hls.1, Nat.zero_add]

/-! ### The answer -/

/-- The labels of a name as bytes, rightmost first. -/
def byteLabels (d : Str) : List Bytes := (labels d).reverse.map utf8

theorem not_dot_mem_byteLabels (d : Str) : ∀ l ∈ byteLabels d, (0x2E : UInt8) ∉ l := by
  intro l hl hdot
  obtain ⟨s, hs, rfl⟩ := List.mem_map.mp hl
  have hs : s ∈ labels d := List.mem_reverse.mp hs
  -- A dot byte of a label is a dot character of it: ASCII bytes stand for themselves.
  exact not_mem_of_mem_splitOn hs (ascii_mem_utf8 (by decide) hdot)

theorem joinRev_byteLabels (d : Str) : joinRev (byteLabels d) = utf8 d := by
  rw [byteLabels, ← utf8_join, join, labels, List.intercalate_splitOn]

theorem byteLabels_ne_nil (d : Str) : byteLabels d ≠ [] := by
  simp [byteLabels, labels_ne_nil]

theorem byteLabels_isPrefix_iff (r d : Str) :
    byteLabels r <+: byteLabels d ↔ labels r <:+ labels d := by
  rw [byteLabels, byteLabels, ← List.reverse_prefix]
  constructor
  · intro h
    obtain ⟨ls, hls, heq⟩ := List.prefix_map_iff.mp h
    rwa [List.map_injective_iff.mpr utf8_injective heq]
  · exact fun h => h.map utf8

/-- The pieces `matches_suffix` cuts a name into: its labels, or, when there are more than 128,
    the first 127 of them from the right and all the rest as one piece. -/
def cutLabels (ls : List Bytes) : List Bytes :=
  if ls.length ≤ 128 then ls else ls.take 127 ++ [joinRev (ls.drop 127)]

theorem joinRev_append_joinRev (ls ms : List Bytes) (hms : ms ≠ []) :
    joinRev (ls ++ [joinRev ms]) = joinRev (ls ++ ms) := by
  induction ls with
  | nil => rfl
  | cons l ls ih =>
    rw [List.cons_append, List.cons_append, joinRev_cons (by simp), joinRev_cons (by simp [hms]), ih]

theorem joinRev_cutLabels (ls : List Bytes) : joinRev (cutLabels ls) = joinRev ls := by
  unfold cutLabels
  split
  · rfl
  · have hdrop : ls.drop 127 ≠ [] := by
      rw [Ne, List.drop_eq_nil_iff]
      omega
    rw [joinRev_append_joinRev _ _ hdrop, List.take_append_drop]

/-- There are between 1 and 128 pieces, and only the last of 128 may have dots in it. -/
theorem cutLabels_shape {ls : List Bytes} (hne : ls ≠ []) (hls : ∀ l ∈ ls, (0x2E : UInt8) ∉ l) :
    ∃ l rest, cutLabels ls = l :: rest ∧ rest.length < 128 ∧
      (∀ m ∈ (l :: rest).dropLast, (0x2E : UInt8) ∉ m) ∧
      (0x2E ∉ (l :: rest).getLast (by simp) ∨ rest.length = 127) := by
  unfold cutLabels
  split
  · rename_i hlen
    obtain ⟨l, rest, rfl⟩ := List.exists_cons_of_ne_nil hne
    refine ⟨l, rest, rfl, by simp at hlen; omega, fun m hm => ?_, .inl ?_⟩
    · exact hls m (List.mem_of_mem_dropLast hm)
    · exact hls _ (List.getLast_mem _)
  · rename_i hlen
    -- More than 128 labels: the buffer holds 128 ends, so the 128th piece is all the rest.
    obtain ⟨l, rest, hcut⟩ : ∃ l rest, ls.take 127 ++ [joinRev (ls.drop 127)] = l :: rest :=
      List.exists_cons_of_ne_nil (by simp)
    have hrest : rest.length = 127 := by
      have := congrArg List.length hcut
      simp at this
      omega
    refine ⟨l, rest, hcut, by omega, fun m hm => ?_, .inr hrest⟩
    rw [← hcut, List.dropLast_concat] at hm
    exact hls m (List.mem_of_mem_take hm)

/-- `matches_suffix` visits the pieces of the name. -/
theorem fstMatchesSuffix_eq (set : FstSet) (d : Str) :
    fstMatchesSuffix set d = labelsLoop set (cutLabels (byteLabels d)) [] := by
  obtain ⟨l, rest, hcut, hlen, hdots, hlast⟩ :=
    cutLabels_shape (byteLabels_ne_nil d) (not_dot_mem_byteLabels d)
  have hbytes : utf8 d = joinRev (l :: rest) := by
    rw [← hcut, joinRev_cutLabels, joinRev_byteLabels]
  -- The scan starts with the end of the name as its first label end.
  have hscan := scanLabelEnds_joinRev l rest [] [(joinRev (l :: rest)).length]
    (by rw [List.length_singleton]; omega) hdots
    (hlast.imp_right fun h => by rw [List.length_singleton]; omega)
  have hloop := suffixLoop_joinRev set l rest [] []
  rw [List.append_nil] at hscan hloop
  simp only [fstMatchesSuffix, hbytes, hscan, List.singleton_append]
  rw [hloop, hcut]

/-- A prefix of the pieces is a prefix of the labels, unless it takes in all 128 pieces of a
    name with more labels. -/
theorem prefix_of_prefix_cutLabels {ls pre : List Bytes} (h : pre <+: cutLabels ls)
    (hshort : pre.length ≤ 127 ∨ ls.length ≤ 128) : pre <+: ls := by
  unfold cutLabels at h
  split at h
  · exact h
  · rename_i hlen
    have hpre : pre <+: ls.take 127 := by
      rcases List.prefix_concat_iff.mp h with rfl | hpre
      · simp at hshort
        omega
      · exact hpre
    exact hpre.trans (List.take_prefix _ _)

theorem prefix_cutLabels_of_prefix {ls pre : List Bytes} (h : pre <+: ls)
    (hshort : pre.length ≤ 127 ∨ ls.length ≤ 128) : pre <+: cutLabels ls := by
  unfold cutLabels
  split
  · exact h
  · have hpre : pre <+: ls.take 127 := by
      rw [List.prefix_take_iff]
      exact ⟨h, by omega⟩
    exact hpre.trans (List.prefix_append _ _)

/-- **Suffix matching on an FST.** For rules of at most 255 bytes the buffers do not matter, as
    long as the query has at most 128 labels or the rules at most 127: some rule's labels are
    a suffix of the query's. -/
theorem fstMatchesSuffix_iff {set : FstSet} {rules : List Str}
    (hset : ∀ k, set.contains k = true ↔ ∃ r ∈ rules, utf8 (suffixToFstKey r) = k)
    (hbytes : ∀ r ∈ rules, (utf8 r).length ≤ 255) (d : Str)
    (hlabels : (∀ r ∈ rules, (labels r).length ≤ 127) ∨ (labels d).length ≤ 128) :
    fstMatchesSuffix set d = true ↔ ∃ r ∈ rules, labels r <:+ labels d := by
  -- The key of a rule is one dot longer than the rule, so it fits the buffer.
  have hkey : ∀ r ∈ rules, (keyBytes (byteLabels r)).length ≤ 256 := by
    intro r hr
    have := hbytes r hr
    rw [length_keyBytes (byteLabels_ne_nil r), joinRev_byteLabels]
    omega
  have hcount : ∀ r, (byteLabels r).length = (labels r).length := fun r => by simp [byteLabels]
  rw [fstMatchesSuffix_eq, labelsLoop_iff]
  constructor
  · rintro ⟨pre, hne, hpre, hcontains⟩
    obtain ⟨r, hr, hrkey⟩ := (hset _).mp hcontains
    rw [utf8_suffixToFstKey] at hrkey
    refine ⟨r, hr, (byteLabels_isPrefix_iff r d).mp ?_⟩
    -- a full buffer is longer than every key, so the key is exact
    have hexact : keyBytes pre = keyBytes (byteLabels r) := by
      rcases foldl_appendLabel pre with ⟨heq, -⟩ | ⟨-, hfull⟩
      · rw [← heq, ← hrkey]
        rfl
      · have := hkey r hr
        rw [← hrkey] at hfull
        simp only [byteLabels, keyBufLen] at this hfull
        omega
    -- The prefix has at most as many pieces as the rule has labels.
    have hle := length_le_count_keyBytes pre
    rw [hexact, count_keyBytes (not_dot_mem_byteLabels r), hcount] at hle
    have hpre : pre <+: byteLabels d := by
      refine prefix_of_prefix_cutLabels hpre ?_
      rcases hlabels with hrules | hd
      · exact .inl (hle.trans (hrules r hr))
      · exact .inr (by rwa [hcount])
    have hdots : ∀ l ∈ pre, (0x2E : UInt8) ∉ l := fun l hl =>
      not_dot_mem_byteLabels d l (hpre.subset hl)
    -- Equal keys of labels without dots have equal labels.
    have hsplit := splitOn_keyBytes hdots
    rw [hexact, splitOn_keyBytes (not_dot_mem_byteLabels r)] at hsplit
    rwa [List.append_cancel_right hsplit]
  · rintro ⟨r, hr, hsuffix⟩
    have hpre := (byteLabels_isPrefix_iff r d).mpr hsuffix
    refine ⟨byteLabels r, byteLabels_ne_nil r, prefix_cutLabels_of_prefix hpre ?_, ?_⟩
    · rcases hlabels with hrules | hd
      · exact .inl (by rw [hcount]; exact hrules r hr)
      · exact .inr (by rwa [hcount])
    · rw [hset]
      refine ⟨r, hr, ?_⟩
      rcases foldl_appendLabel (byteLabels r) with ⟨heq, -⟩ | ⟨hlong, -⟩
      · rw [heq, utf8_suffixToFstKey]
        rfl
      · have := hkey r hr
        simp only [keyBufLen] at hlong
        omega

/-! ### The two back ends -/

variable {E : Externals}

/-- **The v2 back end.** The suffix FST of a list of rules can be built and opened, and answers
    by label suffixes. -/
theorem fstBackend_spec (hE : E.FstLawful) (rules : List Str)
    (hbytes : ∀ r ∈ rules, (utf8 r).length ≤ 255) :
    ∃ bytes suffix, buildSuffixFst E rules = .ok bytes ∧ openFst E bytes = .ok suffix ∧
      ∀ exact d, ((∀ r ∈ rules, (labels r).length ≤ 127) ∨ (labels d).length ≤ 128) →
        ((DomainMatcher.fst exact suffix).matchesSuffix d = true ↔
          ∃ r ∈ rules, labels r <:+ labels d) := by
  obtain ⟨bytes, hbuild, hempty, hopen⟩ := buildFst_spec E hE suffixToFstKey rules
  -- No rules, no set: `openFst` takes empty data for an absent section.
  by_cases hrules : rules = []
  · refine ⟨bytes, none, hbuild, by rw [openFst, if_pos (hempty.mpr hrules)], fun exact d _ => ?_⟩
    simp [DomainMatcher.matchesSuffix, hrules]
  · obtain ⟨set, hset, hmem⟩ := hopen hrules
    have hne : bytes ≠ [] := fun h => hrules (hempty.mp h)
    refine ⟨bytes, some set, hbuild, by rw [openFst, if_neg hne, hset], fun exact d hd => ?_⟩
    rw [DomainMatcher.matchesSuffix, Option.any_some, fstMatchesSuffix_iff hmem hbytes d hd]

/-- **The v1 back end.** A trie filled with rules without leading dots answers by label suffixes
    of the query without its trailing dots, as long as the arena has room. -/
theorem trieBackend_spec {rules : List Str} (hdots : ∀ r ∈ rules, trimStartMatches '.' r = r)
    (hroom : (rules.map fun r => (labels r).length).sum < 2 ^ 32) (domains : List Str) (d : Str) :
    (DomainMatcher.legacy domains (rules.foldl SuffixTrie.insert SuffixTrie.new)).matchesSuffix d
        = true ↔
      ∃ r ∈ rules, labels r <:+ labels (trimEndMatches '.' d) := by
  have hkey : ∀ r ∈ rules, trieKey r = (labels r).reverse := fun r hr => by
    rw [trieKey, hdots r hr]
  -- The arena gains at most one node for each label.
  have hsum : (rules.map fun r => (trieKey r).length).sum
      = (rules.map fun r => (labels r).length).sum :=
    congrArg List.sum (List.map_congr_left fun r hr => by rw [hkey r hr, List.length_reverse])
  obtain ⟨keys, hrep, hmem⟩ := SuffixTrie.represents_new.foldl_insert rules (by
    rw [hsum]
    simp only [SuffixTrie.new, List.length_singleton]
    omega)
  rw [DomainMatcher.matchesSuffix, hrep.matches_iff]
  constructor
  · rintro ⟨ls, hls, hpre⟩
    rcases (hmem ls).mp hls with hls | ⟨r, hr, rfl⟩
    · exact absurd hls List.not_mem_nil
    · exact ⟨r, hr, List.reverse_prefix.mp (hkey r hr ▸ hpre)⟩
  · rintro ⟨r, hr, hsuffix⟩
    exact ⟨trieKey r, (hmem _).mpr (.inr ⟨r, hr, rfl⟩),
      hkey r hr ▸ List.reverse_prefix.mpr hsuffix⟩

theorem trimEndMatches_of_getLast {c : Char} {s : Str} (h : s.getLast? ≠ some c) :
    trimEndMatches c s = s := by
  rw [trimEndMatches, List.rdropWhile_eq_self_iff]
  intro hne hc
  exact h (by rw [List.getLast?_eq_some_getLast hne, beq_iff_eq.mp hc])

/-- **The two back ends**, filled with the same rules: the FST answers by label suffixes of the
    query, the trie by label suffixes of the query without trailing dots, and so they agree on
    every query that does not end in a dot. -/
theorem suffix_backends_agree (hE : E.FstLawful) (rules : List Str)
    (hbytes : ∀ r ∈ rules, (utf8 r).length ≤ 255)
    (hdots : ∀ r ∈ rules, trimStartMatches '.' r = r)
    (hroom : (rules.map fun r => (labels r).length).sum < 2 ^ 32)
    (domains : List Str) (exact : Option FstSet) :
    ∃ bytes suffix, buildSuffixFst E rules = .ok bytes ∧ openFst E bytes = .ok suffix ∧
      ∀ query : Str, (labels query).length ≤ 128 →
        ((DomainMatcher.fst exact suffix).matchesSuffix query = true ↔
          ∃ r ∈ rules, labels r <:+ labels query) ∧
        ((DomainMatcher.legacy domains
            (rules.foldl SuffixTrie.insert SuffixTrie.new)).matchesSuffix query = true ↔
          ∃ r ∈ rules, labels r <:+ labels (trimEndMatches '.' query)) ∧
        (query.getLast? ≠ some '.' →
          (DomainMatcher.fst exact suffix).matchesSuffix query
            = (DomainMatcher.legacy domains
                (rules.foldl SuffixTrie.insert SuffixTrie.new)).matchesSuffix query) := by
  obtain ⟨bytes, suffix, hbuild, hopen, hfst⟩ := fstBackend_spec hE rules hbytes
  refine ⟨bytes, suffix, hbuild, hopen, fun query hquery => ?_⟩
  have htrie := trieBackend_spec hdots hroom domains query
  refine ⟨hfst exact query (.inr hquery), htrie, fun hlast => ?_⟩
  rw [Bool.eq_iff_iff, hfst exact query (.inr hquery), htrie, trimEndMatches_of_getLast hlast]

theorem suffix_backends_agree_com :
    (∀ r ∈ ["com".toList, "b.org".toList], (utf8 r).length ≤ 255) ∧
    ∃ bytes suffix, buildSuffixFst .plain ["com".toList, "b.org".toList] = .ok bytes ∧
      openFst .plain bytes = .ok suffix ∧
      (DomainMatcher.fst none suffix).matchesSuffix "a.b.org".toList = true := by
  refine ⟨by decide, ?_⟩
  obtain ⟨bytes, suffix, hbuild, hopen, hquery⟩ :=
    suffix_backends_agree Externals.fstLawful_plain ["com".toList, "b.org".toList]
      (by decide) (by decide) (by decide) [] none
  refine ⟨bytes, suffix, hbuild, hopen, ?_⟩
  exact ((hquery "a.b.org".toList (by decide)).1).mpr ⟨"b.org".toList, by decide, by decide⟩

/-- The rule `com` and the query `com.`: the trie drops the trailing dot, the FST does not. -/
theorem suffix_backends_differ :
    (DomainMatcher.legacy [] (["com".toList].foldl SuffixTrie.insert SuffixTrie.new)).matchesSuffix
        "com.".toList = true ∧
      ∃ bytes suffix, buildSuffixFst .plain ["com".toList] = .ok bytes ∧
        openFst .plain bytes = .ok suffix ∧
        (DomainMatcher.fst none suffix).matchesSuffix "com.".toList = false := by
  refine ⟨by decide, ?_⟩
  obtain ⟨bytes, suffix, hbuild, hopen, hquery⟩ :=
    fstBackend_spec Externals.fstLawful_plain ["com".toList] (by decide)
  refine ⟨bytes, suffix, hbuild, hopen, ?_⟩
  rw [← Bool.not_eq_true, hquery none "com.".toList (.inr (by decide))]
  decide

end Reflex.Ruleset
