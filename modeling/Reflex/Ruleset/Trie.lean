import Reflex.RustStd.Str
import Reflex.Lib.LabelledTree

namespace Reflex.Ruleset

open RustStd LabelledTree

/-!
# Rule sets — the suffix trie

`ruleset/trie.rs`: suffix rules stored label by label from the right, in an arena of nodes
that refer to their children by `u32` indices.

* `SuffixTrie.insert` adds exactly one label list to the accepted ones while the arena has
  room for it (`SuffixTrie.Represents.insert`);
* `SuffixTrie.matches` says whether some accepted label list is a prefix of the reversed
  labels of the query (`SuffixTrie.matches_iff`).
-/

/-- The labels of a name, from left to right (`split('.')`). -/
def labels (domain : Str) : List Str := domain.splitOn '.'

/-! ### The model -/

/-- `TrieNode`; the child map is a partial function from labels to node indices. -/
structure TrieNode where
  children : Str → Option Nat := fun _ => none
  isTerminal : Bool := false

/-- `TrieNode::new`. -/
def TrieNode.new : TrieNode := {}

/-- `SuffixTrie`: the node arena, with the root at index `0`. -/
structure SuffixTrie where
  nodes : List TrieNode

/-- `SuffixTrie::new`. -/
def SuffixTrie.new : SuffixTrie := ⟨[TrieNode.new]⟩

/-- `self.nodes[i]` (indices in use are in range, `Rooted`). -/
def nodeAt (nodes : List TrieNode) (i : Nat) : TrieNode := nodes.getD i TrieNode.new

/-- Push a new node and make it the child of `cur` under `label`, with index `newIdx`. -/
def addNode (nodes : List TrieNode) (cur : Nat) (label : Str) (newIdx : Nat) : List TrieNode :=
  (nodes ++ [TrieNode.new]).modify cur fun node =>
    { node with children := Function.update node.children label (some newIdx) }

/-- The loop of `insert` over the remaining labels: the arena and the node reached.  The
    index of a new node is `self.nodes.len() as u32`. -/
def insertGo (nodes : List TrieNode) (cur : Nat) : List Str → List TrieNode × Nat
  | [] => (nodes, cur)
  | label :: rest =>
      match (nodeAt nodes cur).children label with
      | some idx => insertGo nodes idx rest
      | none =>
          let newIdx := nodes.length % 2 ^ 32
          insertGo (addNode nodes cur label newIdx) newIdx rest

/-- `SuffixTrie::insert`. -/
def SuffixTrie.insert (t : SuffixTrie) (domain : Str) : SuffixTrie :=
  let (nodes, cur) := insertGo t.nodes 0 (labels (trimStartMatches '.' domain)).reverse
  ⟨nodes.modify cur fun node => { node with isTerminal := true }⟩

/-- The loop of `matches` over the remaining labels. -/
def matchesGo (nodes : List TrieNode) : Nat → List Str → Bool
  | cur, [] => (nodeAt nodes cur).isTerminal
  | cur, label :: rest =>
      match (nodeAt nodes cur).children label with
      | some idx => if (nodeAt nodes idx).isTerminal then true else matchesGo nodes idx rest
      | none => false

/-- `SuffixTrie::matches`. -/
def SuffixTrie.matches (t : SuffixTrie) (domain : Str) : Bool :=
  matchesGo t.nodes 0 (labels (trimEndMatches '.' domain)).reverse

/-- `SuffixTrie::len`. -/
def SuffixTrie.len (t : SuffixTrie) : Nat := t.nodes.countP fun n => n.isTerminal

/-! ### The label lists a trie accepts -/

/-- The edges of an arena. -/
def edges (nodes : List TrieNode) (i : Nat) (label : Str) : Option Nat :=
  (nodeAt nodes i).children label

/-- The labels lead from the root to the end of a rule. -/
def Accepts (nodes : List TrieNode) (ls : List Str) : Prop :=
  ∃ i, walk (edges nodes) 0 ls = some i ∧ (nodeAt nodes i).isTerminal = true

theorem nodeAt_append_new (nodes : List TrieNode) (i : Nat) :
    nodeAt (nodes ++ [TrieNode.new]) i = nodeAt nodes i := by
  simp only [nodeAt, List.getD_eq_getElem?_getD]
  -- The default of `nodeAt` behind the arena is the new node itself.
  rcases Nat.lt_trichotomy i nodes.length with h | rfl | h
  · rw [List.getElem?_append_left h]
  · simp
  · rw [List.getElem?_eq_none (by simp; omega), List.getElem?_eq_none (by omega)]

theorem nodeAt_modify (nodes : List TrieNode) {cur : Nat} (f : TrieNode → TrieNode) (i : Nat)
    (hcur : cur < nodes.length) :
    nodeAt (nodes.modify cur f) i = if cur = i then f (nodeAt nodes i) else nodeAt nodes i := by
  simp only [nodeAt, List.getD_eq_getElem?_getD, List.getElem?_modify]
  split
  · subst i
    rw [List.getElem?_eq_getElem hcur]
    rfl
  · simp

section Insert

variable {nodes : List TrieNode} {cur : Nat}

@[simp] theorem length_addNode (nodes : List TrieNode) (cur : Nat) (label : Str) (n : Nat) :
    (addNode nodes cur label n).length = nodes.length + 1 := by
  simp [addNode]

/-- Hanging a new node into the arena adds one edge. -/
theorem edges_addNode (label : Str) (n : Nat) (hcur : cur < nodes.length) :
    edges (addNode nodes cur label n) = addEdge (edges nodes) cur label n := by
  funext i m
  rw [edges, addNode, nodeAt_modify _ _ _ (by simp; omega), nodeAt_append_new]
  by_cases hi : cur = i
  · subst hi
    rw [if_pos rfl, addEdge, Function.update_self]
    rfl
  · rw [if_neg hi, addEdge, Function.update_of_ne (Ne.symm hi), edges]

theorem isTerminal_addNode (label : Str) (n i : Nat) (hcur : cur < nodes.length) :
    (nodeAt (addNode nodes cur label n) i).isTerminal = (nodeAt nodes i).isTerminal := by
  rw [addNode, nodeAt_modify _ _ _ (by simp; omega), nodeAt_append_new]
  split <;> rfl

theorem not_isTerminal_length (nodes : List TrieNode) :
    (nodeAt nodes nodes.length).isTerminal = false := by
  simp [nodeAt, List.getD_eq_getElem?_getD, TrieNode.new]

/-- A new node is the end of no rule, so it changes nothing in what is accepted. -/
theorem accepts_addNode {path : Nat → List Str} (h : Rooted (edges nodes) nodes.length path)
    {p : List Str} {label : Str} (hp : walk (edges nodes) 0 p = some cur)
    (hnone : edges nodes cur label = none) (ls : List Str) :
    Accepts (addNode nodes cur label nodes.length) ls ↔ Accepts nodes ls := by
  have hcur := h.lt_size hp
  simp only [Accepts, edges_addNode _ _ hcur, isTerminal_addNode _ _ _ hcur,
    h.walk_addEdge_iff hp hnone]
  constructor
  · -- A new walk ends at the new node, which is terminal nowhere.
    rintro ⟨i, hw | ⟨rfl, -⟩, hi⟩
    · exact ⟨i, hw, hi⟩
    · exact absurd hi (by simp [not_isTerminal_length])
  · rintro ⟨i, hw, hi⟩
    exact ⟨i, .inl hw, hi⟩

/-- What a run of the insertion loop from `nodes` through the labels `ls` achieves: the arena
    remains a tree, the labels lead to the returned node, and nothing new is accepted yet. -/
structure InsertRun (nodes : List TrieNode) (ls : List Str) (room : Nat)
    (result : List TrieNode × Nat) : Prop where
  rooted : ∃ path, Rooted (edges result.1) result.1.length path
  walk_eq : walk (edges result.1) 0 ls = some result.2
  length_le : result.1.length ≤ nodes.length + room
  accepts : ∀ ls, Accepts result.1 ls ↔ Accepts nodes ls

/-- **The insertion loop**, while the arena stays within `u32` indices. -/
theorem insertGo_spec {rest p : List Str} {path : Nat → List Str}
    (h : Rooted (edges nodes) nodes.length path) (hp : walk (edges nodes) 0 p = some cur)
    (hroom : nodes.length + rest.length ≤ 2 ^ 32) :
    InsertRun nodes (p ++ rest) rest.length (insertGo nodes cur rest) := by
  induction rest generalizing nodes cur p path with
  | nil => exact ⟨⟨path, h⟩, by simpa [insertGo] using hp, Nat.le_refl _, fun ls => Iff.rfl⟩
  | cons label rest ih =>
    rw [List.length_cons] at hroom
    rcases hchild : (nodeAt nodes cur).children label with _ | idx
    · -- a new node: its index is the arena length because that is below `2 ^ 32`
      have hcur := h.lt_size hp
      have hgo : insertGo nodes cur (label :: rest)
          = insertGo (addNode nodes cur label nodes.length) nodes.length rest := by
        rw [insertGo, hchild]
        simp only [Nat.mod_eq_of_lt (show nodes.length < 2 ^ 32 by omega)]
      have hedges := edges_addNode label nodes.length hcur
      have hrooted := h.addEdge (l := label) hcur
      rw [← hedges, ← length_addNode nodes cur label nodes.length] at hrooted
      have hwalk := (h.walk_addEdge_iff hp hchild (p ++ [label]) nodes.length).mpr (.inr ⟨rfl, rfl⟩)
      rw [← hedges] at hwalk
      obtain ⟨hr, hw, hlen, hacc⟩ := ih hrooted hwalk (by simp; omega)
      rw [hgo, List.append_cons]
      refine ⟨hr, hw, hlen.trans (by simp; omega), fun ls => ?_⟩
      rw [hacc, accepts_addNode h hp hchild]
    · -- the edge is there already: the loop follows it and the arena stays as it is
      have hgo : insertGo nodes cur (label :: rest) = insertGo nodes idx rest := by
        rw [insertGo, hchild]
      have hwalk : walk (edges nodes) 0 (p ++ [label]) = some idx := by
        rw [walk_append, hp, Option.bind_some, walk_cons, edges, hchild]
        rfl
      obtain ⟨hr, hw, hlen, hacc⟩ := ih h hwalk (by omega)
      rw [hgo, List.append_cons]
      exact ⟨hr, hw, hlen.trans (by simp), hacc⟩

end Insert

/-! ### What a trie represents -/

/-- The arena is a tree and accepts exactly the label lists in `rules`, none of them empty. -/
structure SuffixTrie.Represents (t : SuffixTrie) (rules : List (List Str)) : Prop where
  rooted : ∃ path, Rooted (edges t.nodes) t.nodes.length path
  accepts : ∀ ls, Accepts t.nodes ls ↔ ls ∈ rules
  nonempty : [] ∉ rules

theorem SuffixTrie.represents_new : SuffixTrie.new.Represents [] where
  rooted := by
    refine ⟨fun _ => [], ⟨by simp [new], rfl, ?_⟩⟩
    intro i l j h
    cases i <;> simp [edges, nodeAt, new, TrieNode.new] at h
  accepts ls := by
    have hterm : ∀ i, (nodeAt new.nodes i).isTerminal = false := by
      intro i
      cases i <;> simp [nodeAt, new, TrieNode.new]
    simp [Accepts, hterm]
  nonempty := List.not_mem_nil

theorem labels_ne_nil (domain : Str) : labels domain ≠ [] := List.splitOn_ne_nil _ _

/-- The label list under which a rule is stored. -/
def trieKey (domain : Str) : List Str := (labels (trimStartMatches '.' domain)).reverse

theorem SuffixTrie.nodes_insert (t : SuffixTrie) (domain : Str) :
    (t.insert domain).nodes
      = (insertGo t.nodes 0 (trieKey domain)).1.modify (insertGo t.nodes 0 (trieKey domain)).2
          fun node => { node with isTerminal := true } := rfl

/-- **Insertion** adds one list of labels to those that the trie represents, and at most as many nodes as it has
    labels, while there is room for them. -/
theorem SuffixTrie.Represents.insert {t : SuffixTrie} {rules : List (List Str)}
    (h : t.Represents rules) (domain : Str)
    (hroom : t.nodes.length + (trieKey domain).length ≤ 2 ^ 32) :
    (t.insert domain).Represents (trieKey domain :: rules) ∧
      (t.insert domain).nodes.length ≤ t.nodes.length + (trieKey domain).length := by
  obtain ⟨path, hrooted⟩ := h.rooted
  obtain ⟨⟨path', hr⟩, hw, hlen, hacc⟩ := insertGo_spec (p := []) hrooted rfl hroom
  rw [List.nil_append] at hw
  have hcur := hr.lt_size hw
  -- Marking the last node changes no edge and one terminal flag.
  have hedges : edges (t.insert domain).nodes = edges (insertGo t.nodes 0 (trieKey domain)).1 := by
    funext i m
    rw [edges, edges, t.nodes_insert, nodeAt_modify _ _ _ hcur]
    split <;> rfl
  have hterm : ∀ i, (nodeAt (t.insert domain).nodes i).isTerminal = true ↔
      (insertGo t.nodes 0 (trieKey domain)).2 = i ∨
        (nodeAt (insertGo t.nodes 0 (trieKey domain)).1 i).isTerminal = true := by
    intro i
    rw [t.nodes_insert, nodeAt_modify _ _ _ hcur]
    split <;> simp_all
  have hsize : (t.insert domain).nodes.length = (insertGo t.nodes 0 (trieKey domain)).1.length := by
    rw [t.nodes_insert, List.length_modify]
  refine ⟨⟨⟨path', by rw [hedges, hsize]; exact hr⟩, fun ls => ?_, ?_⟩, by rw [hsize]; exact hlen⟩
  · rw [List.mem_cons, ← h.accepts, ← hacc, Accepts, Accepts, hedges]
    constructor
    · rintro ⟨i, hwi, hi⟩
      rcases (hterm i).mp hi with rfl | hi
      · -- the walk to the marked node spells the inserted labels
        exact .inl ((hr.path_eq hwi).symm.trans (hr.path_eq hw))
      · exact .inr ⟨i, hwi, hi⟩
    · rintro (rfl | ⟨i, hwi, hi⟩)
      · exact ⟨_, hw, (hterm _).mpr (.inl rfl)⟩
      · exact ⟨i, hwi, (hterm i).mpr (.inr hi)⟩
  · -- Splitting never gives an empty list, so the root is never marked.
    have hne : trieKey domain ≠ [] := by simpa [trieKey] using labels_ne_nil _
    simpa [hne.symm] using h.nonempty

/-- Inserting a list of rules, one after the other. -/
theorem SuffixTrie.Represents.foldl_insert {t : SuffixTrie} {rules : List (List Str)}
    (h : t.Represents rules) (domains : List Str)
    (hroom : t.nodes.length + (domains.map fun d => (trieKey d).length).sum ≤ 2 ^ 32) :
    ∃ rules', (domains.foldl SuffixTrie.insert t).Represents rules' ∧
      ∀ ls, ls ∈ rules' ↔ ls ∈ rules ∨ ∃ d ∈ domains, ls = trieKey d := by
  induction domains generalizing t rules with
  | nil => exact ⟨rules, h, by simp⟩
  | cons d domains ih =>
    rw [List.map_cons, List.sum_cons] at hroom
    obtain ⟨hins, hlen⟩ := h.insert d (by omega)
    obtain ⟨rules', hrep, hmem⟩ := ih hins (by omega)
    refine ⟨rules', hrep, fun ls => ?_⟩
    rw [hmem, List.mem_cons]
    constructor
    · rintro ((rfl | hls) | ⟨e, he, rfl⟩)
      · exact .inr ⟨d, by simp, rfl⟩
      · exact .inl hls
      · exact .inr ⟨e, by simp [he], rfl⟩
    · rintro (hls | ⟨e, he, rfl⟩)
      · exact .inl (.inr hls)
      · rcases List.mem_cons.mp he with rfl | he
        · exact .inl (.inl rfl)
        · exact .inr ⟨e, he, rfl⟩

/-! ### Matching -/

/-- **The matching loop** from a node that ends no rule: some prefix of the labels leads to
    the end of a rule. -/
theorem matchesGo_iff (nodes : List TrieNode) (cur : Nat) (ls : List Str)
    (hcur : (nodeAt nodes cur).isTerminal = false) :
    matchesGo nodes cur ls = true ↔
      ∃ pre, pre <+: ls ∧ ∃ i, walk (edges nodes) cur pre = some i ∧
        (nodeAt nodes i).isTerminal = true := by
  induction ls generalizing cur with
  | nil => simp [matchesGo, hcur]
  | cons l ls ih =>
    rcases hchild : (nodeAt nodes cur).children l with _ | idx
    · simp [matchesGo, hchild, List.prefix_cons_iff, hcur, walk_cons, edges]
    · -- The loop stops at the first terminal node; the labels up to it are the prefix.
      by_cases hterm : (nodeAt nodes idx).isTerminal = true
      · refine ⟨fun _ => ⟨[l], by simp, idx, ?_, hterm⟩, fun _ => by simp [matchesGo, hchild, hterm]⟩
        simp [walk_cons, edges, hchild]
      · rw [Bool.not_eq_true] at hterm
        have := ih idx hterm
        simp [matchesGo, hchild, hterm, this, List.prefix_cons_iff, hcur, walk_cons, edges]

/-- **Matching.** Some stored label list is a prefix of the query's reversed labels. -/
theorem SuffixTrie.Represents.matches_iff {t : SuffixTrie} {rules : List (List Str)}
    (h : t.Represents rules) (domain : Str) :
    t.matches domain = true ↔
      ∃ ls ∈ rules, ls <+: (labels (trimEndMatches '.' domain)).reverse := by
  -- A terminal root would accept the empty list of labels.
  have hroot : (nodeAt t.nodes 0).isTerminal = false := by
    by_contra hne
    exact h.nonempty ((h.accepts []).mp ⟨0, rfl, by simpa using hne⟩)
  rw [SuffixTrie.matches, matchesGo_iff _ _ _ hroot]
  constructor
  · rintro ⟨ls, hpre, hacc⟩
    exact ⟨ls, (h.accepts ls).mp hacc, hpre⟩
  · rintro ⟨ls, hls, hpre⟩
    exact ⟨ls, hpre, (h.accepts ls).mpr hls⟩

end Reflex.Ruleset
