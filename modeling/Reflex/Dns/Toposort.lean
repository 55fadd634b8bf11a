import Reflex.Dns.Upstreams
import Reflex.Lib.Outcome
import Reflex.Lib.Toposort

namespace Reflex.Dns

open RustStd Ruleset Experimental Relation Outcome Toposort

/-!
# DNS — the order of the servers

`toposort_servers` of `dns/mod.rs`.  A server's address may have to be looked up by another server,
the one its `domain_resolver` names.

* `Resolves` — which server looks up the address of which;
* `dependencies` — the tables behind some servers of the first loop;
* `Draining` — the invariant of the second loop;
* `toposortServers_ensures` — the order, and what an error says about the servers;
* `toposortServers_correct` — when there is an order, and what is built along it.
-/

/-! ### Which server depends on which -/

/-- The server a tag names: the last one that has it. -/
def Names (servers : List DnsServerConfig) (tag : Str) (j : Nat) : Prop :=
  servers[j]?.map DnsServerConfig.tag = some tag ∧
    ∀ k, j < k → servers[k]?.map DnsServerConfig.tag ≠ some tag

/-- The address of server `i` is looked up by server `j`. -/
def Resolves (servers : List DnsServerConfig) (i j : Nat) : Prop :=
  ∃ tag, servers[i]?.bind (·.domainResolver) = some tag ∧ Names servers tag j

/-- Every `domain_resolver` names a server. -/
def ResolversDeclared (servers : List DnsServerConfig) : Prop :=
  ∀ srv ∈ servers, ∀ tag, srv.domainResolver = some tag → ∃ s ∈ servers, s.tag = tag

section Servers

variable {servers : List DnsServerConfig}

theorem tagToIdx_concat (srv : DnsServerConfig) (tag : Str) :
    tagToIdx (servers ++ [srv]) tag
      = if srv.tag = tag then some servers.length else tagToIdx servers tag := by
  simp only [tagToIdx, List.zipIdx_append, List.reverse_append, List.zipIdx_cons, List.zipIdx_nil,
    List.reverse_singleton, List.singleton_append, List.find?_cons]
  by_cases htag : srv.tag = tag
  · simp [htag]
  · simp [htag]

theorem names_concat {srv : DnsServerConfig} {tag : Str} {j : Nat} :
    Names (servers ++ [srv]) tag j
      ↔ if srv.tag = tag then j = servers.length else Names servers tag j := by
  have hnew : (servers ++ [srv])[servers.length]? = some srv := by simp
  -- below the new server the list is as it was
  have hold : ∀ k, k ≠ servers.length → (servers ++ [srv])[k]? = servers[k]? := by
    intro k hk
    rcases Nat.lt_or_gt_of_ne hk with h | h
    · exact List.getElem?_append_left h
    · rw [List.getElem?_eq_none (by simp; omega), List.getElem?_eq_none (by omega)]
  -- a tag names the last server that has it
  by_cases htag : srv.tag = tag
  · rw [if_pos htag]
    constructor
    · rintro ⟨hj, hlast⟩
      by_contra hne
      rw [hold j hne] at hj
      have hlt : j < servers.length := by
        by_contra hge
        rw [List.getElem?_eq_none (by omega)] at hj
        cases hj
      exact hlast _ hlt (by rw [hnew, ← htag]; rfl)
    · rintro rfl
      refine ⟨by rw [hnew, ← htag]; rfl, fun k hk => ?_⟩
      rw [List.getElem?_eq_none (by simp; omega)]
      exact Option.some_ne_none tag |>.symm
  · rw [if_neg htag]
    have hne : ∀ k : Nat, (servers ++ [srv])[k]?.map DnsServerConfig.tag = some tag
        ↔ servers[k]?.map DnsServerConfig.tag = some tag := by
      intro k
      by_cases hk : k = servers.length
      · rw [hk, hnew, List.getElem?_eq_none (le_refl _)]
        simp [htag]
      · rw [hold k hk]
    simp only [Names, ne_eq, hne]

/-- The table of the tags is that of the servers they name. -/
theorem tagToIdx_eq_some {tag : Str} {j : Nat} :
    tagToIdx servers tag = some j ↔ Names servers tag j := by
  induction servers using List.reverseRecOn with
  | nil => simp [tagToIdx, Names]
  | append_singleton servers srv ih =>
    rw [tagToIdx_concat, names_concat]
    split
    · rw [Option.some.injEq, eq_comm]
    · exact ih

theorem tagToIdx_eq_none {tag : Str} :
    tagToIdx servers tag = none ↔ ∀ s ∈ servers, s.tag ≠ tag := by
  induction servers using List.reverseRecOn with
  | nil => simp [tagToIdx]
  | append_singleton servers srv ih =>
    rw [tagToIdx_concat, List.forall_mem_append, List.forall_mem_singleton]
    by_cases htag : srv.tag = tag
    · simp [htag]
    · rw [if_neg htag, ih, and_iff_left htag]

theorem exists_names {s : DnsServerConfig} (hs : s ∈ servers) : ∃ j, Names servers s.tag j := by
  cases hj : tagToIdx servers s.tag with
  | none => exact absurd rfl (tagToIdx_eq_none.mp hj s hs)
  | some j => exact ⟨j, tagToIdx_eq_some.mp hj⟩

/-- What the first loop looks up for server `i`. -/
def dependency (servers : List DnsServerConfig) (i : Nat) : Option Nat :=
  (servers[i]?.bind (·.domainResolver)).bind (tagToIdx servers)

theorem dependency_eq_some {i j : Nat} : dependency servers i = some j ↔ Resolves servers i j := by
  simp only [dependency, Option.bind_eq_some_iff, tagToIdx_eq_some, Resolves]

theorem lt_of_resolves {i j : Nat} (h : Resolves servers i j) :
    i < servers.length ∧ j < servers.length := by
  obtain ⟨tag, hi, hj, -⟩ := h
  obtain ⟨srv, hsrv, -⟩ := Option.bind_eq_some_iff.mp hi
  obtain ⟨s, hs, -⟩ := Option.map_eq_some_iff.mp hj
  exact ⟨(List.getElem?_eq_some_iff.mp hsrv).1, (List.getElem?_eq_some_iff.mp hs).1⟩

/-! ### The first loop -/

/-- The tables behind the first `k` servers. -/
def dependencies (servers : List DnsServerConfig) (k : Nat) : Dependencies where
  inDegree := (List.range servers.length).map fun i =>
    if i < k ∧ (dependency servers i).isSome then 1 else 0
  deps := (List.range servers.length).map fun i => if i < k then dependency servers i else none

theorem dependencies_zero : dependencies servers 0
    = { inDegree := List.replicate servers.length 0, deps := List.replicate servers.length none } := by
  simp [dependencies]

theorem getElem?_dependencies {i k : Nat} (hi : i < servers.length) :
    (dependencies servers k).deps[i]? = some (if i < k then dependency servers i else none) := by
  simp [dependencies, hi]

theorem dependencies_succ_none {k : Nat} (h : dependency servers k = none) :
    dependencies servers (k + 1) = dependencies servers k := by
  simp only [dependencies, Dependencies.mk.injEq, List.map_inj_left]
  refine ⟨fun i _ => ?_, fun i _ => ?_⟩
  all_goals
    by_cases hi : i = k
    · simp [hi, h]
    · simp only [show i < k + 1 ↔ i < k by omega]

theorem dependencies_succ_some {j k : Nat} (h : dependency servers k = some j) :
    dependencies servers (k + 1)
      = { deps := (dependencies servers k).deps.set k (some j)
          inDegree := (dependencies servers k).inDegree.modify k (· + 1) } := by
  simp only [dependencies, Dependencies.mk.injEq]
  refine ⟨List.ext_getElem? fun i => ?_, List.ext_getElem? fun i => ?_⟩
  all_goals
    by_cases hi : k = i
    · subst hi
      by_cases hlen : k < servers.length <;> simp [hlen, h]
    · have hlt : i < k + 1 ↔ i < k := by omega
      simp only [List.getElem?_map, List.getElem?_set_ne hi, List.getElem?_modify_ne _ _ hi]
      by_cases hlen : i < servers.length
      · simp only [List.getElem?_range hlen, Option.map_some, hlt]
      · simp [hlen]

/-- What the server section has wrong when its servers cannot be ordered. -/
def DnsError.Unordered (servers : List DnsServerConfig) : DnsError → Prop
  | .resolverNotFound server resolver =>
      ∃ srv ∈ servers, srv.tag = server ∧ srv.domainResolver = some resolver ∧
        ∀ s ∈ servers, s.tag ≠ resolver
  | .resolverPair server resolver =>
      ∃ i j, Resolves servers i j ∧ Resolves servers j i ∧
        servers[i]?.map DnsServerConfig.tag = some server ∧
        servers[j]?.map DnsServerConfig.tag = some resolver
  | .resolverCycle => ∃ i, TransGen (Resolves servers) i i
  | _ => False

/-- Servers whose resolvers are declared and that have no cycle have nothing wrong. -/
theorem DnsError.not_unordered (hdeclared : ResolversDeclared servers)
    (hacyclic : ∀ i, ¬ TransGen (Resolves servers) i i) (e : DnsError) : ¬ e.Unordered servers := by
  intro h
  cases e with
  | resolverNotFound server resolver =>
    obtain ⟨srv, hsrv, -, hresolver, hnone⟩ := h
    obtain ⟨s, hs, htag⟩ := hdeclared srv hsrv resolver hresolver
    exact hnone s hs htag
  | resolverPair server resolver =>
    obtain ⟨i, j, hij, hji, -⟩ := h
    exact hacyclic i (.tail (.single hij) hji)
  | resolverCycle =>
    obtain ⟨i, hi⟩ := h
    exact hacyclic i hi
  | _ => exact h

/-- **Step lemma** of the first loop: the tables take in one more server, if its resolver is declared. -/
theorem addDependency_ensures {k : Nat} {srv : DnsServerConfig} (hsrv : servers[k]? = some srv) :
    Ensures
      (fun d => d = dependencies servers (k + 1) ∧
        ∀ tag, srv.domainResolver = some tag → ∃ s ∈ servers, s.tag = tag)
      (DnsError.Unordered servers) (addDependency servers (dependencies servers k) (srv, k)) := by
  have hdep : dependency servers k = srv.domainResolver.bind (tagToIdx servers) := by
    rw [dependency, hsrv]
    rfl
  cases hresolver : srv.domainResolver with
  | none =>
    rw [hresolver] at hdep
    simp only [addDependency, hresolver, ensures_ok]
    exact ⟨(dependencies_succ_none hdep).symm, fun tag htag => by cases htag⟩
  | some tag =>
    rw [hresolver] at hdep
    replace hdep : dependency servers k = tagToIdx servers tag := hdep
    cases hj : tagToIdx servers tag with
    | none =>
      simp only [addDependency, hresolver, hj, ensures_error]
      exact ⟨srv, List.mem_of_getElem? hsrv, rfl, hresolver, tagToIdx_eq_none.mp hj⟩
    | some j =>
      rw [hj] at hdep
      simp only [addDependency, hresolver, hj]
      -- the resolver is declared: it is entered, unless the two wait for each other
      have hresolves : Resolves servers k j := dependency_eq_some.mp hdep
      obtain ⟨s, hs, htag⟩ := Option.map_eq_some_iff.mp (tagToIdx_eq_some.mp hj).1
      split
      · -- the server it depends on is there already, and depends on it
        rename_i hback
        have hback : (dependencies servers (k + 1)).deps[j]? = some (some k) := by
          rw [dependencies_succ_some hdep]
          exact hback
        rw [getElem?_dependencies (lt_of_resolves hresolves).2,
          Option.some_inj, Option.ite_none_right_eq_some] at hback
        refine ⟨k, j, hresolves, dependency_eq_some.mp hback.2, by rw [hsrv]; rfl, ?_⟩
        rw [hs]
        rfl
      · exact ⟨(dependencies_succ_some hdep).symm, fun tag' htag' =>
          ⟨s, List.mem_of_getElem? hs, by rw [htag, Option.some.inj htag']⟩⟩

/-- The invariant of the first loop: the servers that are done name their resolvers, and are what
    the tables are about. -/
structure Collected (servers : List DnsServerConfig) (done : List (DnsServerConfig × Nat))
    (d : Dependencies) : Prop where
  tables : d = dependencies servers done.length
  declared : ∀ entry ∈ done, ∀ tag, entry.1.domainResolver = some tag →
    ∃ s ∈ servers, s.tag = tag

/-- **The first loop**: every resolver is declared, and the tables are those of all servers. -/
theorem foldlM_addDependency :
    Ensures (fun d => d = dependencies servers servers.length ∧ ResolversDeclared servers)
      (DnsError.Unordered servers)
      (servers.zipIdx.foldlM (addDependency servers) (dependencies servers 0)) := by
  have hloop : Ensures (Collected servers servers.zipIdx) (DnsError.Unordered servers)
      (servers.zipIdx.foldlM (addDependency servers) (dependencies servers 0)) := by
    refine Ensures.foldlM ⟨rfl, fun entry h => absurd h List.not_mem_nil⟩ ?_
    rintro done ⟨srv, i⟩ rest d hsplit ⟨rfl, hdone⟩
    have hentry : servers.zipIdx[done.length]? = some (srv, i) := by
      rw [hsplit, List.getElem?_append_right (le_refl _), Nat.sub_self]
      rfl
    rw [List.getElem?_zipIdx] at hentry
    obtain ⟨srv', hsrv, heq⟩ := Option.map_eq_some_iff.mp hentry
    obtain ⟨rfl, rfl⟩ := Prod.mk.inj heq
    rw [Nat.zero_add]
    refine (addDependency_ensures hsrv).imp ?_ fun _ he => he
    rintro d ⟨hd, htag⟩
    refine ⟨by rw [hd, List.length_append]; rfl, ?_⟩
    exact List.forall_mem_append.mpr ⟨hdone, List.forall_mem_singleton.mpr htag⟩
  refine hloop.imp ?_ fun _ he => he
  rintro d ⟨hd, hdeclared⟩
  refine ⟨by rw [hd, List.length_zipIdx], fun srv hsrv tag htag => ?_⟩
  obtain ⟨i, hi⟩ := List.mem_iff_getElem?.mp hsrv
  exact hdeclared (srv, i) (List.mk_mem_zipIdx_iff_getElem?.mpr hi) tag htag

end Servers

/-! ### The second loop -/

section Drain

variable {deps : List (Option Nat)} {inDegree queue order : List Nat}

/-- The servers that wait for `node`. -/
def waiting (deps : List (Option Nat)) (node : Nat) : List Nat :=
  (List.range deps.length).filter fun i => deps[i]? = some (some node)

theorem mem_waiting {node i : Nat} : i ∈ waiting deps node ↔ deps[i]? = some (some node) := by
  simp only [waiting, List.mem_filter, List.mem_range, decide_eq_true_eq, and_iff_right_iff_imp]
  exact fun h => (List.getElem?_eq_some_iff.mp h).1

/-- One server of the round of `releaseDependents`. -/
def release (deps : List (Option Nat)) (node : Nat) (st : List Nat × List Nat) (i : Nat) :
    List Nat × List Nat :=
  if deps[i]? = some (some node) then
    let inDegree := st.1.modify i (· - 1)
    (inDegree, if inDegree[i]? = some 0 then st.2 ++ [i] else st.2)
  else st

theorem release_waiting {node i : Nat} {st : List Nat × List Nat}
    (hwait : deps[i]? = some (some node)) (hready : st.1[i]? = some 1) :
    release deps node st i = (st.1.set i 0, st.2 ++ [i]) := by
  have hmodify : st.1.modify i (· - 1) = st.1.set i 0 := by
    rw [List.modify_eq_set_getElem?, hready]
    rfl
  have hlt := (List.getElem?_eq_some_iff.mp hready).1
  simp [release, hwait, hmodify, hlt]

/-- The round as far as `k`, if no waiting server is ready already. -/
theorem foldl_release {node : Nat} (hready : ∀ i ∈ waiting deps node, inDegree[i]? = some 1)
    (queue : List Nat) (k : Nat) :
    (∀ i, ((List.range k).foldl (release deps node) (inDegree, queue)).1[i]?
      = if i < k ∧ i ∈ waiting deps node then some 0 else inDegree[i]?) ∧
    ((List.range k).foldl (release deps node) (inDegree, queue)).2
      = queue ++ (List.range k).filter fun i => deps[i]? = some (some node) := by
  induction k with
  | zero => simp
  | succ k ih =>
    rw [List.range_succ, List.foldl_append, List.foldl_cons, List.foldl_nil, List.filter_append]
    obtain ⟨hdegree, hqueue⟩ := ih
    by_cases hk : deps[k]? = some (some node)
    · have hone : ((List.range k).foldl (release deps node) (inDegree, queue)).1[k]? = some 1 := by
        rw [hdegree, if_neg (by omega)]
        exact hready k (mem_waiting.mpr hk)
      rw [release_waiting hk hone, hqueue]
      refine ⟨fun i => ?_, by simp [hk]⟩
      by_cases hi : k = i
      · subst hi
        rw [List.getElem?_set_self (List.getElem?_eq_some_iff.mp hone).1,
          if_pos ⟨Nat.lt_succ_self k, mem_waiting.mpr hk⟩]
      · rw [List.getElem?_set_ne hi, hdegree]
        exact if_congr (and_congr_left fun _ => by omega) rfl rfl
    · rw [release, if_neg hk, hqueue]
      refine ⟨fun i => ?_, by simp [hk]⟩
      rw [hdegree]
      refine if_congr (and_congr_left fun hi => ?_) rfl rfl
      have hne : i ≠ k := by
        rintro rfl
        exact hk (mem_waiting.mp hi)
      omega

/-- The round over the servers, if no waiting server is ready already. -/
theorem releaseDependents_eq {node : Nat} (hready : ∀ i ∈ waiting deps node, inDegree[i]? = some 1)
    (queue : List Nat) :
    (∀ i, (releaseDependents deps node inDegree queue).1[i]?
      = if i ∈ waiting deps node then some 0 else inDegree[i]?) ∧
    (releaseDependents deps node inDegree queue).2 = queue ++ waiting deps node := by
  obtain ⟨hdegree, hqueue⟩ := foldl_release hready queue deps.length
  refine ⟨fun i => (hdegree i).trans ?_, hqueue⟩
  refine if_congr (and_iff_right_of_imp fun hi => ?_) rfl rfl
  exact (List.getElem?_eq_some_iff.mp (mem_waiting.mp hi)).1

/-- The invariant of the second loop: what is ordered or queued is what depends on something
    ordered, or on nothing. -/
structure Draining (deps : List (Option Nat)) (inDegree queue order : List Nat) : Prop where
  nodup : (order ++ queue).Nodup
  mem_iff : ∀ i, i ∈ order ++ queue ↔
    i < deps.length ∧ ∀ j, deps[i]? = some (some j) → j ∈ order
  degree : ∀ i < deps.length, inDegree[i]? = some (if i ∈ order ++ queue then 0 else 1)
  sorted : Sorted (fun i j => deps[i]? = some (some j)) order

/-- **Step lemma** of the second loop: taking a server off the queue and releasing what waits for it keeps the
    invariant. -/
theorem Draining.step {node : Nat} (h : Draining deps inDegree (node :: queue) order) :
    Draining deps (releaseDependents deps node inDegree queue).1
      (releaseDependents deps node inDegree queue).2 (order ++ [node]) := by
  have hnode : node ∉ order := fun hmem =>
    List.disjoint_of_nodup_append h.nodup hmem List.mem_cons_self
  -- a server that waits for the node is neither ordered nor queued
  have hfresh : ∀ i ∈ waiting deps node, i ∉ order ++ node :: queue := fun i hi hmem =>
    hnode (((h.mem_iff i).mp hmem).2 node (mem_waiting.mp hi))
  have hready : ∀ i ∈ waiting deps node, inDegree[i]? = some 1 := by
    intro i hi
    have hlt := (List.getElem?_eq_some_iff.mp (mem_waiting.mp hi)).1
    rw [h.degree i hlt, if_neg (hfresh i hi)]
  obtain ⟨hdegree, hqueue⟩ := releaseDependents_eq hready queue
  have hsplit : order ++ [node] ++ (queue ++ waiting deps node)
      = order ++ node :: queue ++ waiting deps node := by simp
  rw [hqueue]
  constructor
  · rw [hsplit]
    refine List.nodup_append.mpr ⟨h.nodup, List.nodup_range.filter _, ?_⟩
    rintro i hi _ hwait rfl
    exact hfresh i hwait hi
  · intro i
    rw [hsplit, List.mem_append, h.mem_iff, mem_waiting]
    constructor
    · rintro (⟨hi, hdeps⟩ | hwait)
      · exact ⟨hi, fun j hj => List.mem_append_left _ (hdeps j hj)⟩
      · refine ⟨(List.getElem?_eq_some_iff.mp hwait).1, fun j hj => ?_⟩
        obtain rfl : node = j := by simpa [hwait] using hj
        exact List.mem_append_right _ (List.mem_singleton_self node)
    · rintro ⟨hi, hdeps⟩
      by_cases hwait : deps[i]? = some (some node)
      · exact .inr hwait
      · refine .inl ⟨hi, fun j hj => ?_⟩
        rcases List.mem_append.mp (hdeps j hj) with hold | hnew
        · exact hold
        · exact absurd (List.mem_singleton.mp hnew ▸ hj) hwait
  · intro i hi
    rw [hdegree, hsplit, h.degree i hi]
    by_cases hwait : i ∈ waiting deps node
    · rw [if_pos hwait, if_pos (List.mem_append_right _ hwait)]
    · simp [hwait]
  · refine h.sorted.snoc hnode fun j hj => ?_
    exact ((h.mem_iff node).mp (List.mem_append_right _ List.mem_cons_self)).2 j hj

theorem Draining.length_le (h : Draining deps inDegree queue order) :
    (order ++ queue).length ≤ deps.length := by
  have hsub : order ++ queue ⊆ List.range deps.length := fun i hi =>
    List.mem_range.mpr ((h.mem_iff i).mp hi).1
  calc (order ++ queue).length ≤ (List.range deps.length).length :=
        (List.subperm_of_subset h.nodup hsub).length_le
    _ = deps.length := List.length_range

/-- Once as many are ordered as there are, nothing is queued. -/
theorem Draining.queue_nil (h : Draining deps inDegree queue order)
    (hlen : deps.length ≤ order.length) : queue = [] := by
  have hle := h.length_le
  rw [List.length_append] at hle
  exact List.length_eq_zero_iff.mp (by omega)

/-- **The second loop** ends with nothing queued. -/
theorem Draining.drain {fuel : Nat} (h : Draining deps inDegree queue order)
    (hfuel : deps.length ≤ order.length + fuel) :
    ∃ inDegree', Draining deps inDegree' [] (Dns.drain deps fuel inDegree queue order) := by
  induction fuel generalizing inDegree queue order with
  | zero =>
    obtain rfl := h.queue_nil hfuel
    exact ⟨inDegree, h⟩
  | succ fuel ih =>
    cases queue with
    | nil => exact ⟨inDegree, h⟩
    | cons node queue => exact ih h.step (by simp; omega)

/-- Without a cycle, everything is ordered once nothing is queued. -/
theorem Draining.mem_of_acyclic (h : Draining deps inDegree [] order)
    (hclosed : ∀ i j : Nat, deps[i]? = some (some j) → j < deps.length)
    (hacyclic : ∀ i, ¬ TransGen (fun i j : Nat => deps[i]? = some (some j)) i i) {i : Nat}
    (hi : i < deps.length) : i ∈ order := by
  have hrange : ∀ i ∈ List.range deps.length, ∀ j, deps[i]? = some (some j) →
      j ∈ List.range deps.length := fun i _ j hij => List.mem_range.mpr (hclosed i j hij)
  refine mem_of_saturated hacyclic hrange (fun i hi hdeps => ?_) (List.mem_range.mpr hi)
  have hmem := (h.mem_iff i).mpr ⟨List.mem_range.mp hi, hdeps⟩
  rwa [List.append_nil] at hmem

/-- Rounds that are left over change nothing. -/
theorem Draining.drain_add {fuel : Nat} (h : Draining deps inDegree queue order)
    (hfuel : deps.length ≤ order.length + fuel) (more : Nat) :
    Dns.drain deps (fuel + more) inDegree queue order = Dns.drain deps fuel inDegree queue order := by
  induction fuel generalizing inDegree queue order with
  | zero =>
    obtain rfl := h.queue_nil hfuel
    rw [Nat.zero_add]
    cases more <;> rfl
  | succ fuel ih =>
    rw [Nat.add_right_comm]
    cases queue with
    | nil => rfl
    | cons node queue => exact ih h.step (by simp; omega)

end Drain

section Servers

variable {servers : List DnsServerConfig}

/-- The table of dependencies says of each server which one resolves it. -/
theorem getElem?_deps {i j : Nat} :
    (dependencies servers servers.length).deps[i]? = some (some j) ↔ Resolves servers i j := by
  constructor
  · intro h
    have hi : i < servers.length := by
      simpa [dependencies] using (List.getElem?_eq_some_iff.mp h).1
    rw [getElem?_dependencies hi, if_pos hi] at h
    exact dependency_eq_some.mp (Option.some.inj h)
  · intro h
    have hi := (lt_of_resolves h).1
    rw [getElem?_dependencies hi, if_pos hi, dependency_eq_some.mpr h]

theorem getElem?_inDegree {i : Nat} (hi : i < servers.length) :
    (dependencies servers servers.length).inDegree[i]?
      = some (if (dependency servers i).isSome then 1 else 0) := by
  simp [dependencies, hi]

/-- The servers that wait for no other come first. -/
theorem draining_init :
    Draining (dependencies servers servers.length).deps (dependencies servers servers.length).inDegree
      ((List.range servers.length).filter fun i =>
        decide ((dependencies servers servers.length).inDegree[i]? = some 0)) [] := by
  have hmem : ∀ i, i ∈ (List.range servers.length).filter (fun i =>
        decide ((dependencies servers servers.length).inDegree[i]? = some 0)) ↔
      i < servers.length ∧ dependency servers i = none := by
    intro i
    rw [List.mem_filter, List.mem_range]
    refine and_congr_right fun hi => ?_
    rw [getElem?_inDegree hi]
    cases dependency servers i <;> simp
  have hlen : (dependencies servers servers.length).deps.length = servers.length := by
    simp [dependencies]
  constructor
  · exact List.nodup_range.filter _
  · intro i
    rw [List.nil_append, hmem, hlen]
    refine and_congr_right fun hi => ?_
    simp [getElem?_deps, ← dependency_eq_some, Option.eq_none_iff_forall_ne_some]
  · intro i hi
    rw [hlen] at hi
    rw [getElem?_inDegree hi, List.nil_append]
    simp only [hmem, hi, true_and]
    cases dependency servers i <;> simp
  · exact sorted_nil

/-- A round for every server is enough: the loop of the source, which counts no rounds, ends in the
    same order. -/
theorem drain_servers (more : Nat) :
    drain (dependencies servers servers.length).deps (servers.length + more)
        (dependencies servers servers.length).inDegree
        ((List.range servers.length).filter fun i =>
          decide ((dependencies servers servers.length).inDegree[i]? = some 0)) []
      = drain (dependencies servers servers.length).deps servers.length
        (dependencies servers servers.length).inDegree
        ((List.range servers.length).filter fun i =>
          decide ((dependencies servers servers.length).inDegree[i]? = some 0)) [] :=
  draining_init.drain_add (by simp [dependencies]) more

/-- **The order of the servers**: each of them once, behind the server that resolves its address;
    or an error that says why there is none. -/
theorem toposortServers_ensures :
    Ensures
      (fun order => ResolversDeclared servers ∧ order.Perm (List.range servers.length) ∧
        Sorted (Resolves servers) order)
      (DnsError.Unordered servers) (toposortServers servers) := by
  simp only [toposortServers, ← dependencies_zero]
  -- the first loop fails or gives the whole table, and the second takes the servers off
  refine foldlM_addDependency.bind ?_
  rintro d ⟨rfl, hdeclared⟩
  have hlen : (dependencies servers servers.length).deps.length = servers.length := by
    simp [dependencies]
  have hfuel : (dependencies servers servers.length).deps.length
      ≤ ([] : List Nat).length + servers.length := by rw [hlen]; exact Nat.le_add_left ..
  obtain ⟨inDegree, h⟩ := draining_init.drain hfuel
  generalize drain _ _ _ _ _ = order at h ⊢
  have hsub : order ⊆ List.range servers.length := fun i hi =>
    List.mem_range.mpr (hlen ▸ ((h.mem_iff i).mp (List.mem_append_left _ hi)).1)
  have hnodup : order.Nodup := by simpa using h.nodup
  have hsorted : Sorted (Resolves servers) order := by simpa only [getElem?_deps] using h.sorted
  split
  · rename_i hne
    -- a server that was not taken off waits for another one, so they wait in a circle
    by_contra hcycle
    have hall : List.range servers.length ⊆ order := fun i hi => by
      refine h.mem_of_acyclic ?_ ?_ (hlen.symm ▸ List.mem_range.mp hi)
      · exact fun i j hij => hlen.symm ▸ (lt_of_resolves (getElem?_deps.mp hij)).2
      · simpa only [getElem?_deps] using fun i hi => hcycle ⟨i, hi⟩
    have hge := (List.subperm_of_subset List.nodup_range hall).length_le
    have hle := (List.subperm_of_subset hnodup hsub).length_le
    rw [List.length_range] at hge hle
    exact hne (le_antisymm hle hge)
  · rename_i heq
    refine ⟨hdeclared, ?_, hsorted⟩
    -- with as many servers as there are, the order has each of them once
    refine (List.subperm_of_subset hnodup hsub).perm_of_length_le ?_
    rw [List.length_range, not_ne_iff.mp heq]

end Servers

/-! ### The upstreams -/

section Build

variable (E : Externals) (buildTls : DnsServerConfig → Except Str Unit)

/-- The error is not that of an upstream whose resolver has not been built. -/
def DnsError.Elsewhere (e : DnsError) : Prop :=
  ∀ server resolver, e ≠ .unknownResolver server resolver

theorem DnsError.Unordered.elsewhere {servers : List DnsServerConfig} {e : DnsError}
    (h : e.Unordered servers) : e.Elsewhere := by
  rintro server resolver rfl
  exact h

theorem parseAddr_elsewhere (s : Str) (defaultPort : UInt16) :
    Ensures (fun _ => True) DnsError.Elsewhere (parseAddr s defaultPort) := by
  simp only [parseAddr]
  split
  · trivial
  · simp [DnsError.Elsewhere]

theorem parseDohUrl_elsewhere (url : Str) :
    Ensures (fun _ => True) DnsError.Elsewhere (parseDohUrl url) := by
  unfold parseDohUrl
  split
  · simp [DnsError.Elsewhere]
  · dsimp only
    split
    · split
      · trivial
      · simp [DnsError.Elsewhere]
    · trivial

theorem upstreamKind_elsewhere (srv : DnsServerConfig) (cacheFile : Option CacheFile)
    (cacheReader : Option Database) :
    Ensures (fun _ => True) DnsError.Elsewhere
      (upstreamKind buildTls srv cacheFile cacheReader) := by
  -- DoT and DoQ have the same checks, of the address and of the TLS settings
  have htls : ∀ pre kind,
      Ensures (fun _ => True) DnsError.Elsewhere (tlsUpstream buildTls srv pre kind) := by
    intro pre kind
    refine (parseAddr_elsewhere _ _).bind fun addr _ => ?_
    cases buildTls srv with
    | ok _ => trivial
    | error e => simp [DnsError.Elsewhere]
  unfold upstreamKind
  cases srv.protocol with
  | rcode =>
    cases srv.rcode with
    | some action => trivial
    | none => simp [DnsError.Elsewhere]
  | doh =>
    refine (parseDohUrl_elsewhere _).bind fun parts _ => ?_
    cases buildTls srv with
    | ok _ => trivial
    | error e => simp [DnsError.Elsewhere]
  | tcp =>
    refine (parseAddr_elsewhere _ _).bind fun addr _ => ?_
    trivial
  | udp =>
    refine (parseAddr_elsewhere _ _).bind fun addr _ => ?_
    trivial
  | dot => exact htls _ _
  | doq => exact htls _ _
  | fakeIp =>
    cases srv.fakeip with
    | none => simp [DnsError.Elsewhere]
    | some cfg =>
      dsimp only
      split
      · trivial
      · simp [DnsError.Elsewhere]

theorem compile_elsewhere (upstreams : Upstreams) (preloaded : Str → Option RuleSet)
    (rule : DnsRuleConfig) :
    Ensures (fun _ => True) DnsError.Elsewhere
      (CompiledDnsRule.compile E upstreams preloaded rule) := by
  unfold CompiledDnsRule.compile
  split
  · simp [DnsError.Elsewhere]
  · dsimp only
    split
    · trivial
    · split
      · trivial
      · show DnsError.Elsewhere (.inlineRules _)
        simp [DnsError.Elsewhere]

variable {config : DnsConfig} {outbounds : Option (List Str)} {cacheFile : Option CacheFile}
  {cacheReader : Option Database}

/-- **Step lemma** of the loop over the servers: if the resolver has been built, so is the
    upstream. -/
theorem addUpstream_ensures {upstreams : Upstreams} {idx : Nat} {srv : DnsServerConfig}
    (hsrv : config.servers[idx]? = some srv)
    (hbuilt : ∀ tag, srv.domainResolver = some tag → tag ∈ upstreams) :
    Ensures (fun ups => srv.tag ∈ ups ∧ ∀ tag ∈ upstreams, tag ∈ ups) DnsError.Elsewhere
      (addUpstream buildTls config outbounds cacheFile cacheReader upstreams idx) := by
  have hdetour : Ensures (fun _ => True) DnsError.Elsewhere (detourOf srv outbounds) := by
    unfold detourOf
    split
    · split
      · trivial
      · simp [DnsError.Elsewhere]
    · trivial
    · trivial
  have hresolver : Ensures (fun _ => True) DnsError.Elsewhere (domainResolverOf srv upstreams) := by
    unfold domainResolverOf
    split
    · rename_i tag htag
      rw [if_pos (AList.lookup_isSome.mpr (hbuilt tag htag))]
      trivial
    · trivial
  simp only [addUpstream, hsrv]
  refine hdetour.bind fun detour _ => ?_
  refine hresolver.bind fun domainResolver _ => ?_
  refine (upstreamKind_elsewhere buildTls srv _ _).bind fun kind _ => ?_
  refine ⟨(AList.mem_insert _).mpr (.inl rfl), fun tag htag => (AList.mem_insert _).mpr (.inr htag)⟩

/-- The invariant of the loop: the servers that are done have their upstreams. -/
def Built (config : DnsConfig) (done : List Nat) (upstreams : Upstreams) : Prop :=
  ∀ i ∈ done, ∀ srv, config.servers[i]? = some srv → srv.tag ∈ upstreams

/-- **The loop over the servers**, in an order in which resolvers come first. -/
theorem foldlM_addUpstream {order : List Nat} (hdeclared : ResolversDeclared config.servers)
    (hlt : ∀ i ∈ order, i < config.servers.length)
    (hsorted : Sorted (Resolves config.servers) order) :
    Ensures (Built config order) DnsError.Elsewhere
      (order.foldlM (addUpstream buildTls config outbounds cacheFile cacheReader) ∅) := by
  refine Ensures.foldlM (fun i hi => absurd hi List.not_mem_nil) ?_
  rintro done idx rest upstreams rfl hdone
  have hidx := hlt idx (List.mem_append_right _ List.mem_cons_self)
  refine (addUpstream_ensures buildTls (List.getElem?_eq_getElem hidx) ?_).imp ?_ fun _ he => he
  · -- the resolver stands before the server
    intro tag htag
    obtain ⟨s, hs, rfl⟩ := hdeclared _ (List.getElem_mem hidx) tag htag
    obtain ⟨j, hj⟩ := exists_names hs
    have hresolves : Resolves config.servers idx j :=
      ⟨s.tag, by rw [List.getElem?_eq_getElem hidx]; exact htag, hj⟩
    obtain ⟨srv, hsrv, hsame⟩ := Option.map_eq_some_iff.mp hj.1
    exact hsame ▸ hdone j (hsorted.mem_of_append hresolves) srv hsrv
  · rintro ups ⟨hnew, hold⟩ i hi srv hsrv
    rcases List.mem_append.mp hi with hi | hi
    · exact hold _ (hdone i hi srv hsrv)
    · obtain rfl := List.mem_singleton.mp hi
      rw [List.getElem?_eq_getElem hidx] at hsrv
      rwa [← Option.some.inj hsrv]

/-- Building the resolver never stops at an upstream whose resolver has not been built. -/
theorem fromConfigFull_ensures (rulesets : Str → Option RuleSet) :
    Ensures (fun _ => True) DnsError.Elsewhere
      (DnsResolver.fromConfigFull E buildTls config rulesets outbounds cacheFile cacheReader) := by
  unfold DnsResolver.fromConfigFull
  split
  · simp [DnsError.Elsewhere]
  · refine (toposortServers_ensures.imp (fun _ h => h) fun _ => DnsError.Unordered.elsewhere).bind ?_
    rintro order ⟨hdeclared, hperm, hsorted⟩
    have hlt : ∀ i ∈ order, i < config.servers.length := fun i hi =>
      List.mem_range.mp (hperm.mem_iff.mp hi)
    refine (foldlM_addUpstream buildTls hdeclared hlt hsorted).bind fun upstreams _ => ?_
    refine (Ensures.mapM fun rule _ =>
      compile_elsewhere E upstreams rulesets rule).bind fun rules _ => ?_
    split
    · simp [DnsError.Elsewhere]
    · trivial

end Build

/-! ### The order is right -/

/-- The servers are put in an order exactly if every `domain_resolver` names a server and no server
    needs itself to be reached, along however many others.  The order then has every server once,
    behind the one that looks up its address, so that a resolver is never built before the upstream
    it refers to. -/
theorem toposortServers_correct (E : Externals) (buildTls : DnsServerConfig → Except Str Unit)
    (servers : List DnsServerConfig) :
    ((∃ order, toposortServers servers = .ok order) ↔
      ResolversDeclared servers ∧ ∀ i, ¬ TransGen (Resolves servers) i i) ∧
    (∀ order, toposortServers servers = .ok order →
      order.Perm (List.range servers.length) ∧
        ∀ i j, Resolves servers i j → order.idxOf j < order.idxOf i) ∧
    ∀ config rulesets outbounds cacheWriter cacheReader server resolver,
      DnsResolver.fromConfigFull E buildTls config rulesets outbounds cacheWriter cacheReader
        ≠ .error (.unknownResolver server resolver) := by
  have hsort := @toposortServers_ensures servers
  refine ⟨⟨?_, ?_⟩, ?_, ?_⟩
  · rintro ⟨order, hok⟩
    obtain ⟨hdeclared, hperm, hsorted⟩ := hsort.of_ok hok
    refine ⟨hdeclared, fun i hcycle => ?_⟩
    obtain ⟨j, hij, -⟩ := TransGen.head'_iff.mp hcycle
    have hi : i ∈ order := hperm.mem_iff.mpr (List.mem_range.mpr (lt_of_resolves hij).1)
    exact hsorted.acyclic hi hcycle
  · rintro ⟨hdeclared, hacyclic⟩
    cases hres : toposortServers servers with
    | ok order => exact ⟨order, rfl⟩
    | error e => exact absurd (hsort.of_error hres) (DnsError.not_unordered hdeclared hacyclic e)
  · intro order hok
    obtain ⟨-, hperm, hsorted⟩ := hsort.of_ok hok
    exact ⟨hperm, fun i j hij => hsorted i
      (hperm.mem_iff.mpr (List.mem_range.mpr (lt_of_resolves hij).1)) j hij⟩
  · intro config rulesets outbounds cacheWriter cacheReader server resolver herr
    exact (fromConfigFull_ensures E buildTls rulesets).of_error herr server resolver rfl

/-- Servers that look each other up in turn, given in the wrong order. -/
example : toposortServers
    [{ tag := "a".toList, address := [], domainResolver := some "b".toList },
      { tag := "b".toList, address := [], domainResolver := some "c".toList },
      { tag := "c".toList, address := [] }] = .ok [2, 1, 0] := by decide

/-- A cycle that the check for pairs does not see. -/
example : toposortServers
    [{ tag := "a".toList, address := [], domainResolver := some "b".toList },
      { tag := "b".toList, address := [], domainResolver := some "c".toList },
      { tag := "c".toList, address := [], domainResolver := some "a".toList }]
    = .error .resolverCycle := by decide

end Reflex.Dns
