import Reflex.Dns.Selection
import Reflex.Lib.Transition

namespace Reflex.Dns

open RustStd Ruleset Experimental FirstMatch

/-!
# DNS — several FakeIP servers

`DnsResolver::lookup_fakeip` of `dns/mod.rs` asks the FakeIP servers in the order in which the hash
map of the upstreams is walked, and takes the word of the first one whose range holds the address.
Each server allocates on its own.

* `Recalls` — whatever the order, an address stands for the domain it was last answered for;
* `Unclaimed` — the condition on an answer: no other server whose range holds the address says
  anything else about it;
* `recalls_iff_unclaimed` — the runs that recall every address are those whose answers are all
  unclaimed.
-/

/-- The store of a FakeIP server; it is shared by all that refer to the upstream. -/
def fakeStore (upstreams : Upstreams) (tag : Str) : Option FakeIpStore :=
  match upstreams.lookup tag with
  | some up =>
      match up.kind with
      | .fakeIp store => some store
      | _ => none
  | none => none

/-- The loop of `DnsResolver::lookup_fakeip` over `upstreams.values()`. -/
def lookupFakeip (stores : Str → Option FakeIpStore) : List Str → IpAddr → Option Str
  | [], _ => none
  | tag :: values, addr =>
      match stores tag with
      | some store => if store.contains addr then store.lookup addr else lookupFakeip stores values addr
      | none => lookupFakeip stores values addr

/-- The stores of the servers, and the addresses they have answered so far, the latest first. -/
structure FakeIpServers where
  stores : Str → Option FakeIpStore
  answers : List (IpAddr × Str)

/-- What can happen: a query reaches a FakeIP server, or `set_fakeip_strategy` is called.  Which
    server a query reaches is left open. -/
inductive ServerEvent where
  | reply (tag : Str) (query : Bytes)
  | setFakeipStrategy (s : ResolveStrategy)

namespace FakeIpServers

/-- The servers of a resolver, before any query. -/
def init (r : DnsResolver) : FakeIpServers := ⟨fakeStore r.upstreams, []⟩

/-- The answers with an address, the latest first; others are not recorded. -/
def record (answers : List (IpAddr × Str)) : Answer → List (IpAddr × Str)
  | .address domain addr => (addr, domain) :: answers
  | _ => answers

/-- One event; only FakeIP servers have a store. -/
def step (s : FakeIpServers) : ServerEvent → Option FakeIpServers
  | .reply tag query =>
      match s.stores tag with
      | none => none
      | some store =>
          let (store', answer) := store.answer query
          some ⟨Function.update s.stores tag (some store'), record s.answers answer⟩
  | .setFakeipStrategy strategy =>
      some { s with stores := fun tag => (s.stores tag).map fun store => store.setStrategy strategy }

/-- In every order an address stands for the domain it was last answered for. -/
def Recalls (tags : List Str) (s : FakeIpServers) : Prop :=
  ∀ values : List Str, values.Perm tags → ∀ addr,
    lookupFakeip s.stores values addr = s.answers.lookup addr

/-- Some range holds the address of the answer, and every other server whose range holds it has it
    for the same domain already. -/
def UnclaimedAnswer (s : FakeIpServers) (tag : Str) : Answer → Prop
  | .address domain addr =>
      (∃ tag' store', s.stores tag' = some store' ∧ store'.contains addr = true) ∧
        ∀ tag' store', tag' ≠ tag → s.stores tag' = some store' → store'.contains addr = true →
          store'.lookup addr = some domain
  | _ => True

/-- The condition on an event: a new address that a server answers with is claimed by no other server. -/
def Unclaimed (s : FakeIpServers) : ServerEvent → Prop
  | .reply tag query =>
      ∀ store, s.stores tag = some store → s.UnclaimedAnswer tag (store.answer query).2
  | .setFakeipStrategy _ => True

/-! ### Walking the servers -/

/-- What every server whose range holds the address says is found in every order. -/
theorem lookupFakeip_eq {stores : Str → Option FakeIpStore} {addr : IpAddr} {result : Option Str}
    (hall : ∀ tag store, stores tag = some store → store.contains addr = true →
      store.lookup addr = result) {values : List Str}
    (hsome : ∃ tag ∈ values, ∃ store, stores tag = some store ∧ store.contains addr = true) :
    lookupFakeip stores values addr = result := by
  induction values with
  | nil =>
      obtain ⟨tag, htag, -⟩ := hsome
      cases htag
  | cons tag values ih =>
      have hrest : (¬ ∃ store, stores tag = some store ∧ store.contains addr = true) →
          lookupFakeip stores values addr = result := by
        intro hnot
        obtain ⟨tag', htag', hstore'⟩ := hsome
        rcases List.mem_cons.mp htag' with rfl | htail
        · exact absurd hstore' hnot
        · exact ih ⟨tag', htail, hstore'⟩
      rw [lookupFakeip]
      split
      · rename_i store hstore
        split
        · rename_i hin
          exact hall tag store hstore hin
        · rename_i hout
          refine hrest fun ⟨store', hstore', hin⟩ => hout ?_
          rw [Option.some.inj (hstore.symm.trans hstore')]
          exact hin
      · rename_i hnone
        refine hrest fun ⟨store', hstore', _⟩ => ?_
        rw [hnone] at hstore'
        cases hstore'

/-- Without a range that holds the address nothing is found. -/
theorem lookupFakeip_eq_none {stores : Str → Option FakeIpStore} {addr : IpAddr} {values : List Str}
    (hnone : ∀ tag ∈ values, ∀ store, stores tag = some store → store.contains addr = false) :
    lookupFakeip stores values addr = none := by
  induction values with
  | nil => rfl
  | cons tag values ih =>
      have hrest := ih fun tag' htag' => hnone tag' (List.mem_cons_of_mem _ htag')
      rw [lookupFakeip]
      split
      · rename_i store hstore
        rw [hnone tag (List.mem_cons_self ..) store hstore]
        exact hrest
      · exact hrest

/-- **Every order** finds `result` exactly when every server whose range holds the address says so,
    and without such a server `result` is nothing. -/
theorem lookupFakeip_all_iff {stores : Str → Option FakeIpStore} {tags : List Str}
    (htags : ∀ tag store, stores tag = some store → tag ∈ tags) {addr : IpAddr}
    {result : Option Str} :
    (∀ values : List Str, values.Perm tags → lookupFakeip stores values addr = result) ↔
      (∀ tag store, stores tag = some store → store.contains addr = true →
          store.lookup addr = result) ∧
        ((∀ tag store, stores tag = some store → store.contains addr = false) → result = none) := by
  constructor
  · intro h
    refine ⟨fun tag store hstore hin => ?_, fun hnone => ?_⟩
    · -- an order that begins with this server
      have hfirst := h (tag :: tags.erase tag) (List.perm_cons_erase (htags tag store hstore)).symm
      rw [lookupFakeip, hstore] at hfirst
      exact (if_pos hin).symm.trans hfirst
    · rw [← h tags (List.Perm.refl _)]
      exact lookupFakeip_eq_none fun tag _ store hstore => hnone tag store hstore
  · rintro ⟨hall, hnone⟩ values hperm
    by_cases hsome : ∃ tag store, stores tag = some store ∧ store.contains addr = true
    · obtain ⟨tag, store, hstore, hin⟩ := hsome
      exact lookupFakeip_eq hall ⟨tag, hperm.mem_iff.mpr (htags tag store hstore), store, hstore, hin⟩
    · have hout : ∀ tag store, stores tag = some store → store.contains addr = false := by
        intro tag store hstore
        by_contra hin
        exact hsome ⟨tag, store, hstore, Bool.of_not_eq_false hin⟩
      rw [hnone hout]
      exact lookupFakeip_eq_none fun tag _ store hstore => hout tag store hstore

/-! ### Steps -/

/-- The tables of every server are inverse, and its tag is one of the resolver's. -/
structure Sound (tags : List Str) (s : FakeIpServers) : Prop where
  inverse : ∀ tag store, s.stores tag = some store → store.inner.Inverse
  tags : ∀ tag store, s.stores tag = some store → tag ∈ tags

variable {tags : List Str} {s s' : FakeIpServers}

/-- A step that is a reply changes the store of its server, and records the answer. -/
theorem step_reply {tag : Str} {query : Bytes} (h : s.step (.reply tag query) = some s') :
    ∃ store store' answer, s.stores tag = some store ∧ store.answer query = (store', answer) ∧
      s' = ⟨Function.update s.stores tag (some store'), record s.answers answer⟩ := by
  rcases hstore : s.stores tag with _ | store
  · simp only [step, hstore] at h
    cases h
  · rcases hanswer : store.answer query with ⟨store', answer⟩
    simp only [step, hstore, hanswer] at h
    exact ⟨store, store', answer, rfl, hanswer, (Option.some.inj h).symm⟩

theorem Sound.step (h : Sound tags s) {event : ServerEvent} (hstep : s.step event = some s') :
    Sound tags s' := by
  cases event with
  | reply tag query =>
      obtain ⟨store, store', answer, hstore, hanswer, rfl⟩ := step_reply hstep
      have hinv := h.inverse tag store hstore
      have hout := FakeIpStore.answer_outcome hinv query
      rw [hanswer] at hout
      have hinv' : store'.inner.Inverse := by
        cases answer with
        | address domain addr => exact FakeIpStore.Answered.inverse hout
        | noerrorEmpty => rw [show store' = store from hout]; exact hinv
        | nxdomain => rw [show store' = store from hout]; exact hinv
      constructor
      · intro tag' st hst
        rcases Transition.update_eq_some hst with ⟨-, rfl⟩ | ⟨-, hold⟩
        · exact hinv'
        · exact h.inverse tag' st hold
      · intro tag' st hst
        rcases Transition.update_eq_some hst with ⟨rfl, -⟩ | ⟨-, hold⟩
        · exact h.tags tag' store hstore
        · exact h.tags tag' st hold
  | setFakeipStrategy strategy =>
      obtain rfl := Option.some.inj hstep
      constructor
      · intro tag st hst
        obtain ⟨store, hstore, rfl⟩ := Option.map_eq_some_iff.mp hst
        exact h.inverse tag store hstore
      · intro tag st hst
        obtain ⟨store, hstore, -⟩ := Option.map_eq_some_iff.mp hst
        exact h.tags tag store hstore

/-- A strategy changes neither ranges nor tables. -/
theorem lookupFakeip_setStrategy (stores : Str → Option FakeIpStore) (strategy : ResolveStrategy)
    (values : List Str) (addr : IpAddr) :
    lookupFakeip (fun tag => (stores tag).map fun store => store.setStrategy strategy) values addr
      = lookupFakeip stores values addr := by
  induction values with
  | nil => rfl
  | cons tag values ih =>
      rw [lookupFakeip, lookupFakeip, ih]
      rcases stores tag with _ | store
      · rfl
      · have hcontains : (store.setStrategy strategy).contains = store.contains :=
          FakeIpStore.contains_eq_of_nets rfl rfl
        show (if (store.setStrategy strategy).contains addr then _ else _) = _
        rw [hcontains]
        rfl

/-- A server that says the same about an address as before. -/
theorem lookupFakeip_update {stores : Str → Option FakeIpStore} {tag : Str}
    {store store' : FakeIpStore} {addr : IpAddr} (hstore : stores tag = some store)
    (hcontains : store'.contains = store.contains) (hlookup : store'.lookup addr = store.lookup addr)
    (values : List Str) :
    lookupFakeip (Function.update stores tag (some store')) values addr
      = lookupFakeip stores values addr := by
  induction values with
  | nil => rfl
  | cons tag' values ih =>
      rw [lookupFakeip, lookupFakeip, ih]
      by_cases htag : tag' = tag
      · subst htag
        rw [Function.update_self, hstore]
        show (if store'.contains addr then store'.lookup addr else _)
          = if store.contains addr then store.lookup addr else _
        rw [hcontains, hlookup]
      · rw [Function.update_of_ne htag]

/-- **The answered address** is recalled exactly when no other server claims it. -/
theorem lookupFakeip_answered_iff {tag : Str} {store store' : FakeIpStore} {domain : Str}
    {addr : IpAddr} (hstore : s.stores tag = some store)
    (hcontains : store'.contains = store.contains) (hlookup : store'.lookup addr = some domain)
    (htags : ∀ tag' st, Function.update s.stores tag (some store') tag' = some st → tag' ∈ tags) :
    (∀ values : List Str, values.Perm tags →
      lookupFakeip (Function.update s.stores tag (some store')) values addr = some domain) ↔
      s.UnclaimedAnswer tag (.address domain addr) := by
  rw [lookupFakeip_all_iff htags]
  constructor
  · rintro ⟨hall, hnone⟩
    refine ⟨?_, fun tag' st hne hst hin => ?_⟩
    · by_contra hempty
      -- if no range held the address, the walk over the servers would find nothing
      have hout : ∀ tag' st, Function.update s.stores tag (some store') tag' = some st →
          st.contains addr = false := by
        intro tag' st hst
        rcases Transition.update_eq_some hst with ⟨-, rfl⟩ | ⟨-, hold⟩
        · rw [hcontains]
          by_contra hin
          exact hempty ⟨tag, store, hstore, Bool.of_not_eq_false hin⟩
        · by_contra hin
          exact hempty ⟨tag', st, hold, Bool.of_not_eq_false hin⟩
      cases hnone hout
    · exact hall tag' st ((Function.update_of_ne hne _ _).trans hst) hin
  · rintro ⟨⟨tag₀, st₀, hst₀, hin₀⟩, hothers⟩
    refine ⟨fun tag' st hst hin => ?_, fun hnone => ?_⟩
    · -- the answering server has the name, and the others have the address for the same one
      rcases Transition.update_eq_some hst with ⟨-, rfl⟩ | ⟨hne, hold⟩
      · exact hlookup
      · exact hothers tag' st hne hold hin
    · by_cases htag : tag₀ = tag
      · subst htag
        obtain rfl := Option.some.inj (hstore.symm.trans hst₀)
        have hcon := hnone tag₀ store' (Function.update_self ..)
        rw [hcontains, hin₀] at hcon
        cases hcon
      · have hcon := hnone tag₀ st₀ ((Function.update_of_ne htag _ _).trans hst₀)
        rw [hin₀] at hcon
        cases hcon

/-- **An answer with an address** keeps the addresses recalled exactly when it is unclaimed. -/
theorem recalls_answer_iff (hs : Sound tags s) (hrecalls : s.Recalls tags) {tag : Str}
    {store store' : FakeIpStore} {query : Bytes} {domain : Str} {addr : IpAddr}
    (hstore : s.stores tag = some store)
    (hanswer : store.answer query = (store', .address domain addr))
    (hs' : Sound tags ⟨Function.update s.stores tag (some store'), (addr, domain) :: s.answers⟩) :
    s.UnclaimedAnswer tag (.address domain addr) ↔
      Recalls tags ⟨Function.update s.stores tag (some store'), (addr, domain) :: s.answers⟩ := by
  have hinv := hs.inverse tag store hstore
  have hout := FakeIpStore.answer_outcome hinv query
  rw [hanswer] at hout
  have hanswered : store.Answered store' domain addr := hout
  have hlookup : store'.lookup = Function.update store.lookup addr (some domain) :=
    hanswered.addrToDomain
  obtain ⟨h4, h6⟩ := FakeIpStore.answer_nets hinv hanswer
  have hcontains := FakeIpStore.contains_eq_of_nets h4 h6
  have hself : store'.lookup addr = some domain := by rw [hlookup, Function.update_self]
  rw [← lookupFakeip_answered_iff hstore hcontains hself hs'.tags]
  constructor
  · intro h values hperm b
    show lookupFakeip _ values b = ((addr, domain) :: s.answers).lookup b
    by_cases hb : b = addr
    · subst hb
      rw [h values hperm, List.lookup_cons_self]
    · -- at any other address nothing changes
      have hother : store'.lookup b = store.lookup b := by rw [hlookup, Function.update_of_ne hb]
      rw [lookupFakeip_update hstore hcontains hother, hrecalls values hperm b, List.lookup_cons,
        beq_false_of_ne hb]
  · intro h values hperm
    have hvalue := h values hperm addr
    rw [List.lookup_cons_self] at hvalue
    exact hvalue

/-- **One event** keeps the addresses recalled exactly when it is unclaimed. -/
theorem unclaimed_iff_recalls (hs : Sound tags s) (hrecalls : s.Recalls tags) {event : ServerEvent}
    (hstep : s.step event = some s') : s.Unclaimed event ↔ s'.Recalls tags := by
  have hs' := hs.step hstep
  cases event with
  | setFakeipStrategy strategy =>
      obtain rfl := Option.some.inj hstep
      refine ⟨fun _ values hperm addr => ?_, fun _ => trivial⟩
      exact (lookupFakeip_setStrategy s.stores strategy values addr).trans (hrecalls values hperm addr)
  | reply tag query =>
      obtain ⟨store, store', answer, hstore, hanswer, rfl⟩ := step_reply hstep
      -- the condition on the query is one on the answer that the server gives
      have hguard : s.Unclaimed (.reply tag query) ↔ s.UnclaimedAnswer tag answer := by
        constructor
        · intro h
          have hown := h store hstore
          rw [hanswer] at hown
          exact hown
        · intro h st hst
          obtain rfl := Option.some.inj (hstore.symm.trans hst)
          rw [hanswer]
          exact h
      rw [hguard]
      have hout := FakeIpStore.answer_outcome (hs.inverse tag store hstore) query
      rw [hanswer] at hout
      cases answer with
      | address domain addr => exact recalls_answer_iff hs hrecalls hstore hanswer hs'
      | _ =>
          obtain rfl : store' = store := hout
          -- an answer without an address changes no store
          have hidle : Function.update s.stores tag (some store') = s.stores :=
            Function.update_eq_self_iff.mpr hstore.symm
          refine ⟨fun _ => ?_, fun _ => trivial⟩
          show Recalls tags ⟨Function.update s.stores tag (some store'), s.answers⟩
          rw [hidle]
          exact hrecalls

end FakeIpServers

/-! ### The servers of a configuration -/

/-- Every FakeIP server is new: its tables are inverse and empty. -/
def FreshStores (upstreams : Upstreams) : Prop :=
  ∀ tag store, fakeStore upstreams tag = some store →
    store.inner.Inverse ∧ store.inner.addrToDomain = fun _ => none

section Build

variable {buildTls : DnsServerConfig → Except Str Unit}

/-- A FakeIP upstream holds the store of its configuration. -/
theorem upstreamKind_fakeIp {srv : DnsServerConfig} {cacheFile : Option CacheFile}
    {cacheReader : Option Database} {store : FakeIpStore}
    (h : upstreamKind buildTls srv cacheFile cacheReader = .ok (.fakeIp store)) :
    ∃ cfg, FakeIpStore.newWithCache cfg cacheFile cacheReader = .ok store := by
  -- the other protocols give other kinds of upstreams, or an error
  have htls : ∀ pre kind, (∀ addr sni, kind addr sni ≠ UpstreamKind.fakeIp store) →
      tlsUpstream buildTls srv pre kind ≠ .ok (.fakeIp store) := by
    intro pre kind hne heq
    obtain ⟨addr, -, heq⟩ := bind_eq_ok.mp heq
    split at heq
    · exact hne _ _ (Except.ok.inj heq)
    · cases heq
  unfold upstreamKind at h
  split at h
  · split at h
    · cases h
    · cases h
  · obtain ⟨⟨host, port, path⟩, -, h⟩ := bind_eq_ok.mp h
    dsimp only at h
    split at h
    · cases h
    · cases h
  · obtain ⟨addr, -, h⟩ := bind_eq_ok.mp h
    cases h
  · obtain ⟨addr, -, h⟩ := bind_eq_ok.mp h
    cases h
  · exact absurd h (htls _ _ fun addr sni => nofun)
  · exact absurd h (htls _ _ fun addr sni => nofun)
  · split at h
    · cases h
    · rename_i cfg hcfg
      split at h
      · rename_i store' hstore
        obtain rfl : store' = store := by simpa using h
        exact ⟨cfg, hstore⟩
      · cases h

theorem freshStores_addUpstream {config : DnsConfig} {outbounds : Option (List Str)}
    {upstreams upstreams' : Upstreams} {idx : Nat}
    (h : addUpstream buildTls config outbounds none none upstreams idx = .ok upstreams')
    (hfresh : FreshStores upstreams) : FreshStores upstreams' := by
  unfold addUpstream at h
  split at h
  · obtain rfl := Except.ok.inj h
    exact hfresh
  · rename_i srv hsrv
    obtain ⟨detour, -, h⟩ := bind_eq_ok.mp h
    obtain ⟨domainResolver, -, h⟩ := bind_eq_ok.mp h
    have hcache : (if srv.protocol = .fakeIp then ((none : Option CacheFile), (none : Option Database))
        else (none, none)) = (none, none) := ite_self _
    rw [hcache] at h
    obtain ⟨kind, hkind, h⟩ := bind_eq_ok.mp h
    obtain rfl := Except.ok.inj h
    intro tag store hstore
    unfold fakeStore at hstore
    by_cases htag : tag = srv.tag
    · subst htag
      rw [AList.lookup_insert] at hstore
      dsimp only at hstore
      cases kind with
      | fakeIp st =>
          -- the strategy that is set right away does not touch the tables
          obtain rfl : st.setStrategy config.strategy = store := by
            simpa [DnsUpstream.withStrategy] using hstore
          obtain ⟨cfg, hnew⟩ := upstreamKind_fakeIp hkind
          obtain ⟨st', hnew', hst'⟩ := bind_eq_ok.mp hnew
          obtain rfl := Except.ok.inj hst'
          obtain ⟨hinv, hempty⟩ := FakeIpStore.inverse_new hnew'
          exact ⟨hinv, hempty⟩
      | _ => cases hstore
    · rw [AList.lookup_insert_ne htag] at hstore
      exact hfresh tag store hstore

theorem freshStores_fromConfigFull {E : Externals} {config : DnsConfig}
    {rulesets : Str → Option RuleSet} {outbounds : Option (List Str)} {r : DnsResolver}
    (h : DnsResolver.fromConfigFull E buildTls config rulesets outbounds none none = .ok r) :
    FreshStores r.upstreams := by
  obtain ⟨order, -, hups, -⟩ := DnsResolver.fromConfigFull_spec E buildTls h
  refine foldlM_ok_induction (fun _ _ _ hstep hfresh => freshStores_addUpstream hstep hfresh) hups ?_
  intro tag store hstore
  cases hstore

end Build

theorem mem_keys_of_fakeStore {upstreams : Upstreams} {tag : Str} {store : FakeIpStore}
    (h : fakeStore upstreams tag = some store) : tag ∈ upstreams.keys := by
  unfold fakeStore at h
  split at h
  · rename_i up hup
    exact AList.mem_keys.mp (AList.lookup_isSome.mp (by rw [hup]; rfl))
  · cases h

/-- The servers of a new resolver are sound. -/
theorem sound_init {E : Externals} {buildTls : DnsServerConfig → Except Str Unit} {config : DnsConfig}
    {rulesets : Str → Option RuleSet} {outbounds : Option (List Str)} {r : DnsResolver}
    (h : DnsResolver.fromConfigFull E buildTls config rulesets outbounds none none = .ok r) :
    FakeIpServers.Sound r.upstreams.keys (.init r) where
  inverse tag store hstore := (freshStores_fromConfigFull h tag store hstore).1
  tags _ _ hstore := mem_keys_of_fakeStore hstore

/-- **Several FakeIP servers.** For every resolver that is built without a cache file and every run
    of queries over its FakeIP servers: in every state of the run and in every order of the hash
    map, an address stands for the domain it was last answered for, exactly when every answer of the
    run is unclaimed by the other servers. -/
theorem recalls_iff_unclaimed (E : Externals) (buildTls : DnsServerConfig → Except Str Unit)
    (config : DnsConfig) (rulesets : Str → Option RuleSet) (outbounds : Option (List Str))
    (r : DnsResolver)
    (h : DnsResolver.fromConfigFull E buildTls config rulesets outbounds none none = .ok r)
    (events : List ServerEvent) (s : FakeIpServers)
    (hrun : Transition.run FakeIpServers.step (.init r) events = some s) :
    Transition.Guarded FakeIpServers.step FakeIpServers.Unclaimed (.init r) events ↔
      ∀ done rest t, events = done ++ rest →
        Transition.run FakeIpServers.step (.init r) done = some t → t.Recalls r.upstreams.keys := by
  have hfresh := freshStores_fromConfigFull h
  have hsound := sound_init h
  have hempty : (FakeIpServers.init r).Recalls r.upstreams.keys := by
    intro values hperm addr
    refine (FakeIpServers.lookupFakeip_all_iff hsound.tags).mpr ⟨?_, fun _ => rfl⟩ values hperm
    intro tag store hstore _
    rw [FakeIpStore.lookup, (hfresh tag store hstore).2]
  exact Transition.guarded_iff_always (fun _ _ _ hstep hs => hs.step hstep)
    (fun _ _ _ hstep hs hrecalls => FakeIpServers.unclaimed_iff_recalls hs hrecalls hstep)
    hrun hsound hempty

/-- The condition on an event, checked for the servers with these tags. -/
def FakeIpServers.unclaimedIn (tags : List Str) (s : FakeIpServers) : ServerEvent → Bool
  | .reply tag query =>
      (s.stores tag).all fun store =>
        match (store.answer query).2 with
        | .address domain addr =>
            tags.any (fun tag' => (s.stores tag').any (·.contains addr)) &&
              tags.all fun tag' => tag' = tag ||
                (s.stores tag').all fun store' => !store'.contains addr || store'.lookup addr = some domain
        | _ => true
  | .setFakeipStrategy _ => true

/-- It is enough to look at the tags of the resolver. -/
theorem FakeIpServers.unclaimed_of_unclaimedIn {tags : List Str} {s : FakeIpServers} (hs : Sound tags s)
    {event : ServerEvent} (h : s.unclaimedIn tags event = true) : s.Unclaimed event := by
  cases event with
  | setFakeipStrategy strategy => trivial
  | reply tag query =>
      intro store hstore
      rw [unclaimedIn, hstore, Option.all_some] at h
      rcases hanswer : (store.answer query).2 with _ | _ | ⟨domain, addr⟩
      case address =>
        rw [hanswer] at h
        simp only [Bool.and_eq_true, List.any_eq_true, List.all_eq_true, Bool.or_eq_true, decide_eq_true_eq,
          Option.any_eq_true, Option.all_eq_true, Bool.not_eq_true'] at h
        obtain ⟨⟨tag', -, store', hstore', hin⟩, hothers⟩ := h
        refine ⟨⟨tag', store', hstore', hin⟩, fun tag'' store'' hne hstore'' hin'' => ?_⟩
        rcases (hothers tag'' (hs.tags tag'' store'' hstore'')).resolve_left hne store'' hstore'' with hout | hsame
        · rw [hin''] at hout
          cases hout
        · exact hsame
      all_goals trivial

/-- Two FakeIP servers with one range. -/
def twoFakeServers : DnsConfig where
  servers := [fakeServer, { fakeServer with tag := "other".toList }]
  final := "fake".toList

/-- `fake` has answered with an address that is in the range of `other` as well: where `other` comes
    first, the address is not recalled. -/
theorem not_recalls_shared :
    ∃ r s, DnsResolver.fromConfigFull Externals.plain (fun _ => .ok ()) twoFakeServers
        (fun _ => none) none none none = .ok r ∧
      Transition.run FakeIpServers.step (.init r) [.reply "fake".toList queryA] = some s ∧
      ¬ s.Recalls r.upstreams.keys := by
  obtain ⟨r, hr, hany⟩ := exists_eq_ok_of_any
    (x := DnsResolver.fromConfigFull Externals.plain (fun _ => .ok ()) twoFakeServers
      (fun _ => none) none none none)
    (p := fun r => decide (["other".toList, "fake".toList].Perm r.upstreams.keys) &&
      (Transition.run FakeIpServers.step (.init r) [.reply "fake".toList queryA]).any
        fun (s : FakeIpServers) =>
          decide (lookupFakeip s.stores ["other".toList, "fake".toList] (.v4 0xC6120002)
            ≠ s.answers.lookup (.v4 0xC6120002)))
    (by decide +kernel)
  obtain ⟨hperm, hany⟩ := Bool.and_eq_true_iff.mp hany
  obtain ⟨s, hrun, hne⟩ := (Option.any_eq_true _ _).mp hany
  exact ⟨r, s, hr, hrun,
    fun hrecalls => of_decide_eq_true hne (hrecalls _ (of_decide_eq_true hperm) _)⟩

/-- Two FakeIP servers with ranges of four addresses each, which have none in common. -/
def disjointFakeServers : DnsConfig where
  servers := [fakeServer,
    { fakeServer with tag := "other".toList, fakeip := some { inet4Range := some "10.0.0.0/30".toList } }]
  final := "fake".toList

/-- The question for the address of a name of one letter. -/
def letterQuestion (letter : UInt8) : Bytes := [0, 1, 1, 0, 0, 1, 0, 0, 0, 0, 0, 0, 1, letter, 0, 0, 1, 0, 1]

/-- Both servers answer, and one of them again when its range has been handed out once: its addresses stand for
    later names, and the address of the other for its name. -/
def disjointReplies : List ServerEvent :=
  [.reply "fake".toList queryA, .reply "other".toList (letterQuestion 98), .setFakeipStrategy .ipv4Only,
    .reply "fake".toList (letterQuestion 99), .reply "fake".toList (letterQuestion 100)]

theorem recalls_iff_unclaimed_disjoint :
    ∃ r s, DnsResolver.fromConfigFull Externals.plain (fun _ => .ok ()) disjointFakeServers (fun _ => none)
        none none none = .ok r ∧
      Transition.run FakeIpServers.step (.init r) disjointReplies = some s ∧
      s.answers.map Prod.snd = ["d".toList, "c".toList, "b".toList, "a".toList] ∧
      s.Recalls r.upstreams.keys := by
  obtain ⟨r, hr, hany⟩ := exists_eq_ok_of_any
    (x := DnsResolver.fromConfigFull Externals.plain (fun _ => .ok ()) disjointFakeServers (fun _ => none)
      none none none)
    (p := fun r => decide (Transition.Guarded FakeIpServers.step
        (fun s event => FakeIpServers.unclaimedIn r.upstreams.keys s event = true) (.init r) disjointReplies) &&
      (Transition.run FakeIpServers.step (.init r) disjointReplies).any fun (s : FakeIpServers) =>
        decide (s.answers.map Prod.snd = ["d".toList, "c".toList, "b".toList, "a".toList]))
    (by decide +kernel)
  obtain ⟨hchecked, hany⟩ := Bool.and_eq_true_iff.mp hany
  obtain ⟨s, hrun, hanswers⟩ := (Option.any_eq_true _ _).mp hany
  have hguard : Transition.Guarded FakeIpServers.step FakeIpServers.Unclaimed (.init r) disjointReplies :=
    Transition.Guarded.imp_of_inv (fun _ _ _ hstep _ hs => hs.step hstep)
      (fun _ _ hs h => FakeIpServers.unclaimed_of_unclaimedIn hs h) (sound_init hr) (of_decide_eq_true hchecked)
  exact ⟨r, s, hr, hrun, of_decide_eq_true hanswers,
    (recalls_iff_unclaimed Externals.plain (fun _ => .ok ()) disjointFakeServers (fun _ => none) none r hr _ s
      hrun).mp hguard _ [] s (List.append_nil _).symm hrun⟩

end Reflex.Dns
