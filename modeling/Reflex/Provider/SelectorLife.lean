import Reflex.Experimental.CacheFile
import Reflex.Provider.Groups

namespace Reflex.Provider

open RustStd Transition Experimental

/-!
# Providers — the choice of a selector

`SelectorOutbound` of `outbound/group.rs` over its life.  `set_selected` has the cache file store a tag that
was not selected before; `new` restores it if it is one of the configured members, when the nodes of the
providers are not listed yet; `refresh_provider_nodes` falls back to the first member when the selected one
is gone.

* `step` — choices, deliveries of the providers, the writer of the cache file, and restarts;
* `Inv.step` — after a restart the selected tag is what `new` has restored;
* `Good.run` — the choice that was made last is restored as long as every choice that is accepted meets `Keeps`;
* `choice_lost` — a choice that does not meet it is lost by a restart and a delivery;
* `choice_restored` — so the last choice is restored in whatever follows exactly if it meets `Keeps`.
-/

variable {κ : Type}

/-! ### The group -/

/-- `current_tag`. -/
def Selector.currentTag (g : Selector κ) : Str :=
  if g.selected ∈ g.allTags then g.selected else g.allTags.head?.getD []

/-- What `new` selects without a saved tag of its own: the default, or the first member. -/
def SelectorOutboundConfig.fallback (cfg : SelectorOutboundConfig) : Str :=
  (cfg.default <|> cfg.outbounds.head?).getD []

/-- `SelectorOutbound::new`, with the tag that was loaded. -/
def Selector.new (cfg : SelectorOutboundConfig) (loaded : Option Str) : Selector κ where
  config := cfg
  allTags := cfg.outbounds
  selected := ((loaded.filter (· ∈ cfg.outbounds)) <|> cfg.default <|> cfg.outbounds.head?).getD []

/-- `set_selected`: the group, and the message to the cache file; an unknown tag is refused. -/
def Selector.setSelected (g : Selector κ) (tag : Str) : Option (Selector κ × List WriteOp) :=
  if tag ∈ g.allTags then
    if g.selected = tag then some (g, [])
    else some ({ g with selected := tag }, [.storeSelected g.config.tag tag])
  else none

/-- The groups of the registry are made so. -/
theorem new_selector {construct : OutboundConfig κ → Except Str Unit} {loadSelected : Str → Option Str}
    {cfg : SelectorOutboundConfig} (h : construct (.selector cfg) = .ok ()) :
    Outbound.new construct loadSelected (.selector cfg) =
      .ok (.selector (Selector.new cfg (loadSelected cfg.tag))) := by
  unfold Outbound.new
  rw [h]
  rfl

/-- The selectors of the registry select as `select_child` of the group does. -/
theorem selectChild_selector {g g' : Selector κ} {tag : Str} {ops : List WriteOp}
    (h : g.setSelected tag = some (g', ops)) :
    (Outbound.selector g).selectChild tag = .ok (.selector g') := by
  unfold Selector.setSelected at h
  split at h
  · rename_i hmem
    rw [Outbound.selectChild, if_pos hmem]
    split at h
    · rename_i hsame
      obtain ⟨rfl, -⟩ := Prod.mk.inj (Option.some.inj h)
      rw [← hsame]
    · obtain ⟨rfl, -⟩ := Prod.mk.inj (Option.some.inj h)
      rfl
  · cases h

/-! ### The cache file -/

/-- `load_selected`. -/
def loadSelected (db : Database) (group : Str) : Option Str := db.selected.lookup group

/-- What a message leaves of the saved tag of a group. -/
def savedBy (group : Str) (saved : Option Str) : WriteOp → Option Str
  | .storeSelected g tag => if g = group then some tag else saved
  | _ => saved

theorem loadSelected_applyOp (db : Database) (op : WriteOp) (group : Str) :
    loadSelected (applyOp db op) group = savedBy group (loadSelected db group) op := by
  cases op with
  | storeSelected g tag =>
    by_cases hg : g = group
    · rw [savedBy, if_pos hg, ← hg]
      exact AList.lookup_insert _
    · rw [savedBy, if_neg hg]
      exact AList.lookup_insert_ne (Ne.symm hg)
  | touchFakeip ip lastSeen =>
    have hsame : (applyOp db (.touchFakeip ip lastSeen)).selected = db.selected := by
      rw [applyOp]
      split <;> rfl
    rw [loadSelected, hsame]
    rfl
  | _ => rfl

theorem selected_doCleanup (db : Database) (days : UInt32) (now : Nat) :
    (doCleanup db days now).selected = db.selected := by
  unfold doCleanup
  split <;> rfl

theorem loadSelected_writeLoopRecv {db db' : Database} {days : UInt32} {now : Nat} {op : WriteOp}
    (h : writeLoopRecv db days now op = some db') (group : Str) :
    loadSelected db' group = savedBy group (loadSelected db group) op := by
  cases op with
  | shutdown => cases h
  | cleanup =>
    obtain rfl := Option.some.inj h
    unfold loadSelected
    rw [selected_doCleanup]
    rfl
  | _ =>
    obtain rfl := Option.some.inj h
    exact loadSelected_applyOp db _ group

theorem selected_openCacheFile (db : Database) (storeFakeip storeDns : Bool) (days : UInt32) (now : Nat) :
    (openCacheFile db storeFakeip days storeDns now).2.selected = db.selected := by
  unfold openCacheFile
  split <;> split <;> rfl

/-! ### The life of a group -/

/-- A group and the cache file, with the tag that was chosen last, whether there has been a restart since,
    and whether the providers have delivered since the last restart. -/
structure SelectorLife (κ : Type) where
  group : Selector κ
  queue : List WriteOp := []
  db : Database
  chosen : Option Str := none
  restarted : Bool := false
  delivered : Bool := false

namespace SelectorLife

/-- A choice, a delivery of the providers, a message of another part of the program, the writer takes a
    message, or the program is started again when all messages are written. -/
inductive Action (κ : Type) where
  | setSelected (tag : Str)
  | refresh (nodes : ProviderNodes κ)
  | send (op : WriteOp)
  | write (fakeipTtlDays : UInt32) (now : Nat)
  | restart (storeFakeip storeDns : Bool) (fakeipTtlDays : UInt32) (now : Nat)

/-- The program is started on a cache file. -/
def start (cfg : SelectorOutboundConfig) (db : Database) : SelectorLife κ where
  group := .new cfg (loadSelected db cfg.tag)
  db

/-- Is the message about the choice of the group, or the end of the writer? -/
def isForeign (group : Str) : WriteOp → Bool
  | .storeSelected g _ => g ≠ group
  | .shutdown => false
  | _ => true

/-- One step: a choice, a refresh, a write or its loss, or a restart. -/
def step (s : SelectorLife κ) : Action κ → Option (SelectorLife κ)
  | .setSelected tag =>
      match s.group.setSelected tag with
      | some (group, ops) =>
          some { s with group, queue := s.queue ++ ops, chosen := some tag, restarted := false }
      | none => some s
  | .refresh nodes => some { s with group := s.group.refreshProviderNodes nodes, delivered := true }
  | .send op =>
      if isForeign s.group.config.tag op then some { s with queue := s.queue ++ [op] } else none
  | .write days now =>
      match s.queue with
      | [] => none
      | op :: queue => (writeLoopRecv s.db days now op).map fun db => { s with db, queue }
  | .restart storeFakeip storeDns days now =>
      if s.queue = [] then
        let db := (openCacheFile s.db storeFakeip days storeDns now).2
        some { s with
          group := .new s.group.config (loadSelected db s.group.config.tag)
          db, restarted := true, delivered := false }
      else none

/-- The tag that is saved when all messages are written. -/
def saved (s : SelectorLife κ) : Option Str :=
  s.queue.foldl (savedBy s.group.config.tag) (loadSelected s.db s.group.config.tag)

/-- What is asked: a choice is the current tag again when there was a restart and the providers have
    delivered a list with it. -/
def Restored (s : SelectorLife κ) : Prop :=
  ∀ tag, s.chosen = some tag → s.restarted = true → s.delivered = true → tag ∈ s.group.allTags →
    s.group.currentTag = tag

/-- The condition on a choice: the tag that is saved then is the chosen one, which is a configured member;
    or no configured member is saved, and the choice is the default or without one the first member.  Nothing is
    asked of a choice that is refused. -/
def Keeps (s : SelectorLife κ) : Action κ → Prop
  | .setSelected tag => tag ∈ s.group.allTags →
      let saved := if s.group.selected = tag then s.saved else some tag
      (saved = some tag ∧ tag ∈ s.group.config.outbounds) ∨
        ((∀ other ∈ saved, other ∉ s.group.config.outbounds) ∧ s.group.config.fallback = tag)
  | _ => True

/-- No choice is accepted: the step leaves the last choice the last one. -/
def Refuses (s : SelectorLife κ) : Action κ → Prop
  | .setSelected tag => tag ∉ s.group.allTags
  | _ => True

theorem Refuses.keeps {s : SelectorLife κ} {a : Action κ} (h : s.Refuses a) : s.Keeps a := by
  cases a with
  | setSelected tag => exact fun hmem => absurd hmem h
  | _ => trivial

/-! ### What is restored -/

variable {cfg : SelectorOutboundConfig} {s s' : SelectorLife κ}

/-- What `new` selects: the saved choice if it is still a member, else the default, else the first member. -/
theorem selected_new (cfg : SelectorOutboundConfig) (loaded : Option Str) :
    (Selector.new (κ := κ) cfg loaded).selected =
      ((loaded.filter (· ∈ cfg.outbounds)).getD cfg.fallback) := by
  unfold Selector.new SelectorOutboundConfig.fallback
  cases loaded.filter (· ∈ cfg.outbounds) <;> rfl

/-- A tag is restored exactly if it was saved and is a configured member, or is the fallback and no
    configured member was saved. -/
theorem selected_new_eq_iff {loaded : Option Str} {tag : Str} :
    (Selector.new (κ := κ) cfg loaded).selected = tag ↔
      (loaded = some tag ∧ tag ∈ cfg.outbounds) ∨
        ((∀ other ∈ loaded, other ∉ cfg.outbounds) ∧ cfg.fallback = tag) := by
  rw [selected_new]
  cases loaded with
  | none => simp
  | some other =>
    by_cases hmem : other ∈ cfg.outbounds
    · simp [Option.filter_some, hmem]
      rintro rfl
      exact hmem
    · simp [Option.filter_some, hmem]
      rintro rfl
      exact fun h => absurd h hmem

/-- The fallback of a group that was accepted is a configured member, or empty. -/
theorem fallback_mem {tags providerTags : List Str}
    (hvalid : validateOutboundGroup (κ := κ) tags providerTags (.selector cfg) = .ok ()) :
    cfg.fallback ∈ cfg.outbounds ∨ cfg.fallback = [] := by
  unfold SelectorOutboundConfig.fallback
  cases hdefault : cfg.default with
  | some default =>
    rw [validateOutboundGroup] at hvalid
    obtain ⟨_, -, hvalid⟩ := bind_eq_ok.mp hvalid
    obtain ⟨_, -, hvalid⟩ := bind_eq_ok.mp hvalid
    obtain ⟨_, -, hvalid⟩ := bind_eq_ok.mp hvalid
    have hlisted := forall_of_forM_eq_ok hvalid default (by simp [OutboundConfig.groupDefault, hdefault])
    exact .inl (of_decide_eq_true (of_ensure_ok hlisted))
  | none =>
    cases cfg.outbounds with
    | nil => exact .inr rfl
    | cons first rest => exact .inl (List.mem_cons_self ..)

/-- What `new` selects stays listed, or is empty. -/
theorem selected_new_mem {tags providerTags : List Str} (loaded : Option Str)
    (hvalid : validateOutboundGroup (κ := κ) tags providerTags (.selector cfg) = .ok ()) :
    (Selector.new (κ := κ) cfg loaded).selected ∈ cfg.outbounds ∨
      (Selector.new (κ := κ) cfg loaded).selected = [] := by
  rcases selected_new_eq_iff.mp (rfl : (Selector.new (κ := κ) cfg loaded).selected = _) with
    ⟨-, hmem⟩ | ⟨-, hfallback⟩
  · exact .inl hmem
  · rw [← hfallback]
    exact fallback_mem hvalid

/-! ### What the steps preserve -/

/-- The configured members stay listed, the writer goes on, and since a restart the selected tag is the one
    that `new` has restored. -/
structure Inv (cfg : SelectorOutboundConfig) (s : SelectorLife κ) : Prop where
  config : s.group.config = cfg
  lists : ∀ tag ∈ cfg.outbounds, tag ∈ s.group.allTags
  queue : ∀ op ∈ s.queue, op ≠ .shutdown
  restarted : s.restarted = true → s.group.selected = (Selector.new (κ := κ) cfg s.saved).selected

/-- **A choice**: it is refused, or the group selects it, and the last tag that was saved is the one before
    or the choice. -/
theorem setSelected_cases {tag : Str} (h : s.step (.setSelected tag) = some s') :
    (tag ∉ s.group.allTags ∧ s' = s) ∨
      (tag ∈ s.group.allTags ∧ s'.chosen = some tag ∧ s'.restarted = false ∧
        s'.group = { s.group with selected := tag } ∧
        s'.saved = (if s.group.selected = tag then s.saved else some tag) ∧
        ∀ op ∈ s'.queue, op ∈ s.queue ∨ op = .storeSelected s.group.config.tag tag) := by
  rw [step, Selector.setSelected] at h
  by_cases hmem : tag ∈ s.group.allTags
  · rw [if_pos hmem] at h
    by_cases hsame : s.group.selected = tag
    · rw [if_pos hsame] at h
      obtain rfl := Option.some.inj h
      refine .inr ⟨hmem, rfl, rfl, ?_, ?_, fun op hop => ?_⟩
      · rw [← hsame]
      · rw [if_pos hsame]
        exact congrArg (List.foldl _ _) (List.append_nil _)
      · exact .inl (by rwa [List.append_nil] at hop)
    · rw [if_neg hsame] at h
      obtain rfl := Option.some.inj h
      refine .inr ⟨hmem, rfl, rfl, rfl, ?_, fun op hop => ?_⟩
      · rw [if_neg hsame]
        unfold saved
        rw [List.foldl_append]
        simp [savedBy]
      · simpa using hop
  · rw [if_neg hmem] at h
    exact .inl ⟨hmem, (Option.some.inj h).symm⟩

/-- A foreign message leaves the saved tag alone. -/
theorem savedBy_of_isForeign {group : Str} {op : WriteOp} (h : isForeign group op = true)
    (saved : Option Str) : savedBy group saved op = saved := by
  cases op with
  | storeSelected g tag => exact if_neg (of_decide_eq_true h)
  | _ => rfl

/-- **A delivery** leaves the selected tag as it is if that is a configured member or empty. -/
theorem selected_refreshProviderNodes {g : Selector κ} (nodes : ProviderNodes κ)
    (hlists : ∀ tag ∈ g.config.outbounds, tag ∈ g.allTags)
    (hselected : g.selected ∈ g.config.outbounds ∨ g.selected = []) :
    (g.refreshProviderNodes nodes).selected = g.selected := by
  unfold Selector.refreshProviderNodes
  rcases hselected with hmem | hnil
  · have hlisted : g.selected ∈ refreshTags g.config.outbounds g.allTags (nodes.map Prod.fst) :=
      mem_refreshTags.mpr (.inl ⟨hmem, hlists _ hmem⟩)
    simp [hlisted]
  · simp [hnil]

/-- **Every other step** leaves the last choice and the saved tag as they are. -/
theorem saved_of_step {a : Action κ} (h : s.step a = some s')
    (ha : ∀ tag, a ≠ .setSelected tag) : s'.chosen = s.chosen ∧ s'.saved = s.saved := by
  cases a with
  | setSelected tag => exact absurd rfl (ha tag)
  | refresh nodes =>
    obtain rfl := Option.some.inj h
    exact ⟨rfl, rfl⟩
  | send op =>
    rw [step, Option.ite_none_right_eq_some] at h
    obtain ⟨hforeign, h⟩ := h
    obtain rfl := Option.some.inj h
    refine ⟨rfl, ?_⟩
    unfold saved
    rw [List.foldl_append, List.foldl_cons, List.foldl_nil, savedBy_of_isForeign hforeign]
  | write days now =>
    rw [step] at h
    cases hqueue : s.queue with
    | nil =>
      rw [hqueue] at h
      cases h
    | cons op queue =>
      rw [hqueue] at h
      obtain ⟨db, hdb, rfl⟩ := Option.map_eq_some_iff.mp h
      refine ⟨rfl, ?_⟩
      unfold saved
      rw [hqueue, List.foldl_cons, loadSelected_writeLoopRecv hdb]
  | restart storeFakeip storeDns days now =>
    rw [step, Option.ite_none_right_eq_some] at h
    obtain ⟨hqueue, h⟩ := h
    obtain rfl := Option.some.inj h
    refine ⟨rfl, ?_⟩
    unfold saved loadSelected
    dsimp only [Selector.new]
    rw [selected_openCacheFile]

variable {tags providerTags : List Str}

theorem Inv.step (hvalid : validateOutboundGroup (κ := κ) tags providerTags (.selector cfg) = .ok ())
    (hs : s.Inv cfg) {a : Action κ} (h : s.step a = some s') : s'.Inv cfg := by
  cases a with
  | setSelected tag =>
    -- a choice that is refused changes nothing; one that is made is no longer that of the restart
    rcases setSelected_cases h with ⟨-, rfl⟩ | ⟨-, -, hrestarted, hgroup, -, hqueue⟩
    · exact hs
    · refine ⟨?_, ?_, fun op hop => ?_, fun hres => ?_⟩
      · rw [hgroup]
        exact hs.config
      · rw [hgroup]
        exact hs.lists
      · rcases hqueue op hop with hold | rfl
        · exact hs.queue op hold
        · exact nofun
      · rw [hrestarted] at hres
        cases hres
  | refresh nodes =>
    obtain rfl := Option.some.inj h
    -- configured members stay in the list, so the selection survives the refresh
    have hlists : ∀ tag ∈ s.group.config.outbounds, tag ∈ s.group.allTags := by
      rw [hs.config]
      exact hs.lists
    refine ⟨hs.config, fun tag htag => ?_, hs.queue, fun hres => ?_⟩
    · refine mem_refreshTags.mpr (.inl ⟨?_, hs.lists tag htag⟩)
      rwa [hs.config]
    · have hselected := hs.restarted hres
      refine (selected_refreshProviderNodes nodes hlists ?_).trans hselected
      rw [hselected, hs.config]
      exact selected_new_mem s.saved hvalid
  | send op =>
    have hsaved := (saved_of_step h nofun).2
    rw [SelectorLife.step, Option.ite_none_right_eq_some] at h
    obtain ⟨hforeign, h⟩ := h
    obtain rfl := Option.some.inj h
    refine ⟨hs.config, hs.lists, fun op' hop => ?_, fun hres => ?_⟩
    · -- an operation of another part is no choice
      rcases List.mem_append.mp hop with hold | hnew
      · exact hs.queue op' hold
      · rw [List.mem_singleton.mp hnew]
        rintro rfl
        cases hforeign
    · rw [hsaved]
      exact hs.restarted hres
  | write days now =>
    have hsaved := (saved_of_step h nofun).2
    rw [SelectorLife.step] at h
    cases hqueue : s.queue with
    | nil =>
      rw [hqueue] at h
      cases h
    | cons op queue =>
      rw [hqueue] at h
      obtain ⟨db, -, rfl⟩ := Option.map_eq_some_iff.mp h
      refine ⟨hs.config, hs.lists, fun op' hop => hs.queue op' ?_, fun hres => ?_⟩
      · rw [hqueue]
        exact List.mem_cons_of_mem op hop
      · rw [hsaved]
        exact hs.restarted hres
  | restart storeFakeip storeDns days now =>
    have hsaved := (saved_of_step h nofun).2
    rw [SelectorLife.step, Option.ite_none_right_eq_some] at h
    obtain ⟨hqueue, h⟩ := h
    obtain rfl := Option.some.inj h
    refine ⟨hs.config, fun tag htag => ?_, hs.queue, fun _ => ?_⟩
    · -- the new group has the configured members, and takes the saved choice from the file
      show tag ∈ s.group.config.outbounds
      rwa [hs.config]
    · rw [hsaved]
      unfold saved
      rw [hqueue, List.foldl_nil]
      unfold loadSelected
      dsimp only
      rw [selected_openCacheFile, hs.config]

theorem inv_start (cfg : SelectorOutboundConfig) (db : Database) :
    (start (κ := κ) cfg db).Inv cfg :=
  ⟨rfl, fun _ htag => htag, nofun, nofun⟩

/-! ### Choices -/

/-- The last choice is what a restart restores. -/
def Good (cfg : SelectorOutboundConfig) (s : SelectorLife κ) : Prop :=
  ∀ tag, s.chosen = some tag → (Selector.new (κ := κ) cfg s.saved).selected = tag

/-- **The condition** says that the choice will be restored. -/
theorem keeps_iff (hs : s.Inv cfg) {tag : Str} (h : s.step (.setSelected tag) = some s')
    (hmem : tag ∈ s.group.allTags) :
    s.Keeps (.setSelected tag) ↔ (Selector.new (κ := κ) cfg s'.saved).selected = tag := by
  rcases setSelected_cases h with ⟨hno, -⟩ | ⟨-, -, -, -, hsaved, -⟩
  · exact absurd hmem hno
  · rw [selected_new_eq_iff, hsaved, Keeps, hs.config]
    exact ⟨fun hkeeps => hkeeps hmem, fun hkeeps _ => hkeeps⟩

theorem Good.step (hs : s.Inv cfg) (hgood : s.Good cfg) {a : Action κ} (h : s.step a = some s')
    (hkeeps : s.Keeps a) : s'.Good cfg := by
  cases a with
  | setSelected tag =>
    rcases setSelected_cases h with ⟨-, rfl⟩ | ⟨hmem, hchosen, -⟩
    · exact hgood
    · intro tag' htag'
      obtain rfl := Option.some.inj (hchosen.symm.trans htag')
      exact (keeps_iff hs h hmem).mp hkeeps
  | _ =>
    obtain ⟨hchosen, hsaved⟩ := saved_of_step h nofun
    intro tag htag
    rw [hsaved]
    exact hgood tag (hchosen.symm.trans htag)

/-- Since a restart, the group has the last choice. -/
theorem restored_of_good (hs : s.Inv cfg) (hgood : s.Good cfg) : s.Restored := by
  intro tag hchosen hrestarted _ hmem
  have hselected : s.group.selected = tag := (hs.restarted hrestarted).trans (hgood tag hchosen)
  rw [Selector.currentTag, hselected, if_pos hmem]

/-- **A choice that is kept.** From a state whose last choice would be restored, it is restored in every run whose
    choices meet the condition. -/
theorem Good.run (hvalid : validateOutboundGroup (κ := κ) tags providerTags (.selector cfg) = .ok ())
    (hs : s.Inv cfg) (hgood : s.Good cfg) {actions : List (Action κ)}
    (hrun : Transition.run SelectorLife.step s actions = some s')
    (hguard : Guarded SelectorLife.step Keeps s actions) : s'.Restored := by
  have hstep (t : SelectorLife κ) (a : Action κ) (t' : SelectorLife κ) (h : t.step a = some t')
      (hkeeps : t.Keeps a) (ht : t.Inv cfg ∧ t.Good cfg) : t'.Inv cfg ∧ t'.Good cfg :=
    ⟨ht.1.step hvalid h, ht.2.step ht.1 h hkeeps⟩
  have hboth := invariant_of_run hstep hrun hguard ⟨hs, hgood⟩
  exact restored_of_good hboth.1 hboth.2

/-- A choice that meets the condition would be restored. -/
theorem good_of_keeps (hs : s.Inv cfg) {tag : Str} (h : s.step (.setSelected tag) = some s')
    (hmem : tag ∈ s.group.allTags) (hkeeps : s.Keeps (.setSelected tag)) : s'.Good cfg := by
  rcases setSelected_cases h with ⟨hno, -⟩ | ⟨-, hchosen, -⟩
  · exact absurd hmem hno
  · intro tag' htag'
    obtain rfl := Option.some.inj (hchosen.symm.trans htag')
    exact (keeps_iff hs h hmem).mp hkeeps

/-- The writer comes to the end of its queue. -/
theorem exists_drained (s : SelectorLife κ) (hqueue : ∀ op ∈ s.queue, op ≠ .shutdown) :
    ∃ actions t, run step s actions = some t ∧ Guarded step Refuses s actions ∧ t.queue = [] ∧
      t.group = s.group ∧ t.chosen = s.chosen ∧ t.saved = s.saved := by
  obtain ⟨group, queue, db, chosen, restarted, delivered⟩ := s
  induction queue generalizing db with
  | nil => exact ⟨[], _, rfl, trivial, rfl, rfl, rfl, rfl⟩
  | cons op queue ih =>
    obtain ⟨db', hdb⟩ : ∃ db', writeLoopRecv db 0 0 op = some db' := by
      cases op with
      | shutdown => exact absurd rfl (hqueue _ (List.mem_cons_self ..))
      | _ => exact ⟨_, rfl⟩
    obtain ⟨actions, t, hrun, hrefuses, hdrained, hgroup, hchosen, hsaved⟩ :=
      ih db' fun op' hop => hqueue op' (List.mem_cons_of_mem op hop)
    have hstep : step ⟨group, op :: queue, db, chosen, restarted, delivered⟩ (.write 0 0) =
        some ⟨group, queue, db', chosen, restarted, delivered⟩ := by
      show Option.map _ (writeLoopRecv db 0 0 op) = _
      rw [hdb]
      rfl
    refine ⟨.write 0 0 :: actions, t, run_cons hstep hrun, ⟨trivial, fun s' hs' => ?_⟩, hdrained, hgroup,
      hchosen, hsaved.trans (saved_of_step hstep nofun).2⟩
    obtain rfl := Option.some.inj (hstep.symm.trans hs')
    exact hrefuses

/-- A delivery with the selected tag leaves it the current one. -/
theorem currentTag_of_delivered {g : Selector κ} {nodes : ProviderNodes κ}
    (hselected : g.selected ∈ nodes.map Prod.fst) :
    (g.refreshProviderNodes nodes).currentTag = g.selected := by
  have hlisted : g.selected ∈ refreshTags g.config.outbounds g.allTags (nodes.map Prod.fst) :=
    mem_refreshTags.mpr (.inr hselected)
  simp [Selector.currentTag, Selector.refreshProviderNodes, hlisted]

/-- **A choice that is lost.** If the condition fails, the group has another tag after a restart and a
    delivery of the chosen one, with no choice between. -/
theorem choice_lost (settings : κ) (hs : s.Inv cfg) (hs' : s'.Inv cfg) {tag : Str}
    (h : s.step (.setSelected tag) = some s') (hkeeps : ¬ s.Keeps (.setSelected tag)) :
    ∃ actions t, run step s' actions = some t ∧ Guarded step Refuses s' actions ∧ ¬ t.Restored := by
  have hmem : tag ∈ s.group.allTags := by
    by_contra hno
    exact hkeeps fun hmem => absurd hmem hno
  rw [keeps_iff hs h hmem] at hkeeps
  rcases setSelected_cases h with ⟨hno, -⟩ | ⟨-, hchosen, -⟩
  · exact absurd hmem hno
  obtain ⟨actions, t, hrun, hrefuses, hdrained, hgroup, hchosen', hsaved⟩ := exists_drained s' hs'.queue
  -- what `new` selects then, and a delivery of it together with the choice
  have hrestored : (Selector.new (κ := κ) t.group.config (loadSelected t.db t.group.config.tag)).selected =
      (Selector.new (κ := κ) cfg s'.saved).selected := by
    rw [← hsaved, saved, hdrained, List.foldl_nil, hgroup, hs'.config]
  generalize hother : (Selector.new (κ := κ) cfg s'.saved).selected = other at hkeeps hrestored
  let nodes : ProviderNodes κ := [(other, .leaf other settings), (tag, .leaf tag settings)]
  let u : SelectorLife κ :=
    { t with
      group := .new t.group.config (loadSelected t.db t.group.config.tag)
      restarted := true, delivered := false }
  have hrestart : step t (.restart false false 0 0) = some u := by
    rw [step, if_pos hdrained]
    rfl
  have htail {v : SelectorLife κ} : Guarded step Refuses v [.restart false false 0 0, .refresh nodes] :=
    ⟨trivial, fun _ _ => ⟨trivial, fun _ _ => trivial⟩⟩
  refine ⟨actions ++ [.restart false false 0 0, .refresh nodes],
    { u with group := u.group.refreshProviderNodes nodes, delivered := true },
    run_append_eq_some.mpr ⟨t, hrun, run_cons hrestart (run_singleton rfl)⟩,
    guarded_append hrefuses fun _ _ => htail, fun hall => ?_⟩
  have hcurrent : (u.group.refreshProviderNodes nodes).currentTag = other := by
    refine (currentTag_of_delivered ?_).trans hrestored
    rw [hrestored]
    exact List.mem_cons_self ..
  have htag := hall tag (hchosen'.trans hchosen) rfl rfl
    (mem_refreshTags.mpr (.inr (List.mem_cons_of_mem _ (List.mem_cons_self ..))))
  exact hkeeps (hcurrent.symm.trans htag)

/-- **The choice of a selector.**

    * In every run whose choices meet the condition, the last choice is the current tag whenever there was a restart
      and the providers have delivered it again.
    * Only the last choice matters: whatever has happened before it, the choice is restored in everything that can
      follow without another one exactly if it meets the condition. -/
theorem choice_restored
    (hvalid : validateOutboundGroup (κ := κ) tags providerTags (.selector cfg) = .ok ()) (settings : κ)
    (db : Database) :
    (∀ actions s, run step (start (κ := κ) cfg db) actions = some s →
        Guarded step Keeps (start cfg db) actions → s.Restored) ∧
      ∀ actions s tag s', run step (start (κ := κ) cfg db) actions = some s →
        s.step (.setSelected tag) = some s' → tag ∈ s.group.allTags →
          (s.Keeps (.setSelected tag) ↔
            ∀ more t, run step s' more = some t → Guarded step Refuses s' more → t.Restored) := by
  have hinv (actions : List (Action κ)) (s : SelectorLife κ)
      (hrun : run step (start (κ := κ) cfg db) actions = some s) : s.Inv cfg :=
    invariant_of_steps (fun _ _ _ h hs => hs.step hvalid h) hrun (inv_start cfg db)
  constructor
  · intro actions s hrun hguard
    have hgood : (start (κ := κ) cfg db).Good cfg := nofun
    exact hgood.run hvalid (inv_start cfg db) hrun hguard
  · intro actions s tag s' hrun hstep hmem
    have hs := hinv actions s hrun
    have hs' := hs.step hvalid hstep
    constructor
    · intro hkeeps more t hmore hrefuses
      have hguard : Guarded step Keeps s' more :=
        Guarded.imp_of_inv (fun _ _ _ _ _ _ => trivial) (fun _ _ _ h => h.keeps) trivial hrefuses
      exact (good_of_keeps hs hstep hmem hkeeps).run hvalid hs' hmore hguard
    · intro hall
      by_contra hkeeps
      obtain ⟨more, t, hmore, hrefuses, hlost⟩ := choice_lost settings hs hs' hstep hkeeps
      exact hlost (hall more t hmore hrefuses)

/-- A group of two configured members and the nodes of a provider. -/
def exampleGroup : SelectorOutboundConfig where
  tag := "proxy".toList
  outbounds := ["direct".toList, "reject".toList]
  providers := some { tags := ["sub".toList] }

/-- The node that the provider delivers. -/
def exampleNodes : ProviderNodes Unit := [("node".toList, .leaf "node".toList ())]

/-- A tag is chosen and saved, and after a restart the node is delivered again. -/
def chooseAndRestart (tag : Str) : List (Action Unit) :=
  [.refresh exampleNodes, .setSelected tag, .write 0 0, .restart false false 0 0, .refresh exampleNodes]

/-- The node is chosen and saved, then a configured member: what became of the first choice does not matter. -/
theorem choice_restored_reject :
    ∃ s, run step (start exampleGroup .create)
        ([.refresh exampleNodes, .setSelected "node".toList, .write 0 0] ++ chooseAndRestart "reject".toList) =
          some s ∧
      s.chosen = some "reject".toList ∧ s.restarted = true ∧ s.delivered = true ∧
      s.group.currentTag = "reject".toList := by
  have hvalid : validateOutboundGroup (κ := Unit) exampleGroup.outbounds ["sub".toList]
      (.selector exampleGroup) = .ok () := by
    decide
  refine ⟨_, rfl, rfl, rfl, rfl, ?_⟩
  have hrestored := ((choice_restored hvalid () .create).2
    [.refresh exampleNodes, .setSelected "node".toList, .write 0 0, .refresh exampleNodes] _
    "reject".toList _ rfl rfl (by decide)).mp (fun _ => .inl ⟨by decide, by decide⟩)
    [.write 0 0, .restart false false 0 0, .refresh exampleNodes] _ rfl
    ⟨trivial, fun _ _ => ⟨trivial, fun _ _ => ⟨trivial, fun _ _ => trivial⟩⟩⟩
  exact hrestored _ rfl rfl rfl (by decide)

/-- **A node of a provider** is chosen and saved: the restart does not know it yet, and selects the first
    configured member. -/
theorem not_restored_node :
    ∃ s, run step (start exampleGroup .create) (chooseAndRestart "node".toList) = some s ∧
      s.chosen = some "node".toList ∧ s.restarted = true ∧ s.delivered = true ∧
      "node".toList ∈ s.group.allTags ∧ s.group.currentTag = "direct".toList := by
  refine ⟨_, rfl, ?_⟩
  exact ⟨by decide, by decide, by decide, by decide, by decide⟩

end SelectorLife

end Reflex.Provider
