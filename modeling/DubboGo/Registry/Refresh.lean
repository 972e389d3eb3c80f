import DubboGo.Registry.Ledger

/-!
# Full notifications

`NotifyAll` says which providers there are.  With configurators only, it works on the provider events
that the last `NotifyAll` with providers has left; `Notify` does not keep these up to date.
-/

namespace DubboGo.Registry.Directory

open Go Common Lib ConfigCenter List Multiset

variable {d : Setup} {clock : ℕ → ℕ} {s : Directory}

def NoneActive (clock : ℕ → ℕ) (s : Directory) : Prop :=
  ∀ i k tombstone, s.closingTombstones.lookup k = some tombstone → tombstone.expireAt < clock i

theorem NoneActive.not_vetoes (h : NoneActive clock s) (e : UpdatedEvent) : ¬ Vetoes (clock 0) e s := by
  rintro ⟨-, tomb, hlookup, hactive, -⟩
  exact absurd (h 0 _ _ hlookup) (by omega)

/-- No tombstone becomes active while one event after the other is cached. -/
theorem NoneActive.next (h : NoneActive clock s) (e : UpdatedEvent) :
    NoneActive (fun i => clock (i + 1)) (doCacheInvoker d (clock 0) e s).2 := by
  intro i k tomb hlookup
  exact h (i + 1) k tomb ((frame_doCacheInvoker d (clock 0) e s).1.sub _ _ hlookup)

theorem NoneActive.remembers (h : NoneActive clock s) {t : Directory} (ht : Remembers s t) : NoneActive clock t := by
  intro i k tomb hlookup
  exact h i k tomb (ht.closingTombstones_eq ▸ hlookup)

/-! ## The loop that caches the events -/

theorem mem_keys_iff {m : FiniteMap Str Invoker} {k : Str} : k ∈ m.keys ↔ ∃ i, m.lookup k = some i := by
  rw [Finmap.mem_keys, Finmap.mem_iff]

section CacheAll

variable (hrefers : ∀ n u, d.refers n u = true) {e : UpdatedEvent} {es : List UpdatedEvent} {i : Invoker}

include hrefers

theorem keeps_of_not_caches {now : ℕ} (hveto : ¬ Vetoes now e s) (h : ¬ Caches d now e s) : Keeps d e s := by
  by_contra hkeeps
  exact h ⟨hveto, hkeeps, hrefers _ _⟩

theorem mem_keys_doCacheInvoker {now : ℕ} (hveto : ¬ Vetoes now e s) (k : Str) :
    k ∈ (doCacheInvoker d now e s).2.cacheInvokersMap.keys ↔ k = e.key ∨ k ∈ s.cacheInvokersMap.keys := by
  rw [mem_keys_iff, mem_keys_iff]
  by_cases h : Caches d now e s
  · rw [lookup_doCacheInvoker_of_caches h]
    by_cases hk : k = e.key
    · simp [hk]
    · simp [hk]
  · obtain ⟨i, hi, -⟩ := keeps_of_not_caches hrefers hveto h
    rw [map_doCacheInvoker_of_not_caches h]
    refine ⟨.inr, ?_⟩
    rintro (rfl | hold)
    · exact ⟨i, hi⟩
    · exact hold

theorem mem_keys_cacheAll (h : NoneActive clock s) (es : List UpdatedEvent) (k : Str) :
    k ∈ (cacheAll d clock es s).2.cacheInvokersMap.keys ↔
      k ∈ es.map UpdatedEvent.key ∨ k ∈ s.cacheInvokersMap.keys := by
  induction es generalizing clock s with
  | nil => simp [cacheAll]
  | cons e es ih =>
    rw [cacheAll_cons, ih (h.next e), mem_keys_doCacheInvoker hrefers (h.not_vetoes e), List.map_cons, List.mem_cons]
    tauto

omit hrefers in
theorem lookup_cacheAll_of_keeps {k : Str} (hi : s.cacheInvokersMap.lookup k = some i)
    (hes : ∀ e ∈ es, e.key = k → d.compareURLEqual e.service i.url = true) :
    (cacheAll d clock es s).2.cacheInvokersMap.lookup k = some i := by
  induction es generalizing clock s with
  | nil => exact hi
  | cons e es ih =>
    rw [cacheAll_cons]
    refine ih ?_ fun e' he' => hes e' (mem_cons_of_mem _ he')
    by_cases h : Caches d (clock 0) e s
    · have hne : k ≠ e.key := by
        rintro rfl
        exact h.2.1 ⟨i, hi, hes e mem_cons_self rfl⟩
      rw [lookup_doCacheInvoker_of_caches h, if_neg hne]
      exact hi
    · rw [map_doCacheInvoker_of_not_caches h]
      exact hi

theorem mem_keys_replaceAll (h : NoneActive clock s) (es : List UpdatedEvent) (k : Str) :
    k ∈ (replaceAll d clock es s).cacheInvokersMap.keys ↔ k ∈ es.map UpdatedEvent.key := by
  have hevicted : NoneActive clock (evict (es.map (·.key)) s).2 := h
  have hkeys : k ∈ (evict (es.map (·.key)) s).2.cacheInvokersMap.keys → k ∈ es.map UpdatedEvent.key := by
    rw [mem_keys_iff]
    rintro ⟨i, hi⟩
    dsimp only [evict] at hi
    rw [FiniteMap.lookup_keep] at hi
    split_ifs at hi with hmem
    exact of_decide_eq_true hmem
  rw [cacheInvokersMap_replaceAll, afterLoops, mem_keys_cacheAll hrefers hevicted]
  refine ⟨?_, .inl⟩
  rintro (hmem | hmem)
  · exact hmem
  · exact hkeys hmem

omit hrefers in
theorem lookup_replaceAll_of_keeps {k : Str} (hi : s.cacheInvokersMap.lookup k = some i)
    (hk : k ∈ es.map UpdatedEvent.key) (hes : ∀ e ∈ es, e.key = k → d.compareURLEqual e.service i.url = true) :
    (replaceAll d clock es s).cacheInvokersMap.lookup k = some i := by
  have hevicted : (evict (es.map (·.key)) s).2.cacheInvokersMap.lookup k = some i := by
    dsimp only [evict]
    rw [FiniteMap.lookup_keep, if_pos (decide_eq_true hk)]
    exact hi
  exact lookup_cacheAll_of_keeps hevicted hes

end CacheAll

/-! ## With providers -/

/-- The cache of `t` is that of `s` replaced by the providers of the events. -/
structure Replaced (d : Setup) (events : List ServiceEvent) (s t : Directory) : Prop where
  /-- The keys are those of the provider events. -/
  keys : ∀ k, k ∈ t.cacheInvokersMap.keys ↔
    ∃ event ∈ events, isProviderURL event.service = true ∧ k = (update d event event.service t).key
  /-- An invoker is kept if the URLs that come for its key compare equal to its own. -/
  keeps : ∀ k i, s.cacheInvokersMap.lookup k = some i →
    (∃ event ∈ events, isProviderURL event.service = true ∧ k = (update d event event.service t).key) →
    (∀ event ∈ events, isProviderURL event.service = true →
      k = (update d event event.service t).key → d.compareURLEqual (effectiveURL d event.service t) i.url = true) →
    t.cacheInvokersMap.lookup k = some i
  /-- What has been removed, or replaced, has been destroyed once. -/
  destroyed : ∀ i, IsCached i s ∨ i ∈ t.stored ∧ i ∉ s.stored → ¬ IsCached i t → timesDestroyed i t = 1
  /-- What is cached has not been destroyed. -/
  alive : ∀ i, IsCached i t → timesDestroyed i t = 0

section WithProviders

variable {events : List ServiceEvent}

theorem timesDestroyed_of_balanced {t : Directory} {lost : Multiset Invoker} (hs : Balanced lost s)
    (ht : Balanced lost t) (hstored : s.stored ≤ t.stored) {i : Invoker}
    (hi : IsCached i s ∨ i ∈ t.stored ∧ i ∉ s.stored) (hcached : ¬ IsCached i t) : timesDestroyed i t = 1 := by
  have hlost : i ∉ lost := by
    intro hmem
    obtain hi | ⟨-, hi⟩ := hi
    · have hdisjoint := (nodup_add.1 hs.nodup_parts).2.2
      refine disjoint_left.1 hdisjoint ?_ (mem_map_of_mem _ hmem)
      exact mem_add.2 (.inl (mem_map_of_mem _ (Balanced.isCached_iff.1 hi)))
    · apply hi
      rw [hs.balance]
      exact mem_add.2 (.inr hmem)
  have hmem : i ∈ t.stored := by
    obtain hi | hi := hi
    · apply mem_of_le hstored
      rw [hs.balance]
      exact mem_add.2 (.inl (mem_add.2 (.inl (Balanced.isCached_iff.1 hi))))
    · exact hi.1
  rw [ht.balance, mem_add, mem_add] at hmem
  obtain (hmem | hmem) | hmem := hmem
  · exact absurd (Balanced.isCached_iff.2 hmem) hcached
  · exact ht.timesDestroyed_of_mem hmem
  · exact absurd hmem hlost

theorem frame_cacheAll (d : Setup) (clock : ℕ → ℕ) (es : List UpdatedEvent) (s : Directory) :
    SameRules s (cacheAll d clock es s).2 ∧ s.stored ≤ (cacheAll d clock es s).2.stored := by
  induction es generalizing clock s with
  | nil => exact ⟨⟨rfl, rfl, rfl⟩, le_rfl⟩
  | cons e es ih =>
    obtain ⟨-, hrules, -, hstored⟩ := frame_doCacheInvoker d (clock 0) e s
    obtain ⟨hrules', hstored'⟩ := ih (fun i => clock (i + 1)) (doCacheInvoker d (clock 0) e s).2
    exact ⟨hrules.trans hrules', hstored.trans hstored'⟩

theorem mem_incomingProviders {ev : ServiceEvent} :
    ev ∈ incomingProviders events ↔ ev ∈ events ∧ isConfiguratorURL ev.service = false := by
  rw [incomingProviders, mem_filter, Bool.not_eq_true']

theorem replaced_replaceAll (hreached : Reached d s) (hrefers : ∀ n u, d.refers n u = true)
    (hactive : NoneActive clock s)
    (hproviders : ∀ event ∈ incomingProviders events, isProviderURL event.service = true) :
    Replaced d events s (replaceAll d clock
      ((incomingProviders events).map fun event => update d event event.service (receive events s))
      (receive events s)) := by
  set t := receive events s with ht
  set es := (incomingProviders events).map fun event => update d event event.service t with hes
  have hremembers : Remembers s t := (replaceConfigurators_remembers events s).trans ⟨_, _, _, rfl⟩
  have hevict : SameRules t (evict (es.map (·.key)) t).2 := ⟨rfl, rfl, rfl⟩
  obtain ⟨hcached, hstored⟩ := frame_cacheAll d clock es (evict (es.map (·.key)) t).2
  have hrules : SameRules t (replaceAll d clock es t) := SameRules.replaceAll (hevict.trans hcached)
  have hmem : ∀ event, event ∈ incomingProviders events ↔
      event ∈ events ∧ isProviderURL event.service = true := by
    intro event
    refine ⟨fun h => ⟨(mem_incomingProviders.1 h).1, hproviders event h⟩, fun h => ?_⟩
    exact mem_incomingProviders.2 ⟨h.1, (isProviderURL_iff.1 h.2).1⟩
  have hkeys : ∀ k, k ∈ es.map UpdatedEvent.key ↔
      ∃ event ∈ events, isProviderURL event.service = true ∧
        k = (update d event event.service (replaceAll d clock es t)).key := by
    intro k
    rw [hes, List.map_map, List.mem_map]
    constructor
    · rintro ⟨event, hevent, rfl⟩
      refine ⟨event, ((hmem event).1 hevent).1, ((hmem event).1 hevent).2, ?_⟩
      rw [hrules.update_eq]
      rfl
    · rintro ⟨event, hevent, hprovider, rfl⟩
      refine ⟨event, (hmem event).2 ⟨hevent, hprovider⟩, ?_⟩
      rw [hrules.update_eq]
      rfl
  obtain ⟨lost, hbalanced⟩ := hreached.balanced
  have hbalanced' : Balanced lost (replaceAll d clock es t) :=
    (hbalanced.remembers hremembers).replaceAll clock es
  have hstored' : s.stored ≤ (replaceAll d clock es t).stored := by
    obtain ⟨rules, events', origin, heq⟩ := hremembers
    rw [stored_replaceAll]
    rw [heq] at hstored ⊢
    exact hstored
  constructor
  · intro k
    rw [mem_keys_replaceAll hrefers (hactive.remembers hremembers), hkeys]
  · intro k i hi hevent hcompare
    refine lookup_replaceAll_of_keeps (hremembers.cacheInvokersMap_eq ▸ hi) ((hkeys k).2 hevent) ?_
    intro e he hk
    obtain ⟨event, hevent', rfl⟩ := List.mem_map.1 he
    obtain ⟨hmem', hprovider⟩ := (hmem event).1 hevent'
    have h := hcompare event hmem' hprovider (by rw [hrules.update_eq]; exact hk.symm)
    rw [hrules.effectiveURL_eq] at h
    exact h
  · intro i hi hcached
    exact timesDestroyed_of_balanced hbalanced hbalanced' hstored' hi hcached
  · intro i hi
    exact hbalanced'.timesDestroyed_of_isCached hi

/-- A full notification with at least one provider replaces the cache exactly if no URL of a router is
among its events. -/
theorem notifyAll_replaces_iff (hreached : Reached d s) (hrefers : ∀ n u, d.refers n u = true)
    (hactive : NoneActive clock s) (haction : ∀ event ∈ events, event.action ≠ .del)
    (hprovider : ∃ event ∈ events, isProviderURL event.service = true) :
    ((notifyAll d clock events s).1 = none ∧ Replaced d events s (notifyAll d clock events s).2) ↔
      ∀ event ∈ events, isConfiguratorURL event.service = true ∨ isRouterURL event.service = false := by
  have hincoming : incomingProviders events ≠ [] := by
    obtain ⟨event, hmem, hevent⟩ := hprovider
    exact ne_nil_of_mem (mem_incomingProviders.2 ⟨hmem, (isProviderURL_iff.1 hevent).1⟩)
  rw [notifyAll_of_incoming haction hincoming]
  constructor
  · rintro ⟨hpanic, -⟩ event hmem
    by_contra hno
    push Not at hno
    obtain ⟨hconfigurator, hrouter⟩ := hno
    have hevent : event ∈ incomingProviders events :=
      mem_incomingProviders.2 ⟨hmem, Bool.not_eq_true _ ▸ hconfigurator⟩
    have hnot : isProviderURL event.service = false := by
      simp [isProviderURL, hrouter]
    obtain ⟨rules, hrules⟩ := mergeAndReplace_of_not_provider (d := d) clock hevent hnot (receive events s)
    rw [hrules] at hpanic
    cases hpanic
  · intro h
    have hproviders : ∀ event ∈ incomingProviders events, isProviderURL event.service = true := by
      intro event hevent
      obtain ⟨hmem, hconfigurator⟩ := mem_incomingProviders.1 hevent
      refine isProviderURL_iff.2 ⟨hconfigurator, (h event hmem).resolve_left ?_⟩
      rw [hconfigurator]
      exact Bool.false_ne_true
    rw [mergeAndReplace_of_providers clock hproviders]
    refine ⟨rfl, ?_⟩
    exact replaced_replaceAll hreached hrefers hactive hproviders

end WithProviders

/-- A provider, and a router rule. -/
def demoProvider (ip : Str) : ServiceURL := .ofProvider ip (str "20880") Params.empty
def demoRouter : ServiceURL := { demoProvider (str "10.0.0.1") with protocol := routerProtocol }

def demoSetup : Setup := .ofReference (demoProvider (str "10.0.0.9"))

theorem noneActive_new (clock : ℕ → ℕ) : NoneActive clock new := by
  intro i k tomb h
  cases h

theorem reached_new : Reached d new := .init ⟨[], [], rfl⟩

theorem notifyAll_replaces_with_rule :
    (notifyAll demoSetup id [.ofAdd (demoProvider (str "10.0.0.1")), .ofAdd timeoutRule] new).1 = none ∧
      Replaced demoSetup [.ofAdd (demoProvider (str "10.0.0.1")), .ofAdd timeoutRule] new
        (notifyAll demoSetup id [.ofAdd (demoProvider (str "10.0.0.1")), .ofAdd timeoutRule] new).2 :=
  (notifyAll_replaces_iff reached_new (fun _ _ => rfl) (noneActive_new id) (by decide)
    ⟨_, mem_cons_self, by decide⟩).2 (by decide)

/-- A router URL in the list makes the merging loop use a nil URL. -/
theorem notifyAll_panics_with_router :
    isProviderURL (demoProvider (str "10.0.0.1")) = true ∧ isRouterURL demoRouter = true ∧
      (notifyAll demoSetup id [.ofAdd (demoProvider (str "10.0.0.1")), .ofAdd demoRouter] new).1 =
        some (.runtime .nilPointer) := by
  decide

/-! ## With configurators only -/

/-- A full notification of configurators keeps the keys exactly if no provider events are remembered, or one of them
makes it panic before the cache is touched, or their keys are those of the cache. -/
theorem configurators_keep_keys_iff {events : List ServiceEvent} (hrefers : ∀ n u, d.refers n u = true)
    (hactive : NoneActive clock s) (haction : ∀ event ∈ events, event.action ≠ .del)
    (hevents : events ≠ []) (hconfigurators : ∀ event ∈ events, isConfiguratorURL event.service = true) :
    (notifyAll d clock events s).2.cacheInvokersMap.keys = s.cacheInvokersMap.keys ↔ s.cachedProviderEvents = [] ∨
        (∃ event ∈ s.cachedProviderEvents, isProviderURL event.service = false) ∨
        ∀ k, k ∈ s.cacheInvokersMap.keys ↔ ∃ event ∈ s.cachedProviderEvents,
          k = (update d event event.service (replaceConfigurators events s)).key := by
  have hincoming : incomingProviders events = [] := by
    apply filter_eq_nil_iff.2
    intro event hmem
    rw [hconfigurators event hmem]
    exact Bool.false_ne_true
  have hremembers := replaceConfigurators_remembers events s
  have hmap := hremembers.cacheInvokersMap_eq
  rw [notifyAll_of_configurators haction hincoming hevents]
  by_cases hnil : s.cachedProviderEvents = []
  · rw [if_pos (by rw [hnil]; rfl), hmap]
    exact ⟨fun _ => .inl hnil, fun _ => rfl⟩
  rw [if_neg (by simpa using hnil)]
  by_cases hproviders : ∀ event ∈ s.cachedProviderEvents, isProviderURL event.service = true
  · have hkeys : ∀ k, k ∈ (mergeAndReplace d clock s.cachedProviderEvents
          (replaceConfigurators events s)).2.cacheInvokersMap.keys ↔
        ∃ event ∈ s.cachedProviderEvents,
          k = (update d event event.service (replaceConfigurators events s)).key := by
      intro k
      rw [mergeAndReplace_of_providers clock hproviders,
        mem_keys_replaceAll hrefers (hactive.remembers hremembers), List.map_map, List.mem_map]
      exact exists_congr fun event => and_congr_right fun _ => eq_comm
    rw [Finset.ext_iff]
    constructor
    · intro h
      exact .inr (.inr fun k => (h k).symm.trans (hkeys k))
    · rintro (h | ⟨event, hmem, hevent⟩ | h) k
      · exact absurd h hnil
      · rw [hproviders event hmem] at hevent
        cases hevent
      · exact (hkeys k).trans (h k).symm
  · push Not at hproviders
    obtain ⟨event, hmem, hevent⟩ := hproviders
    have hnot : isProviderURL event.service = false := Bool.not_eq_true _ ▸ hevent
    obtain ⟨rules, hrules⟩ := mergeAndReplace_of_not_provider (d := d) clock hmem hnot (replaceConfigurators events s)
    rw [hrules, hmap]
    exact ⟨fun _ => .inr (.inl ⟨event, hmem, hnot⟩), fun _ => rfl⟩

def toldAll : Directory :=
  (notifyAll demoSetup id [.ofAdd (demoProvider (str "10.0.0.1"))] new).2

theorem configurators_keep_keys_told : toldAll.cachedProviderEvents.length = 1 ∧
      (notifyAll demoSetup id [.ofAdd timeoutRule] toldAll).2.cacheInvokersMap.keys = toldAll.cacheInvokersMap.keys := by
  have hactive : NoneActive id toldAll := by
    intro i k tomb h
    have hmem : k ∈ toldAll.closingTombstones.keys :=
      Finmap.mem_keys.2 (Finmap.mem_iff.2 ⟨tomb, h⟩)
    cases hmem
  have hkeys : toldAll.cacheInvokersMap.keys =
      (toldAll.cachedProviderEvents.map fun ev => (update demoSetup ev ev.service
        (replaceConfigurators [.ofAdd timeoutRule] toldAll)).key).toFinset := by decide
  refine ⟨by decide, (configurators_keep_keys_iff (fun _ _ => rfl) hactive (by decide) (by decide)
    (by decide)).2 (.inr (.inr ?_))⟩
  intro k
  rw [hkeys, List.mem_toFinset, List.mem_map]
  exact exists_congr fun ev => and_congr_right fun _ => eq_comm

/-- A provider that came by `Notify` is forgotten when a rule comes. -/
theorem configurators_lose_notified :
    (notifyAll demoSetup id [.ofAdd timeoutRule]
      (notify demoSetup 1 (.ofAdd (demoProvider (str "10.0.0.2"))) toldAll)).2.cacheInvokersMap.keys ≠
      (notify demoSetup 1 (.ofAdd (demoProvider (str "10.0.0.2"))) toldAll).cacheInvokersMap.keys := by
  decide

end DubboGo.Registry.Directory
