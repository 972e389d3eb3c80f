import DubboGo.Lib.KeyedLoop
import DubboGo.Registry.DirectorySteps

/-!
# Sequences of notifications

Providers that come one after the other, by `Notify`, or all at once, by `NotifyAll`; and an override
rule that comes afterwards.
-/

namespace DubboGo.Registry.Directory

open Go Common Lib ConfigCenter List Option

/-- `Notify` for one event after the other. -/
def notifyEach (d : Setup) : (clock : ℕ → ℕ) → List ServiceEvent → Directory → Directory :=
  timedLoop (notify d)

def HasEntry (s : Directory) (k : Str) (v : ServiceURL × ServiceURL) : Prop :=
  ∃ i, s.cacheInvokersMap.lookup k = some i ∧ v = (i.url, i.origin)

def IsProviderEvent (event : ServiceEvent) : Prop :=
  event.action ≠ .del ∧ isProviderURL event.service = true

/-- `Refer` answers the same for the same URL. -/
def Consistent (d : Setup) : Prop := ∀ n m u, d.refers n u = d.refers m u

section Steps

variable {d : Setup} {now : ℕ} {e : UpdatedEvent} {s : Directory}

theorem hasEntry_new_iff {t : Directory}
    (ht : ∀ k, t.cacheInvokersMap.lookup k =
      if k = e.key then some (nextInvoker e s) else s.cacheInvokersMap.lookup k)
    (habsent : ∀ v, ¬ HasEntry s e.key v) (k : Str) (v : ServiceURL × ServiceURL) :
    HasEntry t k v ↔ (k = e.key ∧ v = (e.service, e.origin)) ∨ HasEntry s k v := by
  unfold HasEntry
  rw [ht]
  by_cases hk : k = e.key
  · rw [if_pos hk]
    constructor
    · rintro ⟨i, hi, rfl⟩
      obtain rfl := some.inj hi
      exact .inl ⟨hk, rfl⟩
    · rintro (⟨-, rfl⟩ | hold)
      · exact ⟨_, rfl, rfl⟩
      · exact absurd (hk ▸ hold) (habsent v)
  · rw [if_neg hk]
    exact ⟨.inr, fun h => h.resolve_left fun h => hk h.1⟩

theorem caches_iff_of_absent (hconsistent : Consistent d) (now : ℕ) (habsent : ∀ v, ¬ HasEntry s e.key v) :
    Caches d now e s ↔ ¬ Vetoes now e s ∧ d.refers 0 e.service = true := by
  unfold Caches
  rw [hconsistent s.refers 0]
  refine ⟨fun h => ⟨h.1, h.2.2⟩, fun h => ⟨h.1, ?_, h.2⟩⟩
  rintro ⟨i, hi, -⟩
  exact habsent _ ⟨i, hi, rfl⟩

theorem keyedStep_doCacheInvoker (hconsistent : Consistent d) :
    KeyedStep (fun now e s => (doCacheInvoker d now e s).2) (fun _ => True) (fun _ => True)
      UpdatedEvent.key (fun e => (e.service, e.origin))
      (fun now e s => ¬ Vetoes now e s ∧ d.refers 0 e.service = true) HasEntry where
  state := fun _ _ _ _ _ => trivial
  has_iff := by
    intro now e s _ _ habsent k v
    rw [← caches_iff_of_absent hconsistent now habsent]
    by_cases h : Caches d now e s
    · rw [hasEntry_new_iff (lookup_doCacheInvoker_of_caches h) habsent]
      simp [h]
    · unfold HasEntry
      rw [map_doCacheInvoker_of_not_caches h]
      simp [h]
  takes_iff := by
    intro now now' e e' s _ _ _ hne hnow _
    rw [vetoes_iff_of_swept (frame_doCacheInvoker d now e s).1 hne hnow]

theorem keyedStep_notify (hconsistent : Consistent d) (s₀ : Directory) :
    KeyedStep (notify d) (SameRules s₀) IsProviderEvent
      (fun event => (update d event event.service s₀).key)
      (fun event => (effectiveURL d event.service s₀, event.service))
      (fun now event s => d.Accepts event.service ∧
        ¬ Vetoes now (update d event event.service s₀) s ∧
          d.refers 0 (effectiveURL d event.service s₀) = true) HasEntry where
  state := by
    rintro now event s ⟨haction, hprovider⟩ hs
    exact hs.trans (frame_notify haction hprovider d now s).2.1
  has_iff := by
    rintro now event s ⟨haction, hprovider⟩ hs habsent k v
    rw [← hs.update_eq] at habsent
    have hcaches := caches_iff_of_absent hconsistent now habsent
    rw [hs.update_eq] at hcaches
    change Caches _ _ _ _ ↔ _ ∧ d.refers 0 (effectiveURL d event.service s₀) = true at hcaches
    rw [← hcaches]
    by_cases h : d.Accepts event.service ∧ Caches d now (update d event event.service s₀) s
    · have h' := h.2
      rw [← hs.update_eq] at h'
      rw [hasEntry_new_iff (lookup_notify_of_caches haction hprovider h.1 h') habsent,
        hs.update_eq]
      simp only [h.1, h.2, and_self, and_true]
      exact Iff.rfl
    · have h' : ¬ (d.Accepts event.service ∧ Caches d now (update d event event.service s) s) := by
        rw [hs.update_eq]
        exact h
      unfold HasEntry
      rw [map_notify_of_not_caches haction hprovider h']
      simp [h]
  takes_iff := by
    rintro now now' event event' s ⟨haction, hprovider⟩ - hs hne hnow -
    have hswept := (frame_notify haction hprovider d now s).1
    rw [hs.update_eq] at hswept
    rw [vetoes_iff_of_swept hswept hne hnow]

end Steps

/-! ## One after the other, or all at once -/

section Agree

variable {d : Setup} {s : Directory} {clock : ℕ → ℕ}

theorem cacheAll_snd (d : Setup) (clock : ℕ → ℕ) (es : List UpdatedEvent) (s : Directory) :
    (cacheAll d clock es s).2 = timedLoop (fun now e s => (doCacheInvoker d now e s).2) clock es s := by
  induction es generalizing clock s with
  | nil => rfl
  | cons e es ih => exact ih _ _

theorem hasEntry_replaceAll_iff (hconsistent : Consistent d) (hclock : Monotone clock)
    {es : List UpdatedEvent} (hkeys : (es.map UpdatedEvent.key).Nodup)
    (hcache : s.cacheInvokersMap = ∅) (k : Str) (v : ServiceURL × ServiceURL) : HasEntry (replaceAll d clock es s) k v ↔
      ∃ i e, es[i]? = some e ∧ k = e.key ∧ v = (e.service, e.origin) ∧
        ¬ Vetoes (clock i) e s ∧ d.refers 0 e.service = true := by
  have hempty : ∀ k v, ¬ HasEntry (evict (es.map (·.key)) s).2 k v := by
    rintro k v ⟨i, hi, -⟩
    dsimp only [evict] at hi
    rw [FiniteMap.lookup_keep, hcache, Finmap.lookup_empty, ite_self] at hi
    cases hi
  have hloop := (keyedStep_doCacheInvoker hconsistent).has_timedLoop_iff hclock
    (fun _ _ => trivial) hkeys trivial (fun e _ => hempty e.key) k v
  rw [← cacheAll_snd] at hloop
  refine hloop.trans ⟨?_, .inl⟩
  rintro (h | h)
  · exact h
  · exact absurd h (hempty k v)

variable {events : List ServiceEvent} (hevents : ∀ event ∈ events, IsProviderEvent event)

include hevents

theorem incomingProviders_of_providers : incomingProviders events = events := by
  apply filter_eq_self.2
  intro event hmem
  have h := (hevents event hmem).2
  rw [isProviderURL, Bool.and_eq_true] at h
  exact h.1

theorem replaceConfigurators_of_providers (s : Directory) : replaceConfigurators events s = s := by
  have hnone : (events.map (·.service)).filter isConfiguratorURL = [] := by
    apply filter_eq_nil_iff.2
    intro url hurl
    obtain ⟨event, hmem, rfl⟩ := mem_map.1 hurl
    have h := (hevents event hmem).2
    rw [isProviderURL, Bool.and_eq_true, Bool.not_eq_true'] at h
    simp [h.1]
  unfold replaceConfigurators
  rw [hnone]
  rfl

theorem hasEntry_notifyAll_iff (hconsistent : Consistent d) (hclock : Monotone clock)
    (hkeys : (events.map fun event => (update d event event.service s).key).Nodup)
    (hcache : s.cacheInvokersMap = ∅) (k : Str) (v : ServiceURL × ServiceURL) :
    HasEntry (notifyAll d clock events s).2 k v ↔
      ∃ i event, events[i]? = some event ∧ k = (update d event event.service s).key ∧
        v = (effectiveURL d event.service s, event.service) ∧
        ¬ Vetoes (clock i) (update d event event.service s) s ∧
          d.refers 0 (effectiveURL d event.service s) = true := by
  have hincoming := incomingProviders_of_providers hevents
  have hall : (notifyAll d clock events s).2 =
      replaceAll d clock (events.map fun event => update d event event.service s)
        { s with cachedProviderEvents := events } := by
    by_cases hempty : events = []
    · subst hempty
      rfl
    · have hreceive : receive events s = { s with cachedProviderEvents := events } := by
        rw [receive, replaceConfigurators_of_providers hevents, hincoming]
      rw [notifyAll_of_incoming (fun event h => (hevents event h).1) (by rwa [hincoming]), hincoming,
        mergeAndReplace_of_providers clock fun event h => (hevents event h).2, hreceive]
      rfl
  have hkeys' : ((events.map fun event => update d event event.service s).map
      UpdatedEvent.key).Nodup := by
    rw [List.map_map]
    exact hkeys
  rw [hall]
  refine (hasEntry_replaceAll_iff (s := { s with cachedProviderEvents := events }) hconsistent hclock
    hkeys' hcache k v).trans ?_
  simp only [getElem?_map, map_eq_some_iff]
  constructor
  · rintro ⟨i, _, ⟨event, hevent, rfl⟩, hk, hv, htakes⟩
    exact ⟨i, event, hevent, hk, hv, htakes⟩
  · rintro ⟨i, event, hevent, hk, hv, htakes⟩
    exact ⟨i, _, ⟨event, hevent, rfl⟩, hk, hv, htakes⟩

theorem hasEntry_notifyEach_iff (hconsistent : Consistent d) (hclock : Monotone clock)
    (hkeys : (events.map fun event => (update d event event.service s).key).Nodup)
    (hcache : s.cacheInvokersMap = ∅) (k : Str) (v : ServiceURL × ServiceURL) :
    HasEntry (notifyEach d clock events s) k v ↔
      ∃ i event, events[i]? = some event ∧ k = (update d event event.service s).key ∧
        v = (effectiveURL d event.service s, event.service) ∧ d.Accepts event.service ∧
        ¬ Vetoes (clock i) (update d event event.service s) s ∧
          d.refers 0 (effectiveURL d event.service s) = true := by
  have hempty : ∀ k v, ¬ HasEntry s k v := by
    rintro k v ⟨i, hi, -⟩
    rw [hcache, Finmap.lookup_empty] at hi
    cases hi
  refine ((keyedStep_notify hconsistent s).has_timedLoop_iff hclock hevents hkeys ⟨rfl, rfl, rfl⟩
    (fun event _ => hempty _) k v).trans ⟨?_, .inl⟩
  rintro (h | h)
  · exact h
  · exact absurd h (hempty k v)

omit hevents in
theorem map_url_eq_some_iff {k : Str} {u : ServiceURL} :
    (s.cacheInvokersMap.lookup k).map Invoker.url = some u ↔ ∃ orig, HasEntry s k (u, orig) := by
  rw [map_eq_some_iff]
  constructor
  · rintro ⟨i, hi, rfl⟩
    exact ⟨i.origin, i, hi, rfl⟩
  · rintro ⟨orig, i, hi, heq⟩
    exact ⟨i, hi, (Prod.mk.inj heq).1.symm⟩

/-- `NotifyAll` and `Notify` lead from an empty cache to the same keys and URLs exactly if the
reference accepts every provider, apart from those that are not cached anyway. -/
theorem notifyAll_agrees_iff (hconsistent : Consistent d) (hclock : Monotone clock)
    (hkeys : (events.map fun event => (update d event event.service s).key).Nodup) (hcache : s.cacheInvokersMap = ∅) :
    (∀ k, ((notifyAll d clock events s).2.cacheInvokersMap.lookup k).map Invoker.url =
        ((notifyEach d clock events s).cacheInvokersMap.lookup k).map Invoker.url) ↔
      ∀ i event, events[i]? = some event →
        d.Accepts event.service ∨ Vetoes (clock i) (update d event event.service s) s ∨
          d.refers 0 (effectiveURL d event.service s) = false := by
  have hbatch := hasEntry_notifyAll_iff hevents hconsistent hclock hkeys hcache
  have heach := hasEntry_notifyEach_iff hevents hconsistent hclock hkeys hcache
  constructor
  · intro hagree i event hevent
    by_contra hno
    push Not at hno
    obtain ⟨haccepts, hveto, hrefers⟩ := hno
    rw [Ne, Bool.not_eq_false] at hrefers
    -- `NotifyAll` caches the event, so `Notify` has cached one with this key
    have hentry := (hbatch _ _).2 ⟨i, event, hevent, rfl, rfl, hveto, hrefers⟩
    have hurl := map_url_eq_some_iff.2 ⟨_, hentry⟩
    rw [hagree] at hurl
    obtain ⟨orig, horigin⟩ := map_url_eq_some_iff.1 hurl
    obtain ⟨j, ev', hevent', hk, -, haccepts', -⟩ := (heach _ _).1 horigin
    have heq := inj_on_of_nodup_map hkeys (mem_of_getElem? hevent) (mem_of_getElem? hevent') hk
    exact haccepts (heq ▸ haccepts')
  · intro hcondition k
    have hsame : ∀ v, HasEntry (notifyAll d clock events s).2 k v ↔ HasEntry (notifyEach d clock events s) k v := by
      intro v
      rw [hbatch, heach]
      constructor
      · rintro ⟨i, event, hevent, hk, hv, hveto, hrefers⟩
        obtain haccepts | hveto' | hfails := hcondition i event hevent
        · exact ⟨i, event, hevent, hk, hv, haccepts, hveto, hrefers⟩
        · exact absurd hveto' hveto
        · rw [hrefers] at hfails
          cases hfails
      · rintro ⟨i, event, hevent, hk, hv, -, htakes⟩
        exact ⟨i, event, hevent, hk, hv, htakes⟩
    ext u
    rw [map_url_eq_some_iff, map_url_eq_some_iff]
    exact exists_congr fun orig => hsame (u, orig)

end Agree

def providerOf (protocol ip : Str) : ServiceURL :=
  { ServiceURL.ofProvider ip (str "20880") Params.empty with protocol := protocol }

/-- A reference that wants the `dubbo` protocol. -/
def dubboOnly : Setup := .ofReference (providerOf (str "dubbo") (str "10.0.0.9"))

def dubboEvents : List ServiceEvent :=
  [.ofAdd (providerOf (str "dubbo") (str "10.0.0.1")), .ofAdd (providerOf (str "dubbo") (str "10.0.0.2"))]

theorem notifyAll_agrees_dubbo : dubboEvents.length = 2 ∧
      ∀ k, ((notifyAll dubboOnly id dubboEvents new).2.cacheInvokersMap.lookup k).map Invoker.url =
        ((notifyEach dubboOnly id dubboEvents new).cacheInvokersMap.lookup k).map Invoker.url := by
  have hevents : ∀ event ∈ dubboEvents, IsProviderEvent event := by
    unfold IsProviderEvent
    decide
  have haccepts : ∀ event ∈ dubboEvents, dubboOnly.Accepts event.service := by decide
  refine ⟨rfl, (notifyAll_agrees_iff hevents (fun _ _ _ => rfl) monotone_id (by decide) rfl).2 ?_⟩
  exact fun i event hevent => .inl (haccepts event (mem_of_getElem? hevent))

def triEvent : ServiceEvent := .ofAdd (providerOf (str "tri") (str "10.0.0.1"))

theorem notifyAll_caches_other_protocol : ((notifyAll dubboOnly id [triEvent] new).2.cacheInvokersMap.lookup
        (update dubboOnly triEvent triEvent.service new).key).isSome = true ∧
      ((notifyEach dubboOnly id [triEvent] new).cacheInvokersMap.lookup
        (update dubboOnly triEvent triEvent.service new).key).isSome = false := by
  decide

/-! ## A rule that comes later -/

section Override

variable {d : Setup} {s : Directory} {o last : ServiceURL} {clock : ℕ → ℕ} {ps : List ServiceURL}

theorem isProviderEvent_map_ofAdd (h : ∀ p ∈ ps, isProviderURL p = true) :
    ∀ event ∈ ps.map ServiceEvent.ofAdd, IsProviderEvent event := by
  intro event hmem
  obtain ⟨p, hp, rfl⟩ := mem_map.1 hmem
  exact ⟨ofAdd_action_ne p, h p hp⟩

def withRule (o : ServiceURL) (s : Directory) : Directory :=
  { s with configurators := s.configurators ++ [o] }

theorem convertUrl_override (ho : o.protocol = overrideProtocol) (s : Directory) :
    convertUrl (.ofAdd o) s = (none, withRule o s) := by
  have hconfigurator : isConfiguratorURL o = true := by simp [isConfiguratorURL, ho]
  exact if_pos hconfigurator

theorem cacheInvokerByEvent_override (ho : o.protocol = overrideProtocol) (hlast : s.cacheOriginUrl = some last)
    (now : ℕ) :
    cacheInvokerByEvent d now (.ofAdd o) s =
      if d.Accepts last then
        doCacheInvoker d now (update d (.ofAdd o) last (withRule o s)) (withRule o s)
      else (none, withRule o s) := by
  have horigin : (withRule o s).cacheOriginUrl = some last := hlast
  have hremember : rememberOrigin none (withRule o s) = withRule o s := by
    unfold rememberOrigin
    rw [horigin]
  unfold cacheInvokerByEvent
  rw [convertUrl_override ho]
  dsimp only [ServiceEvent.ofAdd]
  rw [horigin, isNone_some, if_neg Bool.false_ne_true]
  unfold cacheInvoker
  dsimp only
  rw [hremember, horigin]

theorem SameRules.withRule {t : Directory} (h : SameRules s t) (o : ServiceURL) :
    SameRules (withRule o s) (withRule o t) :=
  ⟨congrArg (· ++ [o]) h.configurators, h.consumerConfigurators, h.referenceConfigurators⟩

theorem sameRules_notify_override (ho : o.protocol = overrideProtocol) (hlast : s.cacheOriginUrl = some last)
    (now : ℕ) : SameRules (withRule o s) (notify d now (.ofAdd o) s) := by
  apply SameRules.notify
  rw [cacheInvokerByEvent_override ho hlast]
  split_ifs
  · exact (frame_doCacheInvoker d now _ _).2.1
  · exact ⟨rfl, rfl, rfl⟩

theorem notifyEach_frame {events : List ServiceEvent} (hevents : ∀ event ∈ events, IsProviderEvent event)
    (clock : ℕ → ℕ) (s : Directory) : SameRules s (notifyEach d clock events s) ∧
      (∀ k, s.closingTombstones.lookup k = none → (notifyEach d clock events s).closingTombstones.lookup k = none) ∧
      ∀ h : events ≠ [], (notifyEach d clock events s).cacheOriginUrl = some (events.getLast h).service := by
  induction events generalizing clock s with
  | nil => exact ⟨⟨rfl, rfl, rfl⟩, fun _ h => h, fun h => absurd rfl h⟩
  | cons event events ih =>
    obtain ⟨haction, hprovider⟩ := hevents event mem_cons_self
    obtain ⟨hrules, htombstones, horigin⟩ :=
      ih (fun ev' h => hevents ev' (mem_cons_of_mem _ h)) (fun i => clock (i + 1)) (notify d (clock 0) event s)
    refine ⟨(frame_notify haction hprovider d (clock 0) s).2.1.trans hrules, ?_, ?_⟩
    · intro k hk
      apply htombstones
      rw [eq_none_iff_forall_ne_some]
      intro tomb htombstone
      have hold := (frame_notify haction hprovider d (clock 0) s).1.sub k tomb htombstone
      rw [hk] at hold
      cases hold
    · intro _
      by_cases hempty : events = []
      · subst hempty
        exact (frame_notify haction hprovider d (clock 0) s).2.2
      · rw [getLast_cons hempty]
        exact horigin hempty

/-- The cache holds the invokers of the accepted providers, with the URLs that the rules of `s` give. -/
structure HoldsProviders (d : Setup) (s : Directory) (ps : List ServiceURL) (t : Directory) : Prop where
  of : ∀ p ∈ ps, d.Accepts p → ∃ i,
    t.cacheInvokersMap.lookup (effectiveURL d p s).cacheKey = some i ∧ i.url = effectiveURL d p s ∧ i.origin = p
  made : ∀ k i, t.cacheInvokersMap.lookup k = some i →
    i.origin ∈ ps ∧ d.Accepts i.origin ∧ k = (effectiveURL d i.origin s).cacheKey ∧ i.url = effectiveURL d i.origin s

theorem holdsProviders_notifyEach (hrefers : ∀ n u, d.refers n u = true) (hclock : Monotone clock)
    (hproviders : ∀ p ∈ ps, isProviderURL p = true)
    (hkeys : (ps.map fun p => (effectiveURL d p s).cacheKey).Nodup) (hcache : s.cacheInvokersMap = ∅)
    (htombstones : s.closingTombstones = ∅) : HoldsProviders d s ps (notifyEach d clock (ps.map .ofAdd) s) := by
  have hkeys' : ((ps.map ServiceEvent.ofAdd).map fun event =>
      (update d event event.service s).key).Nodup := by
    rw [List.map_map]
    exact hkeys
  have hnoVeto : ∀ now e, ¬ Vetoes now e s := by
    rintro now e ⟨-, tomb, h, -⟩
    rw [htombstones, Finmap.lookup_empty] at h
    cases h
  have hentries := hasEntry_notifyEach_iff (isProviderEvent_map_ofAdd hproviders)
    (fun n m u => (hrefers n u).trans (hrefers m u).symm) hclock hkeys' hcache
  simp only [getElem?_map, map_eq_some_iff] at hentries
  refine ⟨?_, ?_⟩
  · intro p hp haccepts
    obtain ⟨n, hn⟩ := mem_iff_getElem?.1 hp
    obtain ⟨i, hi, heq⟩ := (hentries _ _).2 ⟨n, _, ⟨p, hn, rfl⟩, rfl, rfl, haccepts, hnoVeto _ _, hrefers _ _⟩
    exact ⟨i, hi, (Prod.mk.inj heq).1.symm, (Prod.mk.inj heq).2.symm⟩
  · intro k i hi
    obtain ⟨n, _, ⟨p, hp, rfl⟩, hk, heq, haccepts, -⟩ := (hentries k _).1 ⟨i, hi, rfl⟩
    obtain ⟨hu, rfl⟩ := Prod.mk.inj heq
    exact ⟨mem_of_getElem? hp, haccepts, hk, hu⟩

namespace HoldsProviders

variable {ps : List ServiceURL} {t : Directory}

theorem keeps_iff (h : HoldsProviders d s ps t) {e : UpdatedEvent} {p : ServiceURL} (hp : p ∈ ps)
    (haccepts : d.Accepts p) (hkey : (effectiveURL d p s).cacheKey = e.key) :
    Keeps d e t ↔ d.compareURLEqual e.service (effectiveURL d p s) = true := by
  obtain ⟨i, hi, hu, -⟩ := h.of p hp haccepts
  rw [hkey] at hi
  rw [← hu]
  constructor
  · rintro ⟨j, hj, hcompare⟩
    rw [hi] at hj
    obtain rfl := some.inj hj
    exact hcompare
  · intro hcompare
    exact ⟨i, hi, hcompare⟩

theorem reached_iff (h : HoldsProviders d s ps t) {t' : Directory} {key : Str} {newest : Invoker}
    {repl : Prop} (url : ServiceURL → ServiceURL) (hnew : repl → t'.cacheInvokersMap.lookup key = some newest)
    (hurl : newest.url = url newest.origin)
    (hold : ∀ k, ¬ (repl ∧ k = key) → t'.cacheInvokersMap.lookup k = t.cacheInvokersMap.lookup k) :
    (∀ k i, t'.cacheInvokersMap.lookup k = some i → i.url = url i.origin) ↔ ∀ p ∈ ps, d.Accepts p →
        effectiveURL d p s = url p ∨ repl ∧ (effectiveURL d p s).cacheKey = key := by
  constructor
  · intro hall p hp haccepts
    by_cases hreplaced : repl ∧ (effectiveURL d p s).cacheKey = key
    · exact .inr hreplaced
    · obtain ⟨i, hi, hu, horigin⟩ := h.of p hp haccepts
      have hi' := hall _ i ((hold _ hreplaced).trans hi)
      rw [hu, horigin] at hi'
      exact .inl hi'
  · intro hall k i hi
    by_cases hreplaced : repl ∧ k = key
    · obtain ⟨hreplaced, rfl⟩ := hreplaced
      rw [hnew hreplaced] at hi
      obtain rfl := some.inj hi
      exact hurl
    · rw [hold k hreplaced] at hi
      obtain ⟨hp, haccepts, hk, hu⟩ := h.made k i hi
      obtain heq | ⟨hr, hkey⟩ := hall i.origin hp haccepts
      · rw [hu, heq]
      · exact absurd ⟨hr, hk.trans hkey⟩ hreplaced

end HoldsProviders

theorem caches_iff_not_keeps (hrefers : ∀ n u, d.refers n u = true) {now : ℕ} {e : UpdatedEvent}
    (hnone : s.closingTombstones.lookup e.key = none) : Caches d now e s ↔ ¬ Keeps d e s := by
  refine ⟨fun h => h.2.1, fun h => ⟨?_, h, hrefers _ _⟩⟩
  rintro ⟨-, tomb, hlookup, -⟩
  rw [hnone] at hlookup
  cases hlookup

/-- After an override rule has come, the URL of every cached invoker has been made with it exactly if the rule does
not change the URLs of the providers, except for one that the last provider replaces. -/
theorem override_reaches_all_iff (hrefers : ∀ n u, d.refers n u = true) {clock : ℕ → ℕ}
    (hclock : Monotone clock) {ps : List ServiceURL} (hne : ps ≠ []) (hproviders : ∀ p ∈ ps, isProviderURL p = true)
    (hkeys : (ps.map fun p => (effectiveURL d p s).cacheKey).Nodup) (hcache : s.cacheInvokersMap = ∅)
    (htombstones : s.closingTombstones = ∅) {o : ServiceURL} (ho : o.protocol = overrideProtocol) (now : ℕ) :
    (∀ k i, (notify d now (.ofAdd o) (notifyEach d clock (ps.map .ofAdd) s)).cacheInvokersMap.lookup k = some i →
        i.url = effectiveURL d i.origin (notify d now (.ofAdd o) (notifyEach d clock (ps.map .ofAdd) s))) ↔
      ∀ p ∈ ps, d.Accepts p → effectiveURL d p s = effectiveURL d p (withRule o s) ∨ d.Accepts (ps.getLast hne) ∧
            (effectiveURL d p s).cacheKey = (effectiveURL d (ps.getLast hne) (withRule o s)).cacheKey ∧
            d.compareURLEqual (effectiveURL d (ps.getLast hne) (withRule o s)) (effectiveURL d p s) = false := by
  have hholds := holdsProviders_notifyEach hrefers hclock hproviders hkeys hcache htombstones
  obtain ⟨hrules, htombstones', horigin⟩ := notifyEach_frame (d := d) (isProviderEvent_map_ofAdd hproviders) clock s
  have hlast := horigin (by simpa using hne)
  rw [getLast_map] at hlast
  change _ = some (ps.getLast hne) at hlast
  generalize notifyEach d clock (ps.map .ofAdd) s = t at hholds hrules htombstones' hlast ⊢
  -- the rules afterwards are those before and the new one
  have hurl : ∀ p, effectiveURL d p (notify d now (.ofAdd o) t) = effectiveURL d p (withRule o s) :=
    fun p => ((hrules.withRule o).trans (sameRules_notify_override ho hlast now)).effectiveURL_eq p
  have hevent : update d (.ofAdd o) (ps.getLast hne) (withRule o t) =
      update d (.ofAdd o) (ps.getLast hne) (withRule o s) := (hrules.withRule o).update_eq _ _
  have hlookup : ∀ k, (notify d now (.ofAdd o) t).cacheInvokersMap.lookup k =
      (cacheInvokerByEvent d now (.ofAdd o) t).2.cacheInvokersMap.lookup k := fun _ => rfl
  rw [cacheInvokerByEvent_override ho hlast, hevent] at hlookup
  generalize notify d now (.ofAdd o) t = t' at hurl hlookup ⊢
  simp only [hurl]
  have hcaches : Caches d now (update d (.ofAdd o) (ps.getLast hne) (withRule o s)) (withRule o t) ↔
      ¬ Keeps d (update d (.ofAdd o) (ps.getLast hne) (withRule o s)) t :=
    caches_iff_not_keeps hrefers (htombstones' _ (by rw [htombstones, Finmap.lookup_empty]))
  -- the last provider is referred again unless its invoker is kept
  have hnew : d.Accepts (ps.getLast hne) ∧
      ¬ Keeps d (update d (.ofAdd o) (ps.getLast hne) (withRule o s)) t →
      t'.cacheInvokersMap.lookup (effectiveURL d (ps.getLast hne) (withRule o s)).cacheKey =
        some (nextInvoker (update d (.ofAdd o) (ps.getLast hne) (withRule o s)) (withRule o t)) := by
    rintro ⟨haccepts, hkeeps⟩
    rw [hlookup, if_pos haccepts, lookup_doCacheInvoker_of_caches (hcaches.2 hkeeps)]
    exact if_pos rfl
  have hold : ∀ k, ¬ ((d.Accepts (ps.getLast hne) ∧
      ¬ Keeps d (update d (.ofAdd o) (ps.getLast hne) (withRule o s)) t) ∧
        k = (effectiveURL d (ps.getLast hne) (withRule o s)).cacheKey) →
      t'.cacheInvokersMap.lookup k = t.cacheInvokersMap.lookup k := by
    intro k hk
    rw [hlookup]
    split_ifs with haccepts
    · by_cases hkeeps : Keeps d (update d (.ofAdd o) (ps.getLast hne) (withRule o s)) t
      · rw [map_doCacheInvoker_of_not_caches fun h => hcaches.1 h hkeeps]
        rfl
      · rw [lookup_doCacheInvoker_of_caches (hcaches.2 hkeeps)]
        exact if_neg fun heq => hk ⟨⟨haccepts, hkeeps⟩, heq⟩
    · rfl
  rw [hholds.reached_iff (fun p => effectiveURL d p (withRule o s)) hnew rfl hold]
  refine forall₃_congr fun p hp haccepts => or_congr_right ?_
  rw [and_assoc, and_congr_right_iff]
  intro _
  rw [and_comm, and_congr_right_iff]
  intro hkey
  have hkeeps := hholds.keeps_iff (e := update d (.ofAdd o) (ps.getLast hne) (withRule o s)) hp haccepts hkey
  rw [← Bool.not_eq_true]
  exact not_congr hkeeps

end Override

theorem override_reaches_one :
    dubboOnly.Accepts (providerOf (str "dubbo") (str "10.0.0.1")) ∧
      ∀ k i, (notify dubboOnly 1 (.ofAdd timeoutRule) (notifyEach dubboOnly id
          ([providerOf (str "dubbo") (str "10.0.0.1")].map .ofAdd) new)).cacheInvokersMap.lookup k = some i →
        i.url = effectiveURL dubboOnly i.origin (notify dubboOnly 1 (.ofAdd timeoutRule)
          (notifyEach dubboOnly id ([providerOf (str "dubbo") (str "10.0.0.1")].map .ofAdd) new)) := by
  refine ⟨by decide, (override_reaches_all_iff (fun _ _ => rfl) monotone_id (cons_ne_nil _ _)
    (by decide) (by decide) rfl rfl rfl 1).2 ?_⟩
  intro p hp _
  rw [mem_singleton] at hp
  subst hp
  exact .inr (by decide)

def twoAndRule : Directory :=
  notify dubboOnly 2 (.ofAdd timeoutRule) (notifyEach dubboOnly id dubboEvents new)

/-- The provider that came first keeps its URL. -/
theorem override_misses_first : ∃ k i, twoAndRule.cacheInvokersMap.lookup k = some i ∧
      i.url ≠ effectiveURL dubboOnly i.origin twoAndRule := by
  have hold : ((twoAndRule.cacheInvokersMap.lookup
      (providerOf (str "dubbo") (str "10.0.0.1")).cacheKey).map fun i =>
        (i.url.getParam timeoutKey [], (effectiveURL dubboOnly i.origin twoAndRule).getParam timeoutKey [])) =
          some ([], str "1000") := by decide
  obtain ⟨i, hi, heq⟩ := map_eq_some_iff.1 hold
  refine ⟨_, i, hi, fun hurl => ?_⟩
  rw [hurl] at heq
  have hvalues := Prod.mk.inj heq
  exact absurd (hvalues.1.symm.trans hvalues.2) (by decide)

end DubboGo.Registry.Directory
