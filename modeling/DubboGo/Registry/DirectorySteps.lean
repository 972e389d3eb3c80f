import DubboGo.Registry.Directory

/-!
# What the functions of a directory do

* `doCacheInvoker_of_caches`, `doCacheInvoker_of_not_caches`: what caching an event does.
* `cacheInvokerByEvent_cases`, `notifyAll_cases`: what `Notify` and `NotifyAll` can do.
-/

namespace DubboGo.Registry.Directory

open Go Common Lib ConfigCenter

/-! ## What caching an event does -/

variable {d : Setup} {now : ℕ} {e : UpdatedEvent} {s : Directory} {t u : Directory} {event : ServiceEvent}
  {events providers : List ServiceEvent}

def Vetoes (now : ℕ) (e : UpdatedEvent) (s : Directory) : Prop :=
  e.key ≠ [] ∧ ∃ tombstone, s.closingTombstones.lookup e.key = some tombstone ∧
    now ≤ tombstone.expireAt ∧
    (tombstone.timestamp = [] ∨ e.service.getParam timestampKey [] = [] ∨
      e.service.getParam timestampKey [] = tombstone.timestamp)

def Keeps (d : Setup) (e : UpdatedEvent) (s : Directory) : Prop :=
  ∃ i, s.cacheInvokersMap.lookup e.key = some i ∧ d.compareURLEqual e.service i.url = true

def withTombstones (tombstones : FiniteMap Str ClosingTombstone) (s : Directory) : Directory :=
  { s with closingTombstones := tombstones }

/-- The call to `Refer` has failed. -/
def afterFailure (s : Directory) : Directory := { s with refers := s.refers + 1 }

/-- The invoker that the next call to `Refer` returns. -/
def nextInvoker (e : UpdatedEvent) (s : Directory) : Invoker := ⟨s.refers, e.service, e.origin⟩

/-- The call to `Refer` has succeeded. -/
def afterStore (e : UpdatedEvent) (s : Directory) : Directory :=
  store e.key (nextInvoker e s) { s with refers := s.refers + 1 }

theorem cacheReferred_of_keeps (h : Keeps d e s) : cacheReferred d e s = (none, s) := by
  obtain ⟨i, hi, hcompare⟩ := h
  simp only [cacheReferred, hi, hcompare, if_true]

theorem cacheReferred_of_fails (hkeeps : ¬ Keeps d e s) (h : d.refers s.refers e.service = false) :
    cacheReferred d e s = (none, afterFailure s) := by
  cases hi : s.cacheInvokersMap.lookup e.key with
  | none => simp [cacheReferred, hi, refer, h, afterFailure]
  | some i =>
    have hcompare : d.compareURLEqual e.service i.url ≠ true := fun hc => hkeeps ⟨i, hi, hc⟩
    simp [cacheReferred, hi, hcompare, refer, h, afterFailure]

theorem cacheReferred_of_refers (hkeeps : ¬ Keeps d e s) (h : d.refers s.refers e.service = true) :
    cacheReferred d e s = (s.cacheInvokersMap.lookup e.key, afterStore e s) := by
  cases hi : s.cacheInvokersMap.lookup e.key with
  | none => simp [cacheReferred, hi, refer, h, afterStore, nextInvoker]
  | some i =>
    have hcompare : d.compareURLEqual e.service i.url ≠ true := fun hc => hkeeps ⟨i, hi, hc⟩
    simp [cacheReferred, hi, hcompare, refer, h, afterStore, nextInvoker]

/-- What caching an event at a key does to the tombstones: some are deleted, but none at another key
that has not expired. -/
structure Swept (now : ℕ) (key : Str) (t t' : FiniteMap Str ClosingTombstone) : Prop where
  sub : ∀ k tombstone, t'.lookup k = some tombstone → t.lookup k = some tombstone
  keeps : ∀ k tombstone, k ≠ key → now ≤ tombstone.expireAt → t.lookup k = some tombstone →
    t'.lookup k = some tombstone

theorem Swept.erase {key : Str} {t t' : FiniteMap Str ClosingTombstone} (h : Swept now key t t') :
    Swept now key t (t'.erase key) where
  sub := by
    intro k tomb hk
    rw [FiniteMap.lookup_erase] at hk
    split_ifs at hk
    exact h.sub k tomb hk
  keeps := by
    intro k tomb hne hnow hk
    rw [FiniteMap.lookup_erase, if_neg hne]
    exact h.keeps k tomb hne hnow hk

theorem lookup_cleanup {k : Str} {tomb : ClosingTombstone} :
    (cleanupExpiredClosingTombstones now s).closingTombstones.lookup k = some tomb ↔
      s.closingTombstones.lookup k = some tomb ∧ now ≤ tomb.expireAt := by
  dsimp only [cleanupExpiredClosingTombstones]
  rw [FiniteMap.lookup_keep]
  cases h : s.closingTombstones.lookup k with
  | none => simp
  | some t =>
    by_cases hexpired : t.expireAt < now
    · simp only [Option.all_some, hexpired, decide_true, Bool.not_true, Bool.false_eq_true, if_false,
        reduceCtorEq, Option.some.injEq, false_iff, not_and]
      rintro rfl
      omega
    · simp only [Option.all_some, hexpired, decide_false, Bool.not_false, if_true, Option.some.injEq, iff_self_and]
      rintro rfl
      omega

theorem doCacheInvoker_of_vetoes (h : Vetoes now e s) :
    doCacheInvoker d now e s = (none, cleanupExpiredClosingTombstones now s) := by
  obtain ⟨hkey, tomb, hlookup, hnow, hveto⟩ := h
  have hactive := lookup_cleanup.2 ⟨hlookup, hnow⟩
  have hnotExpired : ¬ tomb.expireAt < now := by omega
  simp only [doCacheInvoker, activeClosingTombstone, hkey, if_false, hactive, hnotExpired, if_pos hveto]

theorem doCacheInvoker_cases (d : Setup) (now : ℕ) (e : UpdatedEvent) (s : Directory) :
    ∃ tombs, Swept now e.key s.closingTombstones tombs ∧
      (Vetoes now e s ∧ doCacheInvoker d now e s = (none, withTombstones tombs s) ∨ ¬ Vetoes now e s ∧
          doCacheInvoker d now e s = cacheReferred d e (withTombstones tombs s)) := by
  have hswept : Swept now e.key s.closingTombstones (cleanupExpiredClosingTombstones now s).closingTombstones :=
    ⟨fun k tomb h => (lookup_cleanup.1 h).1, fun k tomb _ hnow h => lookup_cleanup.2 ⟨h, hnow⟩⟩
  by_cases hkey : e.key = []
  · refine ⟨_, hswept, .inr ⟨fun h => h.1 hkey, ?_⟩⟩
    simp only [doCacheInvoker, activeClosingTombstone, hkey, if_true]
    rfl
  cases hactive : (cleanupExpiredClosingTombstones now s).closingTombstones.lookup e.key with
  | none =>
    refine ⟨_, hswept, .inr ⟨?_, ?_⟩⟩
    · rintro ⟨-, tomb, hlookup, hnow, -⟩
      rw [lookup_cleanup.2 ⟨hlookup, hnow⟩] at hactive
      cases hactive
    · simp only [doCacheInvoker, activeClosingTombstone, hkey, if_false, hactive]
      rfl
  | some tomb =>
    obtain ⟨hlookup, hnow⟩ := lookup_cleanup.1 hactive
    have hnotExpired : ¬ tomb.expireAt < now := by omega
    by_cases hveto : tomb.timestamp = [] ∨ e.service.getParam timestampKey [] = [] ∨
        e.service.getParam timestampKey [] = tomb.timestamp
    · have hvetoes : Vetoes now e s := ⟨hkey, tomb, hlookup, hnow, hveto⟩
      exact ⟨_, hswept, .inl ⟨hvetoes, doCacheInvoker_of_vetoes hvetoes⟩⟩
    · refine ⟨_, hswept.erase, .inr ⟨?_, ?_⟩⟩
      · rintro ⟨-, tomb', hlookup', -, hveto'⟩
        rw [hlookup, Option.some.injEq] at hlookup'
        subst hlookup'
        exact hveto hveto'
      · simp only [doCacheInvoker, activeClosingTombstone, hkey, if_false, hactive, hnotExpired,
          if_neg hveto, clearClosingTombstone]
        rfl

def Caches (d : Setup) (now : ℕ) (e : UpdatedEvent) (s : Directory) : Prop :=
  ¬ Vetoes now e s ∧ ¬ Keeps d e s ∧ d.refers s.refers e.service = true

theorem doCacheInvoker_of_caches (h : Caches d now e s) : ∃ tombs, Swept now e.key s.closingTombstones tombs ∧
      doCacheInvoker d now e s = (s.cacheInvokersMap.lookup e.key, afterStore e (withTombstones tombs s)) := by
  obtain ⟨hveto, hkeeps, hrefers⟩ := h
  obtain ⟨tombs, hswept, ⟨hveto', -⟩ | ⟨-, heq⟩⟩ := doCacheInvoker_cases d now e s
  · exact absurd hveto' hveto
  · refine ⟨tombs, hswept, ?_⟩
    rw [heq]
    exact cacheReferred_of_refers (s := withTombstones tombs s) hkeeps hrefers

theorem doCacheInvoker_of_not_caches (h : ¬ Caches d now e s) :
    ∃ tombs refers, Swept now e.key s.closingTombstones tombs ∧
      doCacheInvoker d now e s =
        (none, { s with closingTombstones := tombs, refers := refers }) := by
  obtain ⟨tombs, hswept, ⟨-, heq⟩ | ⟨hveto, heq⟩⟩ := doCacheInvoker_cases d now e s
  · exact ⟨tombs, s.refers, hswept, heq⟩
  · by_cases hkeeps : Keeps d e s
    · rw [cacheReferred_of_keeps (s := withTombstones tombs s) hkeeps] at heq
      exact ⟨tombs, s.refers, hswept, heq⟩
    · have hfails : d.refers s.refers e.service = false := by
        cases hrefers : d.refers s.refers e.service with
        | false => rfl
        | true => exact absurd ⟨hveto, hkeeps, hrefers⟩ h
      rw [cacheReferred_of_fails (s := withTombstones tombs s) hkeeps hfails] at heq
      exact ⟨tombs, s.refers + 1, hswept, heq⟩

theorem lookup_doCacheInvoker_of_caches (h : Caches d now e s) (k : Str) :
    (doCacheInvoker d now e s).2.cacheInvokersMap.lookup k =
      if k = e.key then some (nextInvoker e s) else s.cacheInvokersMap.lookup k := by
  obtain ⟨tombs, -, heq⟩ := doCacheInvoker_of_caches h
  rw [heq]
  exact FiniteMap.lookup_insert _ _ _ k

theorem map_doCacheInvoker_of_not_caches (h : ¬ Caches d now e s) :
    (doCacheInvoker d now e s).2.cacheInvokersMap = s.cacheInvokersMap := by
  obtain ⟨tombs, refers, -, heq⟩ := doCacheInvoker_of_not_caches h
  rw [heq]

theorem vetoes_iff_of_swept {now' : ℕ} {e' : UpdatedEvent} {key : Str}
    (h : Swept now key s.closingTombstones t.closingTombstones) (hne : e'.key ≠ key) (hnow : now ≤ now') :
    Vetoes now' e' t ↔ Vetoes now' e' s := by
  constructor
  · rintro ⟨hkey, tomb, hlookup, hveto⟩
    exact ⟨hkey, tomb, h.sub _ _ hlookup, hveto⟩
  · rintro ⟨hkey, tomb, hlookup, hactive, hveto⟩
    exact ⟨hkey, tomb, h.keeps _ _ hne (hnow.trans hactive) hlookup, hactive, hveto⟩

structure SameRules (s t : Directory) : Prop where
  configurators : t.configurators = s.configurators
  consumerConfigurators : t.consumerConfigurators = s.consumerConfigurators
  referenceConfigurators : t.referenceConfigurators = s.referenceConfigurators

theorem SameRules.trans (h : SameRules s t) (h' : SameRules t u) : SameRules s u :=
  ⟨h'.configurators.trans h.configurators,
    h'.consumerConfigurators.trans h.consumerConfigurators,
    h'.referenceConfigurators.trans h.referenceConfigurators⟩

theorem SameRules.effectiveURL_eq (h : SameRules s t) (url : ServiceURL) :
    effectiveURL d url t = effectiveURL d url s := by
  unfold effectiveURL overrideUrl
  rw [h.configurators, h.consumerConfigurators, h.referenceConfigurators]

theorem SameRules.update_eq (h : SameRules s t) (event : ServiceEvent) (url : ServiceURL) :
    update d event url t = update d event url s := by
  unfold update
  rw [h.effectiveURL_eq]

/-- What caching an event leaves alone. -/
theorem frame_doCacheInvoker (d : Setup) (now : ℕ) (e : UpdatedEvent) (s : Directory) :
    Swept now e.key s.closingTombstones (doCacheInvoker d now e s).2.closingTombstones ∧
      SameRules s (doCacheInvoker d now e s).2 ∧ (doCacheInvoker d now e s).2.cacheOriginUrl = s.cacheOriginUrl ∧
      s.stored ≤ (doCacheInvoker d now e s).2.stored := by
  by_cases h : Caches d now e s
  · obtain ⟨tombs, hswept, heq⟩ := doCacheInvoker_of_caches h
    rw [heq]
    exact ⟨hswept, ⟨rfl, rfl, rfl⟩, rfl, Multiset.le_cons_self _ _⟩
  · obtain ⟨tombs, refers, hswept, heq⟩ := doCacheInvoker_of_not_caches h
    rw [heq]
    exact ⟨hswept, ⟨rfl, rfl, rfl⟩, rfl, le_rfl⟩

/-! ## What the calls do -/

theorem isProviderURL_iff {url : ServiceURL} :
    isProviderURL url = true ↔ isConfiguratorURL url = false ∧ isRouterURL url = false := by
  rw [isProviderURL, Bool.and_eq_true, Bool.not_eq_true', Bool.not_eq_true']

theorem convertUrl_of_provider (h : isProviderURL event.service = true) (s : Directory) :
    convertUrl event s = (some event.service, s) := by
  simp [convertUrl, isProviderURL_iff.1 h]

theorem convertUrl_of_not_provider (h : isProviderURL event.service = false) (s : Directory) :
    ∃ rules, convertUrl event s = (none, { s with configurators := rules }) := by
  unfold convertUrl
  by_cases hconfigurator : isConfiguratorURL event.service = true
  · exact ⟨_, if_pos hconfigurator⟩
  · have hrouter : isRouterURL event.service = true := by
      simpa [isProviderURL, hconfigurator] using h
    rw [if_neg hconfigurator, if_pos hrouter]
    exact ⟨s.configurators, rfl⟩

theorem rememberOrigin_some (u : ServiceURL) (s : Directory) :
    rememberOrigin (some u) s = { s with cacheOriginUrl := some u } := rfl

theorem ofAdd_action_ne (p : ServiceURL) : (ServiceEvent.ofAdd p).action ≠ .del := by
  intro h
  cases h

theorem cacheInvokerByEvent_of_accepts (haction : event.action ≠ .del)
    (hprovider : isProviderURL event.service = true) (h : d.Accepts event.service) :
    cacheInvokerByEvent d now event s =
      doCacheInvoker d now (update d event event.service s)
        { s with cacheOriginUrl := some event.service } := by
  unfold cacheInvokerByEvent
  cases haction' : event.action with
  | del => exact absurd haction' haction
  | add | update =>
    simp only [convertUrl_of_provider hprovider, cacheInvoker, rememberOrigin_some, if_pos h]
    rfl

theorem cacheInvokerByEvent_of_not_accepts (haction : event.action ≠ .del)
    (hprovider : isProviderURL event.service = true) (h : ¬ d.Accepts event.service) :
    cacheInvokerByEvent d now event s = (none, { s with cacheOriginUrl := some event.service }) := by
  unfold cacheInvokerByEvent
  cases haction' : event.action with
  | del => exact absurd haction' haction
  | add | update =>
    simp only [convertUrl_of_provider hprovider, cacheInvoker, rememberOrigin_some, if_neg h]

theorem cacheInvokersMap_notify (d : Setup) (now : ℕ) (event : ServiceEvent) (s : Directory) :
    (notify d now event s).cacheInvokersMap = (cacheInvokerByEvent d now event s).2.cacheInvokersMap :=
  rfl

/-- `Notify` changes the rules only where it caches its event. -/
theorem SameRules.notify (h : SameRules t (cacheInvokerByEvent d now event s).2) :
    SameRules t (notify d now event s) :=
  ⟨h.configurators, h.consumerConfigurators, h.referenceConfigurators⟩

section Notify

variable {event : ServiceEvent} (haction : event.action ≠ .del) (hprovider : isProviderURL event.service = true)

include haction hprovider

/-- A provider that is cached replaces the entry under its key and no other. -/
theorem lookup_notify_of_caches (haccepts : d.Accepts event.service)
    (h : Caches d now (update d event event.service s) s) (k : Str) :
    (notify d now event s).cacheInvokersMap.lookup k =
      if k = (update d event event.service s).key then
        some (nextInvoker (update d event event.service s) s)
      else s.cacheInvokersMap.lookup k := by
  rw [cacheInvokersMap_notify, cacheInvokerByEvent_of_accepts haction hprovider haccepts]
  exact lookup_doCacheInvoker_of_caches (s := { s with cacheOriginUrl := some event.service }) h k

/-- An event that is not cached leaves the cache as it is. -/
theorem map_notify_of_not_caches (h : ¬ (d.Accepts event.service ∧ Caches d now (update d event event.service s) s)) :
    (notify d now event s).cacheInvokersMap = s.cacheInvokersMap := by
  rw [cacheInvokersMap_notify]
  by_cases haccepts : d.Accepts event.service
  · rw [cacheInvokerByEvent_of_accepts haction hprovider haccepts]
    exact map_doCacheInvoker_of_not_caches (s := { s with cacheOriginUrl := some event.service })
      fun hcaches => h ⟨haccepts, hcaches⟩
  · rw [cacheInvokerByEvent_of_not_accepts haction hprovider haccepts]

/-- What `Notify` does besides caching: tombstones are swept, rules kept, the URL remembered. -/
theorem frame_notify (d : Setup) (now : ℕ) (s : Directory) :
    Swept now (update d event event.service s).key s.closingTombstones (notify d now event s).closingTombstones ∧
      SameRules s (notify d now event s) ∧ (notify d now event s).cacheOriginUrl = some event.service := by
  suffices h : Swept now (update d event event.service s).key s.closingTombstones
        (cacheInvokerByEvent d now event s).2.closingTombstones ∧
      SameRules s (cacheInvokerByEvent d now event s).2 ∧
      (cacheInvokerByEvent d now event s).2.cacheOriginUrl = some event.service from ⟨h.1, h.2.1.notify, h.2.2⟩
  by_cases haccepts : d.Accepts event.service
  · rw [cacheInvokerByEvent_of_accepts haction hprovider haccepts]
    obtain ⟨hswept, hrules, horigin, -⟩ := frame_doCacheInvoker d now (update d event event.service s)
      { s with cacheOriginUrl := some event.service }
    exact ⟨hswept, ⟨hrules.configurators, hrules.consumerConfigurators, hrules.referenceConfigurators⟩, horigin⟩
  · rw [cacheInvokerByEvent_of_not_accepts haction hprovider haccepts]
    exact ⟨⟨fun _ _ h => h, fun _ _ _ _ h => h⟩, ⟨rfl, rfl, rfl⟩, rfl⟩

end Notify

theorem updateAll_of_providers (h : ∀ event ∈ events, isProviderURL event.service = true) (s : Directory) :
    updateAll d events s = (some (events.map fun event => update d event event.service s), s) := by
  induction events with
  | nil => rfl
  | cons event events ih =>
    have hevent := h event List.mem_cons_self
    have hevents := ih fun ev' h' => h ev' (List.mem_cons_of_mem _ h')
    simp only [updateAll, convertUrl_of_provider hevent, hevents, List.map_cons]

theorem updateAll_of_not_provider (hmem : event ∈ events) (h : isProviderURL event.service = false)
    (s : Directory) : ∃ rules, updateAll d events s = (none, { s with configurators := rules }) := by
  induction events with
  | nil => cases hmem
  | cons ev' events ih =>
    by_cases hprovider : isProviderURL ev'.service = true
    · have htail : event ∈ events := by
        obtain rfl | htail := List.mem_cons.1 hmem
        · rw [h] at hprovider
          cases hprovider
        · exact htail
      obtain ⟨rules, hrules⟩ := ih htail
      exact ⟨rules, by simp only [updateAll, convertUrl_of_provider hprovider, hrules]⟩
    · obtain ⟨rules, hrules⟩ := convertUrl_of_not_provider (Bool.not_eq_true _ ▸ hprovider) s
      exact ⟨rules, by simp only [updateAll, hrules]⟩

/-- The directories differ only in the rules and the providers that they remember. -/
def Remembers (s t : Directory) : Prop :=
  ∃ rules events origin, t =
    { s with configurators := rules, cachedProviderEvents := events, cacheOriginUrl := origin }

theorem Remembers.rememberOrigin (h : Remembers s t) (url : Option ServiceURL) :
    Remembers s (rememberOrigin url t) := by
  obtain ⟨rules, events, orig, rfl⟩ := h
  unfold Directory.rememberOrigin
  split <;> exact ⟨rules, events, _, rfl⟩

theorem Remembers.refl (s : Directory) : Remembers s s :=
  ⟨s.configurators, s.cachedProviderEvents, s.cacheOriginUrl, rfl⟩

theorem Remembers.trans (h : Remembers s t) (h' : Remembers t u) : Remembers s u := by
  obtain ⟨rules, events, orig, rfl⟩ := h
  obtain ⟨rules', evs', orig', rfl⟩ := h'
  exact ⟨rules', evs', orig', rfl⟩

theorem Remembers.cacheInvokersMap_eq (h : Remembers s t) : t.cacheInvokersMap = s.cacheInvokersMap := by
  obtain ⟨rules, events, orig, rfl⟩ := h
  rfl

theorem Remembers.closingTombstones_eq (h : Remembers s t) : t.closingTombstones = s.closingTombstones := by
  obtain ⟨rules, events, orig, rfl⟩ := h
  rfl

theorem convertUrl_remembers (event : ServiceEvent) (s : Directory) : Remembers s (convertUrl event s).2 := by
  by_cases hprovider : isProviderURL event.service = true
  · rw [convertUrl_of_provider hprovider]
    exact .refl s
  · obtain ⟨rules, hrules⟩ := convertUrl_of_not_provider (Bool.not_eq_true _ ▸ hprovider) s
    rw [hrules]
    exact ⟨rules, s.cachedProviderEvents, s.cacheOriginUrl, rfl⟩

theorem updateAll_remembers (d : Setup) (events : List ServiceEvent) (s : Directory) :
    Remembers s (updateAll d events s).2 := by
  by_cases hproviders : ∀ event ∈ events, isProviderURL event.service = true
  · rw [updateAll_of_providers hproviders]
    exact .refl s
  · push Not at hproviders
    obtain ⟨event, hmem, hevent⟩ := hproviders
    obtain ⟨rules, hrules⟩ :=
      updateAll_of_not_provider (d := d) hmem (Bool.not_eq_true _ ▸ hevent) s
    rw [hrules]
    exact ⟨rules, s.cachedProviderEvents, s.cacheOriginUrl, rfl⟩

theorem replaceConfigurators_remembers (events : List ServiceEvent) (s : Directory) :
    Remembers s (replaceConfigurators events s) := by
  unfold replaceConfigurators
  dsimp only
  split_ifs
  · exact .refl s
  · exact ⟨_, _, _, rfl⟩

theorem providerEvents_remembers (events : List ServiceEvent) (s : Directory) :
    Remembers s (providerEvents events (replaceConfigurators events s)).2 := by
  refine (replaceConfigurators_remembers events s).trans ?_
  unfold providerEvents
  split_ifs
  · exact ⟨_, _, _, rfl⟩
  · exact .refl _
  · exact ⟨_, _, _, rfl⟩

/-! ## The calls up to their first operation on the maps -/

section Start

variable (d : Setup) {event : ServiceEvent}

/-- `cacheInvoker` up to the call of `doCacheInvoker`. -/
def mergeOrigin (url : Option ServiceURL) (event : ServiceEvent) (s : Directory) : Option UpdatedEvent × Directory :=
  let s := rememberOrigin url s
  match s.cacheOriginUrl with
  | none => (none, s)
  | some url => (if d.Accepts url then some (update d event url s) else none, s)

/-- `cacheInvokerByEvent` up to the call of `doCacheInvoker`, for an event that is no deletion. -/
def prepare (event : ServiceEvent) (s : Directory) : Option UpdatedEvent × Directory :=
  match convertUrl event s with
  | (none, s) => if s.cacheOriginUrl.isNone then (none, s) else mergeOrigin d none event s
  | (some u, s) => mergeOrigin d (some u) event s

/-- `doCacheInvoker`, if there is an event for it. -/
def cachePrepared (now : ℕ) : Option UpdatedEvent × Directory → Option Invoker × Directory
  | (none, s) => (none, s)
  | (some e, s) => doCacheInvoker d now e s

theorem cacheInvoker_eq (now : ℕ) (url : Option ServiceURL) (event : ServiceEvent) (s : Directory) :
    cacheInvoker d now url event s = cachePrepared d now (mergeOrigin d url event s) := by
  unfold cacheInvoker mergeOrigin
  dsimp only
  cases (rememberOrigin url s).cacheOriginUrl with
  | none => rfl
  | some u =>
    dsimp only
    split_ifs <;> rfl

theorem cacheInvokerByEvent_eq (now : ℕ) (haction : event.action ≠ .del) (s : Directory) :
    cacheInvokerByEvent d now event s = cachePrepared d now (prepare d event s) := by
  unfold cacheInvokerByEvent prepare
  cases haction' : event.action with
  | del => exact absurd haction' haction
  | add | update =>
    generalize convertUrl event s = converted
    obtain ⟨_ | u, s⟩ := converted
    · dsimp only
      split_ifs
      · rfl
      · exact cacheInvoker_eq d now none event s
    · exact cacheInvoker_eq d now (some u) event s

/-- `refreshAllInvokers` up to its section under `registerLock`; `none` if it does not get there. -/
def gather (events : List ServiceEvent) (s : Directory) : Option (List UpdatedEvent) × Directory :=
  if ∃ event ∈ events, event.action ≠ .update ∧ event.action ≠ .add then (none, s)
  else
    let (providers, s) := providerEvents events (replaceConfigurators events s)
    if providers.isEmpty ∧ !events.isEmpty then (none, s) else updateAll d providers s

/-- The rest of `refreshAllInvokers`. -/
def replaceGathered (clock : ℕ → ℕ) : Option (List UpdatedEvent) × Directory → Directory
  | (none, s) => s
  | (some es, s) => replaceAll d clock es s

theorem notifyAll_eq (clock : ℕ → ℕ) (events : List ServiceEvent) (s : Directory) :
    (notifyAll d clock events s).2 = replaceGathered d clock (gather d events s) := by
  unfold notifyAll refreshAllInvokers gather
  split_ifs
  · rfl
  generalize providerEvents events (replaceConfigurators events s) = received
  obtain ⟨providers, s⟩ := received
  dsimp only
  split_ifs
  · rfl
  generalize updateAll d providers s = updated
  obtain ⟨_ | es, s⟩ := updated
  · rfl
  · rfl

theorem mergeOrigin_remembers (url : Option ServiceURL) (event : ServiceEvent) (s : Directory) :
    Remembers s (mergeOrigin d url event s).2 := by
  have hremembers := (Remembers.refl s).rememberOrigin url
  unfold mergeOrigin
  dsimp only
  split <;> exact hremembers

theorem prepare_remembers (event : ServiceEvent) (s : Directory) : Remembers s (prepare d event s).2 := by
  have hremembers := convertUrl_remembers event s
  unfold prepare
  revert hremembers
  generalize convertUrl event s = converted
  obtain ⟨_ | u, t⟩ := converted
  · intro hremembers
    dsimp only
    split_ifs
    · exact hremembers
    · exact hremembers.trans (mergeOrigin_remembers d none event t)
  · intro hremembers
    exact hremembers.trans (mergeOrigin_remembers d (some u) event t)

theorem gather_remembers (events : List ServiceEvent) (s : Directory) : Remembers s (gather d events s).2 := by
  have hremembers := providerEvents_remembers events s
  unfold gather
  split_ifs
  · exact .refl s
  revert hremembers
  generalize providerEvents events (replaceConfigurators events s) = received
  obtain ⟨providers, t⟩ := received
  intro hremembers
  dsimp only
  split_ifs
  · exact hremembers
  · exact hremembers.trans (updateAll_remembers d providers t)

theorem cacheInvokerByEvent_cases (now : ℕ) (haction : event.action ≠ .del) (s : Directory) : ∃ t, Remembers s t ∧
      (cacheInvokerByEvent d now event s = (none, t) ∨
        ∃ e, cacheInvokerByEvent d now event s = doCacheInvoker d now e t) := by
  have hremembers := prepare_remembers d event s
  rw [cacheInvokerByEvent_eq d now haction]
  revert hremembers
  generalize prepare d event s = prepared
  obtain ⟨_ | e, t⟩ := prepared
  · intro hremembers
    exact ⟨t, hremembers, .inl rfl⟩
  · intro hremembers
    exact ⟨t, hremembers, .inr ⟨e, rfl⟩⟩

theorem notifyAll_cases (clock : ℕ → ℕ) (events : List ServiceEvent) (s : Directory) : ∃ t, Remembers s t ∧
      ((notifyAll d clock events s).2 = t ∨ ∃ es, (notifyAll d clock events s).2 = replaceAll d clock es t) := by
  have hremembers := gather_remembers d events s
  rw [notifyAll_eq]
  revert hremembers
  generalize gather d events s = gathered
  obtain ⟨_ | es, t⟩ := gathered
  · intro hremembers
    exact ⟨t, hremembers, .inl rfl⟩
  · intro hremembers
    exact ⟨t, hremembers, .inr ⟨es, rfl⟩⟩

end Start

/-! ## Full notifications -/

def receive (events : List ServiceEvent) (s : Directory) : Directory :=
  { replaceConfigurators events s with cachedProviderEvents := incomingProviders events }

theorem cacheAll_cons (d : Setup) (clock : ℕ → ℕ) (e : UpdatedEvent) (es : List UpdatedEvent) (s : Directory) :
    cacheAll d clock (e :: es) s = ((doCacheInvoker d (clock 0) e s).1.toList +
          (cacheAll d (fun i => clock (i + 1)) es (doCacheInvoker d (clock 0) e s).2).1,
        (cacheAll d (fun i => clock (i + 1)) es (doCacheInvoker d (clock 0) e s).2).2) :=
  rfl

def afterLoops (d : Setup) (clock : ℕ → ℕ) (es : List UpdatedEvent) (s : Directory) : Directory :=
  (cacheAll d clock es (evict (es.map (·.key)) s).2).2

theorem cacheInvokersMap_replaceAll (d : Setup) (clock : ℕ → ℕ) (es : List UpdatedEvent) (s : Directory) :
    (replaceAll d clock es s).cacheInvokersMap = (afterLoops d clock es s).cacheInvokersMap :=
  rfl

theorem stored_replaceAll (d : Setup) (clock : ℕ → ℕ) (es : List UpdatedEvent) (s : Directory) :
    (replaceAll d clock es s).stored = (afterLoops d clock es s).stored :=
  rfl

theorem SameRules.replaceAll {clock : ℕ → ℕ} {es : List UpdatedEvent} (h : SameRules t (afterLoops d clock es s)) :
    SameRules t (replaceAll d clock es s) :=
  ⟨h.configurators, h.consumerConfigurators, h.referenceConfigurators⟩

/-- The end of a full notification: it merges the provider events and replaces the cache. -/
def mergeAndReplace (d : Setup) (clock : ℕ → ℕ) (providers : List ServiceEvent) (s : Directory) :
    Option Panic × Directory :=
  match updateAll d providers s with
  | (none, s) => (some (.runtime .nilPointer), s)
  | (some es, s) => (none, replaceAll d clock es s)

/-- With providers only, the cache is replaced by what they are updated to. -/
theorem mergeAndReplace_of_providers (clock : ℕ → ℕ) (h : ∀ event ∈ providers, isProviderURL event.service = true)
    (s : Directory) : mergeAndReplace d clock providers s =
      (none, replaceAll d clock (providers.map fun event => update d event event.service s) s) := by
  rw [mergeAndReplace, updateAll_of_providers h]

theorem mergeAndReplace_of_not_provider (clock : ℕ → ℕ) (hmem : event ∈ providers)
    (h : isProviderURL event.service = false) (s : Directory) :
    ∃ rules, mergeAndReplace d clock providers s =
      (some (.runtime .nilPointer), { s with configurators := rules }) := by
  obtain ⟨rules, hrules⟩ := updateAll_of_not_provider (d := d) hmem h s
  exact ⟨rules, by rw [mergeAndReplace, hrules]⟩

section NotifyAll

variable {events : List ServiceEvent} (haction : ∀ event ∈ events, event.action ≠ .del)

include haction

theorem notifyAll_of_actions (d : Setup) (clock : ℕ → ℕ) (s : Directory) :
    notifyAll d clock events s =
      let (providers, s) := providerEvents events (replaceConfigurators events s)
      if providers.isEmpty ∧ !events.isEmpty then (none, s) else mergeAndReplace d clock providers s := by
  have haction' : ¬ ∃ event ∈ events, event.action ≠ .update ∧ event.action ≠ .add := by
    rintro ⟨event, hmem, hupdate, hadd⟩
    cases h : event.action with
    | add => exact hadd h
    | update => exact hupdate h
    | del => exact haction event hmem h
  unfold notifyAll refreshAllInvokers
  rw [if_neg haction']
  rfl

theorem notifyAll_of_incoming (hincoming : incomingProviders events ≠ []) (clock : ℕ → ℕ) (s : Directory) :
    notifyAll d clock events s = mergeAndReplace d clock (incomingProviders events) (receive events s) := by
  have hevents : providerEvents events (replaceConfigurators events s) =
      (incomingProviders events, receive events s) := by
    unfold providerEvents
    rw [if_pos (by simpa using hincoming)]
    rfl
  rw [notifyAll_of_actions haction, hevents]
  dsimp only
  rw [if_neg (by simp [hincoming])]

theorem notifyAll_of_configurators (hincoming : incomingProviders events = []) (hevents : events ≠ [])
    (clock : ℕ → ℕ) (s : Directory) :
    notifyAll d clock events s =
      if s.cachedProviderEvents.isEmpty then (none, replaceConfigurators events s)
      else mergeAndReplace d clock s.cachedProviderEvents (replaceConfigurators events s) := by
  have hremembered : (replaceConfigurators events s).cachedProviderEvents = s.cachedProviderEvents := by
    unfold replaceConfigurators
    dsimp only
    split_ifs <;> rfl
  have hproviders : providerEvents events (replaceConfigurators events s) =
      (s.cachedProviderEvents, replaceConfigurators events s) := by
    unfold providerEvents
    rw [if_neg (by simp [hincoming]), if_pos (by simpa using hevents), hremembered]
  rw [notifyAll_of_actions haction, hproviders]
  dsimp only
  by_cases hempty : s.cachedProviderEvents.isEmpty = true
  · rw [if_pos ⟨hempty, by simpa using hevents⟩, if_pos hempty]
  · rw [if_neg fun h => hempty h.1, if_neg hempty]

end NotifyAll

/-- A rule that sets the time-out of every provider. -/
def timeoutRule : ServiceURL :=
  { ServiceURL.ofProvider anyHostValue (str "0") (Params.empty.set timeoutKey (str "1000")) with
    protocol := overrideProtocol }

end DubboGo.Registry.Directory
