import DubboGo.Registry.DirectorySteps

/-!
# Providers that go

A provider goes when the registry says so (`Notify` with a deletion), or when it tells its consumers
itself (`RemoveClosingInstance`), before it comes back.
-/

namespace DubboGo.Registry.Directory

open Go Common Lib ConfigCenter

variable {d : Setup} {now : ℕ} {s : Directory} {p : ServiceURL} {k : Str} {i : Invoker}

/-! ## Deletions -/

/-- `p` stands for all providers of a cluster, and `u` is one of them. -/
def ClusterOf (p u : ServiceURL) : Prop :=
  p.location = clusterAnyAddr ∧ p.getParam meshClusterIDKey [] ≠ [] ∧
    u.getParam meshClusterIDKey [] = p.getParam meshClusterIDKey []

def withoutClusterOf (p : ServiceURL) (s : Directory) : FiniteMap Str Invoker :=
  if p.location = clusterAnyAddr ∧ p.getParam meshClusterIDKey [] ≠ [] then
    FiniteMap.keep s.cacheInvokersMap fun k => !inCluster (p.getParam meshClusterIDKey []) s k
  else s.cacheInvokersMap

theorem lookup_withoutClusterOf : (withoutClusterOf p s).lookup k = some i ↔
      s.cacheInvokersMap.lookup k = some i ∧ ¬ ClusterOf p i.url := by
  unfold withoutClusterOf ClusterOf
  split_ifs with h
  · rw [FiniteMap.lookup_keep]
    cases hi : s.cacheInvokersMap.lookup k with
    | none => simp
    | some j =>
      rw [inCluster, hi, Option.any_some]
      by_cases hcluster : j.url.getParam meshClusterIDKey [] = p.getParam meshClusterIDKey []
      · simp only [hcluster, decide_true, Bool.not_true, Bool.false_eq_true, if_false, reduceCtorEq,
          Option.some.injEq, false_iff]
        rintro ⟨rfl, hout⟩
        exact hout ⟨h.1, h.2, hcluster⟩
      · simp only [hcluster, decide_false, Bool.not_false, if_true, Option.some.injEq, iff_self_and]
        rintro rfl ⟨-, -, hin⟩
        exact hcluster hin
  · refine ⟨fun hi => ⟨hi, fun hcluster => h ⟨hcluster.1, hcluster.2.1⟩⟩, fun hi => hi.1⟩

theorem uncacheInvoker_eq {ev : ServiceEvent} (hkey : ev.key ≠ []) (s : Directory) :
    uncacheInvoker ev s =
      ((withoutClusterOf ev.service s).lookup ev.key,
        { s with
          closingTombstones := s.closingTombstones.erase ev.key
          cacheInvokersMap := (withoutClusterOf ev.service s).erase ev.key }) := by
  have hclear : clearClosingTombstone ev.key s = withTombstones (s.closingTombstones.erase ev.key) s := if_neg hkey
  unfold uncacheInvoker withoutClusterOf
  dsimp only
  rw [hclear]
  split_ifs <;> rfl

theorem notify_ofDel (d : Setup) (now : ℕ) (p : ServiceURL) (s : Directory) :
    (notify d now (.ofDel p) s).cacheInvokersMap = (withoutClusterOf p s).erase p.cacheKey ∧
      (notify d now (.ofDel p) s).destroyed = ((withoutClusterOf p s).lookup p.cacheKey).toList + s.destroyed := by
  have hkey : (ServiceEvent.ofDel p).key ≠ [] := p.cacheKey_ne_nil
  have hevent : cacheInvokerByEvent d now (.ofDel p) s = uncacheInvoker (.ofDel p) s := rfl
  unfold notify
  rw [hevent, uncacheInvoker_eq hkey]
  exact ⟨rfl, rfl⟩

theorem lookup_notify_ofDel : (notify d now (.ofDel p) s).cacheInvokersMap.lookup k = some i ↔
      k ≠ p.cacheKey ∧ s.cacheInvokersMap.lookup k = some i ∧ ¬ ClusterOf p i.url := by
  rw [(notify_ofDel d now p s).1, FiniteMap.lookup_erase]
  split_ifs with hk
  · simp [hk]
  · rw [lookup_withoutClusterOf]
    exact ⟨fun h => ⟨hk, h⟩, fun h => h.2⟩

theorem destroyed_notify_ofDel : (notify d now (.ofDel p) s).destroyed = i ::ₘ s.destroyed ↔
      s.cacheInvokersMap.lookup p.cacheKey = some i ∧ ¬ ClusterOf p i.url := by
  rw [(notify_ofDel d now p s).2, ← lookup_withoutClusterOf, ← Multiset.singleton_add, add_left_inj]
  cases (withoutClusterOf p s).lookup p.cacheKey with
  | none => simp
  | some j => simp

/-! ## A provider that comes and goes -/

def Holds (d : Setup) (now : ℕ) (e : UpdatedEvent) (s : Directory) (u : ServiceURL) : Prop :=
  Caches d now e s ∧ u = e.service ∨ ¬ Caches d now e s ∧ ∃ i, s.cacheInvokersMap.lookup e.key = some i ∧ u = i.url

def added (d : Setup) (p : ServiceURL) (s : Directory) : UpdatedEvent := update d (.ofAdd p) p s

structure FindsAll (d : Setup) (now : ℕ) (p : ServiceURL) (s : Directory) : Prop where
  /-- The invoker that is cached has the key of the deletion, and is not dropped with its cluster. -/
  key : ∀ u, Holds d now (added d p s) s u → (added d p s).key = p.cacheKey ∧ ¬ ClusterOf p u
  /-- No invoker for the provider has been left under another key. -/
  others : ∀ k i, s.cacheInvokersMap.lookup k = some i → i.origin = p →
    k = p.cacheKey ∨ k = (added d p s).key ∨ ClusterOf p i.url

section AddDel

variable {now' : ℕ} {p : ServiceURL} (hprovider : isProviderURL p = true)

include hprovider

theorem lookup_notify_ofAdd_of_caches (haccepts : d.Accepts p) (h : Caches d now (added d p s) s) :
    (notify d now (.ofAdd p) s).cacheInvokersMap.lookup (added d p s).key = some (nextInvoker (added d p s) s) :=
  (lookup_notify_of_caches (ofAdd_action_ne p) hprovider haccepts h _).trans (if_pos rfl)

theorem holds_iff (haccepts : d.Accepts p) (u : ServiceURL) : Holds d now (added d p s) s u ↔
      ∃ i, (notify d now (.ofAdd p) s).cacheInvokersMap.lookup (added d p s).key = some i ∧ u = i.url := by
  by_cases hcaches : Caches d now (added d p s) s
  · rw [lookup_notify_ofAdd_of_caches hprovider haccepts hcaches]
    constructor
    · rintro (⟨-, rfl⟩ | ⟨hnot, -⟩)
      · exact ⟨_, rfl, rfl⟩
      · exact absurd hcaches hnot
    · rintro ⟨i, hi, rfl⟩
      obtain rfl := Option.some.inj hi
      exact .inl ⟨hcaches, rfl⟩
  · rw [map_notify_of_not_caches (ofAdd_action_ne p) hprovider fun h => hcaches h.2]
    constructor
    · rintro (⟨h, -⟩ | ⟨-, h⟩)
      · exact absurd h hcaches
      · exact h
    · exact fun h => .inr ⟨hcaches, h⟩

theorem lookup_notify_ofAdd_of_ne {k : Str} (hne : k ≠ (added d p s).key) :
    (notify d now (.ofAdd p) s).cacheInvokersMap.lookup k = s.cacheInvokersMap.lookup k := by
  by_cases h : d.Accepts p ∧ Caches d now (added d p s) s
  · exact (lookup_notify_of_caches (ofAdd_action_ne p) hprovider h.1 h.2 k).trans (if_neg hne)
  · rw [map_notify_of_not_caches (ofAdd_action_ne p) hprovider h]

/-- A provider that comes and goes leaves nothing behind, and the invoker that was cached for it is
destroyed, exactly if the deletion finds all that is cached for it. -/
theorem add_del_removes_iff (haccepts : d.Accepts p) :
    ((∀ k i, (notify d now' (.ofDel p) (notify d now (.ofAdd p) s)).cacheInvokersMap.lookup k = some i →
        i.origin ≠ p) ∧ ∀ i, (notify d now (.ofAdd p) s).cacheInvokersMap.lookup (added d p s).key = some i →
        (notify d now' (.ofDel p) (notify d now (.ofAdd p) s)).cacheInvokersMap.lookup (added d p s).key = none ∧
          (notify d now' (.ofDel p) (notify d now (.ofAdd p) s)).destroyed =
            i ::ₘ (notify d now (.ofAdd p) s).destroyed) ↔ FindsAll d now p s := by
  have hholds : ∀ u, Holds d now (added d p s) s u ↔
      ∃ i, (notify d now (.ofAdd p) s).cacheInvokersMap.lookup (added d p s).key = some i ∧
        u = i.url := holds_iff hprovider haccepts
  have hother : ∀ k, k ≠ (added d p s).key →
      (notify d now (.ofAdd p) s).cacheInvokersMap.lookup k = s.cacheInvokersMap.lookup k :=
    fun k hne => lookup_notify_ofAdd_of_ne hprovider hne
  generalize notify d now (.ofAdd p) s = t at hholds hother ⊢
  constructor
  · rintro ⟨hgone, hremoved⟩
    constructor
    · intro u hu
      obtain ⟨i, hi, rfl⟩ := (hholds u).1 hu
      obtain ⟨hnone, hdestroyed⟩ := hremoved i hi
      have hcluster := (destroyed_notify_ofDel.1 hdestroyed).2
      refine ⟨?_, hcluster⟩
      by_contra hne
      rw [lookup_notify_ofDel.2 ⟨hne, hi, hcluster⟩] at hnone
      cases hnone
    · intro k i hi horigin
      by_contra hno
      push Not at hno
      obtain ⟨hdel, hadd, hcluster⟩ := hno
      exact hgone k i (lookup_notify_ofDel.2 ⟨hdel, (hother k hadd).trans hi, hcluster⟩) horigin
  · intro h
    constructor
    · intro k i hi horigin
      obtain ⟨hne, hlookup, hcluster⟩ := lookup_notify_ofDel.1 hi
      by_cases hk : k = (added d p s).key
      · rw [hk] at hne hlookup
        exact hne (h.key i.url ((hholds i.url).2 ⟨i, hlookup, rfl⟩)).1
      · rw [hother k hk] at hlookup
        obtain hdel | hadd | hin := h.others k i hlookup horigin
        · exact hne hdel
        · exact hk hadd
        · exact hcluster hin
    · intro i hi
      obtain ⟨heq, hcluster⟩ := h.key i.url ((hholds i.url).2 ⟨i, hi, rfl⟩)
      refine ⟨?_, destroyed_notify_ofDel.2 ⟨heq ▸ hi, hcluster⟩⟩
      rw [Option.eq_none_iff_forall_ne_some]
      intro j hj
      exact (lookup_notify_ofDel.1 hj).1 heq

end AddDel

theorem findsAll_greeter : FindsAll anyVersion 0 greeter new where
  key := by
    intro u hu
    refine ⟨by decide, ?_⟩
    rintro ⟨hlocation, -⟩
    exact absurd hlocation (by decide)
  others := by
    intro k i hi
    cases hi

theorem add_del_removes_greeter : isProviderURL greeter = true ∧ anyVersion.Accepts greeter ∧
      (∀ k i, (notify anyVersion 1 (.ofDel greeter)
          (notify anyVersion 0 (.ofAdd greeter) new)).cacheInvokersMap.lookup k = some i → i.origin ≠ greeter) :=
  ⟨by decide, by decide, ((add_del_removes_iff (by decide) (by decide)).2 findsAll_greeter).1⟩

theorem caches_of_empty {e : UpdatedEvent} (hcache : s.cacheInvokersMap.lookup e.key = none)
    (htombstone : s.closingTombstones.lookup e.key = none)
    (hrefers : d.refers s.refers e.service = true) : Caches d now e s := by
  refine ⟨?_, ?_, hrefers⟩
  · rintro ⟨-, tomb, h, -⟩
    rw [htombstone] at h
    cases h
  · rintro ⟨i, h, -⟩
    rw [hcache] at h
    cases h

/-- The reference's version is in the key of the cached invoker, not in that of the deletion. -/
theorem firstVersion_deletion_misses : isProviderURL greeter = true ∧ firstVersion.Accepts greeter ∧
      ∃ k i, (notify firstVersion 1 (.ofDel greeter)
        (notify firstVersion 0 (.ofAdd greeter) new)).cacheInvokersMap.lookup k = some i ∧ i.origin = greeter := by
  have haccepts : firstVersion.Accepts greeter := by decide
  have hcaches : Caches firstVersion 0 (added firstVersion greeter new) new :=
    caches_of_empty rfl rfl rfl
  have hlookup := lookup_notify_ofAdd_of_caches (by decide) haccepts hcaches
  have hkey : (added firstVersion greeter new).key ≠ greeter.cacheKey := by decide
  refine ⟨by decide, haccepts, _, _, lookup_notify_ofDel.2 ⟨hkey, hlookup, ?_⟩, rfl⟩
  rintro ⟨hlocation, -⟩
  exact absurd hlocation (by decide)

/-! ## A provider that closes and comes back -/

def stamp (i : Option Invoker) : Str :=
  match i with
  | some i => i.url.getParam timestampKey []
  | none => []

theorem removeClosingInstance_spec (hk : k ≠ []) (d : Setup) (now : ℕ) (s : Directory) :
    (removeClosingInstance d now k s).2.cacheInvokersMap.lookup k = none ∧
      (removeClosingInstance d now k s).2.closingTombstones.lookup k =
        some ⟨stamp (s.cacheInvokersMap.lookup k), now + d.closingTombstoneTTL⟩ ∧
      SameRules s (removeClosingInstance d now k s).2 := by
  have htombstone : ∀ tombstone : ClosingTombstone,
      (s.closingTombstones.insert k tombstone).lookup k = some tombstone := by
    intro tombstone
    rw [FiniteMap.lookup_insert, if_pos rfl]
  have herase : (s.cacheInvokersMap.erase k).lookup k = none := by
    rw [FiniteMap.lookup_erase, if_pos rfl]
  unfold removeClosingInstance
  rw [if_neg hk]
  dsimp only [uncacheInvokerWithKey, markClosingTombstone]
  cases s.cacheInvokersMap.lookup k with
  | none | some i => exact ⟨herase, htombstone _, rfl, rfl, rfl⟩

/-- `RemoveClosingInstance` for the same instance, once at each of the times. -/
def removeClosingInstances (d : Setup) (k : Str) (times : List ℕ) (s : Directory) : Directory :=
  times.foldl (fun s now => (removeClosingInstance d now k s).2) s

theorem removeClosingInstances_spec (hk : k ≠ []) {times : List ℕ} (htimes : times ≠ []) (s : Directory) :
    (removeClosingInstances d k times s).cacheInvokersMap.lookup k = none ∧
      (removeClosingInstances d k times s).closingTombstones.lookup k =
        some ⟨if times.length = 1 then stamp (s.cacheInvokersMap.lookup k) else [],
          times.getLast htimes + d.closingTombstoneTTL⟩ ∧
      SameRules s (removeClosingInstances d k times s) := by
  induction times generalizing s with
  | nil => exact absurd rfl htimes
  | cons now times ih =>
    obtain ⟨hcache, htombstone, hrules⟩ := removeClosingInstance_spec hk d now s
    cases times with
    | nil => exact ⟨hcache, htombstone, hrules⟩
    | cons now' times =>
      obtain ⟨hcache', htombstone', hrules'⟩ :=
        ih (List.cons_ne_nil _ _) (removeClosingInstance d now k s).2
      have hstamp : stamp ((removeClosingInstance d now k s).2.cacheInvokersMap.lookup k) = [] := by
        rw [hcache]
        rfl
      refine ⟨hcache', ?_, hrules.trans hrules'⟩
      rw [hstamp, ite_self] at htombstone'
      simpa [removeClosingInstances] using htombstone'

/-- A provider that comes back with another time stamp is cached exactly if the reference accepts it and the tombstone
has expired, or there was one closing event and the rules leave the time stamp another one. -/
theorem restarted_cached_iff {k : Str} {i : Invoker} {p : ServiceURL} {times : List ℕ}
    (hrefers : ∀ n u, d.refers n u = true) (hcached : s.cacheInvokersMap.lookup k = some i)
    (hstamp : i.url.getParam timestampKey [] ≠ [])
    (htimes : times ≠ []) (hprovider : isProviderURL p = true) (hkey : (added d p s).key = k) :
    (∃ j, (notify d now (.ofAdd p) (removeClosingInstances d k times s)).cacheInvokersMap.lookup k =
        some j ∧ j.origin = p ∧ j.url = effectiveURL d p s) ↔ d.Accepts p ∧
        (times.getLast htimes + d.closingTombstoneTTL < now ∨
          times.length = 1 ∧ (effectiveURL d p s).getParam timestampKey [] ≠ [] ∧
            (effectiveURL d p s).getParam timestampKey [] ≠ i.url.getParam timestampKey []) := by
  have hk : k ≠ [] := by
    rw [← hkey]
    exact ServiceURL.cacheKey_ne_nil _
  obtain ⟨hcache, htombstone, hrules⟩ := removeClosingInstances_spec (d := d) hk htimes s
  generalize removeClosingInstances d k times s = t at hcache htombstone hrules ⊢
  have hadded : added d p t = added d p s := hrules.update_eq _ _
  rw [hcached] at htombstone
  have hvetoes : Vetoes now (added d p s) t ↔
      now ≤ times.getLast htimes + d.closingTombstoneTTL ∧
        (times.length = 1 → (effectiveURL d p s).getParam timestampKey [] = [] ∨
          (effectiveURL d p s).getParam timestampKey [] = i.url.getParam timestampKey []) := by
    unfold Vetoes
    rw [hkey, htombstone]
    by_cases hone : times.length = 1
    · simp [hk, hone, stamp, hstamp, added, update]
    · simp [hk, hone]
  have hcaches : Caches d now (added d p s) t ↔ ¬ Vetoes now (added d p s) t := by
    refine ⟨fun h => h.1, fun h => ⟨h, ?_, hrefers _ _⟩⟩
    rintro ⟨j, hj, -⟩
    rw [hkey, hcache] at hj
    cases hj
  have hcondition : ¬ Vetoes now (added d p s) t ↔
      times.getLast htimes + d.closingTombstoneTTL < now ∨
        times.length = 1 ∧ (effectiveURL d p s).getParam timestampKey [] ≠ [] ∧
          (effectiveURL d p s).getParam timestampKey [] ≠ i.url.getParam timestampKey [] := by
    rw [hvetoes, not_and_or, not_le, Classical.not_imp, not_or]
  rw [← hcondition, ← hcaches, ← hadded]
  constructor
  · rintro ⟨j, hj, -⟩
    by_contra hno
    rw [map_notify_of_not_caches (ofAdd_action_ne p) hprovider hno, hcache] at hj
    cases hj
  · rintro ⟨haccepts, h⟩
    have hlookup := lookup_notify_ofAdd_of_caches hprovider haccepts h
    rw [hadded, hkey] at hlookup
    exact ⟨_, hlookup, rfl, rfl⟩

def running : Directory := notify anyVersion 0 (.ofAdd (greeterSince (str "1"))) new

def runningInvoker : Invoker := nextInvoker (added anyVersion (greeterSince (str "1")) new) new

theorem lookup_running : running.cacheInvokersMap.lookup greeter.cacheKey = some runningInvoker := by
  have hcaches : Caches anyVersion 0 (added anyVersion (greeterSince (str "1")) new) new :=
    caches_of_empty rfl rfl rfl
  have hlookup := lookup_notify_ofAdd_of_caches (by decide) (by decide) hcaches
  exact hlookup

theorem restarted_cached_after_one_closing :
    ∃ j, (notify anyVersion 2 (.ofAdd (greeterSince (str "2")))
        (removeClosingInstances anyVersion greeter.cacheKey [1] running)).cacheInvokersMap.lookup
          greeter.cacheKey = some j ∧
      j.origin = greeterSince (str "2") ∧
        j.url = effectiveURL anyVersion (greeterSince (str "2")) running :=
  (restarted_cached_iff (fun _ _ => rfl) lookup_running (by decide) (List.cons_ne_nil _ _) (by decide)
    (by decide)).2 ⟨by decide, .inr ⟨rfl, by decide, by decide⟩⟩

/-- A second closing event makes the tombstone forget the time stamp. -/
theorem restarted_vetoed_after_two_closings :
    running.cacheInvokersMap.lookup greeter.cacheKey = some runningInvoker ∧
      runningInvoker.url.getParam timestampKey [] = str "1" ∧
      (added anyVersion (greeterSince (str "2")) running).key = greeter.cacheKey ∧
      (greeterSince (str "2")).getParam timestampKey [] = str "2" ∧
      ((notify anyVersion 2 (.ofAdd (greeterSince (str "2")))
        (removeClosingInstances anyVersion greeter.cacheKey [1, 1] running)).cacheInvokersMap.lookup
          greeter.cacheKey).isNone = true :=
  ⟨lookup_running, by decide, by decide, by decide, by decide⟩

end DubboGo.Registry.Directory
