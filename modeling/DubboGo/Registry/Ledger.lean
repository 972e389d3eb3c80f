import DubboGo.Lib.Reachable
import DubboGo.Registry.DirectorySteps

/-!
# What becomes of the invokers of a directory

Every invoker that has been put into the cache of a directory is in the cache, has been destroyed, or is in the hands
of the call that has taken it out, which destroys it, except for `Notify` with the deletion of a cluster: what
`uncacheInvokerWithClusterID` returns is dropped.
-/

namespace DubboGo.Registry.Directory

open Go Common Lib ConfigCenter Multiset FiniteMap

structure Balanced (held : Multiset Invoker) (s : Directory) : Prop where
  nodup : (s.stored.map Invoker.id).Nodup
  id_lt : ∀ i ∈ s.stored, i.id < s.refers
  balance : s.stored = FiniteMap.values s.cacheInvokersMap + s.destroyed + held

namespace Balanced

variable {d : Setup} {held : Multiset Invoker} {s : Directory}

theorem withTombstones (h : Balanced held s) (tombs : FiniteMap Str ClosingTombstone) :
    Balanced held (withTombstones tombs s) :=
  ⟨h.nodup, h.id_lt, h.balance⟩

theorem setNewInvokers (h : Balanced held s) : Balanced held (setNewInvokers d s) :=
  ⟨h.nodup, h.id_lt, h.balance⟩

theorem remembers (h : Balanced held s) {t : Directory} (ht : Remembers s t) : Balanced held t := by
  obtain ⟨rules, evs, orig, rfl⟩ := ht
  exact ⟨h.nodup, h.id_lt, h.balance⟩

/-- What a call holds and destroys leaves its hands. -/
theorem destroy {ivks : Multiset Invoker} (h : Balanced (ivks + held) s) : Balanced held (destroy ivks s) where
  nodup := h.nodup
  id_lt := h.id_lt
  balance := by
    have hbalance := h.balance
    dsimp only [Directory.destroy]
    rw [hbalance, add_comm ivks s.destroyed, add_assoc, add_assoc, add_assoc]

variable (h : Balanced held s)

include h

theorem afterFailure : Balanced held (afterFailure s) where
  nodup := h.nodup
  id_lt := fun i hi => Nat.lt_succ_of_lt (h.id_lt i hi)
  balance := h.balance

theorem afterStore (e : UpdatedEvent) :
    Balanced ((s.cacheInvokersMap.lookup e.key).toList + held) (afterStore e s) where
  nodup := by
    have hnew : s.refers ∉ s.stored.map Invoker.id := by
      intro hmem
      obtain ⟨i, hi, hid⟩ := mem_map.1 hmem
      have hlt := h.id_lt i hi
      omega
    dsimp only [Directory.afterStore, store, nextInvoker]
    rw [map_cons]
    exact nodup_cons.2 ⟨hnew, h.nodup⟩
  id_lt := by
    intro i hi
    obtain rfl | hi := mem_cons.1 hi
    · exact Nat.lt_succ_self s.refers
    · exact Nat.lt_succ_of_lt (h.id_lt i hi)
  balance := by
    dsimp only [Directory.afterStore, store]
    rw [values_insert, h.balance, ← lookup_add_values_erase s.cacheInvokersMap e.key]
    simp only [cons_add]
    congr 1
    abel

theorem cacheReferred (e : UpdatedEvent) :
    Balanced ((cacheReferred d e s).1.toList + held) (cacheReferred d e s).2 := by
  by_cases hkeeps : Keeps d e s
  · rw [cacheReferred_of_keeps hkeeps]
    simpa using h
  · cases hrefers : d.refers s.refers e.service with
    | false =>
      rw [cacheReferred_of_fails hkeeps hrefers]
      simpa using h.afterFailure
    | true =>
      rw [cacheReferred_of_refers hkeeps hrefers]
      exact h.afterStore e

/-- The invoker that an update replaces is in the hands of its caller. -/
theorem doCacheInvoker (now : ℕ) (e : UpdatedEvent) :
    Balanced ((doCacheInvoker d now e s).1.toList + held) (doCacheInvoker d now e s).2 := by
  obtain ⟨tombs, -, ⟨-, heq⟩ | ⟨-, heq⟩⟩ := doCacheInvoker_cases d now e s
  · rw [heq]
    simpa using h.withTombstones tombs
  · rw [heq]
    exact (h.withTombstones tombs).cacheReferred e

/-- All the invokers that a full notification replaces are in its hands. -/
theorem cacheAll (clock : ℕ → ℕ) (es : List UpdatedEvent) :
    Balanced ((cacheAll d clock es s).1 + held) (cacheAll d clock es s).2 := by
  induction es generalizing clock held s with
  | nil => simpa [Directory.cacheAll] using h
  | cons e es ih =>
    have hrest := ih (h.doCacheInvoker (d := d) (clock 0) e) fun i => clock (i + 1)
    rw [← add_assoc] at hrest
    dsimp only [Directory.cacheAll]
    rw [add_comm (ofList _)]
    exact hrest

theorem evict (keys : List Str) : Balanced ((evict keys s).1 + held) (evict keys s).2 where
  nodup := h.nodup
  id_lt := h.id_lt
  balance := by
    dsimp only [Directory.evict]
    rw [h.balance, ← values_keep_add s.cacheInvokersMap fun k => decide (k ∈ keys)]
    abel

theorem uncacheInvokerWithKey (key : Str) :
    Balanced ((uncacheInvokerWithKey key s).1.toList + held) (uncacheInvokerWithKey key s).2 where
  nodup := h.nodup
  id_lt := h.id_lt
  balance := by
    dsimp only [Directory.uncacheInvokerWithKey]
    rw [h.balance, ← lookup_add_values_erase s.cacheInvokersMap key]
    abel

theorem clearClosingTombstone (key : Str) : Balanced held (clearClosingTombstone key s) := by
  unfold Directory.clearClosingTombstone
  split_ifs
  · exact h
  · exact h.withTombstones _

theorem replaceAll (clock : ℕ → ℕ) (es : List UpdatedEvent) : Balanced held (replaceAll d clock es s) := by
  have hall := (h.evict (es.map (·.key))).cacheAll (d := d) clock es
  rw [← add_assoc, add_comm (Directory.cacheAll _ _ _ _).1] at hall
  exact hall.setNewInvokers.destroy

theorem cacheInvokerByEvent (now : ℕ) {ev : ServiceEvent} (haction : ev.action ≠ .del) :
    Balanced ((cacheInvokerByEvent d now ev s).1.toList + held) (cacheInvokerByEvent d now ev s).2 := by
  obtain ⟨t, ht, heq | ⟨e, heq⟩⟩ := cacheInvokerByEvent_cases d now haction s
  · rw [heq]
    simpa using h.remembers ht
  · rw [heq]
    exact (h.remembers ht).doCacheInvoker now e

end Balanced

/-! ## Runs -/

inductive Call where
  | notify (now : ℕ) (event : ServiceEvent)
  | notifyAll (clock : ℕ → ℕ) (events : List ServiceEvent)
  | removeClosingInstance (now : ℕ) (instanceKey : Str)

def Call.run (d : Setup) : Call → Directory → Directory
  | .notify now event, s => Directory.notify d now event s
  | .notifyAll clock events, s => (Directory.notifyAll d clock events s).2
  | .removeClosingInstance now instanceKey, s => (Directory.removeClosingInstance d now instanceKey s).2

def IsNew (s : Directory) : Prop :=
  ∃ consumer reference, s = { new with consumerConfigurators := consumer, referenceConfigurators := reference }

def ReachedBy (d : Setup) (condition : Directory → Call → Prop) (s : Directory) : Prop :=
  Reachable IsNew (fun s t => ∃ call, condition s call ∧ t = call.run d s) s

def Reached (d : Setup) (s : Directory) : Prop := ReachedBy d (fun _ _ => True) s

def DropsCluster (s : Directory) : Call → Prop
  | .notify _ event =>
    event.action = .del ∧ event.service.location = clusterAnyAddr ∧
      event.service.getParam meshClusterIDKey [] ≠ [] ∧
      ∃ key i, s.cacheInvokersMap.lookup key = some i ∧
        i.url.getParam meshClusterIDKey [] = event.service.getParam meshClusterIDKey []
  | .notifyAll _ _ | .removeClosingInstance _ _ => False

variable {d : Setup} {s : Directory} {held : Multiset Invoker}

def dropped (event : ServiceEvent) (s : Directory) : Multiset Invoker :=
  if event.service.location = clusterAnyAddr ∧ event.service.getParam meshClusterIDKey [] ≠ [] then
    (uncacheInvokerWithClusterID (event.service.getParam meshClusterIDKey []) s).1
  else 0

/-- A deletion takes one invoker out; what it drops besides is held by nobody. -/
theorem Balanced.uncacheInvoker (h : Balanced held s) (ev : ServiceEvent) :
    Balanced ((uncacheInvoker ev s).1.toList + (dropped ev s + held)) (uncacheInvoker ev s).2 := by
  have hclear := h.clearClosingTombstone ev.key
  have hmap : (Directory.clearClosingTombstone ev.key s).cacheInvokersMap = s.cacheInvokersMap := by
    unfold Directory.clearClosingTombstone
    split_ifs <;> rfl
  unfold Directory.uncacheInvoker dropped
  dsimp only
  split_ifs with hcluster
  · have hdrop : Balanced
        ((uncacheInvokerWithClusterID (ev.service.getParam meshClusterIDKey []) s).1 + held)
        (uncacheInvokerWithClusterID (ev.service.getParam meshClusterIDKey [])
          (Directory.clearClosingTombstone ev.key s)).2 := by
      refine ⟨hclear.nodup, hclear.id_lt, ?_⟩
      have hkeep := values_keep_add s.cacheInvokersMap (inCluster (ev.service.getParam meshClusterIDKey []) s)
      have hbalance := hclear.balance
      dsimp only [uncacheInvokerWithClusterID]
      unfold inCluster at hkeep ⊢
      rw [hbalance, hmap, ← hkeep]
      abel
    exact hdrop.uncacheInvokerWithKey ev.key
  · rw [zero_add]
    exact hclear.uncacheInvokerWithKey ev.key

theorem Balanced.notifyAll (h : Balanced held s) (clock : ℕ → ℕ) (evs : List ServiceEvent) :
    Balanced held (notifyAll d clock evs s).2 := by
  obtain ⟨t, ht, heq | ⟨es, heq⟩⟩ := notifyAll_cases d clock evs s
  · rw [heq]
    exact h.remembers ht
  · rw [heq]
    exact (h.remembers ht).replaceAll clock es

theorem Balanced.removeClosingInstance (h : Balanced held s) (now : ℕ) (ikey : Str) :
    Balanced held (removeClosingInstance d now ikey s).2 := by
  unfold Directory.removeClosingInstance
  split_ifs
  · exact h
  have hmark : Balanced held (markClosingTombstone d now ikey
      (s.cacheInvokersMap.lookup ikey) s) := h.withTombstones _
  have huncache := hmark.uncacheInvokerWithKey ikey
  dsimp only
  revert huncache
  generalize Directory.uncacheInvokerWithKey ikey _ = p
  obtain ⟨removed, t⟩ := p
  intro huncache
  cases removed with
  | none => simpa using huncache
  | some i => exact huncache.setNewInvokers.destroy

def Call.dropped (s : Directory) : Call → Multiset Invoker
  | .notify _ event => if event.action = .del then Directory.dropped event s else 0
  | .notifyAll _ _ | .removeClosingInstance _ _ => 0

/-- A call keeps the books, with what it drops among what is held. -/
theorem Balanced.run (h : Balanced held s) (call : Call) : Balanced (call.dropped s + held) (call.run d s) := by
  cases call with
  | notify now ev =>
    dsimp only [Call.run, Call.dropped, Directory.notify]
    split_ifs with hdel
    · unfold Directory.cacheInvokerByEvent
      rw [hdel]
      exact (h.uncacheInvoker ev).setNewInvokers.destroy
    · rw [zero_add]
      exact (h.cacheInvokerByEvent now hdel).setNewInvokers.destroy
  | notifyAll clock evs =>
    rw [Call.dropped, zero_add]
    exact h.notifyAll clock evs
  | removeClosingInstance now ikey =>
    rw [Call.dropped, zero_add]
    exact h.removeClosingInstance now ikey

theorem dropped_eq_zero {call : Call} (h : ¬ DropsCluster s call) : call.dropped s = 0 := by
  cases call with
  | notifyAll clock evs => rfl
  | removeClosingInstance now ikey => rfl
  | notify now ev =>
    dsimp only [Call.dropped, dropped]
    split_ifs with hdel hcluster
    · apply eq_zero_of_forall_notMem
      intro i hi
      obtain ⟨key, hkey⟩ := mem_values.1 hi
      rw [lookup_keep] at hkey
      split_ifs at hkey with hin
      rw [inCluster, hkey, Option.any_some, decide_eq_true_eq] at hin
      exact h ⟨hdel, hcluster.1, hcluster.2, key, i, hkey, hin⟩
    · rfl
    · rfl

theorem IsNew.balanced (h : IsNew s) : Balanced 0 s := by
  obtain ⟨cons, ref, rfl⟩ := h
  exact ⟨nodup_zero, fun i hi => absurd hi (notMem_zero i), rfl⟩

theorem balanced_of_keepsClusters (h : ReachedBy d (fun s call => ¬ DropsCluster s call) s) : Balanced 0 s := by
  refine Reachable.invariant (fun s hs => hs.balanced) ?_ h
  rintro s t hs ⟨call, hkeeps, rfl⟩
  have hrun := hs.run (d := d) call
  rw [dropped_eq_zero hkeeps] at hrun
  exact hrun

theorem Reached.balanced (h : Reached d s) : ∃ lost, Balanced lost s := by
  induction h with
  | init h => exact ⟨0, h.balanced⟩
  | step _ hst ih =>
    obtain ⟨call, -, rfl⟩ := hst
    obtain ⟨lost, hs⟩ := ih
    exact ⟨_, hs.run call⟩

/-! ## Cached or destroyed -/

/-- How often an invoker has been handed to `Destroy`. -/
def timesDestroyed (i : Invoker) (s : Directory) : ℕ := (s.destroyed.map Invoker.id).count i.id

def IsCached (i : Invoker) (s : Directory) : Prop := ∃ key, s.cacheInvokersMap.lookup key = some i

namespace Balanced

theorem isCached_iff {i : Invoker} : IsCached i s ↔ i ∈ values s.cacheInvokersMap :=
  mem_values.symm

theorem nodup_parts (h : Balanced held s) : ((values s.cacheInvokersMap).map Invoker.id + s.destroyed.map Invoker.id +
      held.map Invoker.id).Nodup := by
  have hnodup := h.nodup
  rw [h.balance, map_add, map_add] at hnodup
  exact hnodup

theorem timesDestroyed_of_isCached (h : Balanced held s) {i : Invoker} (hi : IsCached i s) :
    timesDestroyed i s = 0 := by
  have hparts := (nodup_add.1 h.nodup_parts).1
  have hdisjoint := (nodup_add.1 hparts).2.2
  apply count_eq_zero_of_notMem
  exact disjoint_left.1 hdisjoint (mem_map_of_mem _ (isCached_iff.1 hi))

theorem timesDestroyed_of_mem (h : Balanced held s) {i : Invoker} (hi : i ∈ s.destroyed) :
    timesDestroyed i s = 1 := by
  have hparts := (nodup_add.1 h.nodup_parts).1
  have hnodup := (nodup_add.1 hparts).2.1
  exact count_eq_one_of_mem hnodup (mem_map_of_mem _ hi)

end Balanced

/-- In a run that deletes no cluster of an invoker in the cache, an invoker that has left the cache has
been destroyed once, and one in the cache has not been destroyed. -/
theorem stored_cached_or_destroyed_once (h : ReachedBy d (fun s call => ¬ DropsCluster s call) s) :
    (∀ i ∈ s.stored, ¬ IsCached i s → timesDestroyed i s = 1) ∧ ∀ i, IsCached i s → timesDestroyed i s = 0 := by
  have hbalanced := balanced_of_keepsClusters h
  refine ⟨?_, fun i hi => hbalanced.timesDestroyed_of_isCached hi⟩
  intro i hi hcached
  rw [hbalanced.balance, add_zero, mem_add] at hi
  obtain hmap | hdestroyed := hi
  · exact absurd (Balanced.isCached_iff.2 hmap) hcached
  · exact hbalanced.timesDestroyed_of_mem hdestroyed

def clusterProvider : ServiceURL :=
  .ofProvider (str "10.0.0.1") (str "20880") (Params.empty.set meshClusterIDKey (str "c1"))

def wholeCluster : ServiceURL := { clusterProvider with location := clusterAnyAddr }

def clusterSetup : Setup := .ofReference (.ofProvider (str "10.0.0.9") (str "0") Params.empty)

def withProvider : Directory := notify clusterSetup 0 (.ofAdd clusterProvider) new

def withoutProvider : Directory := notify clusterSetup 1 (.ofDel clusterProvider) withProvider

def withoutCluster : Directory := notify clusterSetup 1 (.ofDel wholeCluster) withProvider

theorem reachedBy_new {cond : Directory → Call → Prop} : ReachedBy d cond new :=
  .init ⟨[], [], rfl⟩

theorem stored_cached_or_destroyed_once_after_deletion :
    withoutProvider.stored.card = 1 ∧ (FiniteMap.values withoutProvider.cacheInvokersMap).card = 0 ∧
      ∀ i ∈ withoutProvider.stored, ¬ IsCached i withoutProvider → timesDestroyed i withoutProvider = 1 := by
  refine ⟨by decide, by decide, (stored_cached_or_destroyed_once (d := clusterSetup) ?_).1⟩
  have hadd : ReachedBy clusterSetup (fun s call => ¬ DropsCluster s call) withProvider := by
    refine .step reachedBy_new ⟨.notify 0 (.ofAdd clusterProvider), ?_, rfl⟩
    rintro ⟨haction, -⟩
    cases haction
  refine .step hadd ⟨.notify 1 (.ofDel clusterProvider), ?_, rfl⟩
  rintro ⟨-, hlocation, -⟩
  exact absurd hlocation (by decide)

/-- The provider's invoker is gone with its cluster, and nobody has destroyed it. -/
theorem wholeCluster_deletion_drops : Reached clusterSetup withoutCluster ∧
      ∃ i ∈ withoutCluster.stored, ¬ IsCached i withoutCluster ∧ timesDestroyed i withoutCluster = 0 := by
  have hadd : Reached clusterSetup withProvider :=
    .step reachedBy_new ⟨.notify 0 (.ofAdd clusterProvider), trivial, rfl⟩
  refine ⟨.step hadd ⟨.notify 1 (.ofDel wholeCluster), trivial, rfl⟩, ?_⟩
  have hstored : withoutCluster.stored.card = 1 := by decide
  have hcached : (values withoutCluster.cacheInvokersMap).card = 0 := by decide
  obtain ⟨i, hi⟩ := card_pos_iff_exists_mem.1 (hstored ▸ Nat.one_pos)
  refine ⟨i, hi, ?_, ?_⟩
  · rw [Balanced.isCached_iff, card_eq_zero.1 hcached]
    exact notMem_zero i
  · rfl

end DubboGo.Registry.Directory
