import DubboGo.Registry.Threads

/-!
# A closing instance and the notifications of its provider

`RemoveClosingInstance` leaves a tombstone that keeps stale notifications of the instance out.  It is of no use
against a `Notify` which has already looked for it: before the `Store` the instance may be removed, and is then put
back.
-/

namespace DubboGo.Registry.Directory

open Go Common Lib ConfigCenter List FiniteMap

/-- If the event is for key `k`, its provider has the timestamp `t`. -/
def Stamped (k t : Str) (e : UpdatedEvent) : Prop :=
  e.key = k → e.service.getParam timestampKey [] = t

instance Stamped.decidable (k t : Str) (e : UpdatedEvent) : Decidable (Stamped k t e) :=
  inferInstanceAs (Decidable (_ → _))

namespace Stage

/-- The goroutine has looked at the tombstone of `k`, and may delete it or store an invoker. -/
def overtakes (k : Str) : Stage → Bool
  | expired _ _ key => key = k
  | found e _ | clearing e | loading e | referring e _ | storing e _ _ => e.key = k
  | _ => false

def closes (k : Str) : Stage → Bool
  | closing key => key = k
  | _ => false

def Sound (k t : Str) (now : ℕ) : Stage → Prop
  | cleaning e | checking e | found e _ | clearing e | loading e | referring e _ => Stamped k t e
  | sweeping e time | expired e time _ => Stamped k t e ∧ time ≤ now
  | storing e _ newInvoker => Stamped k t e ∧ newInvoker.url = e.service
  | replacing es => ∀ e ∈ es, Stamped k t e
  | forgetting event => event.key ≠ k
  | closing key => key ≠ []
  | _ => True

theorem Sound.mono {k t : Str} {now now' : ℕ} {stage : Stage} (h : stage.Sound k t now)
    (hnow : now ≤ now') : stage.Sound k t now' := by
  cases stage with
  | sweeping e time | expired e time key => exact ⟨h.1, h.2.trans hnow⟩
  | _ => exact h

end Stage

/-- A tombstone that keeps providers with timestamp `t` out at least until `expiry`. -/
def Bars (t : Str) (expiry : ℕ) (tombstone : ClosingTombstone) : Prop :=
  (tombstone.timestamp = [] ∨ tombstone.timestamp = t) ∧ expiry ≤ tombstone.expireAt

/-- A goroutine that has looked at the tombstone of `k` has found one that keeps it out. -/
def Stage.Behind (k t : Str) (expiry : ℕ) : Stage → Prop
  | .expired _ _ key => key ≠ k
  | .found e tombstone => e.key = k → Bars t expiry tombstone
  | .clearing e | .loading e | .referring e _ | .storing e _ _ => e.key ≠ k
  | _ => True

namespace System

/-- The providers at `k` that the directory is told of have the timestamp `t`, and are not deleted. -/
def Concerns (d : Setup) (k t : Str) (s : System) : Action → Prop
  | .call (.notify event) =>
    if event.action = .del then event.key ≠ k
    else ∀ e ∈ (prepare d event s.directory).1, Stamped k t e
  | .call (.notifyAll events) => ∀ es ∈ (gather d events s.directory).1, ∀ e ∈ es, Stamped k t e
  | _ => True

instance Concerns.decidable (d : Setup) (k t : Str) (s : System) : ∀ action, Decidable (Concerns d k t s action)
  | .call (.notify event) => inferInstanceAs (Decidable (if event.action = .del then _ else _))
  | .call (.notifyAll _) => inferInstanceAs (Decidable (∀ es ∈ _, ∀ e ∈ es, Stamped k t e))
  | .call (.removeClosingInstance _) => inferInstanceAs (Decidable True)
  | .tick _ | .sweep _ _ | .scan _ _ | .advance _ => inferInstanceAs (Decidable True)

/-- If the step removes the instance, no goroutine has already looked at its tombstone. -/
def NotOvertaken (k : Str) (s : System) : Action → Prop
  | .advance i => s.threads[i]?.any (Stage.closes k) → ∀ stage ∈ s.threads, stage.overtakes k = false
  | _ => True

instance NotOvertaken.decidable (k : Str) (s : System) : ∀ action, Decidable (NotOvertaken k s action)
  | .advance _ => inferInstanceAs (Decidable (_ → ∀ stage ∈ s.threads, stage.overtakes k = false))
  | .call _ | .tick _ | .sweep _ _ | .scan _ _ => inferInstanceAs (Decidable True)

def Undisturbed (d : Setup) (k t : Str) (s : System) (action : Action) : Prop :=
  Concerns d k t s action ∧ NotOvertaken k s action

instance Undisturbed.decidable (d : Setup) (k t : Str) (s : System) (action : Action) :
    Decidable (Undisturbed d k t s action) :=
  inferInstanceAs (Decidable (_ ∧ _))

structure Tracked (d : Setup) (k t : Str) (s : System) : Prop where
  cached : ∀ i, s.directory.cacheInvokersMap.lookup k = some i → i.url.getParam timestampKey [] = t
  sound : ∀ stage ∈ s.threads, stage.Sound k t s.now
  closed : ∀ expiry, (k, expiry) ∈ s.closed → k ≠ [] ∧ expiry ≤ s.now + d.closingTombstoneTTL

/-- The instance is out, and its tombstone is seen by every goroutine that looks for it. -/
structure Barred (k t : Str) (expiry : ℕ) (s : System) : Prop where
  absent : s.directory.cacheInvokersMap.lookup k = none
  barred : ∃ tombstone, s.directory.closingTombstones.lookup k = some tombstone ∧ Bars t expiry tombstone
  behind : ∀ stage ∈ s.threads, stage.Behind k t expiry

variable {d : Setup} {k t : Str} {s u : System} {i : ℕ} {stage : Stage} {expiry : ℕ} {directory : Directory}

namespace Tracked

variable (h : Tracked d k t s)

include h

theorem goto (i : ℕ) (hstage : stage.Sound k t s.now) : Tracked d k t (s.goto i stage) :=
  ⟨h.cached, forall_threads_goto h.sound i hstage, h.closed⟩

theorem alter (hmap : directory.cacheInvokersMap = s.directory.cacheInvokersMap) :
    Tracked d k t (s.alter directory) := by
  refine ⟨?_, h.sound, h.closed⟩
  dsimp only [System.alter]
  rw [hmap]
  exact h.cached

theorem write (hcached : ∀ i, directory.cacheInvokersMap.lookup k = some i → i.url.getParam timestampKey [] = t) :
    Tracked d k t (s.write directory) :=
  ⟨hcached, h.sound, h.closed⟩

theorem deleteTombstone (key : Str) : Tracked d k t (s.deleteTombstone key) :=
  h.alter rfl

theorem publish (new : Multiset Member) (ver : ℕ) : Tracked d k t (s.publish new ver) :=
  ⟨h.cached, h.sound, h.closed⟩

theorem deleteInvoker (key : Str) : Tracked d k t (s.deleteInvoker key) := by
  apply h.write
  intro i hi
  dsimp only [uncacheInvokerWithKey] at hi
  rw [lookup_erase] at hi
  split_ifs at hi
  exact h.cached i hi

theorem mark {key : Str} (hkey : key ≠ []) (ivk : Option Invoker) : Tracked d k t (s.mark d key ivk) := by
  refine ⟨h.cached, h.sound, ?_⟩
  intro expiry hmem
  rcases mem_cons.1 hmem with heq | hmem
  · cases heq
    exact ⟨hkey, le_rfl⟩
  · exact h.closed expiry hmem

end Tracked

variable {now : ℕ} {e : UpdatedEvent} {es : List UpdatedEvent} {tombstone : ClosingTombstone}

theorem cached_doCacheInvoker
    (h : ∀ i, directory.cacheInvokersMap.lookup k = some i → i.url.getParam timestampKey [] = t)
    (he : Stamped k t e) {i : Invoker}
    (hi : (doCacheInvoker d now e directory).2.cacheInvokersMap.lookup k = some i) :
    i.url.getParam timestampKey [] = t := by
  by_cases hcaches : Caches d now e directory
  · rw [lookup_doCacheInvoker_of_caches hcaches] at hi
    split_ifs at hi with hk
    · cases hi
      exact he hk.symm
    · exact h i hi
  · rw [map_doCacheInvoker_of_not_caches hcaches] at hi
    exact h i hi

theorem cached_cacheAll {clock : ℕ → ℕ}
    (h : ∀ i, directory.cacheInvokersMap.lookup k = some i → i.url.getParam timestampKey [] = t)
    (hes : ∀ e ∈ es, Stamped k t e) {i : Invoker}
    (hi : (cacheAll d clock es directory).2.cacheInvokersMap.lookup k = some i) :
    i.url.getParam timestampKey [] = t := by
  induction es generalizing clock directory with
  | nil => exact h i hi
  | cons e es ih =>
    apply ih (fun i => cached_doCacheInvoker h (hes e mem_cons_self)) _ hi
    exact fun e' he' => hes e' (mem_cons_of_mem _ he')

theorem sound_afterTombstone (he : Stamped k t e) (tombstone : ClosingTombstone) :
    (afterTombstone now e tombstone).Sound k t now := by
  unfold afterTombstone
  dsimp only
  split_ifs
  · exact he
  · trivial
  · exact he

theorem sound_afterLoad (he : Stamped k t e) (old : Option Invoker) : (afterLoad d e old).Sound k t now := by
  unfold afterLoad
  split
  · exact he
  · split_ifs
    · trivial
    · exact he

namespace Tracked

theorem clearTombstone (h : Tracked d k t s) (key : Str) :
    Tracked d k t (s.alter (clearClosingTombstone key s.directory)) := by
  apply h.alter
  unfold clearClosingTombstone
  split_ifs <;> rfl

theorem storeInvoker (h : Tracked d k t s) {e : UpdatedEvent} (he : Stamped k t e) {new : Invoker}
    (hurl : new.url = e.service) : Tracked d k t (s.write (store e.key new s.directory)) := by
  apply h.write
  intro i hi
  dsimp only [store] at hi
  rw [lookup_insert] at hi
  split_ifs at hi with hk
  · cases hi
    rw [hurl]
    exact he hk.symm
  · exact h.cached i hi

theorem replaceAll (h : Tracked d k t s) {es : List UpdatedEvent} (hes : ∀ e ∈ es, Stamped k t e)
    (keys : List Str) (clock : ℕ → ℕ) :
    Tracked d k t (s.write (cacheAll d clock es (evict keys s.directory).2).2) := by
  apply h.write
  intro i hi
  apply cached_cacheAll _ hes hi
  intro i hi
  dsimp only [evict] at hi
  rw [lookup_keep] at hi
  split_ifs at hi
  exact h.cached i hi

end Tracked

/-- The cache is tracked through every step of a goroutine. -/
theorem Tracked.advance (h : Tracked d k t s) (hstage : stage.Sound k t s.now)
    (hadvance : s.advance d i stage = some u) : Tracked d k t u := by
  cases stage with
  | returned => cases hadvance
  | scanning ev => cases hadvance
  | cleaning e =>
    cases hadvance
    exact h.goto i ⟨hstage, le_rfl⟩
  | sweeping e time =>
    cases hadvance
    exact h.goto i hstage.1
  | expired e time key =>
    cases hadvance
    exact (h.deleteTombstone key).goto i hstage
  | checking e =>
    rw [System.advance] at hadvance
    split_ifs at hadvance
    · cases hadvance
      exact h.goto i hstage
    · split at hadvance <;> cases hadvance <;> exact h.goto i hstage
  | found e tombstone =>
    cases hadvance
    exact h.goto i (sound_afterTombstone hstage tombstone)
  | clearing e =>
    cases hadvance
    exact (h.deleteTombstone e.key).goto i hstage
  | loading e =>
    cases hadvance
    exact h.goto i (sound_afterLoad hstage _)
  | referring e old =>
    rw [System.advance, refer] at hadvance
    split at hadvance <;> cases hadvance
    · rename_i new directory heq
      obtain ⟨hinvoker, rfl⟩ := Prod.mk.inj heq
      split_ifs at hinvoker
      cases hinvoker
      refine Tracked.goto (h.alter ?_) i ⟨hstage, rfl⟩
      rfl
    · rename_i directory heq
      obtain ⟨-, rfl⟩ := Prod.mk.inj heq
      refine Tracked.goto (h.alter ?_) i trivial
      rfl
  | storing e old new =>
    cases hadvance
    exact (h.storeInvoker hstage.1 hstage.2).goto i trivial
  | forgetting ev =>
    rw [System.advance] at hadvance
    split_ifs at hadvance <;> cases hadvance <;> exact (h.clearTombstone ev.key).goto i trivial
  | uncaching clu key =>
    cases clu with
    | nil | cons k' clu =>
      rw [System.advance] at hadvance
      split at hadvance <;> cases hadvance <;> exact h.goto i trivial
  | deleting clu key ivk =>
    cases clu with
    | nil =>
      cases hadvance
      exact (h.deleteInvoker key).goto i trivial
    | cons k' clu =>
      cases hadvance
      exact (h.deleteInvoker k').goto i trivial
  | replacing es =>
    cases hadvance
    exact (h.replaceAll hstage _ _).goto i trivial
  | closing key =>
    rw [System.advance] at hadvance
    split at hadvance <;> cases hadvance
    · exact (h.mark hstage none).goto i trivial
    · exact ((h.mark hstage _).deleteInvoker key).goto i trivial
  | grouping oldInvokers =>
    cases hadvance
    exact h.goto i trivial
  | publishing newInvokers ver oldInvokers =>
    cases hadvance
    exact (h.publish newInvokers ver).goto i trivial
  | destroying oldInvokers =>
    cases hadvance
    refine Tracked.goto (h.alter ?_) i trivial
    rfl

namespace Barred

variable (h : Barred k t expiry s)

include h

theorem goto (i : ℕ) (hstage : stage.Behind k t expiry) : Barred k t expiry (s.goto i stage) :=
  ⟨h.absent, h.barred, forall_threads_goto h.behind i hstage⟩

theorem alter (hmap : directory.cacheInvokersMap = s.directory.cacheInvokersMap)
    (htombstone : directory.closingTombstones.lookup k = s.directory.closingTombstones.lookup k) :
    Barred k t expiry (s.alter directory) := by
  refine ⟨?_, ?_, h.behind⟩
  · dsimp only [System.alter]
    rw [hmap]
    exact h.absent
  · dsimp only [System.alter]
    rw [htombstone]
    exact h.barred

theorem write (habsent : directory.cacheInvokersMap.lookup k = none)
    (htombstone : directory.closingTombstones.lookup k = s.directory.closingTombstones.lookup k) :
    Barred k t expiry (s.write directory) := by
  refine ⟨habsent, ?_, h.behind⟩
  dsimp only [System.write]
  rw [htombstone]
  exact h.barred

theorem deleteTombstone {key : Str} (hkey : key ≠ k) : Barred k t expiry (s.deleteTombstone key) := by
  refine h.alter rfl ?_
  rw [lookup_erase, if_neg hkey.symm]

theorem deleteInvoker (key : Str) : Barred k t expiry (s.deleteInvoker key) := by
  refine h.write ?_ rfl
  dsimp only [uncacheInvokerWithKey]
  rw [lookup_erase, h.absent, ite_self]

theorem mark {key : Str} (hkey : key ≠ k) (ivk : Option Invoker) : Barred k t expiry (s.mark d key ivk) := by
  refine ⟨h.absent, ?_, h.behind⟩
  dsimp only [System.mark, markClosingTombstone]
  rw [lookup_insert, if_neg hkey.symm]
  exact h.barred

theorem publish (new : Multiset Member) (ver : ℕ) : Barred k t expiry (s.publish new ver) :=
  ⟨h.absent, h.barred, h.behind⟩

end Barred

theorem barred_doCacheInvoker (hk : k ≠ []) (hnow : now ≤ expiry) (hbars : Bars t expiry tombstone)
    (he : Stamped k t e) (habsent : directory.cacheInvokersMap.lookup k = none)
    (htombstone : directory.closingTombstones.lookup k = some tombstone) :
    (doCacheInvoker d now e directory).2.cacheInvokersMap.lookup k = none ∧
      (doCacheInvoker d now e directory).2.closingTombstones.lookup k = some tombstone := by
  have hactive : now ≤ tombstone.expireAt := hnow.trans hbars.2
  by_cases hkey : e.key = k
  · have hveto : Vetoes now e directory := by
      refine ⟨by rwa [hkey], tombstone, by rwa [hkey], hactive, ?_⟩
      rcases hbars.1 with hempty | hstamp
      · exact .inl hempty
      · right
        right
        rw [he hkey, hstamp]
    rw [doCacheInvoker_of_vetoes hveto]
    exact ⟨habsent, lookup_cleanup.2 ⟨htombstone, hactive⟩⟩
  · refine ⟨?_, (frame_doCacheInvoker d now e directory).1.keeps k tombstone (Ne.symm hkey) hactive htombstone⟩
    by_cases hcaches : Caches d now e directory
    · rw [lookup_doCacheInvoker_of_caches hcaches, if_neg (Ne.symm hkey)]
      exact habsent
    · rw [map_doCacheInvoker_of_not_caches hcaches]
      exact habsent

theorem barred_cacheAll (hk : k ≠ []) (hnow : now ≤ expiry) (hbars : Bars t expiry tombstone)
    (hes : ∀ e ∈ es, Stamped k t e) (habsent : directory.cacheInvokersMap.lookup k = none)
    (htombstone : directory.closingTombstones.lookup k = some tombstone) :
    (cacheAll d (fun _ => now) es directory).2.cacheInvokersMap.lookup k = none ∧
      (cacheAll d (fun _ => now) es directory).2.closingTombstones.lookup k = some tombstone := by
  induction es generalizing directory with
  | nil => exact ⟨habsent, htombstone⟩
  | cons e es ih =>
    obtain ⟨habsent', htombstone'⟩ :=
      barred_doCacheInvoker (d := d) hk hnow hbars (hes e mem_cons_self) habsent htombstone
    exact ih (fun e' he' => hes e' (mem_cons_of_mem _ he')) habsent' htombstone'

theorem behind_afterTombstone (hnow : now ≤ expiry) (he : Stamped k t e)
    (hbars : e.key = k → Bars t expiry tombstone) : (afterTombstone now e tombstone).Behind k t expiry := by
  unfold afterTombstone
  dsimp only
  split_ifs with hexpired hveto
  · intro hkey
    have hlater := (hbars hkey).2
    omega
  · trivial
  · intro hkey
    apply hveto
    rcases (hbars hkey).1 with hempty | hstamp
    · exact .inl hempty
    · right
      right
      rw [he hkey, hstamp]

theorem behind_afterLoad (hkey : e.key ≠ k) (old : Option Invoker) : (afterLoad d e old).Behind k t expiry := by
  unfold afterLoad
  split
  · exact hkey
  · split_ifs
    · trivial
    · exact hkey

namespace Barred

theorem check (h : Barred k t expiry s) (hk : k ≠ []) {e : UpdatedEvent}
    (hadvance : s.advance d i (.checking e) = some u) : Barred k t expiry u := by
  obtain ⟨tombstone, hlookup, hbars⟩ := h.barred
  rw [System.advance] at hadvance
  split_ifs at hadvance with hempty
  · cases hadvance
    apply h.goto
    rintro rfl
    exact hk hempty
  · split at hadvance <;> cases hadvance <;> apply h.goto
    · rename_i hnone
      rintro rfl
      rw [hnone] at hlookup
      cases hlookup
    · rename_i tomb' hfound
      rintro rfl
      rw [hfound] at hlookup
      cases hlookup
      exact hbars

theorem clearTombstone (h : Barred k t expiry s) {key : Str} (hkey : key ≠ k) :
    Barred k t expiry (s.alter (clearClosingTombstone key s.directory)) := by
  unfold clearClosingTombstone
  split_ifs
  · exact h.alter rfl rfl
  · exact h.deleteTombstone hkey

theorem storeInvoker (h : Barred k t expiry s) {key : Str} (hkey : key ≠ k) (new : Invoker) :
    Barred k t expiry (s.write (store key new s.directory)) := by
  refine h.write ?_ rfl
  dsimp only [store]
  rw [lookup_insert, if_neg hkey.symm]
  exact h.absent

theorem replaceAll (h : Barred k t expiry s) (hk : k ≠ []) (hnow : s.now ≤ expiry)
    {es : List UpdatedEvent} (hes : ∀ e ∈ es, Stamped k t e) (keys : List Str) :
    Barred k t expiry (s.write (cacheAll d (fun _ => s.now) es (evict keys s.directory).2).2) := by
  obtain ⟨tombstone, hlookup, hbars⟩ := h.barred
  have habsent : (evict keys s.directory).2.cacheInvokersMap.lookup k = none := by
    dsimp only [evict]
    rw [lookup_keep, h.absent, ite_self]
  obtain ⟨habsent', hlookup'⟩ := barred_cacheAll (d := d) hk hnow hbars hes habsent hlookup
  exact h.write habsent' (hlookup'.trans hlookup.symm)

end Barred

/-- While the tombstone is active, no step of a goroutine brings the instance back. -/
theorem Barred.advance (h : Barred k t expiry s) (hk : k ≠ []) (hnow : s.now ≤ expiry)
    (hsound : stage.Sound k t s.now) (hbehind : stage.Behind k t expiry)
    (hcloses : stage.closes k = false) (hadvance : s.advance d i stage = some u) : Barred k t expiry u := by
  cases stage with
  | returned => cases hadvance
  | scanning ev => cases hadvance
  | cleaning e | sweeping e time | grouping oldInvokers =>
    cases hadvance
    exact h.goto i trivial
  | expired e time key =>
    cases hadvance
    exact (h.deleteTombstone hbehind).goto i trivial
  | checking e => exact h.check hk hadvance
  | found e tombstone =>
    cases hadvance
    exact h.goto i (behind_afterTombstone hnow hsound hbehind)
  | clearing e =>
    cases hadvance
    exact (h.deleteTombstone hbehind).goto i hbehind
  | loading e =>
    cases hadvance
    exact h.goto i (behind_afterLoad hbehind _)
  | referring e old =>
    rw [System.advance, refer] at hadvance
    split at hadvance <;> cases hadvance <;> rename_i heq <;> obtain ⟨-, rfl⟩ := Prod.mk.inj heq
    · refine Barred.goto (h.alter ?_ ?_) i hbehind <;> rfl
    · refine Barred.goto (h.alter ?_ ?_) i trivial <;> rfl
  | storing e old new =>
    cases hadvance
    exact (h.storeInvoker hbehind new).goto i trivial
  | forgetting ev =>
    rw [System.advance] at hadvance
    split_ifs at hadvance <;> cases hadvance <;> exact (h.clearTombstone hsound).goto i trivial
  | uncaching clu key =>
    cases clu with
    | nil | cons k' clu =>
      rw [System.advance] at hadvance
      split at hadvance <;> cases hadvance <;> exact h.goto i trivial
  | deleting clu key ivk =>
    cases clu with
    | nil =>
      cases hadvance
      exact (h.deleteInvoker key).goto i trivial
    | cons k' clu =>
      cases hadvance
      exact (h.deleteInvoker k').goto i trivial
  | replacing es =>
    cases hadvance
    exact (h.replaceAll hk hnow hsound _).goto i trivial
  | closing key =>
    have hkey : key ≠ k := of_decide_eq_false hcloses
    rw [System.advance] at hadvance
    split at hadvance <;> cases hadvance
    · exact (h.mark hkey none).goto i trivial
    · exact ((h.mark hkey _).deleteInvoker key).goto i trivial
  | publishing newInvokers ver oldInvokers =>
    cases hadvance
    exact (h.publish newInvokers ver).goto i trivial
  | destroying oldInvokers =>
    cases hadvance
    refine Barred.goto (h.alter ?_ ?_) i trivial <;> rfl

theorem barred_of_closing (h : Tracked d k t s) (hexpiry : expiry ≤ s.now + d.closingTombstoneTTL)
    (hovertakes : ∀ stage ∈ s.threads, stage.overtakes k = false)
    (hadvance : s.advance d i (.closing k) = some u) : Barred k t expiry u := by
  have hbehind : ∀ stage ∈ s.threads, stage.Behind k t expiry := by
    intro stage hmem
    have hstage := hovertakes stage hmem
    cases stage with
    | expired e time key | clearing e | loading e | referring e old | storing e old new =>
      exact of_decide_eq_false hstage
    | found e tombstone => exact fun hkey => absurd hkey (of_decide_eq_false hstage)
    | _ => trivial
  have hmark : ∀ ts : Str, ts = [] ∨ ts = t →
      ∃ tombstone, (s.directory.closingTombstones.insert k
          ⟨ts, s.now + d.closingTombstoneTTL⟩).lookup k = some tombstone ∧
        Bars t expiry tombstone := by
    intro ts htimestamp
    exact ⟨_, Finmap.lookup_insert _, htimestamp, hexpiry⟩
  rw [System.advance] at hadvance
  split at hadvance <;> cases hadvance
  · rename_i hnone
    have hmarked : Barred k t expiry (s.mark d k none) := ⟨hnone, hmark [] (.inl rfl), hbehind⟩
    exact hmarked.goto i trivial
  · rename_i removed hsome
    have hremoved : Barred k t expiry ((s.mark d k (some removed)).deleteInvoker k) :=
      ⟨Finmap.lookup_erase _ _, hmark _ (.inr (h.cached removed hsome)), hbehind⟩
    exact hremoved.goto i trivial

theorem sound_start {req : Request} (hcondition : Concerns d k t s (.call req)) :
    (start d s.directory req).1.Sound k t s.now := by
  cases req with
  | notify ev =>
    dsimp only [Concerns] at hcondition
    rw [start]
    split_ifs with hdel
    · rwa [if_pos hdel] at hcondition
    · rw [if_neg hdel] at hcondition
      revert hcondition
      generalize prepare d ev s.directory = prepared
      obtain ⟨_ | e, directory⟩ := prepared
      · intro _
        trivial
      · intro hcondition
        exact hcondition e rfl
  | notifyAll evs =>
    dsimp only [Concerns] at hcondition
    rw [start]
    revert hcondition
    generalize gather d evs s.directory = gathered
    obtain ⟨_ | es, directory⟩ := gathered
    · intro _
      trivial
    · intro hcondition
      exact hcondition es rfl
  | removeClosingInstance ikey =>
    rw [start]
    split_ifs with hempty
    · trivial
    · exact hempty

theorem behind_start (d : Setup) (s : Directory) (req : Request) (k t : Str) (expiry : ℕ) :
    (start d s req).1.Behind k t expiry := by
  cases req with
  | notify ev =>
    rw [start]
    split_ifs
    · trivial
    · split <;> trivial
  | notifyAll evs =>
    rw [start]
    split <;> trivial
  | removeClosingInstance ikey =>
    rw [start]
    split_ifs <;> trivial

/-- The instance is barred as long as the tombstone of one of its removals has not expired. -/
structure Guarded (d : Setup) (k t : Str) (s : System) : Prop where
  tracked : Tracked d k t s
  barred : ∀ expiry, (k, expiry) ∈ s.closed → s.now ≤ expiry → Barred k t expiry s

def IsQuiet (k t : Str) (s : System) : Prop :=
  s.threads = [] ∧ s.closed = [] ∧
    ∀ i, s.directory.cacheInvokersMap.lookup k = some i → i.url.getParam timestampKey [] = t

theorem IsQuiet.guarded (h : IsQuiet k t s) : Guarded d k t s := by
  obtain ⟨hthreads, hclosed, hcached⟩ := h
  refine ⟨⟨hcached, ?_, ?_⟩, ?_⟩
  · intro stage hmem
    rw [hthreads] at hmem
    cases hmem
  · intro expiry hmem
    rw [hclosed] at hmem
    cases hmem
  · intro expiry hmem
    rw [hclosed] at hmem
    cases hmem

namespace Guarded

theorem tick (h : Guarded d k t s) {now : ℕ} (hnow : s.now ≤ now) : Guarded d k t { s with now := now } := by
  refine ⟨⟨h.tracked.cached, fun stage hmem => (h.tracked.sound stage hmem).mono hnow, ?_⟩, ?_⟩
  · intro expiry hmem
    obtain ⟨hk, hexpiry⟩ := h.tracked.closed expiry hmem
    dsimp only
    exact ⟨hk, by omega⟩
  · intro expiry hmem hle
    obtain ⟨habsent, hbarred, hbehind⟩ := h.barred expiry hmem (hnow.trans hle)
    exact ⟨habsent, hbarred, hbehind⟩

theorem call (h : Guarded d k t s) {req : Request} (hcondition : Concerns d k t s (.call req)) :
    Guarded d k t { s with
      directory := (start d s.directory req).2
      threads := s.threads ++ [(start d s.directory req).1] } := by
  have hremembers := start_remembers d s.directory req
  have hmap := hremembers.cacheInvokersMap_eq
  have htombstones := hremembers.closingTombstones_eq
  refine ⟨⟨?_, ?_, h.tracked.closed⟩, ?_⟩
  · rw [hmap]
    exact h.tracked.cached
  · intro stage hmem
    rcases mem_append.1 hmem with hmem | hmem
    · exact h.tracked.sound stage hmem
    · rw [mem_singleton.1 hmem]
      exact sound_start hcondition
  · intro expiry hmem hle
    obtain ⟨habsent, hbarred, hbehind⟩ := h.barred expiry hmem hle
    refine ⟨?_, ?_, ?_⟩
    · rw [hmap]
      exact habsent
    · rw [htombstones]
      exact hbarred
    · intro stage hmem
      rcases mem_append.1 hmem with hmem | hmem
      · exact hbehind stage hmem
      · rw [mem_singleton.1 hmem]
        exact behind_start d s.directory req k t expiry

theorem sweep (h : Guarded d k t s) {key : Str} {e : UpdatedEvent} {time : ℕ}
    {tombstone : ClosingTombstone} (hthread : s.threads[i]? = some (.sweeping e time))
    (hlookup : s.directory.closingTombstones.lookup key = some tombstone)
    (hexpired : tombstone.expireAt < time) : Guarded d k t (s.goto i (.expired e time key)) := by
  have hsound := h.tracked.sound _ (mem_of_getElem? hthread)
  refine ⟨h.tracked.goto i hsound, ?_⟩
  intro expiry hmem hle
  have hbarred := h.barred expiry hmem hle
  apply hbarred.goto
  rintro rfl
  obtain ⟨tomb', hlookup', hbars⟩ := hbarred.barred
  rw [hlookup] at hlookup'
  cases hlookup'
  have htime := hsound.2
  have hexpiry := hbars.2
  dsimp only [System.goto] at hle
  omega

theorem advance (h : Guarded d k t s) (hcondition : NotOvertaken k s (.advance i))
    (hthread : s.threads[i]? = some stage) (hadvance : s.advance d i stage = some u) : Guarded d k t u := by
  have hmember := mem_of_getElem? hthread
  have hsound := h.tracked.sound stage hmember
  have htracked := h.tracked.advance hsound hadvance
  obtain ⟨hnow, hclosed⟩ := history_advance hadvance
  refine ⟨htracked, ?_⟩
  intro expiry hmem hle
  rw [hnow] at hle
  cases hcloses : stage.closes k with
  | true =>
    have hovertakes : ∀ stage ∈ s.threads, stage.overtakes k = false := by
      apply hcondition
      rw [hthread]
      exact hcloses
    cases stage with
    | closing key =>
      obtain rfl : key = k := of_decide_eq_true hcloses
      have hexpiry := (htracked.closed expiry hmem).2
      rw [hnow] at hexpiry
      exact barred_of_closing h.tracked hexpiry hovertakes hadvance
    | _ => cases hcloses
  | false =>
    have hmem' : (k, expiry) ∈ s.closed := by
      rcases hclosed with heq | ⟨key, rfl, heq⟩
      · rwa [heq] at hmem
      · rw [heq] at hmem
        rcases mem_cons.1 hmem with heq | hmem
        · cases heq
          exact absurd rfl (of_decide_eq_false hcloses)
        · exact hmem
    have hbarred := h.barred expiry hmem' hle
    exact hbarred.advance (h.tracked.closed expiry hmem').1 hle hsound (hbarred.behind stage hmember) hcloses hadvance

theorem step {act : Action} (h : Guarded d k t s) (hcondition : Undisturbed d k t s act)
    (hstep : s.step d act = some u) : Guarded d k t u := by
  obtain ⟨now, rfl, hnow, rfl⟩ | ⟨req, rfl, rfl⟩ |
    ⟨i, key, e, time, tombstone, rfl, hthread, hlookup, hexpired, rfl⟩ |
    ⟨i, keys, ev, rfl, hthread, -, rfl⟩ | ⟨i, stage, rfl, hthread, hadvance⟩ := step_cases hstep
  · exact h.tick hnow
  · exact h.call hcondition.1
  · exact h.sweep hthread hlookup hexpired
  · exact ⟨h.tracked.goto i trivial, fun expiry hmem hle => (h.barred expiry hmem hle).goto i trivial⟩
  · exact h.advance hcondition.2 hthread hadvance

end Guarded

/-- While the tombstone of a closing instance has not expired, the instance stays out of the cache, in
every run in which no goroutine that has looked for the tombstone is overtaken by the removal. -/
theorem closing_stays_out (h : ReachedBy d (IsQuiet k t) (Undisturbed d k t) s)
    (hclosed : (k, expiry) ∈ s.closed) (hnow : s.now ≤ expiry) : s.directory.cacheInvokersMap.lookup k = none := by
  have hguarded : Guarded d k t s := by
    refine Reachable.invariant (fun s hs => hs.guarded) ?_ h
    rintro s u hs ⟨act, hcondition, hstep⟩
    exact hs.step hcondition hstep
  exact (hguarded.barred expiry hclosed hnow).absent

def removalFirst : List Action :=
  List.flatten [begin (.notify (.ofAdd (greeterSince (str "1")))) 0 9,
    begin (.removeClosingInstance greeter.cacheKey) 1 4,
    begin (.notify (.ofAdd (greeterSince (str "1")))) 2 7]

theorem isQuiet_idle : IsQuiet greeter.cacheKey (str "1") (idle new) :=
  ⟨rfl, rfl, fun _ h => nomatch h⟩

theorem closing_stays_out_after_removal :
    ∃ s, runWhile anyVersion (Undisturbed anyVersion greeter.cacheKey (str "1")) removalFirst (idle new) =
        some s ∧
      s.AllReturned ∧ s.closed = [(greeter.cacheKey, 30)] ∧ s.now ≤ 30 ∧
      s.directory.cacheInvokersMap.lookup greeter.cacheKey = none := by
  have hrun : (runWhile anyVersion (Undisturbed anyVersion greeter.cacheKey (str "1")) removalFirst
      (idle new)).any (fun s => decide (s.AllReturned ∧ s.closed = [(greeter.cacheKey, 30)] ∧ s.now ≤ 30)) =
        true := by
    decide +kernel
  obtain ⟨s, hs, hfinal⟩ := (Option.any_eq_true _ _).1 hrun
  obtain ⟨hreturned, hclosed, hnow⟩ := of_decide_eq_true hfinal
  have hreached := reachedBy_of_runWhile (.init isQuiet_idle) hs
  refine ⟨s, hs, hreturned, hclosed, hnow, closing_stays_out hreached ?_ hnow⟩
  rw [hclosed]
  exact mem_singleton_self _

def heavierGreeter : ServiceURL :=
  { greeterSince (str "1") with params := (greeterSince (str "1")).params.set (str "weight") (str "200") }

/-- The removal of the provider, while a notification of it is between its look for the tombstone and
its `Store`. -/
def removalBetween : List Action :=
  List.flatten [begin (.notify (.ofAdd (greeterSince (str "1")))) 0 9,
    begin (.notify (.ofAdd heavierGreeter)) 1 5,
    begin (.removeClosingInstance greeter.cacheKey) 2 4,
    goOn 1 4]

theorem overtaken_removal_undone :
    ∃ s, runWhile anyVersion (Concerns anyVersion greeter.cacheKey (str "1")) removalBetween (idle new) =
        some s ∧
      s.AllReturned ∧ s.closed = [(greeter.cacheKey, 30)] ∧ s.now ≤ 30 ∧
      s.directory.cacheInvokersMap.lookup greeter.cacheKey ≠ none := by
  have hrun : (runWhile anyVersion (Concerns anyVersion greeter.cacheKey (str "1")) removalBetween
      (idle new)).any (fun s => decide (s.AllReturned ∧ s.closed = [(greeter.cacheKey, 30)] ∧ s.now ≤ 30 ∧
        (s.directory.cacheInvokersMap.lookup greeter.cacheKey).isSome = true)) = true := by
    decide +kernel
  obtain ⟨s, hs, hfinal⟩ := (Option.any_eq_true _ _).1 hrun
  obtain ⟨hreturned, hclosed, hnow, hcached⟩ := of_decide_eq_true hfinal
  refine ⟨s, hs, hreturned, hclosed, hnow, ?_⟩
  intro hnone
  rw [hnone] at hcached
  cases hcached

end System
end DubboGo.Registry.Directory
