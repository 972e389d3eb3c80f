import DubboGo.ConfigCenter.ConfigCache

/-!
# The quota of automatic watches

A watch that the cache has for itself takes one of `maxAutoWatches` slots, while it is registered and while its
registration is in flight.  `autoWatchCount` and `autoWatchReservations` count them.
-/

namespace DubboGo.ConfigCenter

open Go Lib Multiset FiniteMap

namespace ConfigWatchState

theorem tracked_of_holdsAutoWatch (w : ConfigWatchState) (h : w.holdsAutoWatch = true) : w.tracked = true := by
  simp_all [holdsAutoWatch, tracked]

theorem tracked_of_holdsAutoReservation (w : ConfigWatchState) (h : w.holdsAutoReservation = true) :
    w.tracked = true := by
  simp_all [holdsAutoReservation, tracked]

theorem toNat_holdsAutoSlot {w : ConfigWatchState} (h : w.Sound) :
    w.holdsAutoSlot.toNat = w.holdsAutoWatch.toNat + w.holdsAutoReservation.toNat := by
  have hwhole := h.whole
  obtain ⟨reg, pend, auto, retired, sid, pendingOp⟩ := w
  cases reg <;> cases pend <;> cases auto <;>
    simp_all [holdsAutoSlot, holdsAutoWatch, holdsAutoReservation, tracked]

end ConfigWatchState

namespace ConfigCache

open ConfigWatchState

variable {c : ConfigCache} {path : Path} {w : ConfigWatchState}

/-! ## Counting the states of watches -/

section Count

variable {p : ConfigWatchState → Bool}

theorem countP_singleton (p : ConfigWatchState → Bool) (w : ConfigWatchState) :
    ({w} : Multiset ConfigWatchState).countP (fun w => p w) = (p w).toNat := by
  rw [← cons_zero, countP_cons, countP_zero, zero_add]
  cases p w <;> rfl

variable (hp : ∀ w, p w = true → w.tracked = true)

include hp

theorem countP_putWatch (c : ConfigCache) (path : Path) (w : ConfigWatchState) :
    (values (c.putWatch path w).watches).countP (fun w => p w) =
      (p w).toNat + (values (c.watches.erase path)).countP fun w => p w := by
  unfold putWatch
  cases htracked : w.tracked with
  | true =>
    simp only [if_true]
    rw [values_insert, ← singleton_add, countP_add, countP_singleton]
  | false =>
    have hw : p w = false := by
      by_contra hw
      rw [hp w (by simpa using hw)] at htracked
      cases htracked
    simp [hw]

theorem countP_watches (c : ConfigCache) (path : Path) : (values c.watches).countP (fun w => p w) =
      (p (c.watch path)).toNat + (values (c.watches.erase path)).countP fun w => p w := by
  rw [← lookup_add_values_erase c.watches path, countP_add]
  congr 1
  unfold watch
  cases c.watches.lookup path with
  | none =>
    have hzero : p .zero = false := by
      by_contra hzero
      exact absurd (hp _ (by simpa using hzero)) (by decide)
    simp [hzero]
  | some w => exact countP_singleton p w

theorem ncard_watches (c : ConfigCache) :
    {path | p (c.watch path) = true}.ncard = (values c.watches).countP fun w => p w := by
  have hset : {path | p (c.watch path) = true} =
      (c.watches.keys.filter fun path => p (c.watch path) = true : Finset Path) := by
    ext path
    rw [Set.mem_ofPred_eq, Finset.mem_coe, Finset.mem_filter, Finmap.mem_keys, ← Finmap.lookup_isSome]
    refine ⟨fun hpath => ⟨?_, hpath⟩, fun hpath => hpath.2⟩
    by_contra hnone
    have hzero : c.watch path = .zero := by
      unfold watch
      rw [Option.not_isSome_iff_eq_none.1 hnone]
      rfl
    rw [hzero] at hpath
    exact absurd (hp _ hpath) (by decide)
  have hvalues : values c.watches = c.watches.keys.val.map c.watch := by
    unfold values
    rw [← map_keys_getD c.watches .zero, map_map]
    rfl
  rw [hset, Set.ncard_coe_finset, hvalues, countP_map]
  rfl

end Count

/-! ## What every section keeps -/

structure Counted (c : ConfigCache) : Prop where
  autoWatchCount : c.autoWatchCount = (FiniteMap.values c.watches).countP fun w => w.holdsAutoWatch
  autoWatchReservations :
    c.autoWatchReservations = (FiniteMap.values c.watches).countP fun w => w.holdsAutoReservation
  sound : ∀ path, (c.watch path).Sound
  quota : c.autoWatchCount + c.autoWatchReservations ≤ maxAutoWatches

namespace Counted

theorem new (lru : Lru Path ConfigCacheEntry) (ttl : ℤ) : (ConfigCache.new lru ttl).Counted where
  autoWatchCount := rfl
  autoWatchReservations := rfl
  sound := fun _ => sound_zero
  quota := Int.natCast_nonneg maxAutoWatches

theorem congr {c' : ConfigCache} (h : c.Counted) (hwatches : c'.watches = c.watches)
    (hcount : c'.autoWatchCount = c.autoWatchCount)
    (hreservations : c'.autoWatchReservations = c.autoWatchReservations) : c'.Counted where
  autoWatchCount := by rw [hcount, hwatches, h.autoWatchCount]
  autoWatchReservations := by rw [hreservations, hwatches, h.autoWatchReservations]
  sound := by
    unfold watch
    rw [hwatches]
    exact h.sound
  quota := by
    rw [hcount, hreservations]
    exact h.quota

/-- The counters follow a watch that is put, where there is room for it. -/
theorem putWatch (h : c.Counted) (hw : w.Sound) (hroom : ¬c.Refuses path w) : (c.putWatch path w).Counted := by
  have hcount := h.autoWatchCount
  have hreservations := h.autoWatchReservations
  rw [countP_watches tracked_of_holdsAutoWatch c path] at hcount
  rw [countP_watches tracked_of_holdsAutoReservation c path] at hreservations
  refine ⟨?_, ?_, ?_, ?_⟩
  · rw [countP_putWatch tracked_of_holdsAutoWatch]
    dsimp only [ConfigCache.putWatch]
    omega
  · rw [countP_putWatch tracked_of_holdsAutoReservation]
    dsimp only [ConfigCache.putWatch]
    omega
  · intro path'
    rw [watch_putWatch]
    split_ifs
    · exact hw
    · exact sound_zero
    · exact h.sound path'
  · have hcurrent := toNat_holdsAutoSlot (h.sound path)
    have hnew := toNat_holdsAutoSlot hw
    have hquota := h.quota
    dsimp only [ConfigCache.putWatch]
    -- there is one slot more only if there was room for it
    cases hslot : w.holdsAutoSlot with
    | false =>
      rw [hslot, Bool.toNat_false] at hnew
      omega
    | true =>
      rw [hslot, Bool.toNat_true] at hnew
      cases hheld : (c.watch path).holdsAutoSlot with
      | true =>
        rw [hheld, Bool.toNat_true] at hcurrent
        omega
      | false =>
        have hfree : ¬maxAutoWatches ≤ c.autoWatchCount + c.autoWatchReservations :=
          fun hfull => hroom (.inr ⟨hslot, hheld, hfull⟩)
        omega

/-- A new state of a watch gives back the slot of the old one. -/
theorem setWatchStateLocked (h : c.Counted) (hw : w.stored.Sound) (path : Path) :
    (c.setWatchStateLocked path w).2.Counted := by
  rcases setWatchStateLocked_cases c path w with ⟨-, heq⟩ | ⟨hroom, heq⟩
  · rw [heq]
    exact h
  · rw [heq]
    exact h.putWatch hw hroom

/-- Whatever sections on one path do, the counters follow. -/
theorem edits {c' : ConfigCache} (h : c.Counted) (hedits : Edits path c c') : c'.Counted := by
  induction hedits with
  | refl => exact h
  | begin _ ih => exact ih.congr rfl rfl rfl
  | set w hw _ ih => exact ih.setWatchStateLocked (hw (h.sound path)) path
  | complete op err _ ih =>
    unfold ConfigCache.completeWatchOperationLocked
    cases op with
    | none => exact ih
    | some token =>
      dsimp only
      split_ifs
      · exact ih
      · exact ih.congr rfl rfl rfl

theorem reset (h : c.Counted) (sid : ℤ) (paths : List Path) : (c.reset sid paths).Counted := by
  have hfold : ∀ c : ConfigCache, c.Counted → (paths.foldl (ConfigCache.dropOldWatch sid) c).Counted := by
    induction paths with
    | nil => exact fun c hc => hc
    | cons path paths ih => exact fun c hc => ih _ (hc.edits (edits_dropOldWatch sid c path))
  exact hfold _ (h.congr rfl rfl rfl)

end Counted

/-! ## Sequences of sections -/

/-- A section that can change watches.  `ensureBusinessWatchOnce` is three of them: it begins, it fails or it
finishes as a load does, and it completes its operation. -/
inductive Section where
  | prepareLoad (path : Path)
  | finishWatchRegistration (path : Path) (generation token : UInt64) (registration : WatchRegistration)
  | beginBusinessWatch (path : Path)
  | failBusinessWatch (path : Path) (op : ℕ) (err : WatchError)
  | completeWatchOperation (op : ℕ) (err : WatchError)
  | releaseBusinessWatch (path : Path)
  | beginWatchRenewal (path : Path) (hasListeners : Bool)
  | cancelPending (path : Path)
  | reset (sessionID : ℤ) (paths : List Path)

def runSection (c : ConfigCache) : Section → ConfigCache
  | .prepareLoad path => (c.prepareLoad path).2
  | .finishWatchRegistration path generation token registration =>
    (c.finishWatchRegistrationLocked path generation token registration).2
  | .beginBusinessWatch path => (c.beginBusinessWatch path).2
  | .failBusinessWatch path op err => c.failBusinessWatch path op err
  | .completeWatchOperation op err => c.completeWatchOperationLocked (some op) (some err)
  | .releaseBusinessWatch path => c.releaseBusinessWatchLocked path
  | .beginWatchRenewal path hasListeners => (c.beginWatchRenewalLocked path hasListeners).2
  | .cancelPending path => c.cancelPendingLocked path
  | .reset sessionID paths => c.reset sessionID paths

theorem Counted.runSection (h : c.Counted) (s : Section) : (c.runSection s).Counted := by
  cases s with
  | prepareLoad path => exact h.edits (edits_prepareLoad c path)
  | finishWatchRegistration path gen token reg =>
    exact h.edits (edits_finishWatchRegistrationLocked c path gen token reg)
  | beginBusinessWatch path => exact h.edits (edits_beginBusinessWatch c path)
  | failBusinessWatch path op err => exact h.edits (edits_failBusinessWatch c path op err)
  | completeWatchOperation op err =>
    have hcomplete : Edits [] c (c.completeWatchOperationLocked (some op) (some err)) := Edits.refl.complete _ _
    exact h.edits hcomplete
  | releaseBusinessWatch path => exact h.edits (edits_releaseBusinessWatchLocked c path)
  | beginWatchRenewal path hasListeners => exact h.edits (edits_beginWatchRenewalLocked c path hasListeners)
  | cancelPending path => exact h.edits (edits_cancelPendingLocked c path)
  | reset sid paths => exact h.reset sid paths

theorem Counted.foldl (h : c.Counted) (sections : List Section) :
    (sections.foldl ConfigCache.runSection c).Counted := by
  induction sections generalizing c with
  | nil => exact h
  | cons s sections ih => exact ih (h.runSection s)

/-- After any sequence of sections the counters are the numbers of paths with an automatic watch, no watch is both
registered and pending, and there are no more automatic watches than the quota. -/
theorem auto_watches_counted (lru : Lru Path ConfigCacheEntry) (ttl : ℤ) (sections : List Section) :
    let c := sections.foldl ConfigCache.runSection (.new lru ttl)
    c.autoWatchCount = {path | (c.watch path).auto = true ∧ (c.watch path).registered = true}.ncard ∧
      c.autoWatchReservations = {path | (c.watch path).auto = true ∧ (c.watch path).pending = true}.ncard ∧
      (∀ path, ¬((c.watch path).registered = true ∧ (c.watch path).pending = true)) ∧
      c.autoWatchCount + c.autoWatchReservations ≤ maxAutoWatches := by
  intro c
  have hcounted : c.Counted := (Counted.new lru ttl).foldl sections
  refine ⟨?_, ?_, fun path => (hcounted.sound path).whole, hcounted.quota⟩
  · rw [hcounted.autoWatchCount, ← ncard_watches tracked_of_holdsAutoWatch c]
    simp only [holdsAutoWatch, Bool.and_eq_true]
  · rw [hcounted.autoWatchReservations, ← ncard_watches tracked_of_holdsAutoReservation c]
    simp only [holdsAutoReservation, Bool.and_eq_true]

end ConfigCache

end DubboGo.ConfigCenter
