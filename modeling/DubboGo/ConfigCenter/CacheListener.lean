import DubboGo.ConfigCenter.ConfigCache
import DubboGo.Lib.Pool

/-!
# Loads, listeners and watch events

`load` and `ensureBusinessWatchWithRetryIf` of `config_center/zookeeper/config_cache.go`, `CacheListener` of
`config_center/zookeeper/listener.go` and `processConfigurationEvent` of `remoting/zookeeper/listener.go`, as calls
that take turns and one event loop.
-/

namespace DubboGo.ConfigCenter

open Go Lib ConfigCache Option

/-- What a step gets from outside: the time, the result of a read or of a registration, the state of the connection,
and the next path of a range over the listeners. -/
structure Answer where
  now : ℤ
  err : Option Str
  content : Str
  exists' : Bool
  registration : WatchRegistration
  hasSession : Bool
  sessionID : ℤ
  path : Option Path

namespace Answer

/-- What `loadProperties` returns, for a read that began after a number of resets. -/
def entry (a : Answer) (readAt : ℕ) : ConfigCacheEntry := ⟨a.content, a.exists', 0, readAt⟩

/-- What `registerWatcher` returns: it reads no content. -/
def registerWatcher (a : Answer) : WatchRegistration :=
  { a.registration with readBeforeSessionID := 0, readAfterSessionID := 0 }

/-- `sessionStable` of the event loop. -/
def sessionStable (a : Answer) : Bool :=
  stableSessionPair a.registration.beforeSessionID a.registration.afterSessionID

end Answer

structure WatchEventState where
  generation : UInt64
  sessionID : ℤ
  auto : Bool
  token : UInt64

structure State where
  cache : ConfigCache
  keyListeners : Path → Finset ℕ
  eventGeneration : Path → Option WatchEventState
  pathLocks : ℕ → Bool

/-- `pathLock`: the shard of a path. -/
def pathLock (path : Path) : ℕ :=
  (path.foldl (fun hash b => (hash ^^^ b.toUInt32) * 16777619) (2166136261 : UInt32)).toNat % pathLockShardCount

namespace State

variable (s : State)

def free (path : Path) : Bool := !s.pathLocks (pathLock path)
def lock (path : Path) : State := { s with pathLocks := Function.update s.pathLocks (pathLock path) true }
def unlock (path : Path) : State := { s with pathLocks := Function.update s.pathLocks (pathLock path) false }

def hasListener (path : Path) (listener : ℕ) : Bool := listener ∈ s.keyListeners path
def hasListeners (path : Path) : Bool := s.keyListeners path ≠ ∅

/-- `storeListener`: whether the listener is new. -/
def storeListener (key : Path) (listener : ℕ) : Bool × State :=
  (!s.hasListener key listener,
    { s with keyListeners := Function.update s.keyListeners key (insert listener (s.keyListeners key)) })

/-- `removeListener`: whether the last listener has been removed. -/
def removeListener (key : Path) (listener : ℕ) : Bool × State :=
  if ¬s.hasListener key listener then (false, s)
  else
    ((s.keyListeners key).erase listener = ∅,
      { s with keyListeners := Function.update s.keyListeners key ((s.keyListeners key).erase listener) })

def releaseBusinessWatch (path : Path) : State := { s with cache := s.cache.releaseBusinessWatchLocked path }

structure Releases (path : Path) (s t : State) : Prop where
  eventGeneration : t.eventGeneration = s.eventGeneration
  keyListeners : ∀ path', t.keyListeners path' ⊆ s.keyListeners path'
  cache : t.cache = s.cache ∨ (t.cache = s.cache.releaseBusinessWatchLocked path ∧ t.keyListeners path = ∅)

namespace Releases

variable {s} {t : State} {path key : Path} {lst : ℕ}

theorem refl (path : Path) (s : State) : s.Releases path s := ⟨rfl, fun _ => subset_rfl, .inl rfl⟩

theorem release (s : State) (hlisteners : s.keyListeners path = ∅) : s.Releases path (s.releaseBusinessWatch path) :=
  ⟨rfl, fun _ => subset_rfl, .inr ⟨rfl, hlisteners⟩⟩

theorem removeListener (s : State) (key : Path) (lst : ℕ) : s.Releases key (s.removeListener key lst).2 := by
  unfold State.removeListener
  split_ifs
  · refine ⟨rfl, fun path' => ?_, .inl rfl⟩
    dsimp only
    by_cases hpath : path' = key
    · rw [hpath, Function.update_self]
      exact Finset.erase_subset _ _
    · rw [Function.update_of_ne hpath]
  · exact .refl key s

theorem removeListener_last (s : State) (hlast : (s.removeListener key lst).1 = true) :
    s.Releases key ((s.removeListener key lst).2.releaseBusinessWatch key) := by
  have hremove := removeListener s key lst
  unfold State.removeListener at hlast hremove ⊢
  split_ifs at hlast hremove ⊢
  refine ⟨rfl, hremove.keyListeners, .inr ⟨rfl, ?_⟩⟩
  dsimp only [State.releaseBusinessWatch]
  rw [Function.update_self]
  exact of_decide_eq_true hlast

end Releases

end State

/-! ## Ensuring a watch of business listeners -/

/-- The `maxRetries` that every caller of `ensureBusinessWatchWithRetryIf` passes. -/
def maxRetries : ℕ := 1

/-- Where a call of `ensureBusinessWatchWithRetryIf` is. -/
inductive Ensure where
  /-- `stillNeeded` is asked before an attempt. -/
  | asking (attempt : ℕ)
  | entering (attempt : ℕ)
  | waiting (attempt op : ℕ)
  | registering (attempt : ℕ) (generation : UInt64) (op : ℕ)
  /-- The registration was not stored, and the lock of the path is held. -/
  | completing (attempt op : ℕ)
  /-- `stillNeeded` is asked once more. -/
  | confirming
  | done (err : Option WatchError)
  deriving DecidableEq

namespace Ensure

/-- What follows the result of `ensureBusinessWatchOnce`. -/
def after (needed : Option ℕ) (attempt : ℕ) : Option WatchError → Ensure
  | none => if needed.isSome then .confirming else .done none
  | some err => if err = .stale ∧ attempt < maxRetries then .asking (attempt + 1) else .done (some err)

def result : Ensure → Option (Option WatchError)
  | .done err => some err
  | _ => none

theorem eq_done {e : Ensure} {err : Option WatchError} (h : e.result = some err) : e = .done err := by
  cases e with
  | done err => rw [some.inj h]
  | _ => cases h

/-- A step of `ensureBusinessWatchWithRetryIf`, for as long as a listener is needed. -/
def step (path : Path) (needed : Option ℕ) (a : Answer) (s : State) : Ensure → Option (State × Ensure)
  | .asking attempt =>
    match needed with
    | none => some (s, .entering attempt)
    | some listener =>
      if ¬s.free path then none
      else some (s, if s.hasListener path listener then .entering attempt else .done (some .canceled))
  | .entering attempt =>
    if ¬s.free path then none
    else
      let (found, c) := s.cache.beginBusinessWatch path
      some ({ s with cache := c },
        match found with
        | .registered => after needed attempt none
        | .shared none => after needed attempt none
        | .shared (some op) => .waiting attempt op
        | .begun generation op => .registering attempt generation op)
  | .waiting attempt op =>
    if (s.cache.operations op).completed then some (s, after needed attempt (s.cache.operations op).err) else none
  | .registering attempt generation op =>
    if ¬s.free path then none
    else
      match a.err with
      | some err =>
        some ({ s with cache := s.cache.failBusinessWatch path op (.other err) },
          after needed attempt (some (.other err)))
      | none =>
        let (stored, c) := 
          s.cache.finishWatchRegistrationLocked path generation (s.cache.operations op).token a.registerWatcher
        if stored then some ({ s with cache := c }, after needed attempt none)
        else some ({ s with cache := c }.lock path, .completing attempt op)
  | .completing attempt op =>
    some ({ s with cache := s.cache.completeWatchOperationLocked (some op) (some .stale) }.unlock path,
      after needed attempt (some .stale))
  | .confirming =>
    match needed with
    | none => none
    | some listener =>
      if ¬s.free path then none
      else some (s, .done (if s.hasListener path listener then none else some .canceled))
  | .done _ => none

variable {path : Path} {needed : Option ℕ} {a : Answer} {s t : State} {e e' : Ensure}

/-- Ensuring a watch edits its own path only. -/
theorem step_edits (h : e.step path needed a s = some (t, e')) :
    Edits path s.cache t.cache ∧ t.keyListeners = s.keyListeners ∧ t.eventGeneration = s.eventGeneration := by
  cases e with
  | asking att =>
    cases needed with
    | none =>
      cases h
      exact ⟨.refl, rfl, rfl⟩
    | some listener =>
      simp only [step, ite_none_left_eq_some] at h
      cases h.2
      exact ⟨.refl, rfl, rfl⟩
  | entering att =>
    simp only [step, ite_none_left_eq_some] at h
    cases h.2
    exact ⟨edits_beginBusinessWatch _ _, rfl, rfl⟩
  | waiting att op =>
    simp only [step, ite_none_right_eq_some] at h
    cases h.2
    exact ⟨.refl, rfl, rfl⟩
  | registering att gen op =>
    simp only [step, ite_none_left_eq_some] at h
    obtain ⟨-, h⟩ := h
    have hfinish := edits_finishWatchRegistrationLocked s.cache path gen (s.cache.operations op).token a.registerWatcher
    split at h
    · cases h
      exact ⟨edits_failBusinessWatch _ _ _ _, rfl, rfl⟩
    · split_ifs at h
      · cases h
        exact ⟨hfinish, rfl, rfl⟩
      · cases h
        exact ⟨hfinish, rfl, rfl⟩
  | completing att op =>
    cases h
    have hcomplete : Edits path s.cache (s.cache.completeWatchOperationLocked (some op) (some .stale)) :=
      Edits.refl.complete _ _
    exact ⟨hcomplete, rfl, rfl⟩
  | confirming =>
    cases needed with
    | none => cases h
    | some listener =>
      simp only [step, ite_none_left_eq_some] at h
      cases h.2
      exact ⟨.refl, rfl, rfl⟩
  | done err => cases h

end Ensure

/-! ## Loads -/

/-- Where a call of `load` is: at an attempt `n` after `w` retries of the watch, with the generation of the
attempt and the number of resets before its read. -/
inductive Load where
  | start
  /-- The cache is disabled. -/
  | plain (generation : UInt64) (readAt : Option ℕ)
  /-- `getFresh` has found an entry that is not fresh. -/
  | expired
  | locking
  | attempt (n w : ℕ)
  | attemptExpired (n w : ℕ)
  | preparing (n w : ℕ)
  | reading (n w : ℕ) (generation : UInt64) (token : Option UInt64) (readAt : Option ℕ)
  /-- The watch is stored, and the result is checked. -/
  | checking (n w : ℕ) (generation : UInt64) (registration : WatchRegistration) (err : Option Str)
      (entry : ConfigCacheEntry)
  | fallback (n w : ℕ) (generation : UInt64) (readAt : Option ℕ)
  | storing (n w : ℕ) (generation : UInt64) (entry : ConfigCacheEntry)
  /-- The read has failed; in the last attempt the generation is looked at again. -/
  | failing (n w : ℕ) (generation : UInt64) (err : Str) (again : Bool)
  | returned (result : Except WatchError ConfigCacheEntry)

namespace Load

def next (n w : ℕ) : Load := if n < maxCacheLoadRetries then .attempt (n + 1) w else .returned (.error .stale)

def unstored (n w : ℕ) (generation : UInt64) : Load :=
  if w = 0 ∧ n < maxCacheLoadRetries then .attempt (n + 1) (w + 1) else .fallback n w generation none

def current (n w : ℕ) (generation : UInt64) (entry : ConfigCacheEntry) : Option Str → Load
  | some err => .failing n w generation err false
  | none => .storing n w generation entry

/-- The deferred `Unlock`. -/
def leave (path : Path) (s : State) : Load → State × Load
  | .returned result => (s.unlock path, .returned result)
  | stage => (s, stage)

/-- A step of `load`. -/
def step (path : Path) (a : Answer) (s : State) : Load → Option (State × Load)
  | .start =>
    if ¬s.cache.enabled then some (s, .plain s.cache.generation none)
    else
      let (found, c) := s.cache.peekFresh path a.now
      some ({ s with cache := c },
        match found with
        | .ok entry => .returned (.ok entry)
        | .error old => if old then .expired else .locking)
  | .plain generation none => some (s, .plain generation (some s.cache.resets))
  | .plain generation (some readAt) =>
    some (s, .returned (
      match a.err with
      | some err => .error (.other err)
      | none => if s.cache.loadResultCurrent generation a.registration then .ok (a.entry readAt) else .error .stale))
  | .expired =>
    let (found, c) := s.cache.getFresh path a.now
    some ({ s with cache := c },
      match found with
      | some entry => .returned (.ok entry)
      | none => .locking)
  | .locking => if ¬s.free path then none else some (s.lock path, .attempt 0 0)
  | .attempt n w =>
    let (found, c) := s.cache.peekFresh path a.now
    some (leave path { s with cache := c } (
      match found with
      | .ok entry => .returned (.ok entry)
      | .error old => if old then .attemptExpired n w else .preparing n w))
  | .attemptExpired n w =>
    let (found, c) := s.cache.getFresh path a.now
    some (leave path { s with cache := c } (
      match found with
      | some entry => .returned (.ok entry)
      | none => .preparing n w))
  | .preparing n w =>
    let ((generation, token), c) := s.cache.prepareLoad path
    some ({ s with cache := c }, .reading n w generation token none)
  | .reading n w generation token none => some (s, .reading n w generation token (some s.cache.resets))
  | .reading n w generation (some token) (some readAt) =>
    let (stored, c) := s.cache.finishWatchRegistrationLocked path generation token a.registration
    some ({ s with cache := c },
      if stored then .checking n w generation a.registration a.err (a.entry readAt) else unstored n w generation)
  | .reading n w generation none (some readAt) =>
    some (leave path s (
      if s.cache.loadResultCurrent generation a.registration then current n w generation (a.entry readAt) a.err
      else next n w))
  | .checking n w generation registration err entry =>
    some (s,
      if s.cache.loadResultCurrent generation registration then current n w generation entry err
      else unstored n w generation)
  | .fallback n w generation none => some (s, .fallback n w generation (some s.cache.resets))
  | .fallback n w generation (some readAt) =>
    some (leave path s (
      match a.err with
      | some err => .returned (.error (.other err))
      | none =>
        if s.cache.loadResultCurrent generation a.registration then .storing n w generation (a.entry readAt)
        else next n w))
  | .storing n w generation entry =>
    let (stored, c) := s.cache.storeLoadEntry path generation entry a.now
    some (leave path { s with cache := c } (if stored then .returned (.ok entry) else next n w))
  | .failing n w generation err again =>
    some (leave path s (
      if s.cache.generation ≠ generation then next n w
      else if n = maxCacheLoadRetries ∧ ¬again then .failing n w generation err true
      else .returned (.error (.other err))))
  | .returned _ => none

variable {path : Path} {a : Answer} {s t : State} {l l' : Load}

theorem of_leave {u : State} {m : Load} (h : some (m.leave path u) = some (t, l')) :
    l' = m ∧ t.cache = u.cache ∧ t.keyListeners = u.keyListeners ∧ t.eventGeneration = u.eventGeneration := by
  cases m <;> cases h <;> exact ⟨rfl, rfl, rfl, rfl⟩

end Load

/-! ## Calls -/

/-- A call in flight, or one that has returned.  A load has the number of resets before it was called; `addListener` is
about to store its listener, or has, and it was new or not; `restoreBusinessWatches` ranges over the paths with
listeners. -/
inductive Call where
  | load (path : Path) (since : ℕ) (stage : Load)
  | addListener (key : Path) (listener : ℕ) (stage : Option (Bool × Ensure))
  | restoreBusinessWatches (visited : List Path) (stage : Option (Path × Ensure))
  | returned

namespace Call

/-- The last section of `addListenerWithRegister`. -/
def finishAdding (key : Path) (listener : ℕ) (added : Bool) (err : Option WatchError) (s : State) : State :=
  let present := s.hasListener key listener
  if err.isSome ∧ added ∧ present then
    let (last, s) := s.removeListener key listener
    if last then s.releaseBusinessWatch key else s
  else if ¬present ∧ ¬s.hasListeners key then s.releaseBusinessWatch key
  else s

/-- The section of `restoreBusinessWatches` after a watch is ensured. -/
def releaseUnused (path : Path) (s : State) : State :=
  if ¬s.hasListeners path then s.releaseBusinessWatch path else s

def step (a : Answer) (s : State) : Call → Option (State × Call)
  | .load path since stage => (stage.step path a s).map fun (s, stage) => (s, .load path since stage)
  | .addListener key listener none =>
    if ¬s.free key then none
    else
      let (added, s) := s.storeListener key listener
      some (s, .addListener key listener (some (added, .asking 0)))
  | .addListener key listener (some (added, stage)) =>
    match stage.result with
    | some err => if ¬s.free key then none else some (finishAdding key listener added err s, .returned)
    | none =>
      (stage.step key (some listener) a s).map fun (s, stage) => (s, .addListener key listener (some (added, stage)))
  | .restoreBusinessWatches visited none =>
    match a.path with
    | none => some (s, .returned)
    | some path =>
      if path ∈ visited ∨ ¬s.hasListeners path then none
      else some (s, .restoreBusinessWatches (path :: visited) (some (path, .asking 0)))
  | .restoreBusinessWatches visited (some (path, stage)) =>
    match stage.result with
    | some (some _) => some (s, .restoreBusinessWatches visited none)
    | some none => if ¬s.free path then none else some (releaseUnused path s, .restoreBusinessWatches visited none)
    | none =>
      (stage.step path none a s).map fun (s, stage) => (s, .restoreBusinessWatches visited (some (path, stage)))
  | .returned => none

variable {a : Answer} {s t : State} {c c' : Call}

theorem releases_finishAdding (key : Path) (listener : ℕ) (added : Bool) (err : Option WatchError) (s : State) :
    s.Releases key (finishAdding key listener added err s) := by
  unfold finishAdding
  dsimp only
  split_ifs with _ hlast hnone
  · exact .removeListener_last s hlast
  · exact .removeListener s key listener
  · exact .release s (by simpa [State.hasListeners] using hnone.2)
  · exact .refl key s

theorem releases_releaseUnused (path : Path) (s : State) : s.Releases path (releaseUnused path s) := by
  unfold releaseUnused
  split_ifs with hlisteners
  · exact .refl path s
  · exact .release s (by simpa [State.hasListeners] using hlisteners)

/-- What a step of a call is: a step of its load or of its watch, or a section of its own. -/
inductive Step (a : Answer) (s : State) : Call → State → Call → Prop where
  | load {path : Path} {since : ℕ} {l l' : Load} {t : State} (h : l.step path a s = some (t, l')) :
      Step a s (.load path since l) t (.load path since l')
  | store {key : Path} {listener : ℕ} :
      Step a s (.addListener key listener none) (s.storeListener key listener).2
        (.addListener key listener (some ((s.storeListener key listener).1, .asking 0)))
  | adding {key : Path} {listener : ℕ} {added : Bool} {e e' : Ensure} {t : State}
      (h : e.step key (some listener) a s = some (t, e')) :
      Step a s (.addListener key listener (some (added, e))) t (.addListener key listener (some (added, e')))
  | added {key : Path} {listener : ℕ} {added : Bool} {err : Option WatchError} :
      Step a s (.addListener key listener (some (added, .done err))) (finishAdding key listener added err s) .returned
  | restoring {visited : List Path} {path : Path} {e e' : Ensure} {t : State} (h : e.step path none a s = some (t, e')) :
      Step a s (.restoreBusinessWatches visited (some (path, e))) t
        (.restoreBusinessWatches visited (some (path, e')))
  | restored {visited : List Path} {path : Path} :
      Step a s (.restoreBusinessWatches visited (some (path, .done none))) (releaseUnused path s)
        (.restoreBusinessWatches visited none)
  | missed {visited : List Path} {path : Path} {err : WatchError} :
      Step a s (.restoreBusinessWatches visited (some (path, .done (some err)))) s (.restoreBusinessWatches visited none)
  | next {visited : List Path} {path : Path} :
      Step a s (.restoreBusinessWatches visited none) s
        (.restoreBusinessWatches (path :: visited) (some (path, .asking 0)))
  | finish {visited : List Path} : Step a s (.restoreBusinessWatches visited none) s .returned

/-- Every step of a call is one of the kinds of `Step`. -/
theorem step_inv (h : c.step a s = some (t, c')) : Step a s c t c' := by
  cases c with
  | load path since st =>
    obtain ⟨⟨u, st'⟩, hstep, heq⟩ := map_eq_some_iff.1 h
    cases heq
    exact .load hstep
  | addListener key listener st =>
    rcases st with _ | ⟨added, st⟩
    · simp only [step, ite_none_left_eq_some] at h
      cases h.2
      exact .store
    · cases hresult : st.result with
      | some err =>
        simp only [step, hresult, ite_none_left_eq_some] at h
        cases Ensure.eq_done hresult
        cases h.2
        exact .added
      | none =>
        simp only [step, hresult] at h
        obtain ⟨⟨u, st'⟩, hstep, heq⟩ := map_eq_some_iff.1 h
        cases heq
        exact .adding hstep
  | restoreBusinessWatches visited st =>
    rcases st with _ | ⟨path, st⟩
    · simp only [step] at h
      split at h
      · cases h
        exact .finish
      · simp only [ite_none_left_eq_some] at h
        cases h.2
        exact .next
    · cases hresult : st.result with
      | some err =>
        cases Ensure.eq_done hresult
        cases err with
        | some err =>
          cases h
          exact .missed
        | none =>
          simp only [step, hresult, ite_none_left_eq_some] at h
          cases h.2
          exact .restored
      | none =>
        simp only [step, hresult] at h
        obtain ⟨⟨u, st'⟩, hstep, heq⟩ := map_eq_some_iff.1 h
        cases heq
        exact .restoring hstep
  | returned => cases h

end Call

/-! ## The event loop -/

inductive EventType where
  | nodeCreated
  | nodeDeleted
  | nodeDataChanged
  | nodeChildrenChanged
  | session
  | notWatching
  deriving DecidableEq

/-- Where `retryBusinessWatch` is. -/
inductive Retry where
  | listening
  | comparing
  | ensuring (stage : Ensure)

inductive Loop where
  | idle
  /-- The first read, after `WatchStateChanged`. -/
  | reading (path : Path) (registerWatch : Bool) (readAt : Option ℕ)
  /-- Between the two sections of `WatchRegistered`, with the lock of the path. -/
  | registered (path : Path) (event : WatchEventState) (registration : WatchRegistration) (exists' : Bool)
      (readAt : ℕ) (stored : Bool)
  /-- `retryBusinessWatch`, of `WatchRegistered` or of `WatchStateChangeFailed`. -/
  | retrying (path : Path) (event : WatchEventState) (reload : Bool) (stage : Retry)
  | rearming (path : Path) (event : WatchEventState)
  | reloading (path : Path) (readAt : Option ℕ)
  | fetching (path : Path) (readAt : Option ℕ)
  /-- `DataChange`. -/
  | changing (path : Path) (entry : ConfigCacheEntry)
  /-- `WatchStateChangeFailed`; the registration of the watch itself has failed, or a later read. -/
  | failing (path : Path) (renewing : Bool)

namespace Loop

def found (path : Path) (exists' : Bool) (readAt : ℕ) : Loop :=
  if exists' then .fetching path none else .changing path ⟨[], false, 0, readAt⟩

def watchStateChanged (path : Path) (s : State) : State × Loop :=
  let ((generation, watchState, registerWatch), c) := s.cache.beginWatchRenewalLocked path (s.hasListeners path)
  let event := ⟨generation, watchState.sessionID, watchState.auto, c.pendingOpToken watchState⟩
  ({ s with cache := c, eventGeneration := Function.update s.eventGeneration path (some event) },
    .reading path registerWatch none)

/-- The last section of `retryBusinessWatch`, after which `WatchRegistered` stores the event again. -/
def retried (path : Path) (event : WatchEventState) (reload : Bool) (s : State) : State × Loop :=
  if ¬s.hasListeners path then (s.releaseBusinessWatch path, .idle)
  else (s, if reload then .rearming path event else .idle)

/-- The store of `DataChange`. -/
def store (path : Path) (entry : ConfigCacheEntry) (now : ℤ) (s : State) : State :=
  match s.eventGeneration path with
  | some event =>
    { s with
      cache := s.cache.storeAtGenerationLocked path event.generation entry now
      eventGeneration := Function.update s.eventGeneration path none }
  | none => { s with cache := s.cache.storeLocked path entry now }

/-- The section of `WatchStateChangeFailed`. -/
def failed (path : Path) (s : State) : State × Loop :=
  match s.eventGeneration path with
  | none => (s, .idle)
  | some event =>
    ({ s with
        cache := s.cache.cancelPendingLocked path
        eventGeneration := Function.update s.eventGeneration path none },
      .retrying path event false .listening)

def step (a : Answer) (s : State) : Loop → Option (State × Loop)
  | .idle => none
  | .reading path registerWatch none => some (s, .reading path registerWatch (some s.cache.resets))
  | .reading path registerWatch (some readAt) =>
    if a.err.isSome then some (s, .failing path registerWatch)
    else if registerWatch then
      if ¬s.free path then none
      else
        match s.eventGeneration path with
        | none => some (s, .idle)
        | some event =>
          let (stored, c) :=
            s.cache.finishWatchRegistrationLocked path event.generation event.token a.registerWatcher
          some ({ s with cache := c }.lock path, .registered path event a.registerWatcher a.exists' readAt stored)
    else some (s, if a.sessionStable then found path a.exists' readAt else .failing path false)
  | .registered path event registration exists' readAt stored =>
    let currentGeneration : Bool := s.cache.generation = event.generation
    let s := s.unlock path
    if stored ∧ registration.sessionStable ∧ currentGeneration then
      -- the read is accepted
      some (s,
        if stableSessionPair registration.beforeSessionID registration.afterSessionID then found path exists' readAt
        else .failing path false)
    else if event.auto ∨ (stored ∧ ¬currentGeneration) then
      some ({ s with eventGeneration := Function.update s.eventGeneration path (some event) }, .reloading path none)
    else
      some ({ s with eventGeneration := Function.update s.eventGeneration path none },
        .retrying path event true .listening)
  | .retrying path event reload .listening =>
    if ¬s.free path then none
    else some (s, if s.hasListeners path then .retrying path event reload .comparing else .idle)
  | .retrying path event reload .comparing =>
    some (s,
      if ¬a.hasSession ∨ (a.sessionID = event.sessionID ∧ s.cache.generation = event.generation) then .idle
      else .retrying path event reload (.ensuring (.asking 0)))
  | .retrying path event reload (.ensuring stage) =>
    match stage.result with
    | some (some _) => some (s, .idle)
    | some none => if ¬s.free path then none else some (retried path event reload s)
    | none =>
      (stage.step path none a s).map fun (s, stage) => (s, .retrying path event reload (.ensuring stage))
  | .rearming path event =>
    if ¬s.free path then none
    else
      match s.eventGeneration path with
      | some _ => some (s, .reloading path none)
      | none =>
        some ({ s with eventGeneration := Function.update s.eventGeneration path (some event) }, .reloading path none)
  | .reloading path none => some (s, .reloading path (some s.cache.resets))
  | .reloading path (some readAt) =>
    some (s, if a.err = none ∧ a.sessionStable then found path a.exists' readAt else .failing path false)
  | .fetching path none => some (s, .fetching path (some s.cache.resets))
  | .fetching path (some readAt) =>
    some (s,
      if a.err = none ∧ a.sessionStable then .changing path ⟨a.content, true, 0, readAt⟩ else .failing path false)
  | .changing path entry => if ¬s.free path then none else some (store path entry a.now s, .idle)
  | .failing path _ => if ¬s.free path then none else some (failed path s)

variable {a : Answer} {s t : State} {l l' : Loop}

theorem releases_retried (path : Path) (ev : WatchEventState) (reload : Bool) (s : State) :
    s.Releases path (retried path ev reload s).1 := by
  unfold retried
  split_ifs with hlisteners
  · exact .refl path s
  · exact .refl path s
  · exact .release s (by simpa [State.hasListeners] using hlisteners)

end Loop

/-! ## The system -/

structure System where
  pool : Pool State Call
  loop : Loop

/-- What happens next: a call, a step of a call that is in flight, an event of ZooKeeper or a step of the event
loop.  `RemoveListener` and `reset` are one section each. -/
inductive Action where
  | load (path : Path)
  | addListener (key : Path) (listener : ℕ)
  | restoreBusinessWatches
  | removeListener (key : Path) (listener : ℕ)
  | reset (sessionID : ℤ) (paths : List Path)
  | advance (i : ℕ) (a : Answer)
  | event (type : EventType) (path : Path)
  | turn (a : Answer)

namespace System

variable (s : System)

abbrev cache : ConfigCache := s.pool.shared.cache

def new (lru : Lru Path ConfigCacheEntry) (ttl : ℤ) : System :=
  ⟨⟨⟨.new lru ttl, fun _ => ∅, fun _ => none, fun _ => false⟩, []⟩, .idle⟩

def call (c : Call) : System := { s with pool := s.pool.spawn s.pool.shared c }

def setState (state : State) : System := { s with pool := ⟨state, s.pool.threads⟩ }

def removeListener (key : Path) (listener : ℕ) (state : State) : State :=
  let (last, state) := state.removeListener key listener
  if last then state.releaseBusinessWatch key else state

theorem releases_removeListener (key : Path) (listener : ℕ) (state : State) :
    state.Releases key (removeListener key listener state) := by
  unfold removeListener
  dsimp only
  split_ifs with hlast
  · exact .removeListener_last state hlast
  · exact .removeListener state key listener

def step : Action → Option System
  | .load path => some (s.call (.load path s.cache.resets .start))
  | .addListener key listener => some (s.call (.addListener key listener none))
  | .restoreBusinessWatches => some (s.call (.restoreBusinessWatches [] none))
  | .removeListener key listener =>
    if ¬s.pool.shared.free key then none else some (s.setState (removeListener key listener s.pool.shared))
  | .reset sessionID paths =>
    if ¬s.cache.IsOrder paths then none
    else some (s.setState { s.pool.shared with cache := s.cache.reset sessionID paths })
  | .advance i a => (s.pool.advance (Call.step a) i).map fun pool => { s with pool := pool }
  | .event type path =>
    match s.loop with
    | .idle =>
      if type = .notWatching ∨ type = .nodeChildrenChanged then some s
      else if ¬s.pool.shared.free path then none
      else
        let (state, loop) := Loop.watchStateChanged path s.pool.shared
        some { s.setState state with loop := loop }
    | _ => none
  | .turn a => (s.loop.step a s.pool.shared).map fun (state, loop) => { s.setState state with loop := loop }

/-- The states of a run that begins with an empty cache, in which each step meets a condition. -/
abbrev ReachedWhile (lru : Lru Path ConfigCacheEntry) (ttl : ℤ) (condition : System → Action → Prop) : System → Prop :=
  ReachedBy step (· = new lru ttl) condition

end System

end DubboGo.ConfigCenter
