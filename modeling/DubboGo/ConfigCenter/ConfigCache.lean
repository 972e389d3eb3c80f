import DubboGo.Go.Text
import DubboGo.Lib.FiniteMap
import DubboGo.Lib.Lru

/-!
# The cache of configurations

`configCache` of `config_center/zookeeper/config_cache.go`: a bounded cache of what was read from ZooKeeper, and for
each path the watch that keeps its entry current.  Every function runs under `stateLock`.  The generation of the cache
and the tokens of the operations are 64-bit numbers that wrap around; the model also counts the resets, and an entry
has the number of resets before its read began.
-/

namespace DubboGo.ConfigCenter

open Go Lib

abbrev Path := Str

def pathLockShardCount : ℕ := 128
def maxCacheEntries : ℕ := 1024
def maxAutoWatches : ℕ := 1024
def maxCacheLoadRetries : ℕ := 3

inductive WatchError where
  /-- `errWatchRegistrationStale`. -/
  | stale
  /-- `errBusinessWatchCanceled`. -/
  | canceled
  | other (e : Str)
  deriving DecidableEq

/-- `watchOperation`, whose channel is closed when it is completed. -/
structure WatchOperation where
  token : UInt64
  err : Option WatchError
  completed : Bool
  deriving DecidableEq

/-- `configCacheEntry`, with the number of resets before its read began. -/
structure ConfigCacheEntry where
  content : Str
  exists' : Bool
  expiresAt : ℤ
  readAt : ℕ
  deriving DecidableEq

/-! ## Registrations -/

/-- `watchRegistration`; of the channel it counts whether it is nil, and whether an event is in it. -/
structure WatchRegistration where
  events : Option Bool
  beforeSessionID : ℤ
  afterSessionID : ℤ
  readBeforeSessionID : ℤ
  readAfterSessionID : ℤ
  deriving DecidableEq

def stableSessionPair (beforeSessionID afterSessionID : ℤ) : Bool :=
  (beforeSessionID = 0 ∧ afterSessionID = 0) ∨ (beforeSessionID ≠ 0 ∧ beforeSessionID = afterSessionID)

def sameSession : ℤ → List ℤ → Bool
  | _, [] => true
  | sessionID, id :: ids =>
    if id = 0 then sameSession sessionID ids
    else if sessionID = 0 then sameSession id ids
    else if sessionID ≠ id then false
    else sameSession sessionID ids

namespace WatchRegistration

variable (r : WatchRegistration)

def resultSessionID : ℤ := if r.readAfterSessionID ≠ 0 then r.readAfterSessionID else r.afterSessionID

def resolve : ℤ × Bool :=
  if r.events = none ∨ r.afterSessionID = 0 then (0, false)
  else if r.beforeSessionID ≠ r.afterSessionID ∧ r.events = some true then (0, false)
  else (r.resultSessionID, true)

def sessionStable : Bool :=
  stableSessionPair r.beforeSessionID r.afterSessionID &&
    stableSessionPair r.readBeforeSessionID r.readAfterSessionID &&
    sameSession 0 [r.beforeSessionID, r.afterSessionID, r.readBeforeSessionID, r.readAfterSessionID]

end WatchRegistration

/-! ## Watches -/

structure ConfigWatchState where
  registered : Bool
  pending : Bool
  auto : Bool
  retired : Bool
  sessionID : ℤ
  pendingOp : Option ℕ
  deriving DecidableEq

namespace ConfigWatchState

/-- `configWatchState{}`. -/
def zero : ConfigWatchState := ⟨false, false, false, false, 0, none⟩

variable (w : ConfigWatchState)

def tracked : Bool := w.registered || w.pending
def holdsAutoSlot : Bool := w.auto && w.tracked
def holdsAutoWatch : Bool := w.auto && w.registered
def holdsAutoReservation : Bool := w.auto && w.pending

def business : ConfigWatchState := { w with auto := false, retired := false }

def stored : ConfigWatchState := if w.pending then w else { w with pendingOp := none }

/-- A watch is registered or pending, and it is pending while it has an operation. -/
structure Sound : Prop where
  whole : ¬(w.registered = true ∧ w.pending = true)
  pending : w.pendingOp.isSome = w.pending

theorem sound_zero : zero.Sound := ⟨fun h => Bool.false_ne_true h.1, rfl⟩

/-- What is stored is sound if a pending state has its operation. -/
theorem sound_stored {w : ConfigWatchState} (hwhole : ¬(w.registered = true ∧ w.pending = true))
    (hpending : w.pending = true → w.pendingOp.isSome = true) : w.stored.Sound := by
  unfold stored
  split_ifs with h
  · exact ⟨hwhole, (hpending h).trans h.symm⟩
  · exact ⟨hwhole, by simpa using h⟩

theorem Sound.stored_of_eq {w w' : ConfigWatchState} (h : w.Sound) (hregistered : w'.registered = w.registered)
    (hpending : w'.pending = w.pending) (hop : w'.pendingOp = w.pendingOp) : w'.stored.Sound :=
  sound_stored (by rw [hregistered, hpending]; exact h.whole) (by rw [hpending, hop, h.pending]; exact id)

end ConfigWatchState

/-- `configCache`, over a library for its entries, with the number of resets and the operations made so far. -/
structure ConfigCache where
  lru : Lru Path ConfigCacheEntry
  ttl : ℤ
  entries : List (Path × ConfigCacheEntry)
  watches : FiniteMap Path ConfigWatchState
  autoWatchCount : ℤ
  autoWatchReservations : ℤ
  generation : UInt64
  resets : ℕ
  sessionID : ℤ
  nextWatchToken : UInt64
  made : ℕ
  operations : ℕ → WatchOperation

namespace ConfigCache

/-- `newConfigCache`. -/
def new (lru : Lru Path ConfigCacheEntry) (ttl : ℤ) : ConfigCache where
  lru := lru
  ttl := ttl
  entries := []
  watches := ∅
  autoWatchCount := 0
  autoWatchReservations := 0
  generation := 0
  resets := 0
  sessionID := 0
  nextWatchToken := 0
  made := 0
  operations := fun _ => ⟨0, none, false⟩

variable (c : ConfigCache)

def enabled : Bool := 0 < c.ttl

/-- `c.watches[path]`. -/
def watch (path : Path) : ConfigWatchState := (c.watches.lookup path).getD .zero

/-! ## Entries -/

def storeEntryLocked (path : Path) (entry : ConfigCacheEntry) (now : ℤ) : ConfigCache :=
  { c with entries := c.lru.add maxCacheEntries path { entry with expiresAt := now + c.ttl } c.entries }

def storeAtGenerationLocked (path : Path) (generation : UInt64) (entry : ConfigCacheEntry) (now : ℤ) : ConfigCache :=
  if ¬c.enabled then c
  else if c.generation = generation then c.storeEntryLocked path entry now
  else c

def storeLocked (path : Path) (entry : ConfigCacheEntry) (now : ℤ) : ConfigCache :=
  if ¬c.enabled then c else c.storeEntryLocked path entry now

/-- The first section of `getFresh`: the entry if it is fresh, or whether there is one that is not. -/
def peekFresh (path : Path) (now : ℤ) : Except Bool ConfigCacheEntry × ConfigCache :=
  let (value, entries) := c.lru.get path c.entries
  let c := { c with entries := entries }
  match value with
  | none => (.error false, c)
  | some entry => (if now < entry.expiresAt then .ok entry else .error true, c)

/-- The second section of `getFresh`, which removes an entry that is not fresh. -/
def getFresh (path : Path) (now : ℤ) : Option ConfigCacheEntry × ConfigCache :=
  let (value, entries) := c.lru.get path c.entries
  let c := { c with entries := entries }
  match value with
  | none => (none, c)
  | some entry =>
    if now < entry.expiresAt then (some entry, c) else (none, { c with entries := c.lru.remove path c.entries })

def loadResultCurrent (generation : UInt64) (registration : WatchRegistration) : Bool :=
  registration.sessionStable && c.generation = generation &&
    (c.sessionID = 0 ∨ (registration.resultSessionID ≠ 0 ∧ registration.resultSessionID = c.sessionID))

def storeLoadEntry (path : Path) (generation : UInt64) (entry : ConfigCacheEntry) (now : ℤ) : Bool × ConfigCache :=
  if c.generation ≠ generation then (false, c) else (true, c.storeEntryLocked path entry now)

/-! ## The state of a watch -/

/-- `newWatchOperationLocked`, with a new operation as its number. -/
def newWatchOperationLocked : ℕ × ConfigCache :=
  (c.made,
    { c with
      nextWatchToken := c.nextWatchToken + 1
      made := c.made + 1
      operations := Function.update c.operations c.made ⟨c.nextWatchToken + 1, none, false⟩ })

/-- `pendingOpToken`. -/
def pendingOpToken (watchState : ConfigWatchState) : UInt64 :=
  match watchState.pendingOp with
  | none => 0
  | some op => (c.operations op).token

def completeWatchOperationLocked (op : Option ℕ) (err : Option WatchError) : ConfigCache :=
  match op with
  | none => c
  | some op =>
    if (c.operations op).completed then c
    else { c with operations := Function.update c.operations op ⟨(c.operations op).token, err, true⟩ }

def setWatchStateLocked (path : Path) (watchState : ConfigWatchState) : Bool × ConfigCache :=
  let current := c.watch path
  let watchState := watchState.stored
  if watchState.auto ∧ ¬c.enabled then (false, c)
  else if watchState.holdsAutoSlot ∧ ¬current.holdsAutoSlot ∧
      maxAutoWatches ≤ c.autoWatchCount + c.autoWatchReservations then (false, c)
  else
    let c :=
      { c with
        autoWatchCount := if current.holdsAutoWatch then c.autoWatchCount - 1 else c.autoWatchCount
        autoWatchReservations :=
          if current.holdsAutoReservation then c.autoWatchReservations - 1 else c.autoWatchReservations }
    if ¬watchState.tracked then (true, { c with watches := c.watches.erase path })
    else
      (true,
        { c with
          watches := c.watches.insert path watchState
          autoWatchCount := if watchState.holdsAutoWatch then c.autoWatchCount + 1 else c.autoWatchCount
          autoWatchReservations :=
            if watchState.holdsAutoReservation then c.autoWatchReservations + 1 else c.autoWatchReservations })

def clearWatchStateLocked (path : Path) (err : Option WatchError) : ConfigCache :=
  let current := c.watch path
  let c := if current.pending then c.completeWatchOperationLocked current.pendingOp err else c
  (c.setWatchStateLocked path .zero).2

/-- `prepareLoad`: the generation, and the token of the operation if a watch is to be registered. -/
def prepareLoad (path : Path) : (UInt64 × Option UInt64) × ConfigCache :=
  let generation := c.generation
  if (c.watch path).tracked then ((generation, none), c)
  else
    let (op, c) := c.newWatchOperationLocked
    let (set, c) := c.setWatchStateLocked path ⟨false, true, true, false, c.sessionID, some op⟩
    if ¬set then ((generation, none), c) else ((generation, some (c.operations op).token), c)

def finishWatchRegistrationLocked (path : Path) (generation token : UInt64) (registration : WatchRegistration) :
    Bool × ConfigCache :=
  let (sessionID, active) := registration.resolve
  let watchState := c.watch path
  if ¬watchState.pending then (false, c)
  else if c.pendingOpToken watchState ≠ token then (false, c)
  else
    let generationCurrent : Bool := c.generation = generation
    let sessionCurrent : Bool := c.sessionID = 0 ∨ (sessionID ≠ 0 ∧ sessionID = c.sessionID)
    if ¬active ∨ ¬generationCurrent ∨ ¬registration.sessionStable ∨ ¬sessionCurrent then
      (false, c.clearWatchStateLocked path (some .stale))
    else
      let op := watchState.pendingOp
      let (stored, c) := c.setWatchStateLocked path
        { watchState with registered := true, pending := false, sessionID := sessionID, pendingOp := none }
      (stored, if stored then c.completeWatchOperationLocked op none else c)

/-! ## The watches of business listeners -/

/-- What the first section of `ensureBusinessWatchOnce` finds: a registered watch, an operation that is shared, or
none, so that one is begun in a generation. -/
inductive BusinessWatch where
  | registered
  | shared (op : Option ℕ)
  | begun (generation : UInt64) (op : ℕ)

/-- The first section of `ensureBusinessWatchOnce`. -/
def beginBusinessWatch (path : Path) : BusinessWatch × ConfigCache :=
  let watchState := c.watch path
  if watchState.registered then (.registered, (c.setWatchStateLocked path watchState.business).2)
  else if watchState.pending then
    (.shared watchState.pendingOp, (c.setWatchStateLocked path watchState.business).2)
  else
    let generation := c.generation
    let sessionID := c.sessionID
    let (op, c) := c.newWatchOperationLocked
    (.begun generation op, (c.setWatchStateLocked path ⟨false, true, false, false, sessionID, some op⟩).2)

/-- The section of `ensureBusinessWatchOnce` after an error of the registration. -/
def failBusinessWatch (path : Path) (op : ℕ) (err : WatchError) : ConfigCache :=
  if (c.watch path).pendingOp = some op then c.clearWatchStateLocked path (some err)
  else c.completeWatchOperationLocked (some op) (some err)

def releaseBusinessWatchLocked (path : Path) : ConfigCache :=
  match c.watches.lookup path with
  | none => c
  | some watchState =>
    if watchState.auto then c
    else
      let (set, c') := c.setWatchStateLocked path { watchState with auto := true, retired := false }
      if set then c' else (c'.setWatchStateLocked path { watchState with retired := true }).2

/-- `beginWatchRenewalLocked`: the generation, the state of the watch, and whether it is to be registered. -/
def beginWatchRenewalLocked (path : Path) (hasListeners : Bool) : (UInt64 × ConfigWatchState × Bool) × ConfigCache :=
  let generation := c.generation
  match c.watches.lookup path with
  | none =>
    if ¬hasListeners then ((generation, .zero, false), c)
    else
      let sessionID := c.sessionID
      let (op, c) := c.newWatchOperationLocked
      let c := (c.setWatchStateLocked path ⟨false, true, false, false, sessionID, some op⟩).2
      ((generation, c.watch path, true), c)
  | some watchState =>
    if watchState.pending then
      let c := if hasListeners then (c.setWatchStateLocked path watchState.business).2 else c
      ((generation, c.watch path, false), c)
    else if watchState.retired ∧ ¬hasListeners then
      ((generation, .zero, false), (c.setWatchStateLocked path .zero).2)
    else if ¬hasListeners ∧ ¬watchState.auto then
      ((generation, .zero, false), (c.setWatchStateLocked path .zero).2)
    else
      let watchState := if hasListeners then watchState.business else watchState
      let (op, c) := c.newWatchOperationLocked
      let c := (c.setWatchStateLocked path
        { watchState with registered := false, pending := true, pendingOp := some op }).2
      ((generation, c.watch path, true), c)

def cancelPendingLocked (path : Path) : ConfigCache :=
  if (c.watch path).pending then c.clearWatchStateLocked path (some .stale) else c

/-! ## Resetting -/

/-- An order in which `range` can go through the watches. -/
def IsOrder (paths : List Path) : Prop := paths.Nodup ∧ paths.toFinset = c.watches.keys

instance decidableIsOrder (paths : List Path) : Decidable (c.IsOrder paths) := inferInstanceAs (Decidable (_ ∧ _))

/-- One turn of the loop of `reset`. -/
def dropOldWatch (sessionID : ℤ) (c : ConfigCache) (path : Path) : ConfigCache :=
  let watchState := c.watch path
  if watchState.pending ∨ watchState.sessionID = sessionID then c else (c.setWatchStateLocked path .zero).2

/-- `reset`, which goes through the watches in an order. -/
def reset (sessionID : ℤ) (paths : List Path) : ConfigCache :=
  paths.foldl (dropOldWatch sessionID)
    { c with generation := c.generation + 1, resets := c.resets + 1, sessionID := sessionID, entries := [] }

/-! ## What sections do to watches -/

variable {c} {path : Path} {w : ConfigWatchState}

def putWatch (c : ConfigCache) (path : Path) (w : ConfigWatchState) : ConfigCache :=
  { c with
    watches := if w.tracked then c.watches.insert path w else c.watches.erase path
    autoWatchCount := c.autoWatchCount - (c.watch path).holdsAutoWatch.toNat + w.holdsAutoWatch.toNat
    autoWatchReservations :=
      c.autoWatchReservations - (c.watch path).holdsAutoReservation.toNat + w.holdsAutoReservation.toNat }

def Refuses (c : ConfigCache) (path : Path) (w : ConfigWatchState) : Prop :=
  (w.auto = true ∧ c.enabled = false) ∨ (w.holdsAutoSlot = true ∧ (c.watch path).holdsAutoSlot = false ∧
    maxAutoWatches ≤ c.autoWatchCount + c.autoWatchReservations)

theorem setWatchStateLocked_of_refuses (h : c.Refuses path w.stored) : c.setWatchStateLocked path w = (false, c) := by
  unfold setWatchStateLocked
  rcases h with ⟨hauto, hdisabled⟩ | ⟨hslot, hcurrent, hfull⟩
  · simp [hauto, hdisabled]
  · simp [hslot, hcurrent, hfull]

theorem setWatchStateLocked_of_not_refuses (h : ¬c.Refuses path w.stored) :
    c.setWatchStateLocked path w = (true, c.putWatch path w.stored) := by
  have hroom : ¬(w.stored.auto = true ∧ ¬c.enabled = true) := by
    rintro ⟨hauto, hdisabled⟩
    exact h (.inl ⟨hauto, by simpa using hdisabled⟩)
  have hslot : ¬(w.stored.holdsAutoSlot = true ∧ ¬(c.watch path).holdsAutoSlot = true ∧
      maxAutoWatches ≤ c.autoWatchCount + c.autoWatchReservations) := by
    rintro ⟨hslot, hcurrent, hfull⟩
    exact h (.inr ⟨hslot, by simpa using hcurrent, hfull⟩)
  have hsub : ∀ (b : Bool) (n : ℤ), (if b = true then n - 1 else n) = n - b.toNat := by
    intro b n
    cases b <;> simp
  have hadd : ∀ (b : Bool) (n : ℤ), (if b = true then n + 1 else n) = n + b.toNat := by
    intro b n
    cases b <;> simp
  unfold setWatchStateLocked putWatch
  simp only [if_neg hroom, if_neg hslot, hsub, hadd]
  cases htracked : w.stored.tracked with
  | false =>
    -- a watch that is not there is not counted
    have hnone : w.stored.holdsAutoWatch = false ∧ w.stored.holdsAutoReservation = false := by
      simp only [ConfigWatchState.tracked, Bool.or_eq_false_iff] at htracked
      simp [ConfigWatchState.holdsAutoWatch, ConfigWatchState.holdsAutoReservation, htracked]
    simp [hnone]
  | true => simp

theorem setWatchStateLocked_cases (c : ConfigCache) (path : Path) (w : ConfigWatchState) :
    (c.Refuses path w.stored ∧ c.setWatchStateLocked path w = (false, c)) ∨
      (¬c.Refuses path w.stored ∧ c.setWatchStateLocked path w = (true, c.putWatch path w.stored)) := by
  by_cases h : c.Refuses path w.stored
  · exact .inl ⟨h, setWatchStateLocked_of_refuses h⟩
  · exact .inr ⟨h, setWatchStateLocked_of_not_refuses h⟩

theorem watch_putWatch (c : ConfigCache) (path : Path) (w : ConfigWatchState) (path' : Path) :
    (c.putWatch path w).watch path' =
      if path' = path then (if w.tracked then w else .zero) else c.watch path' := by
  unfold watch putWatch
  cases w.tracked with
  | true =>
    simp only [if_true, FiniteMap.lookup_insert]
    split_ifs <;> rfl
  | false =>
    simp only [Bool.false_eq_true, if_false, FiniteMap.lookup_erase]
    split_ifs <;> rfl

/-- What sections on one path are made of.  What they store is sound if the watch was sound before. -/
inductive Edits (path : Path) (c : ConfigCache) : ConfigCache → Prop where
  | refl : Edits path c c
  | begin {c' : ConfigCache} : Edits path c c' → Edits path c c'.newWatchOperationLocked.2
  | complete {c' : ConfigCache} (op : Option ℕ) (err : Option WatchError) :
      Edits path c c' → Edits path c (c'.completeWatchOperationLocked op err)
  | set {c' : ConfigCache} (w : ConfigWatchState) (hw : (c.watch path).Sound → w.stored.Sound) :
      Edits path c c' → Edits path c (c'.setWatchStateLocked path w).2

structure Frame (path : Path) (c c' : ConfigCache) : Prop where
  lru : c'.lru = c.lru
  ttl : c'.ttl = c.ttl
  entries : c'.entries = c.entries
  generation : c'.generation = c.generation
  resets : c'.resets = c.resets
  sessionID : c'.sessionID = c.sessionID
  watch : ∀ path', path' ≠ path → c'.watch path' = c.watch path'

theorem completeWatchOperationLocked_cases (c : ConfigCache) (op : Option ℕ) (err : Option WatchError) :
    c.completeWatchOperationLocked op err = c ∨
      ∃ operations, c.completeWatchOperationLocked op err = { c with operations := operations } := by
  unfold completeWatchOperationLocked
  cases op with
  | none => exact .inl rfl
  | some op =>
    dsimp only
    split_ifs
    · exact .inl rfl
    · exact .inr ⟨_, rfl⟩

namespace Edits

/-- Sections on one path leave everything else as it is. -/
theorem frame {c' : ConfigCache} (h : Edits path c c') : Frame path c c' := by
  induction h with
  | refl => exact ⟨rfl, rfl, rfl, rfl, rfl, rfl, fun _ _ => rfl⟩
  | begin _ ih => exact ⟨ih.lru, ih.ttl, ih.entries, ih.generation, ih.resets, ih.sessionID, ih.watch⟩
  | @complete c' op err _ ih =>
    rcases c'.completeWatchOperationLocked_cases op err with heq | ⟨operations, heq⟩
    · rw [heq]
      exact ih
    · rw [heq]
      exact ⟨ih.lru, ih.ttl, ih.entries, ih.generation, ih.resets, ih.sessionID, ih.watch⟩
  | @set c' w _ _ ih =>
    rcases setWatchStateLocked_cases c' path w with ⟨-, heq⟩ | ⟨-, heq⟩
    · rw [heq]
      exact ih
    · rw [heq]
      refine ⟨ih.lru, ih.ttl, ih.entries, ih.generation, ih.resets, ih.sessionID, fun path' hne => ?_⟩
      rw [watch_putWatch, if_neg hne]
      exact ih.watch path' hne

theorem zero {c' : ConfigCache} (h : Edits path c c') : Edits path c (c'.setWatchStateLocked path .zero).2 :=
  h.set _ fun _ => ConfigWatchState.sound_zero

theorem clear {c' : ConfigCache} (h : Edits path c c') (err : Option WatchError) :
    Edits path c (c'.clearWatchStateLocked path err) := by
  unfold clearWatchStateLocked
  dsimp only
  split_ifs
  · exact (h.complete _ _).zero
  · exact h.zero

end Edits

theorem watch_of_lookup (h : c.watches.lookup path = some w) : c.watch path = w := by
  unfold watch
  rw [h]
  rfl

theorem edits_prepareLoad (c : ConfigCache) (path : Path) : Edits path c (c.prepareLoad path).2 := by
  have hset : Edits path c (c.newWatchOperationLocked.2.setWatchStateLocked path
      ⟨false, true, true, false, c.sessionID, some c.made⟩).2 :=
    Edits.refl.begin.set _ fun _ => ⟨fun h => Bool.false_ne_true h.1, rfl⟩
  unfold prepareLoad
  dsimp only
  split_ifs
  · exact .refl
  · exact hset
  · exact hset

theorem edits_finishWatchRegistrationLocked (c : ConfigCache) (path : Path) (gen token : UInt64)
    (reg : WatchRegistration) : Edits path c (c.finishWatchRegistrationLocked path gen token reg).2 := by
  have hset : ∀ sid, Edits path c (c.setWatchStateLocked path { c.watch path with
      registered := true, pending := false, sessionID := sid, pendingOp := none }).2 :=
    fun sid => Edits.refl.set _ fun _ => ⟨fun h => Bool.false_ne_true h.2, rfl⟩
  unfold finishWatchRegistrationLocked
  dsimp only
  split_ifs
  · exact .refl
  · exact Edits.refl.clear _
  · exact (hset _).complete _ _
  · exact hset _
  · exact .refl

theorem edits_beginBusinessWatch (c : ConfigCache) (path : Path) : Edits path c (c.beginBusinessWatch path).2 := by
  have htaken : Edits path c (c.setWatchStateLocked path (c.watch path).business).2 :=
    Edits.refl.set _ fun hsound => hsound.stored_of_eq rfl rfl rfl
  unfold beginBusinessWatch
  dsimp only
  split_ifs
  · exact htaken
  · exact htaken
  · exact Edits.refl.begin.set _ fun _ => ⟨fun h => Bool.false_ne_true h.1, rfl⟩

theorem edits_failBusinessWatch (c : ConfigCache) (path : Path) (op : ℕ) (err : WatchError) :
    Edits path c (c.failBusinessWatch path op err) := by
  unfold failBusinessWatch
  split_ifs
  · exact Edits.refl.clear _
  · exact Edits.refl.complete _ _

theorem edits_releaseBusinessWatchLocked (c : ConfigCache) (path : Path) :
    Edits path c (c.releaseBusinessWatchLocked path) := by
  unfold releaseBusinessWatchLocked
  cases hlookup : c.watches.lookup path with
  | none => exact .refl
  | some watchState =>
    rw [← watch_of_lookup hlookup]
    have hauto : Edits path c (c.setWatchStateLocked path { c.watch path with auto := true, retired := false }).2 :=
      Edits.refl.set _ fun hsound => hsound.stored_of_eq rfl rfl rfl
    dsimp only
    split_ifs
    · exact .refl
    · exact hauto
    · exact hauto.set _ fun hsound => hsound.stored_of_eq rfl rfl rfl

theorem edits_beginWatchRenewalLocked (c : ConfigCache) (path : Path) (hasListeners : Bool) :
    Edits path c (c.beginWatchRenewalLocked path hasListeners).2 := by
  have hrenewed : ∀ w : ConfigWatchState, Edits path c (c.newWatchOperationLocked.2.setWatchStateLocked path
      { w with registered := false, pending := true, pendingOp := some c.newWatchOperationLocked.1 }).2 :=
    fun w => Edits.refl.begin.set _ fun _ => ⟨fun h => Bool.false_ne_true h.1, rfl⟩
  unfold beginWatchRenewalLocked
  cases hlookup : c.watches.lookup path with
  | none =>
    split_ifs
    · exact hrenewed ⟨false, true, false, false, c.sessionID, none⟩
    · exact .refl
  | some watchState =>
    rw [← watch_of_lookup hlookup]
    dsimp only
    split_ifs
    · exact Edits.refl.set _ fun hsound => hsound.stored_of_eq rfl rfl rfl
    · exact .refl
    · exact Edits.refl.zero
    · exact Edits.refl.zero
    · exact hrenewed _
    · exact hrenewed _

theorem edits_cancelPendingLocked (c : ConfigCache) (path : Path) : Edits path c (c.cancelPendingLocked path) := by
  unfold cancelPendingLocked
  split_ifs
  · exact Edits.refl.clear _
  · exact .refl

theorem edits_dropOldWatch (sid : ℤ) (c : ConfigCache) (path : Path) : Edits path c (dropOldWatch sid c path) := by
  unfold dropOldWatch
  dsimp only
  split_ifs
  · exact .refl
  · exact Edits.refl.zero

end ConfigCache

end DubboGo.ConfigCenter
