import DubboGo.Registry.DirectorySteps
import DubboGo.Lib.Reachable

/-!
# Concurrent calls of a directory

`Notify`, `NotifyAll` and `RemoveClosingInstance` of `registry/directory/directory.go` as goroutines.  A step is one
operation on a `sync.Map` or one section under a lock.  `Notify` takes `registerLock` nowhere: between its look at the
tombstones and its `Store`, anything may happen. `RemoveClosingInstance` keeps that lock while it publishes; here
others may go on in between.
-/

namespace DubboGo.Registry.Directory

open Go Common Lib ConfigCenter

/-! ## Goroutines -/

inductive Stage where
  | returned
  /-- `cleanupExpiredClosingTombstones` reads the clock. -/
  | cleaning (e : UpdatedEvent)
  /-- It goes through the tombstones, with what the clock has shown. -/
  | sweeping (e : UpdatedEvent) (now : ℕ)
  /-- It deletes the tombstone at a key, where it has seen one that had expired. -/
  | expired (e : UpdatedEvent) (now : ℕ) (key : Str)
  /-- `activeClosingTombstone` loads the tombstone at the key of the event. -/
  | checking (e : UpdatedEvent)
  /-- It has loaded one. -/
  | found (e : UpdatedEvent) (tombstone : ClosingTombstone)
  /-- The tombstone at the key of the event is deleted. -/
  | clearing (e : UpdatedEvent)
  /-- The invoker at the key of the event is loaded. -/
  | loading (e : UpdatedEvent)
  /-- `Refer`, to replace the invoker that was loaded. -/
  | referring (e : UpdatedEvent) (existing : Option Invoker)
  | storing (e : UpdatedEvent) (existing : Option Invoker) (newInvoker : Invoker)
  /-- `uncacheInvoker` deletes the tombstone at the key of the event. -/
  | forgetting (event : ServiceEvent)
  /-- `uncacheInvokerWithClusterID` goes through the invokers. -/
  | scanning (event : ServiceEvent)
  /-- `uncacheInvokerWithKey` loads the invoker at the next key of the cluster or, after those, at the
  key of the event. -/
  | uncaching (cluster : List Str) (key : Str)
  /-- It deletes it. -/
  | deleting (cluster : List Str) (key : Str) (invoker : Invoker)
  /-- The section of `refreshAllInvokers` under `registerLock`. -/
  | replacing (es : List UpdatedEvent)
  /-- The section of `RemoveClosingInstance` under `registerLock`, up to `setNewInvokers`. -/
  | closing (key : Str)
  /-- `toGroupInvokers` goes through the invokers. -/
  | grouping (oldInvokers : Multiset Invoker)
  /-- The section of `setNewInvokers` under `invokersLock`, for a list that was made when
  `cacheInvokersMap` had been written `version` times. -/
  | publishing (newInvokers : Multiset Member) (version : ℕ) (oldInvokers : Multiset Invoker)
  | destroying (oldInvokers : Multiset Invoker)

def Stage.isReturned : Stage → Bool
  | .returned => true
  | _ => false

/-- A directory and the goroutines that have called it.  The number of writes to `cacheInvokersMap`, of those before
the list published last, and the keys that `RemoveClosingInstance` has closed, with the times their tombstones expire,
are history. -/
structure System where
  directory : Directory
  now : ℕ
  threads : List Stage
  version : ℕ
  publishedVersion : ℕ
  closed : List (Str × ℕ)

inductive Request where
  | notify (event : ServiceEvent)
  | notifyAll (events : List ServiceEvent)
  | removeClosingInstance (instanceKey : Str)

/-- A step: time passes, a goroutine makes a call, or one takes its next step.  `Range` goes through a
map in any order. -/
inductive Action where
  | tick (now : ℕ)
  | call (request : Request)
  /-- The sweep of goroutine `i` comes across a tombstone that has expired. -/
  | sweep (i : ℕ) (key : Str)
  /-- The scan of goroutine `i` finds the keys of a cluster. -/
  | scan (i : ℕ) (keys : List Str)
  | advance (i : ℕ)

namespace System

def start (d : Setup) (s : Directory) : Request → Stage × Directory
  | .notify event =>
    if event.action = .del then (.forgetting event, s)
    else
      match prepare d event s with
      | (none, s) => (.grouping 0, s)
      | (some e, s) => (.cleaning e, s)
  | .notifyAll events =>
    match gather d events s with
    | (none, s) => (.returned, s)
    | (some es, s) => (.replacing es, s)
  | .removeClosingInstance instanceKey => (if instanceKey = [] then .returned else .closing instanceKey, s)

/-- Goroutine `i` goes on to another stage. -/
def goto (i : ℕ) (stage : Stage) (s : System) : System :=
  { s with threads := s.threads.set i stage }

/-- The directory changes, but not `cacheInvokersMap`. -/
def alter (directory : Directory) (s : System) : System := { s with directory := directory }

/-- `cacheInvokersMap` is written. -/
def write (directory : Directory) (s : System) : System :=
  { s with directory := directory, version := s.version + 1 }

/-- The section under `invokersLock`. -/
def publish (newInvokers : Multiset Member) (version : ℕ) (s : System) : System :=
  { s with
    directory := { s.directory with cacheInvokers := newInvokers, chainInvokers := newInvokers }
    publishedVersion := version }

/-- `markClosingTombstone`. -/
def mark (d : Setup) (key : Str) (invoker : Option Invoker) (s : System) : System :=
  { s with
    directory := markClosingTombstone d s.now key invoker s.directory
    closed := (key, s.now + d.closingTombstoneTTL) :: s.closed }

def deleteTombstone (key : Str) (s : System) : System :=
  s.alter { s.directory with closingTombstones := s.directory.closingTombstones.erase key }

def deleteInvoker (key : Str) (s : System) : System :=
  s.write (uncacheInvokerWithKey key s.directory).2

def afterTombstone (now : ℕ) (e : UpdatedEvent) (tombstone : ClosingTombstone) : Stage :=
  if tombstone.expireAt < now then .clearing e
  else
    let newTimestamp := e.service.getParam timestampKey []
    if tombstone.timestamp = [] ∨ newTimestamp = [] ∨ newTimestamp = tombstone.timestamp then
      .grouping 0
    else .clearing e

/-- The next stage of a goroutine that has loaded the invoker to replace, if there is one. -/
def afterLoad (d : Setup) (e : UpdatedEvent) : Option Invoker → Stage
  | none => .referring e none
  | some existingInvoker =>
    if d.compareURLEqual e.service existingInvoker.url then .grouping 0
    else .referring e (some existingInvoker)

def clusterOf (event : ServiceEvent) (s : Directory) : FiniteMap Str Invoker :=
  FiniteMap.keep s.cacheInvokersMap (inCluster (event.service.getParam meshClusterIDKey []) s)

/-- The next step of goroutine `i`, which is at a stage. -/
def advance (d : Setup) (i : ℕ) (s : System) : Stage → Option System
  | .returned => none
  | .cleaning e => some (s.goto i (.sweeping e s.now))
  | .sweeping e _ => some (s.goto i (.checking e))
  | .expired e now key => some ((s.deleteTombstone key).goto i (.sweeping e now))
  | .checking e =>
    if e.key = [] then some (s.goto i (.loading e))
    else
      match s.directory.closingTombstones.lookup e.key with
      | none => some (s.goto i (.loading e))
      | some tombstone => some (s.goto i (.found e tombstone))
  | .found e tombstone => some (s.goto i (afterTombstone s.now e tombstone))
  | .clearing e => some ((s.deleteTombstone e.key).goto i (.loading e))
  | .loading e => some (s.goto i (afterLoad d e (s.directory.cacheInvokersMap.lookup e.key)))
  | .referring e existing =>
    match refer d e s.directory with
    | (some newInvoker, directory) => some ((s.alter directory).goto i (.storing e existing newInvoker))
    | (none, directory) => some ((s.alter directory).goto i (.grouping 0))
  | .storing e existing newInvoker =>
    some ((s.write (store e.key newInvoker s.directory)).goto i (.grouping existing.toList))
  | .forgetting event =>
    let s := s.alter (clearClosingTombstone event.key s.directory)
    if event.service.location = clusterAnyAddr ∧ event.service.getParam meshClusterIDKey [] ≠ [] then
      some (s.goto i (.scanning event))
    else some (s.goto i (.uncaching [] event.key))
  | .scanning _ => none
  | .uncaching [] key =>
    match s.directory.cacheInvokersMap.lookup key with
    | none => some (s.goto i (.grouping 0))
    | some invoker => some (s.goto i (.deleting [] key invoker))
  | .uncaching (k :: cluster) key =>
    match s.directory.cacheInvokersMap.lookup k with
    | none => some (s.goto i (.uncaching cluster key))
    | some invoker => some (s.goto i (.deleting (k :: cluster) key invoker))
  | .deleting [] key invoker => some ((s.deleteInvoker key).goto i (.grouping {invoker}))
  | .deleting (k :: cluster) key _ => some ((s.deleteInvoker k).goto i (.uncaching cluster key))
  | .replacing es =>
    let (evicted, directory) := evict (es.map (·.key)) s.directory
    let (replaced, directory) := cacheAll d (fun _ => s.now) es directory
    some ((s.write directory).goto i (.grouping (evicted + replaced)))
  | .closing key =>
    match s.directory.cacheInvokersMap.lookup key with
    | none => some ((s.mark d key none).goto i .returned)
    | some removed => some (((s.mark d key (some removed)).deleteInvoker key).goto i (.grouping {removed}))
  | .grouping oldInvokers =>
    some (s.goto i (.publishing (toGroupInvokers d s.directory.cacheInvokersMap) s.version oldInvokers))
  | .publishing newInvokers version oldInvokers =>
    some ((s.publish newInvokers version).goto i (.destroying oldInvokers))
  | .destroying oldInvokers => some ((s.alter (destroy oldInvokers s.directory)).goto i .returned)

def step (d : Setup) (s : System) : Action → Option System
  | .tick now => if s.now ≤ now then some { s with now := now } else none
  | .call request =>
    let (stage, directory) := start d s.directory request
    some { s with directory := directory, threads := s.threads ++ [stage] }
  | .sweep i key =>
    match s.threads[i]? with
    | some (.sweeping e now) =>
      if (s.directory.closingTombstones.lookup key).any fun tombstone => tombstone.expireAt < now then
        some (s.goto i (.expired e now key))
      else none
    | _ => none
  | .scan i keys =>
    match s.threads[i]? with
    | some (.scanning event) =>
      if (keys : Multiset Str) = (clusterOf event s.directory).keys.val then
        some (s.goto i (.uncaching keys event.key))
      else none
    | _ => none
  | .advance i => s.threads[i]?.bind (s.advance d i)

def idle (directory : Directory) : System where
  directory := directory
  now := 0
  threads := []
  version := 0
  publishedVersion := 0
  closed := []

def ReachedBy (d : Setup) (Init : System → Prop) (condition : System → Action → Prop) (s : System) : Prop :=
  Reachable Init (fun s t => ∃ action, condition s action ∧ s.step d action = some t) s

def AllReturned (s : System) : Prop := ∀ stage ∈ s.threads, stage.isReturned = true

instance AllReturned.decidable (s : System) : Decidable s.AllReturned :=
  inferInstanceAs (Decidable (∀ stage ∈ s.threads, stage.isReturned = true))

def runWhile (d : Setup) (condition : System → Action → Prop)
    [∀ s action, Decidable (condition s action)] : List Action → System → Option System
  | [], s => some s
  | action :: actions, s =>
    if condition s action then (s.step d action).bind (runWhile d condition actions) else none

/-- Goroutine `i` takes `n` steps. -/
def goOn (i n : ℕ) : List Action := List.replicate n (.advance i)

/-- Goroutine `i` makes a call and takes `n` steps. -/
def begin (request : Request) (i n : ℕ) : List Action := .call request :: goOn i n

variable {d : Setup} {s t : System}

theorem reachedBy_of_runWhile {Init : System → Prop} {cond : System → Action → Prop}
    [∀ s act, Decidable (cond s act)] {acts : List Action}
    (h : ReachedBy d Init cond s) (hrun : runWhile d cond acts s = some t) : ReachedBy d Init cond t := by
  induction acts generalizing s with
  | nil =>
    cases hrun
    exact h
  | cons act acts ih =>
    rw [runWhile] at hrun
    split_ifs at hrun with hcondition
    obtain ⟨u, hstep, hrun⟩ := Option.bind_eq_some_iff.1 hrun
    exact ih (h.step ⟨act, hcondition, hstep⟩) hrun

theorem forall_threads_goto {p : Stage → Prop} (h : ∀ stage ∈ s.threads, p stage) (i : ℕ)
    {stage : Stage} (hstage : p stage) : ∀ stage' ∈ (s.goto i stage).threads, p stage' := by
  intro stage' hmem
  rcases List.mem_or_eq_of_mem_set hmem with hmem | rfl
  · exact h stage' hmem
  · exact hstage

theorem start_remembers (d : Setup) (s : Directory) (req : Request) : Remembers s (start d s req).2 := by
  cases req with
  | notify ev =>
    have hremembers := prepare_remembers d ev s
    rw [start]
    split_ifs
    · exact .refl s
    · split <;> rename_i heq <;> rwa [heq] at hremembers
  | notifyAll evs =>
    have hremembers := gather_remembers d evs s
    rw [start]
    split <;> rename_i heq <;> rwa [heq] at hremembers
  | removeClosingInstance ikey => exact .refl s

theorem history_advance {i : ℕ} {st : Stage} (h : s.advance d i st = some t) : t.now = s.now ∧ (t.closed = s.closed ∨
      ∃ key, st = .closing key ∧ t.closed = (key, s.now + d.closingTombstoneTTL) :: s.closed) := by
  cases st with
  | returned | scanning => cases h
  | closing key =>
    rw [advance] at h
    split at h <;> cases h <;> exact ⟨rfl, .inr ⟨key, rfl, rfl⟩⟩
  | checking e =>
    rw [advance] at h
    split_ifs at h
    · cases h
      exact ⟨rfl, .inl rfl⟩
    · split at h <;> cases h <;> exact ⟨rfl, .inl rfl⟩
  | referring e old =>
    rw [advance] at h
    split at h <;> cases h <;> exact ⟨rfl, .inl rfl⟩
  | forgetting ev =>
    rw [advance] at h
    split_ifs at h <;> cases h <;> exact ⟨rfl, .inl rfl⟩
  | uncaching clu key =>
    cases clu <;> rw [advance] at h <;> split at h <;> cases h <;> exact ⟨rfl, .inl rfl⟩
  | deleting clu key ivk =>
    cases clu <;> cases h <;> exact ⟨rfl, .inl rfl⟩
  | _ =>
    cases h
    exact ⟨rfl, .inl rfl⟩

/-- What a step of the system is: time passes, a call begins, or a goroutine moves. -/
theorem step_cases {act : Action} (h : s.step d act = some t) :
    (∃ now, act = .tick now ∧ s.now ≤ now ∧ t = { s with now := now }) ∨
    (∃ req, act = .call req ∧ t = { s with
      directory := (start d s.directory req).2
      threads := s.threads ++ [(start d s.directory req).1] }) ∨
    (∃ i key e now tomb, act = .sweep i key ∧ s.threads[i]? = some (.sweeping e now) ∧
      s.directory.closingTombstones.lookup key = some tomb ∧ tomb.expireAt < now ∧
      t = s.goto i (.expired e now key)) ∨
    (∃ i keys ev, act = .scan i keys ∧ s.threads[i]? = some (.scanning ev) ∧
      (keys : Multiset Str) = (clusterOf ev s.directory).keys.val ∧
      t = s.goto i (.uncaching keys ev.key)) ∨
    (∃ i st, act = .advance i ∧ s.threads[i]? = some st ∧
      s.advance d i st = some t) := by
  cases act with
  | tick now =>
    rw [step] at h
    split_ifs at h with hnow
    cases h
    exact .inl ⟨now, rfl, hnow, rfl⟩
  | call req =>
    cases h
    exact .inr (.inl ⟨req, rfl, rfl⟩)
  | sweep i key =>
    rw [step] at h
    split at h
    case h_2 => cases h
    rename_i e now hthread
    split_ifs at h with hexpired
    cases h
    obtain ⟨tomb, hlookup, hlt⟩ := (Option.any_eq_true _ _).1 hexpired
    exact .inr (.inr (.inl ⟨i, key, e, now, tomb, rfl, hthread, hlookup, of_decide_eq_true hlt, rfl⟩))
  | scan i keys =>
    rw [step] at h
    split at h
    case h_2 => cases h
    rename_i ev hthread
    split_ifs at h with hkeys
    cases h
    exact .inr (.inr (.inr (.inl ⟨i, keys, ev, rfl, hthread, hkeys, rfl⟩)))
  | advance i =>
    obtain ⟨st, hthread, hadvance⟩ := Option.bind_eq_some_iff.1 h
    exact .inr (.inr (.inr (.inr ⟨i, st, rfl, hthread, hadvance⟩)))

end System

end DubboGo.Registry.Directory
