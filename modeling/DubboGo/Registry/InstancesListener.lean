import DubboGo.Go.Runtime
import DubboGo.Lib.Pool
import DubboGo.Registry.ServiceDiscovery

/-!
# The listener of instance changes

`ServiceInstancesChangedListenerImpl` of `registry/servicediscovery/service_instances_changed_listener_impl.go` with
the goroutines that call it and the callbacks of its retry timer.  A step is one section under `mutex`, the taking of
`buildMu` together with the section that follows it, or one delivery to a notify listener.
-/

namespace DubboGo.Registry.InstancesListener

open Go Common Lib ServiceDiscovery

/-! ## A refresh -/

/-- How a refresh goes: the order of the applications, what a fetch through an instance would return, and the orders
of the services of an instance, the groups of a service and the notify listeners. -/
structure Round where
  apps : List Str
  fetch : ℕ → FetchResult
  range : ℕ → List ServiceInfo → List ServiceInfo
  perm : ∀ n services, (range n services).Perm services
  groups : Str → List Str
  listeners : List (Str × ℕ)

namespace Round

theorem perm_id (_n : ℕ) (services : List ServiceInfo) : (id services).Perm services := .refl services

def visits (r : Round) (allInstances : FiniteMap Str (List ServiceInstance)) : List Visit :=
  (r.apps.flatMap fun app => (allInstances.lookup app).getD []).mapIdx fun n inst =>
    ⟨inst, r.fetch n, r.range n, r.perm n⟩

def newServiceURLs (r : Round) (b : Build) (serviceKey : Str) : List ServiceURL :=
  (r.groups serviceKey).flatMap fun key =>
    match b.exported serviceKey key with
    | none => []
    | some serviceInfo =>
      ((b.revisionToInstances.lookup key).getD []).flatMap (toInstanceServiceURLs · serviceInfo)

def Valid (r : Round) (allInstances : FiniteMap Str (List ServiceInstance)) (b : Build)
    (listeners : FiniteMap Str ℕ) : Prop :=
  (r.apps : Multiset Str) = allInstances.keys.val ∧
    (∀ s ∈ b.serviceToRevisionServices.keys,
      (r.groups s : Multiset Str) = ((b.serviceToRevisionServices.lookup s).getD ∅).keys.val) ∧
    (r.listeners : Multiset (Str × ℕ)) = listeners.entries.map fun e => (e.1, e.2)

instance Valid.decidable (r : Round) (allInstances : FiniteMap Str (List ServiceInstance)) (b : Build)
    (listeners : FiniteMap Str ℕ) : Decidable (r.Valid allInstances b listeners) :=
  inferInstanceAs (Decidable (_ ∧ _ ∧ _))

end Round

/-! ## The listener and its goroutines -/

inductive Delivery where
  /-- `Notify` with an event that adds a URL. -/
  | add (url : ServiceURL)
  /-- `NotifyAll`. -/
  | all (urls : List ServiceURL)

/-- `ServiceInstancesChangedListenerImpl`.  Notify listeners are numbers; what each of them has received
is history. -/
structure State where
  registryId : Str
  listeners : FiniteMap Str ℕ
  serviceUrls : Str → List ServiceURL
  revisionToMetadata : FiniteMap Str MetadataInfo
  allInstances : FiniteMap Str (List ServiceInstance)
  /-- `buildMu` is held. -/
  buildMu : Bool
  unresolvedRevisions : Finset Str
  retryTimer : Option ℕ
  retryAttempts : ℕ
  closed : Bool
  timers : Timers Unit
  received : ℕ → List Delivery

inductive Stage where
  | returned
  /-- The section of `AddListenerAndNotify`. -/
  | attaching (serviceKey : Str) (notify : ℕ)
  /-- `scheduleMetadataRetry`, for `AddListenerAndNotify` has found unresolved revisions. -/
  | arming (notify : ℕ) (urls : List ServiceURL)
  /-- Its calls of `Notify`. -/
  | adding (notify : ℕ) (urls : List ServiceURL)
  | removing (serviceKey : Str)
  /-- The section of `OnEvent`. -/
  | changing (serviceName : Str) (instances : List ServiceInstance)
  /-- `refreshServiceURLs` waits for `buildMu`. -/
  | refreshing
  /-- It builds the URLs from what it has copied. -/
  | building (allInstances : FiniteMap Str (List ServiceInstance)) (cachedMetadata : FiniteMap Str MetadataInfo)
  /-- Its calls of `NotifyAll`. -/
  | notifying (newServiceURLs : Str → List ServiceURL) (listeners : List (Str × ℕ))
  /-- `scheduleMetadataRetry`, at its end. -/
  | finishing
  /-- The section of the callback of a timer. -/
  | firing (t : ℕ)
  | stopping

def Stage.isReturned : Stage → Bool
  | .returned => true
  | _ => false

inductive Request where
  | addListenerAndNotify (serviceKey : Str) (notify : ℕ)
  | removeListener (serviceKey : Str)
  | onEvent (serviceName : Str) (instances : List ServiceInstance)
  | stopMetadataRetry

def Request.start : Request → Stage
  | .addListenerAndNotify serviceKey notify => .attaching serviceKey notify
  | .removeListener serviceKey => .removing serviceKey
  | .onEvent serviceName instances => .changing serviceName instances
  | .stopMetadataRetry => .stopping

namespace State

/-- `NewServiceInstancesChangedListener`. -/
def new (registryId : Str) : State where
  registryId := registryId
  listeners := ∅
  serviceUrls := fun _ => []
  revisionToMetadata := ∅
  allInstances := ∅
  buildMu := false
  unresolvedRevisions := ∅
  retryTimer := none
  retryAttempts := 0
  closed := false
  timers := .empty
  received := fun _ => []

def deliver (notify : ℕ) (delivery : Delivery) (s : State) : State :=
  { s with received := Function.update s.received notify (s.received notify ++ [delivery]) }

/-- `retryTimer.Stop()` and `retryTimer = nil`, if there is one. -/
def stopRetryTimer (s : State) : State :=
  match s.retryTimer with
  | none => s
  | some t => { s with timers := s.timers.stop t, retryTimer := none }

def scheduleMetadataRetry (s : State) : State :=
  if s.unresolvedRevisions = ∅ ∨ s.closed = true ∨ s.listeners = ∅ then
    { s.stopRetryTimer with retryAttempts := 0 }
  else if s.retryTimer.isSome then s
  else
    { s with
      retryAttempts := s.retryAttempts + 1
      retryTimer := some s.timers.next
      timers := s.timers.afterFunc () }

def removeListener (serviceKey : Str) (s : State) : State :=
  let s := { s with listeners := s.listeners.erase serviceKey }
  if s.listeners = ∅ then s.stopRetryTimer else s

def stopMetadataRetry (s : State) : State := { s with closed := true }.stopRetryTimer

/-- The section of `refreshServiceURLs` in which it writes what it has built. -/
def commit (b : Build) (round : Round) (s : State) : State :=
  { s with
    revisionToMetadata := b.newRevisionToMetadata
    serviceUrls := round.newServiceURLs b
    unresolvedRevisions := b.unresolved }

def build (allInstances : FiniteMap Str (List ServiceInstance)) (cachedMetadata : FiniteMap Str MetadataInfo)
    (round : Round) (s : State) : Build :=
  (round.visits allInstances).foldl (visit s.registryId cachedMetadata) .empty

/-- The next step of a goroutine; `round` is how a refresh goes. -/
def advance (round : Round) (s : State) : Stage → Option (State × Stage)
  | .returned => none
  | .attaching serviceKey notify =>
    some ({ s with listeners := s.listeners.insert serviceKey notify },
      if s.unresolvedRevisions = ∅ then .adding notify (s.serviceUrls serviceKey)
      else .arming notify (s.serviceUrls serviceKey))
  | .arming notify urls => some (s.scheduleMetadataRetry, .adding notify urls)
  | .adding _ [] => some (s, .returned)
  | .adding notify (url :: urls) => some (s.deliver notify (.add url), .adding notify urls)
  | .removing serviceKey => some (s.removeListener serviceKey, .returned)
  | .changing serviceName instances =>
    some ({ s with allInstances := s.allInstances.insert serviceName instances }, .refreshing)
  | .refreshing =>
    if s.buildMu then none
    else some ({ s with buildMu := true }, .building s.allInstances s.revisionToMetadata)
  | .building allInstances cachedMetadata =>
    let b := s.build allInstances cachedMetadata round
    if round.Valid allInstances b s.listeners then
      some (s.commit b round, .notifying (round.newServiceURLs b) round.listeners)
    else none
  | .notifying _ [] => some (s, .finishing)
  | .notifying newServiceURLs ((key, notifyListener) :: listeners) =>
    some (s.deliver notifyListener (.all (newServiceURLs key)), .notifying newServiceURLs listeners)
  | .finishing => some ({ s.scheduleMetadataRetry with buildMu := false }, .returned)
  | .firing _ =>
    some ({ s with retryTimer := none },
      if s.closed = false ∧ s.listeners ≠ ∅ ∧ s.unresolvedRevisions ≠ ∅ then .refreshing else .returned)
  | .stopping => some (s.stopMetadataRetry, .returned)

end State

/-- A step: a goroutine makes a call, a timer fires, or a goroutine takes its next step. -/
inductive Action where
  | call (request : Request)
  | fire (t : ℕ)
  | advance (i : ℕ) (round : Round)

abbrev System := Pool State Stage

namespace System

def idle (registryId : Str) : System where
  shared := .new registryId
  threads := []

def step (s : System) : Action → Option System
  | .call request => some (s.spawn s.shared request.start)
  | .fire t =>
    if t ∈ s.shared.timers.armed then
      some (s.spawn { s.shared with timers := s.shared.timers.stop t } (.firing t))
    else none
  | .advance i round => s.advance (State.advance round) i

def AllReturned (s : System) : Prop := ∀ stage ∈ s.threads, stage.isReturned = true

instance AllReturned.decidable (s : System) : Decidable (AllReturned s) :=
  inferInstanceAs (Decidable (∀ stage ∈ s.threads, stage.isReturned = true))

end System

/-! ## What notify listeners see -/

theorem Round.Valid.mem_listeners {round : Round} {allInstances : FiniteMap Str (List ServiceInstance)}
    {b : Build} {listeners : FiniteMap Str ℕ} (h : round.Valid allInstances b listeners) {k : Str} {m : ℕ} :
    (k, m) ∈ round.listeners ↔ listeners.lookup k = some m := by
  rw [← Multiset.mem_coe, h.2.2, Finmap.lookup_eq_some_iff]
  simp only [Multiset.mem_map, Sigma.exists, Prod.mk.injEq, exists_eq_right_right, exists_eq_right]

namespace State

def SameSubscribers (s t : State) : Prop :=
  t.listeners = s.listeners ∧ t.serviceUrls = s.serviceUrls ∧ t.received = s.received ∧ t.buildMu = s.buildMu

theorem sameSubscribers_stopRetryTimer (s : State) : SameSubscribers s s.stopRetryTimer := by
  unfold stopRetryTimer
  split <;> exact ⟨rfl, rfl, rfl, rfl⟩

theorem sameSubscribers_scheduleMetadataRetry (s : State) : SameSubscribers s s.scheduleMetadataRetry := by
  unfold scheduleMetadataRetry
  split_ifs
  · exact sameSubscribers_stopRetryTimer s
  · exact ⟨rfl, rfl, rfl, rfl⟩
  · exact ⟨rfl, rfl, rfl, rfl⟩

theorem sameSubscribers_removeListener (skey : Str) (s : State) :
    SameSubscribers { s with listeners := s.listeners.erase skey } (s.removeListener skey) := by
  unfold removeListener
  dsimp only
  split_ifs
  · exact sameSubscribers_stopRetryTimer _
  · exact ⟨rfl, rfl, rfl, rfl⟩

theorem received_deliver (s : State) (notify : ℕ) (dlv : Delivery) (n : ℕ) :
    (s.deliver notify dlv).received n =
      if n = notify then s.received n ++ [dlv] else s.received n := by
  dsimp only [deliver]
  by_cases hn : n = notify
  · rw [if_pos hn, hn, Function.update_self]
  · rw [if_neg hn, Function.update_of_ne hn]

end State

/-! ## What a refresh commits -/

section Commit

variable {round : Round} {allInstances : FiniteMap Str (List ServiceInstance)} {b : Build} {lsts : FiniteMap Str ℕ}

/-- The fetch through the second instance answers, and both have the same revision. -/
def answered : Round where
  apps := [str "greeter"]
  fetch n := if n = 1 then .ok (some ⟨[greeterInfo]⟩) else .error
  range _ := id
  perm := Round.perm_id
  groups _ := [str "greeter:default:1"]
  listeners := [(str "demo.Greeter:tri", 4)]

end Commit

end DubboGo.Registry.InstancesListener
