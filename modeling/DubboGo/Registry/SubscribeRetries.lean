import DubboGo.Go.Runtime
import DubboGo.Go.Text
import DubboGo.Lib.Pool

/-!
# Retries of a failed subscription

`SubscribeURL`, `UnSubscribe`, `scheduleSubscribeRetry`, `resolveSubscribeRetry`, `retryAddListener` and
`Destroy` of `registry/servicediscovery/service_discovery_registry.go` as goroutines.  A step is one section
under `s.lock`, one under the mutex of a listener, or one outcome of `AddListener`.
-/

namespace DubboGo.Registry.SubscribeRetries

open Go Lib

/-- A `ServiceInstancesChangedListenerImpl`: the keys of its subscribers.  Whether `AddListener` has failed
for it and has not succeeded since is history. -/
structure Listener where
  subscribers : Finset Str
  failing : Bool

instance Listener.inhabited : Inhabited Listener := ⟨∅, false⟩

namespace Listener

def attach (protocolServiceKey : Str) (listener : Listener) : Listener :=
  { listener with subscribers := insert protocolServiceKey listener.subscribers }

def detach (protocolServiceKey : Str) (listener : Listener) : Listener :=
  { listener with subscribers := listener.subscribers.erase protocolServiceKey }

/-- `AddListener` has succeeded or failed. -/
def heard (ok : Bool) (listener : Listener) : Listener := { listener with failing := !ok }

end Listener

structure SubscribeRetry where
  listener : ℕ
  timer : Option ℕ
  attempts : ℕ
  inFlight : Bool
  canceled : Bool

instance SubscribeRetry.inhabited : Inhabited SubscribeRetry := ⟨0, none, 0, false, false⟩

namespace SubscribeRetry

def arm (timer : ℕ) (retry : SubscribeRetry) : SubscribeRetry :=
  { retry with attempts := retry.attempts + 1, timer := some timer }

def takeOff (retry : SubscribeRetry) : SubscribeRetry := { retry with timer := none, inFlight := true }

def land (retry : SubscribeRetry) : SubscribeRetry := { retry with inFlight := false }

def cancel (retry : SubscribeRetry) : SubscribeRetry := { retry with canceled := true }

end SubscribeRetry

/-! ## The registry and its goroutines -/

/-- The part of a `serviceDiscoveryRegistry` that has to do with subscriptions.  Listeners and the states of
retries are pointers; the callback of a timer is called with a `serviceNamesKey`. -/
structure State where
  destroyed : Bool
  serviceListeners : FiniteMap Str ℕ
  listeners : Heap Listener
  subscribeRetries : FiniteMap Str ℕ
  states : Heap SubscribeRetry
  timers : Timers Str

inductive Stage where
  | returned
  /-- `SubscribeURL` calls `isDestroyed`. -/
  | subscribing (key protocolServiceKey : Str)
  /-- It calls `getServiceListener`. -/
  | looking (key protocolServiceKey : Str)
  /-- It has a new listener with the latest instances. -/
  | installing (key protocolServiceKey : Str)
  /-- `subscribeAndNotify` calls `AddListenerAndNotify`. -/
  | attaching (key protocolServiceKey : Str) (listener : ℕ)
  /-- The goroutine that it starts calls `AddListener`. -/
  | adding (key : Str) (listener : ℕ)
  /-- `scheduleSubscribeRetry`, after it has failed. -/
  | scheduling (key : Str) (listener : ℕ)
  /-- `resolveSubscribeRetry`, after a call of `AddListener` has succeeded. -/
  | resolving (key : Str) (listener : ℕ)
  /-- `UnSubscribe` calls `getServiceListener`. -/
  | unsubscribing (key protocolServiceKey : Str)
  | removing (key protocolServiceKey : Str) (listener : ℕ)
  /-- It calls `listenerHasSubscribers`. -/
  | checking (key : Str) (listener : ℕ)
  /-- It has found no subscribers and calls `cancelSubscribeRetry`. -/
  | cancelling (key : Str)
  /-- The first section of `retryAddListener`. -/
  | firing (key : Str)
  /-- It drops a state that is not active. -/
  | dropping (key : Str) (state : ℕ)
  /-- It calls `AddListener`. -/
  | retrying (key : Str) (state : ℕ)
  /-- Its last section, after `AddListener` has failed. -/
  | rescheduling (key : Str) (state : ℕ)
  /-- The section of `Destroy`. -/
  | destroying

def Stage.isReturned : Stage → Bool
  | .returned => true
  | _ => false

/-- A call, with the `serviceNamesKey` and the `protocolSubscribeKey` of its URL. -/
inductive Request where
  | subscribeURL (key protocolServiceKey : Str)
  | unSubscribe (key protocolServiceKey : Str)
  | destroy

def Request.start : Request → Stage
  | .subscribeURL key protocolServiceKey => .subscribing key protocolServiceKey
  | .unSubscribe key protocolServiceKey => .unsubscribing key protocolServiceKey
  | .destroy => .destroying

namespace State

/-- `newServiceDiscoveryRegistry`. -/
def new : State where
  destroyed := false
  serviceListeners := ∅
  listeners := .empty
  subscribeRetries := ∅
  states := .empty
  timers := .empty

/-- `listenerHasSubscribers`. -/
def hasSubscribers (l : ℕ) (s : State) : Bool := decide ((s.listeners.cell l).subscribers ≠ ∅)

def listen (l : ℕ) (f : Listener → Listener) (s : State) : State :=
  { s with listeners := s.listeners.modify l f }

def update (p : ℕ) (f : SubscribeRetry → SubscribeRetry) (s : State) : State :=
  { s with states := s.states.modify p f }

def forget (key : Str) (s : State) : State := { s with subscribeRetries := s.subscribeRetries.erase key }

def install (key : Str) (s : State) : State :=
  { s with
    listeners := s.listeners.add default
    serviceListeners := s.serviceListeners.insert key s.listeners.next }

def armSubscribeRetryLocked (key : Str) (p : ℕ) (s : State) : State :=
  { s.update p (.arm s.timers.next) with timers := s.timers.afterFunc key }

def enter (key : Str) (l : ℕ) (s : State) : State :=
  { s with
    states := s.states.add { (default : SubscribeRetry) with listener := l }
    subscribeRetries := s.subscribeRetries.insert key s.states.next }

def scheduleSubscribeRetry (key : Str) (l : ℕ) (s : State) : State :=
  if s.destroyed then s
  else if !s.hasSubscribers l then s
  else if key ∈ s.subscribeRetries then s
  else (s.enter key l).armSubscribeRetryLocked key s.states.next

/-- `timer.Stop()`, if there is a timer. -/
def stopTimer (timer : Option ℕ) (s : State) : State :=
  match timer with
  | none => s
  | some t => { s with timers := s.timers.stop t }

def cancelSubscribeRetryLocked (key : Str) (s : State) : State :=
  match s.subscribeRetries.lookup key with
  | none => s
  | some p => ((s.update p .cancel).stopTimer (s.states.cell p).timer).forget key

def resolveSubscribeRetry (key : Str) (l : ℕ) (s : State) : State :=
  match s.subscribeRetries.lookup key with
  | none => s
  | some p => if (s.states.cell p).listener = l then s.cancelSubscribeRetryLocked key else s

/-- The first section of `retryAddListener`. -/
def retryAddListener (key : Str) (s : State) : State × Stage :=
  match s.subscribeRetries.lookup key with
  | none => (s, .returned)
  | some p =>
    let state := s.states.cell p
    (s.update p .takeOff,
      if s.destroyed = false ∧ state.canceled = false ∧
          s.serviceListeners.lookup key = some state.listener ∧ s.hasSubscribers state.listener then
        .retrying key p
      else .dropping key p)

def drop (key : Str) (p : ℕ) (s : State) : State :=
  if s.subscribeRetries.lookup key = some p then s.forget key else s

/-- The last section of `retryAddListener`, after `AddListener` has failed. -/
def reschedule (key : Str) (p : ℕ) (s : State) : State :=
  let state := s.states.cell p
  if state.canceled || s.destroyed || !s.hasSubscribers state.listener then s.drop key p
  else (s.update p .land).armSubscribeRetryLocked key p

def pendingStates (s : State) : Multiset ℕ := FiniteMap.values s.subscribeRetries

/-- The section of `Destroy`: `cancelSubscribeRetryLocked` for every key. -/
def destroy (s : State) : State :=
  { s with
    destroyed := true
    states := {
      next := s.states.next
      cell := fun p => if p ∈ s.pendingStates then (s.states.cell p).cancel else s.states.cell p }
    timers := s.timers.stopAll fun t =>
      decide (some t ∈ s.pendingStates.map fun p => (s.states.cell p).timer)
    subscribeRetries := ∅ }

/-- The next step of a goroutine, in which a call of `AddListener` succeeds or fails. -/
def advance (ok : Bool) (s : State) : Stage → Option (State × Stage)
  | .returned => none
  | .subscribing key protocolServiceKey =>
    some (s, if s.destroyed then .returned else .looking key protocolServiceKey)
  | .looking key protocolServiceKey =>
    some (s, match s.serviceListeners.lookup key with
      | none => .installing key protocolServiceKey
      | some l => .attaching key protocolServiceKey l)
  | .installing key protocolServiceKey =>
    if s.destroyed then some (s, .returned)
    else match s.serviceListeners.lookup key with
      | some l => some (s, .attaching key protocolServiceKey l)
      | none => some (s.install key, .attaching key protocolServiceKey s.listeners.next)
  | .attaching key protocolServiceKey l => some (s.listen l (.attach protocolServiceKey), .adding key l)
  | .adding key l => some (s.listen l (.heard ok), if ok then .resolving key l else .scheduling key l)
  | .scheduling key l => some (s.scheduleSubscribeRetry key l, .returned)
  | .resolving key l => some (s.resolveSubscribeRetry key l, .returned)
  | .unsubscribing key protocolServiceKey =>
    some (s, match s.serviceListeners.lookup key with
      | none => .returned
      | some l => .removing key protocolServiceKey l)
  | .removing key protocolServiceKey l => some (s.listen l (.detach protocolServiceKey), .checking key l)
  | .checking key l => some (s, if s.hasSubscribers l then .returned else .cancelling key)
  | .cancelling key => some (s.cancelSubscribeRetryLocked key, .returned)
  | .firing key => some (s.retryAddListener key)
  | .dropping key p => some (s.drop key p, .returned)
  | .retrying key p =>
    let l := (s.states.cell p).listener
    some (s.listen l (.heard ok), if ok then .resolving key l else .rescheduling key p)
  | .rescheduling key p => some (s.reschedule key p, .returned)
  | .destroying => some (s.destroy, .returned)

end State

/-- A step: a goroutine makes a call, a timer fires, or a goroutine takes its next step. -/
inductive Action where
  | call (request : Request)
  | fire (t : ℕ)
  | advance (i : ℕ) (ok : Bool)

abbrev System := Pool State Stage

namespace System

def idle : System where
  shared := .new
  threads := []

def step (s : System) : Action → Option System
  | .call request => some (s.spawn s.shared request.start)
  | .fire t =>
    (s.shared.timers.armed.lookup t).map fun key =>
      s.spawn { s.shared with timers := s.shared.timers.stop t } (.firing key)
  | .advance i ok => s.advance (State.advance ok) i

def AllReturned (s : System) : Prop := ∀ stage ∈ s.threads, stage.isReturned = true

instance AllReturned.decidable (s : System) : Decidable (AllReturned s) :=
  inferInstanceAs (Decidable (∀ stage ∈ s.threads, stage.isReturned = true))

end System

end DubboGo.Registry.SubscribeRetries
