import DubboGo.Registry.InstancesListener

/-!
# Calls of a listener that nobody interrupts

What `AddListenerAndNotify`, `OnEvent` and a refresh do from their beginning to their end.
-/

namespace DubboGo.Registry.InstancesListener

open Go Common Lib ServiceDiscovery

namespace State

variable {s t : State} {round : Round} {serviceKey serviceName : Str} {notify n : ℕ}

/-! ## The calls -/

def addListenerAndNotify (serviceKey : Str) (notify : ℕ) (s : State) : State :=
  let attached := { s with listeners := s.listeners.insert serviceKey notify }
  (s.serviceUrls serviceKey).foldl (fun s url => s.deliver notify (.add url))
    (if s.unresolvedRevisions = ∅ then attached else attached.scheduleMetadataRetry)

/-- The calls of `NotifyAll`. -/
def notifyAll (newServiceURLs : Str → List ServiceURL) (listeners : List (Str × ℕ)) (s : State) : State :=
  listeners.foldl (fun s l => s.deliver l.2 (.all (newServiceURLs l.1))) s

/-- `refreshServiceURLs`, if `round` is a way in which it can go. -/
def refreshServiceURLs (round : Round) (s : State) : Option State :=
  let b := s.build s.allInstances s.revisionToMetadata round
  if round.Valid s.allInstances b s.listeners then
    some ((s.commit b round).notifyAll (round.newServiceURLs b) round.listeners).scheduleMetadataRetry
  else none

def onEvent (serviceName : Str) (instances : List ServiceInstance) (round : Round) (s : State) : Option State :=
  refreshServiceURLs round { s with allInstances := s.allInstances.insert serviceName instances }

/-! ## They are runs of a goroutine -/

def Runs (round : Round) : State × Stage → State × Stage → Prop :=
  Relation.ReflTransGen fun x y => x.1.advance round x.2 = some y

/-- `buildMu` is taken or given back. -/
def hold (held : Bool) (s : State) : State := { s with buildMu := held }

theorem hold_notifyAll (held : Bool) (urls : Str → List ServiceURL) (listeners : List (Str × ℕ)) (s : State) :
    (s.notifyAll urls listeners).hold held = (s.hold held).notifyAll urls listeners := by
  induction listeners generalizing s with
  | nil => rfl
  | cons l listeners ih => exact ih (s.deliver l.2 (.all (urls l.1)))

theorem hold_stopRetryTimer (held : Bool) (s : State) :
    s.stopRetryTimer.hold held = (s.hold held).stopRetryTimer := by
  unfold stopRetryTimer
  rw [show (s.hold held).retryTimer = s.retryTimer from rfl]
  cases s.retryTimer <;> rfl

theorem hold_scheduleMetadataRetry (held : Bool) (s : State) :
    s.scheduleMetadataRetry.hold held = (s.hold held).scheduleMetadataRetry := by
  have hstop := hold_stopRetryTimer held s
  show State.hold held (if s.unresolvedRevisions = ∅ ∨ s.closed = true ∨ s.listeners = ∅ then _
      else if s.retryTimer.isSome then _ else _) =
    if s.unresolvedRevisions = ∅ ∨ s.closed = true ∨ s.listeners = ∅ then _
      else if s.retryTimer.isSome then _ else _
  split_ifs
  · rw [← hstop]
    rfl
  · rfl
  · rfl

theorem runs_adding (urls : List ServiceURL) (s : State) :
    Runs round (s, .adding notify urls) (urls.foldl (fun s url => s.deliver notify (.add url)) s, .returned) := by
  induction urls generalizing s with
  | nil => exact .single rfl
  | cons url urls ih => exact .head rfl (ih (s.deliver notify (.add url)))

theorem runs_addListenerAndNotify (serviceKey : Str) (notify : ℕ) (s : State) :
    Runs round (s, .attaching serviceKey notify) (s.addListenerAndNotify serviceKey notify, .returned) := by
  unfold addListenerAndNotify
  dsimp only
  by_cases hunresolved : s.unresolvedRevisions = ∅
  · rw [if_pos hunresolved]
    refine .head ?_ (runs_adding _ _)
    exact congrArg some (congrArg (Prod.mk _) (if_pos hunresolved))
  · rw [if_neg hunresolved]
    have harming : Runs round ({ s with listeners := s.listeners.insert serviceKey notify },
        .arming notify (s.serviceUrls serviceKey)) _ := .head rfl (runs_adding _ _)
    refine .head ?_ harming
    exact congrArg some (congrArg (Prod.mk _) (if_neg hunresolved))

theorem runs_notifying (urls : Str → List ServiceURL) (lsts : List (Str × ℕ)) (s : State) :
    Runs round (s, .notifying urls lsts) (s.notifyAll urls lsts, .finishing) := by
  induction lsts generalizing s with
  | nil => exact .single rfl
  | cons l lsts ih => exact .head rfl (ih (s.deliver l.2 (.all (urls l.1))))

theorem runs_refreshServiceURLs (hmu : s.buildMu = false) (h : s.refreshServiceURLs round = some t) :
    Runs round (s, .refreshing) (t, .returned) := by
  unfold refreshServiceURLs at h
  dsimp only at h
  split_ifs at h with hvalid
  cases h
  have hlock : s.advance round .refreshing = some (s.hold true, .building s.allInstances s.revisionToMetadata) := by
    rw [advance, hmu]
    rfl
  have hcommit : (s.hold true).advance round (.building s.allInstances s.revisionToMetadata) =
      some ((s.hold true).commit (s.build s.allInstances s.revisionToMetadata round) round,
        .notifying (round.newServiceURLs (s.build s.allInstances s.revisionToMetadata round))
          round.listeners) :=
    if_pos hvalid
  -- with `buildMu` given back, the state is what it would be had nobody taken it
  have hback : ∀ b, ((s.hold true).commit b round).hold false = s.commit b round := by
    intro b
    cases s
    cases hmu
    rfl
  refine .head hlock (.head hcommit ((runs_notifying _ _ _).tail ?_))
  refine congrArg some (congrArg (·, Stage.returned) ?_)
  refine (hold_scheduleMetadataRetry false _).trans ?_
  rw [hold_notifyAll, hback]

theorem runs_onEvent {insts : List ServiceInstance} (hmu : s.buildMu = false)
    (h : s.onEvent serviceName insts round = some t) : Runs round (s, .changing serviceName insts) (t, .returned) :=
  .head rfl (runs_refreshServiceURLs (s := { s with allInstances := _ }) hmu h)

/-! ## Who is attached -/

theorem listeners_addListenerAndNotify (serviceKey : Str) (notify : ℕ) (s : State) :
    (s.addListenerAndNotify serviceKey notify).listeners = s.listeners.insert serviceKey notify := by
  have hfold : ∀ (urls : List ServiceURL) (s : State),
      (urls.foldl (fun s url => s.deliver notify (.add url)) s).listeners = s.listeners := by
    intro urls
    induction urls with
    | nil => exact fun _ => rfl
    | cons url urls ih => exact fun s => ih (s.deliver notify (.add url))
  unfold addListenerAndNotify
  rw [hfold]
  split_ifs
  · rfl
  · exact (sameSubscribers_scheduleMetadataRetry _).1

theorem listeners_notifyAll (urls : Str → List ServiceURL) (lsts : List (Str × ℕ)) (s : State) :
    (s.notifyAll urls lsts).listeners = s.listeners := by
  induction lsts generalizing s with
  | nil => rfl
  | cons l lsts ih => exact ih (s.deliver l.2 (.all (urls l.1)))

theorem listeners_of_refresh (h : s.refreshServiceURLs round = some t) : t.listeners = s.listeners := by
  unfold refreshServiceURLs at h
  dsimp only at h
  split_ifs at h
  cases h
  exact (sameSubscribers_scheduleMetadataRetry _).1.trans (listeners_notifyAll ..)

theorem listeners_of_onEvent {insts : List ServiceInstance}
    (h : s.onEvent serviceName insts round = some t) : t.listeners = s.listeners :=
  (listeners_of_refresh h :)

/-! ## Who is notified -/

theorem received_notifyAll (urls : Str → List ServiceURL) (lsts : List (Str × ℕ)) (n : ℕ) (s : State) :
    (s.notifyAll urls lsts).received n = s.received n ++ (lsts.filter (n = ·.2)).map fun l => .all (urls l.1) := by
  induction lsts generalizing s with
  | nil => exact (List.append_nil _).symm
  | cons l lsts ih =>
    refine (ih (s.deliver l.2 (.all (urls l.1)))).trans ?_
    rw [received_deliver, List.filter_cons]
    by_cases hn : n = l.2
    · rw [if_pos hn, if_pos (decide_eq_true hn), List.append_assoc]
      rfl
    · rw [if_neg hn, if_neg (by simpa using hn)]

theorem serviceUrls_notifyAll (urls : Str → List ServiceURL) (lsts : List (Str × ℕ)) (s : State) :
    (s.notifyAll urls lsts).serviceUrls = s.serviceUrls := by
  induction lsts generalizing s with
  | nil => rfl
  | cons l lsts ih => exact ih (s.deliver l.2 (.all (urls l.1)))

theorem notified_of_refresh (h : s.refreshServiceURLs round = some t) (hn : s.listeners.lookup serviceKey = some n) :
    ∃ deliveries, t.received n = s.received n ++ deliveries ∧
      Delivery.all (t.serviceUrls serviceKey) ∈ deliveries := by
  unfold refreshServiceURLs at h
  dsimp only at h
  split_ifs at h with hvalid
  cases h
  obtain ⟨-, hurls, hreceived, -⟩ := sameSubscribers_scheduleMetadataRetry
    ((s.commit (s.build s.allInstances s.revisionToMetadata round) round).notifyAll
      (round.newServiceURLs (s.build s.allInstances s.revisionToMetadata round)) round.listeners)
  rw [hurls, hreceived, received_notifyAll, serviceUrls_notifyAll]
  refine ⟨_, rfl, List.mem_map.2 ⟨(serviceKey, n), ?_, rfl⟩⟩
  exact List.mem_filter.2 ⟨hvalid.mem_listeners.2 hn, decide_eq_true rfl⟩

end State

end DubboGo.Registry.InstancesListener
