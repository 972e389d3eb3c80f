import DubboGo.Go.Runtime
import DubboGo.Go.Text
import DubboGo.Lib.Pool
import DubboGo.Lib.RetriedWrites

/-!
# Publishing service definitions

`scheduleServiceDefinitionPublish`, `runDefinitionPublishWorker`, `scheduleDefinitionRetry` and
`retryPublishDefinition` of `registry/servicediscovery/service_discovery_registry.go` as goroutines.  A
step is one section under `s.lock`, the taking of `definitionPublishMu` or one write of the backend.
-/

namespace DubboGo.Registry.Definitions

open Go Lib RetriedWrites Multiset Option Function Finmap

/-- A `*common.URL`.  Of what it points to, only the service key is read here. -/
structure URLRef where
  addr : ℕ
  serviceKey : Str
  deriving DecidableEq

structure DefinitionRetry where
  url : URLRef
  timer : Option ℕ
  attempts : ℕ
  inFlight : Bool
  canceled : Bool

instance DefinitionRetry.inhabited : Inhabited DefinitionRetry :=
  ⟨⟨0, []⟩, none, 0, false, false⟩

namespace DefinitionRetry

def arm (timer : ℕ) (retry : DefinitionRetry) : DefinitionRetry :=
  { retry with attempts := retry.attempts + 1, timer := some timer }

def takeOff (retry : DefinitionRetry) : DefinitionRetry := { retry with timer := none, inFlight := true }

def land (retry : DefinitionRetry) : DefinitionRetry := { retry with inFlight := false }

def cancel (retry : DefinitionRetry) : DefinitionRetry := { retry with canceled := true, timer := none }

end DefinitionRetry

def definitionRetryMaxAttempts : ℕ := 10

/-! ## The registry and its goroutines -/

/-- The part of a `serviceDiscoveryRegistry` for service definitions.  A timer is called with a service key.  The last
snapshot, the URL written last for each key, and the keys whose retries were given up since the worker last published
them, are history. -/
structure State where
  destroyed : Bool
  definitionRetries : FiniteMap Str ℕ
  states : Heap DefinitionRetry
  timers : Timers Str
  definitionPublishRunning : Bool
  definitionPublishPending : List URLRef
  /-- `definitionPublishMu` is held. -/
  definitionPublishMu : Bool
  snapshot : List URLRef
  written : FiniteMap Str URLRef
  gaveUp : Finset Str

inductive Stage where
  | returned
  /-- The section of `runDefinitionPublishWorker`. -/
  | taking
  /-- `publishServiceDefinitionsNow` waits for `definitionPublishMu`. -/
  | waiting (urls : List URLRef)
  /-- `PublishServiceDefinitions` goes through the URLs. -/
  | publishing (todo failed : List URLRef)
  /-- `publishServiceDefinitions` calls `scheduleDefinitionRetry` for the URLs that failed. -/
  | scheduling (failed : List URLRef)
  /-- The first section of `retryPublishDefinition`. -/
  | firing (key : Str)
  /-- It drops a state that is not active. -/
  | dropping (key : Str) (state : ℕ)
  /-- It waits for `definitionPublishMu`. -/
  | retrying (key : Str) (state : ℕ)
  | republishing (key : Str) (state : ℕ)
  /-- Its last section, after the URL was or was not published. -/
  | finishing (key : Str) (state : ℕ) (ok : Bool)

def Stage.publishes : Stage → Option URLRef
  | .publishing (u :: _) _ => some u
  | _ => none

/-- A snapshot with one URL for each service key, in the order in which `dedupeByService` leaves them. -/
structure Snapshot where
  urls : List URLRef
  nodup : (urls.map URLRef.serviceKey).Nodup

namespace State

def new : State where
  destroyed := false
  definitionRetries := ∅
  states := .empty
  timers := .empty
  definitionPublishRunning := false
  definitionPublishPending := []
  definitionPublishMu := false
  snapshot := []
  written := ∅
  gaveUp := ∅

def retryURL (s : State) (key : Str) : Option URLRef :=
  (s.definitionRetries.lookup key).map fun p => (s.states.cell p).url

/-- The section of `scheduleServiceDefinitionPublish`; whether it starts the worker. -/
def scheduleServiceDefinitionPublish (urls : Snapshot) (s : State) : State × Bool :=
  if s.destroyed then (s, false)
  else
    ({ s with
        definitionPublishPending := urls.urls
        definitionPublishRunning := true
        snapshot := urls.urls },
      !s.definitionPublishRunning)

def update (p : ℕ) (f : DefinitionRetry → DefinitionRetry) (s : State) : State :=
  { s with states := s.states.modify p f }

def forget (key : Str) (s : State) : State :=
  { s with definitionRetries := s.definitionRetries.erase key }

def armDefinitionRetryLocked (key : Str) (p : ℕ) (s : State) : State :=
  if definitionRetryMaxAttempts ≤ (s.states.cell p).attempts then
    { s.forget key with gaveUp := insert key s.gaveUp }
  else
    { s.update p (.arm s.timers.next) with timers := s.timers.afterFunc key }

def enter (u : URLRef) (s : State) : State :=
  { s with
    states := s.states.add { (default : DefinitionRetry) with url := u }
    definitionRetries := s.definitionRetries.insert u.serviceKey s.states.next }

def scheduleDefinitionRetry (u : URLRef) (s : State) : State :=
  if s.destroyed then s
  else if u.serviceKey ∈ s.definitionRetries then s
  else (s.enter u).armDefinitionRetryLocked u.serviceKey s.states.next

def pendingStates (s : State) : Multiset ℕ := FiniteMap.values s.definitionRetries

def cancelDefinitionRetriesLocked (s : State) : State :=
  { s with
    states := {
      next := s.states.next
      cell := fun p =>
        if p ∈ s.pendingStates then (s.states.cell p).cancel else s.states.cell p }
    timers := s.timers.stopAll fun t =>
      decide (some t ∈ s.pendingStates.map fun p => (s.states.cell p).timer)
    definitionRetries := FiniteMap.keep s.definitionRetries fun key =>
      (s.definitionRetries.lookup key).any fun p => (s.states.cell p).inFlight }

/-- The part of `Destroy` that has to do with definitions. -/
def destroy (s : State) : State :=
  { (cancelDefinitionRetriesLocked { s with destroyed := true }) with definitionPublishPending := [] }

def publish (u : URLRef) (ok : Bool) (s : State) : State :=
  { s with
    written := if ok then s.written.insert u.serviceKey u else s.written
    gaveUp := s.gaveUp.erase u.serviceKey }

/-- The first section of `retryPublishDefinition`. -/
def retryPublishDefinition (key : Str) (s : State) : State × Stage :=
  match s.definitionRetries.lookup key with
  | none => (s, .returned)
  | some p =>
    (s.update p .takeOff, if !s.destroyed && !(s.states.cell p).canceled then .retrying key p else .dropping key p)

/-- The last section of `retryPublishDefinition`. -/
def finishRetry (key : Str) (p : ℕ) (ok : Bool) (s : State) : State :=
  let s := s.update p .land
  if s.definitionRetries.lookup key ≠ some p then s
  else if ok || s.destroyed || (s.states.cell p).canceled then s.forget key
  else s.armDefinitionRetryLocked key p

/-- The next step of a goroutine, in which a write of the backend succeeds or fails. -/
def advance (ok : Bool) (s : State) : Stage → Option (State × Stage)
  | .returned => none
  | .taking =>
    if s.destroyed || s.definitionPublishPending.isEmpty then
      some ({ s with definitionPublishPending := [], definitionPublishRunning := false }, .returned)
    else some ({ s with definitionPublishPending := [] }, .waiting s.definitionPublishPending)
  | .waiting urls =>
    if s.definitionPublishMu then none
    else if s.destroyed then some (s, .scheduling [])
    else some ({ s with definitionPublishMu := true }, .publishing urls [])
  | .publishing [] failed => some ({ s with definitionPublishMu := false }, .scheduling failed)
  | .publishing (u :: todo) failed =>
    some (s.publish u ok, .publishing todo (if ok then failed else failed ++ [u]))
  | .scheduling [] => some (s, .taking)
  | .scheduling (u :: failed) => some (s.scheduleDefinitionRetry u, .scheduling failed)
  | .firing key => some (s.retryPublishDefinition key)
  | .dropping key p =>
    some (if s.definitionRetries.lookup key = some p then s.forget key else s, .returned)
  | .retrying key p =>
    if s.definitionPublishMu then none
    else if s.destroyed then some (s, .finishing key p true)
    else some ({ s with definitionPublishMu := true }, .republishing key p)
  | .republishing key p =>
    let url := (s.states.cell p).url
    some ({ s with
      definitionPublishMu := false
      written := if ok then s.written.insert url.serviceKey url else s.written }, .finishing key p ok)
  | .finishing key p ok => some (s.finishRetry key p ok, .returned)

end State

/-- A step: a snapshot is scheduled, the registry is destroyed, a timer fires, or a goroutine takes its
next step. -/
inductive Action where
  | schedule (urls : Snapshot)
  | destroy
  | fire (t : ℕ)
  | advance (i : ℕ) (ok : Bool)

abbrev System := Pool State Stage

namespace System

def idle : System where
  shared := .new
  threads := []

def step (s : System) : Action → Option System
  | .schedule urls =>
    some (if (s.shared.scheduleServiceDefinitionPublish urls).2 then
        s.spawn (s.shared.scheduleServiceDefinitionPublish urls).1 .taking
      else { s with shared := (s.shared.scheduleServiceDefinitionPublish urls).1 })
  | .destroy => some { s with shared := s.shared.destroy }
  | .fire t =>
    (s.shared.timers.armed.lookup t).map fun key =>
      s.spawn { s.shared with timers := s.shared.timers.stop t } (.firing key)
  | .advance i ok => s.advance (State.advance ok) i

/-- When the worker publishes a URL, no retry for another URL of its key is pending or in flight. -/
def NoOlderRetry (s : System) : Action → Prop
  | .advance i _ => ∀ u ∈ s.threads[i]?.bind Stage.publishes, s.shared.retryURL u.serviceKey ∈ [none, some u]
  | _ => True

instance NoOlderRetry.decidable (s : System) (action : Action) : Decidable (NoOlderRetry s action) :=
  match action with
  | .advance _ _ => inferInstanceAs (Decidable (∀ u ∈ Option.bind _ _, _ ∈ [none, some u]))
  | .schedule _ => inferInstanceAs (Decidable True)
  | .destroy => inferInstanceAs (Decidable True)
  | .fire _ => inferInstanceAs (Decidable True)

end System

namespace State

variable {s : State} {key : Str} {p : ℕ} {u : URLRef} {f : DefinitionRetry → DefinitionRetry}

/-! ## What is written and what is retried -/

def board (s : State) : Board Str URLRef where
  retry := s.retryURL
  written := fun key => s.written.lookup key
  gaveUp := s.gaveUp

theorem board_publish (u : URLRef) (ok : Bool) (s : State) :
    (s.publish u ok).board = s.board.attempt URLRef.serviceKey u ok := by
  have hgaveUp : (s.publish u ok).board.gaveUp = (s.board.attempt URLRef.serviceKey u ok).gaveUp :=
    Finset.coe_erase ..
  cases ok with
  | false => exact Board.ext rfl rfl hgaveUp
  | true =>
    refine Board.ext rfl ?_ hgaveUp
    funext key
    show (s.written.insert u.serviceKey u).lookup key =
      Function.update (fun key => s.written.lookup key) u.serviceKey (some u) key
    by_cases hkey : key = u.serviceKey
    · rw [hkey, update_self, lookup_insert]
    · rw [update_of_ne hkey, lookup_insert_of_ne _ hkey]

theorem retryURL_update (hf : ∀ retry, (f retry).url = retry.url) (p : ℕ) (s : State) :
    (s.update p f).retryURL = s.retryURL := by
  funext key
  show (s.definitionRetries.lookup key).map _ = (s.definitionRetries.lookup key).map _
  congr 1
  funext q
  exact s.states.modify_congr DefinitionRetry.url hf q

theorem board_update (hf : ∀ retry, (f retry).url = retry.url) (p : ℕ) (s : State) : (s.update p f).board = s.board :=
  Board.ext (retryURL_update hf p s) rfl rfl

theorem retryURL_forget (key : Str) (s : State) : (s.forget key).retryURL = Function.update s.retryURL key none := by
  funext k
  by_cases hk : k = key
  · rw [hk, update_self, retryURL, forget, lookup_erase]
    rfl
  · rw [update_of_ne hk, retryURL, forget, lookup_erase_ne hk]
    rfl

theorem board_forget (key : Str) (s : State) : (s.forget key).board = s.board.drop key :=
  Board.ext (retryURL_forget key s) rfl rfl

theorem board_armDefinitionRetryLocked (key : Str) (p : ℕ) (s : State) :
    (s.armDefinitionRetryLocked key p).board =
      if definitionRetryMaxAttempts ≤ (s.states.cell p).attempts then s.board.giveUp key else s.board := by
  unfold armDefinitionRetryLocked
  split_ifs
  · exact Board.ext (retryURL_forget key s) rfl (Finset.coe_insert ..)
  · exact board_update (f := .arm s.timers.next) (fun _ => rfl) p s

/-! ## Retries and their timers -/

/-- Every retry has one timer that is armed, or one callback that has started, or one that is in flight.
Nothing has been canceled. -/
structure Entries (s : State) (fired : Multiset Str) (flights : Multiset (Str × ℕ)) : Prop where
  canceled : ∀ p, (s.states.cell p).canceled = false
  lt_next : ∀ key p, s.definitionRetries.lookup key = some p → p < s.states.next
  key_eq : ∀ key p, s.definitionRetries.lookup key = some p → (s.states.cell p).url.serviceKey = key
  tokens : FiniteMap.values s.timers.armed + fired + flights.map Prod.fst = s.definitionRetries.keys.val
  flight : ∀ f ∈ flights, s.definitionRetries.lookup f.1 = some f.2

namespace Entries

variable {fired : Multiset Str} {flights : Multiset (Str × ℕ)}

theorem congr {t : State} (h : Entries s fired flights) (hstates : t.states = s.states)
    (hretries : t.definitionRetries = s.definitionRetries) (htimers : t.timers = s.timers) :
    Entries t fired flights := by
  obtain ⟨hcanceled, hlt, hkey, htokens, hflight⟩ := h
  rw [← hstates, ← hretries, ← htimers] at *
  exact ⟨hcanceled, hlt, hkey, htokens, hflight⟩

theorem update (h : Entries s fired flights) {f : DefinitionRetry → DefinitionRetry}
    (hurl : ∀ retry, (f retry).url = retry.url) (hcanceled : ∀ retry, (f retry).canceled = retry.canceled)
    (p : ℕ) : Entries (s.update p f) fired flights := by
  refine ⟨?_, h.lt_next, ?_, h.tokens, h.flight⟩
  · intro q
    exact (s.states.modify_congr DefinitionRetry.canceled hcanceled q).trans (h.canceled q)
  · intro key q hq
    have heq := s.states.modify_congr (p := p) DefinitionRetry.url hurl q
    exact (congrArg URLRef.serviceKey heq).trans (h.key_eq key q hq)

theorem forget (h : Entries s fired ((key, p) ::ₘ flights)) : Entries (s.forget key) fired flights := by
  have htokens := h.tokens
  rw [map_cons, add_cons] at htokens
  have hnodup := s.definitionRetries.keys.nodup
  rw [← htokens, nodup_cons] at hnodup
  have hlookup : ∀ k q, (s.definitionRetries.erase key).lookup k = some q → s.definitionRetries.lookup k = some q := by
    intro k q hq
    rw [FiniteMap.lookup_erase] at hq
    split_ifs at hq
    exact hq
  refine ⟨h.canceled, fun k q hq => h.lt_next k q (hlookup k q hq), fun k q hq => h.key_eq k q (hlookup k q hq), ?_, ?_⟩
  · dsimp only [State.forget]
    rw [keys_erase, Finset.erase_val, ← htokens]
    exact (erase_cons_head _ _).symm
  · intro f hf
    have hmem : f.1 ∈ flights.map Prod.fst := mem_map_of_mem _ hf
    have hne : f.1 ≠ key := fun heq => hnodup.1 (mem_add.2 (.inr (heq ▸ hmem)))
    exact (lookup_erase_ne hne).trans (h.flight f (mem_cons_of_mem hf))

theorem arm (h : Entries s fired ((key, p) ::ₘ flights)) :
    Entries (s.armDefinitionRetryLocked key p) fired flights := by
  unfold armDefinitionRetryLocked
  split_ifs
  · have hforget := h.forget
    exact ⟨hforget.canceled, hforget.lt_next, hforget.key_eq, hforget.tokens, hforget.flight⟩
  · have hupdate := h.update (f := .arm s.timers.next) (fun _ => rfl) (fun _ => rfl) p
    refine ⟨hupdate.canceled, hupdate.lt_next, hupdate.key_eq, ?_, ?_⟩
    · have htokens := h.tokens
      rw [map_cons, add_cons] at htokens
      rw [Timers.values_afterFunc, cons_add, cons_add]
      exact htokens
    · exact fun f hf => hupdate.flight f (mem_cons_of_mem hf)

theorem fire {t : ℕ} (h : Entries s fired flights) (ht : s.timers.armed.lookup t = some key) :
    Entries { s with timers := s.timers.stop t } (key ::ₘ fired) flights := by
  refine ⟨h.canceled, h.lt_next, h.key_eq, ?_, h.flight⟩
  have htokens := h.tokens
  rw [Timers.values_stop ht, cons_add, cons_add] at htokens
  rw [add_cons, cons_add]
  exact htokens

theorem begin (h : Entries s (key ::ₘ fired) flights) (hdestroyed : s.destroyed = false) :
    ∃ p t, s.retryPublishDefinition key = (t, .retrying key p) ∧ t.board = s.board ∧
      Entries t fired ((key, p) ::ₘ flights) := by
  have htokens := h.tokens
  rw [add_cons, cons_add] at htokens
  have hkey : key ∈ s.definitionRetries.keys.val := htokens ▸ mem_cons_self _ _
  obtain ⟨p, hp⟩ := mem_iff.1 (mem_keys.1 hkey)
  have hupdate := h.update (f := .takeOff) (fun _ => rfl) (fun _ => rfl) p
  refine ⟨p, s.update p .takeOff, ?_, board_update (f := .takeOff) (fun _ => rfl) p s, hupdate.canceled,
    hupdate.lt_next, hupdate.key_eq, ?_, ?_⟩
  · rw [retryPublishDefinition, hp]
    dsimp only
    rw [hdestroyed, h.canceled p]
    rfl
  · rw [map_cons, add_cons]
    exact htokens
  · intro f hf
    rcases mem_cons.1 hf with rfl | hf
    · exact hp
    · exact h.flight f hf

theorem finish (h : Entries s fired ((key, p) ::ₘ flights)) (hdestroyed : s.destroyed = false)
    (ok : Bool) :
    Entries (s.finishRetry key p ok) fired flights ∧
      (s.finishRetry key p ok).board =
        if ok then s.board.drop key
        else if definitionRetryMaxAttempts ≤ (s.states.cell p).attempts then s.board.giveUp key
        else s.board := by
  have hp : s.definitionRetries.lookup key = some p := h.flight (key, p) (mem_cons_self _ _)
  have hupdate := h.update (f := .land) (fun _ => rfl) (fun _ => rfl) p
  have hboard : (s.update p .land).board = s.board :=
    board_update (f := .land) (fun _ => rfl) p s
  have hattempts : ((s.update p .land).states.cell p).attempts = (s.states.cell p).attempts :=
    s.states.modify_congr (f := .land) DefinitionRetry.attempts (fun _ => rfl) p
  have hlookup : (s.update p .land).definitionRetries.lookup key = some p := hp
  have hdestroyed : (s.update p .land).destroyed = false := hdestroyed
  unfold finishRetry
  rw [if_neg (not_not.2 hlookup), hdestroyed, hupdate.canceled p]
  cases ok with
  | true => exact ⟨hupdate.forget, (board_forget key _).trans (congrArg (Board.drop key) hboard)⟩
  | false =>
    refine ⟨hupdate.arm, (board_armDefinitionRetryLocked key p _).trans ?_⟩
    rw [hboard, hattempts]
    rfl

theorem enter (h : Entries s fired flights) (hu : u.serviceKey ∉ s.definitionRetries) :
    Entries (s.enter u) fired ((u.serviceKey, s.states.next) ::ₘ flights) := by
  refine ⟨?_, ?_, ?_, ?_, ?_⟩
  · intro p
    by_cases hp : p = s.states.next
    · subst hp
      exact congrArg DefinitionRetry.canceled (Heap.cell_add_self _ s.states)
    · exact (congrArg DefinitionRetry.canceled (update_of_ne hp ..)).trans (h.canceled p)
  · intro key p hp
    dsimp only [State.enter] at hp
    rw [FiniteMap.lookup_insert] at hp
    split_ifs at hp with hkey
    · cases hp
      exact Nat.lt_succ_self _
    · exact Nat.lt_succ_of_lt (h.lt_next key p hp)
  · intro key p hp
    dsimp only [State.enter] at hp ⊢
    rw [FiniteMap.lookup_insert] at hp
    split_ifs at hp with hkey
    · cases hp
      rw [Heap.cell_add_self, hkey]
    · rw [Heap.cell_add_of_lt _ (h.lt_next key p hp)]
      exact h.key_eq key p hp
  · dsimp only [State.enter]
    rw [FiniteMap.keys_insert_val hu, map_cons, add_cons, h.tokens]
  · intro f hf
    rcases mem_cons.1 hf with rfl | hf
    · exact lookup_insert _
    · have hflight := h.flight f hf
      have hne : f.1 ≠ u.serviceKey := fun heq => hu (heq ▸ mem_of_lookup_eq_some hflight)
      exact (lookup_insert_of_ne _ hne).trans hflight

theorem retryURL_enter (h : Entries s fired flights) (u : URLRef) :
    (s.enter u).retryURL = Function.update s.retryURL u.serviceKey (some u) := by
  funext key
  dsimp only [retryURL, State.enter]
  by_cases hkey : key = u.serviceKey
  · rw [hkey, update_self, lookup_insert, map_some, Heap.cell_add_self]
  · rw [update_of_ne hkey, lookup_insert_of_ne _ hkey, retryURL]
    cases hp : s.definitionRetries.lookup key with
    | none => rfl
    | some p => rw [map_some, Heap.cell_add_of_lt _ (h.lt_next key p hp), map_some]

theorem schedule (h : Entries s fired flights) (hdestroyed : s.destroyed = false) (u : URLRef) :
    Entries (s.scheduleDefinitionRetry u) fired flights ∧
      (s.scheduleDefinitionRetry u).board = s.board.enter URLRef.serviceKey u := by
  unfold scheduleDefinitionRetry
  rw [hdestroyed]
  by_cases hmem : u.serviceKey ∈ s.definitionRetries
  · obtain ⟨p, hp⟩ := mem_iff.1 hmem
    have hsome : (s.board.retry u.serviceKey).isSome = true := by
      show ((s.definitionRetries.lookup u.serviceKey).map _).isSome = true
      rw [hp]
      rfl
    rw [if_neg Bool.false_ne_true, if_pos hmem, Board.enter, if_pos hsome]
    exact ⟨h, rfl⟩
  · -- a state that is new is entered, and a timer is armed for it
    have hlookup : s.definitionRetries.lookup u.serviceKey = none := lookup_eq_none.2 hmem
    have hnone : ¬(s.board.retry u.serviceKey).isSome = true := by
      show ¬((s.definitionRetries.lookup u.serviceKey).map _).isSome = true
      rw [hlookup]
      exact Bool.false_ne_true
    have hattempts : ((s.enter u).states.cell s.states.next).attempts = 0 :=
      congrArg DefinitionRetry.attempts (Heap.cell_add_self _ s.states)
    rw [if_neg Bool.false_ne_true, if_neg hmem, Board.enter, if_neg hnone]
    refine ⟨(h.enter hmem).arm, (board_armDefinitionRetryLocked _ _ _).trans ?_⟩
    rw [hattempts, if_neg (by decide)]
    exact Board.ext (h.retryURL_enter u) rfl rfl

end Entries

end State

/-! ## The newest definition -/

namespace Stage

def todo : Stage → List URLRef
  | .waiting urls => urls
  | .publishing todo _ => todo
  | _ => []

def failed : Stage → List URLRef
  | .publishing _ failed => failed
  | .scheduling failed => failed
  | _ => []

def worker? : Stage → Option Stage
  | .taking => some .taking
  | .waiting urls => some (.waiting urls)
  | .publishing todo failed => some (.publishing todo failed)
  | .scheduling failed => some (.scheduling failed)
  | _ => none

def fired? : Stage → Option Str
  | .firing key => some key
  | _ => none

def flight? : Stage → Option (Str × ℕ)
  | .retrying key p => some (key, p)
  | .republishing key p => some (key, p)
  | .finishing key p _ => some (key, p)
  | _ => none

def isDropping : Stage → Bool
  | .dropping _ _ => true
  | _ => false

def rewritten? : Stage → Option Str
  | .finishing key _ true => some key
  | _ => none

end Stage

namespace State

variable {s t : State} {worker : Option Stage} {fired rewritten : Multiset Str}
  {flights : Multiset (Str × ℕ)} {key : Str} {p : ℕ} {u : URLRef} {todo failed : List URLRef}

def SameSnapshots (s t : State) : Prop :=
  t.definitionPublishRunning = s.definitionPublishRunning ∧
    t.definitionPublishPending = s.definitionPublishPending ∧ t.snapshot = s.snapshot ∧
    t.destroyed = s.destroyed

theorem sameSnapshots_armDefinitionRetryLocked (key : Str) (p : ℕ) (s : State) :
    SameSnapshots s (s.armDefinitionRetryLocked key p) := by
  unfold armDefinitionRetryLocked
  split_ifs <;> exact ⟨rfl, rfl, rfl, rfl⟩

theorem sameSnapshots_scheduleDefinitionRetry (u : URLRef) (s : State) :
    SameSnapshots s (s.scheduleDefinitionRetry u) := by
  unfold scheduleDefinitionRetry
  split_ifs
  · exact ⟨rfl, rfl, rfl, rfl⟩
  · exact ⟨rfl, rfl, rfl, rfl⟩
  · exact sameSnapshots_armDefinitionRetryLocked _ _ (s.enter u)

theorem sameSnapshots_retryPublishDefinition (key : Str) (s : State) :
    SameSnapshots s (s.retryPublishDefinition key).1 := by
  unfold retryPublishDefinition
  split <;> exact ⟨rfl, rfl, rfl, rfl⟩

theorem sameSnapshots_finishRetry (key : Str) (p : ℕ) (ok : Bool) (s : State) :
    SameSnapshots s (s.finishRetry key p ok) := by
  unfold finishRetry
  dsimp only
  split_ifs
  · exact ⟨rfl, rfl, rfl, rfl⟩
  · exact ⟨rfl, rfl, rfl, rfl⟩
  · exact sameSnapshots_armDefinitionRetryLocked key p (s.update p .land)

structure Consistent (s : State) (worker : Option Stage) (fired : Multiset Str)
    (flights : Multiset (Str × ℕ)) (rewritten : Multiset Str) : Prop where
  running : s.definitionPublishRunning = worker.isSome
  pending : s.definitionPublishRunning = false → s.definitionPublishPending = []
  nodup : (s.definitionPublishPending.map URLRef.serviceKey).Nodup
  entries : Entries s fired flights
  rewritten : Rewritten s.board rewritten
  progress : s.definitionPublishPending = s.snapshot ∨ s.definitionPublishPending = [] ∧
    Progress URLRef.serviceKey s.board s.snapshot (worker.elim [] Stage.todo) (worker.elim [] Stage.failed)

namespace Consistent

theorem new : Consistent new none 0 0 0 where
  running := rfl
  pending := fun _ => rfl
  nodup := List.nodup_nil
  entries := by
    refine ⟨fun _ => rfl, ?_, ?_, rfl, ?_⟩
    · intro key p hp
      cases hp
    · intro key p hp
      cases hp
    · intro f hf
      exact absurd hf (notMem_zero f)
  rewritten := fun k hk => absurd hk (notMem_zero k)
  progress := .inl rfl

theorem schedule (h : Consistent s worker fired flights rewritten) (hdestroyed : s.destroyed = false)
    (urls : Snapshot) :
    Consistent (s.scheduleServiceDefinitionPublish urls).1
      (if (s.scheduleServiceDefinitionPublish urls).2 then some .taking else worker) fired flights
      rewritten := by
  have hrunning := h.running
  unfold scheduleServiceDefinitionPublish
  rw [if_neg (by rw [hdestroyed]; exact Bool.false_ne_true)]
  cases worker with
  | none | some a =>
    rw [hrunning]
    exact ⟨rfl, (fun hfalse => nomatch hfalse), urls.nodup, h.entries.congr rfl rfl rfl, h.rewritten, .inl rfl⟩

theorem transfer {worker' : Option Stage} {fired' rewritten' : Multiset Str}
    {flights' : Multiset (Str × ℕ)} (h : Consistent s worker fired flights rewritten)
    (hsame : SameSnapshots s t) (hworker : worker'.isSome = worker.isSome)
    (hentries : Entries t fired' flights') (hrewritten : Rewritten t.board rewritten')
    (hprogress : Progress URLRef.serviceKey s.board s.snapshot (worker.elim [] Stage.todo)
        (worker.elim [] Stage.failed) →
      Progress URLRef.serviceKey t.board s.snapshot (worker'.elim [] Stage.todo)
        (worker'.elim [] Stage.failed)) :
    Consistent t worker' fired' flights' rewritten' := by
  obtain ⟨hrunning, hpending, hsnapshot, -⟩ := hsame
  refine ⟨?_, ?_, ?_, hentries, hrewritten, ?_⟩
  · rw [hrunning, hworker, h.running]
  · rw [hrunning, hpending]
    exact h.pending
  · rw [hpending]
    exact h.nodup
  · rw [hpending, hsnapshot]
    exact h.progress.imp_right fun hright => ⟨hright.1, hprogress hright.2⟩

theorem move {a b : Stage} (h : Consistent s (some a) fired flights rewritten) (mu : Bool)
    (htodo : b.todo = a.todo) (hfailed : b.failed = a.failed) :
    Consistent { s with definitionPublishMu := mu } (some b) fired flights rewritten := by
  refine h.transfer ⟨rfl, rfl, rfl, rfl⟩ rfl (h.entries.congr rfl rfl rfl) h.rewritten ?_
  dsimp only [Option.elim]
  rw [htodo, hfailed]
  exact id

theorem stop (h : Consistent s (some .taking) fired flights rewritten)
    (hpending : s.definitionPublishPending = []) :
    Consistent { s with definitionPublishPending := [], definitionPublishRunning := false } none fired
      flights rewritten := by
  refine ⟨rfl, fun _ => rfl, List.nodup_nil, h.entries.congr rfl rfl rfl, h.rewritten, ?_⟩
  rcases h.progress with heq | ⟨_, hprogress⟩
  · exact .inl (hpending.symm.trans heq)
  · exact .inr ⟨rfl, hprogress⟩

theorem take (h : Consistent s (some .taking) fired flights rewritten)
    (hpending : s.definitionPublishPending ≠ []) :
    Consistent { s with definitionPublishPending := [] } (some (.waiting s.definitionPublishPending)) fired
      flights rewritten := by
  refine ⟨h.running, fun _ => rfl, List.nodup_nil, h.entries.congr rfl rfl rfl, h.rewritten, .inr ⟨rfl, ?_⟩⟩
  rcases h.progress with heq | ⟨hnil, _⟩
  · rw [← heq]
    exact .start _ h.nodup
  · exact absurd hnil hpending

theorem publish (h : Consistent s (some (.publishing (u :: todo) failed)) fired flights rewritten)
    (halone : s.board.Alone URLRef.serviceKey u) (ok : Bool) :
    Consistent (s.publish u ok) (some (.publishing todo (if ok then failed else failed ++ [u]))) fired
      flights rewritten := by
  refine h.transfer ⟨rfl, rfl, rfl, rfl⟩ rfl (h.entries.congr rfl rfl rfl) ?_ ?_
  · rw [board_publish]
    exact h.rewritten.attempt halone ok
  · rw [board_publish]
    exact fun hprogress => hprogress.attempt halone ok

theorem enter (h : Consistent s (some (.scheduling (u :: failed))) fired flights rewritten)
    (hdestroyed : s.destroyed = false) :
    Consistent (s.scheduleDefinitionRetry u) (some (.scheduling failed)) fired flights rewritten := by
  obtain ⟨hentries, hboard⟩ := h.entries.schedule hdestroyed u
  refine h.transfer (sameSnapshots_scheduleDefinitionRetry u s) rfl hentries ?_ ?_
  · rw [hboard]
    exact h.rewritten.enter
  · rw [hboard]
    exact fun hprogress => hprogress.enter

theorem fire {n : ℕ} (h : Consistent s worker fired flights rewritten)
    (hn : s.timers.armed.lookup n = some key) :
    Consistent { s with timers := s.timers.stop n } worker (key ::ₘ fired) flights rewritten :=
  h.transfer ⟨rfl, rfl, rfl, rfl⟩ rfl (h.entries.fire hn) h.rewritten id

theorem begin (h : Consistent s worker (key ::ₘ fired) flights rewritten) (hdestroyed : s.destroyed = false) :
    ∃ p, (s.retryPublishDefinition key).2 = .retrying key p ∧
      Consistent (s.retryPublishDefinition key).1 worker fired ((key, p) ::ₘ flights) rewritten := by
  obtain ⟨p, t, heq, hboard, hentries⟩ := h.entries.begin hdestroyed
  have hsame := sameSnapshots_retryPublishDefinition key s
  rw [heq] at hsame ⊢
  refine ⟨p, rfl, h.transfer hsame rfl hentries ?_ ?_⟩
  · rw [hboard]
    exact h.rewritten
  · rw [hboard]
    exact id

theorem republish (h : Consistent s worker fired ((key, p) ::ₘ flights) rewritten) (ok : Bool) :
    Consistent { s with
      definitionPublishMu := false
      written := if ok then
          s.written.insert (s.states.cell p).url.serviceKey (s.states.cell p).url
        else s.written } worker fired ((key, p) ::ₘ flights)
      (if ok then key ::ₘ rewritten else rewritten) := by
  have hp : s.definitionRetries.lookup key = some p :=
    h.entries.flight (key, p) (mem_cons_self _ _)
  have hkey := h.entries.key_eq key p hp
  have hretry : s.board.retry key = some (s.states.cell p).url := by
    show (s.definitionRetries.lookup key).map _ = _
    rw [hp]
    rfl
  have hsome : (s.board.retry key).isSome = true := by
    rw [hretry]
    rfl
  cases ok with
  | false => exact h.transfer ⟨rfl, rfl, rfl, rfl⟩ rfl (h.entries.congr rfl rfl rfl) h.rewritten id
  | true =>
    have hboard : board { s with
        definitionPublishMu := false
        written := s.written.insert (s.states.cell p).url.serviceKey (s.states.cell p).url } =
        s.board.rewrite key := by
      refine Board.ext rfl ?_ rfl
      funext k
      show (s.written.insert (s.states.cell p).url.serviceKey (s.states.cell p).url).lookup k =
        Function.update (fun key => s.written.lookup key) key (s.board.retry key) k
      rw [hretry, hkey]
      by_cases hk : k = key
      · rw [hk, update_self, lookup_insert]
      · rw [update_of_ne hk, lookup_insert_of_ne _ hk]
    refine h.transfer ⟨rfl, rfl, rfl, rfl⟩ rfl (h.entries.congr rfl rfl rfl) ?_ ?_
    · exact hboard ▸ h.rewritten.rewrite hsome
    · exact fun hprogress => hboard ▸ hprogress.rewrite hsome

theorem finish (ok : Bool)
    (h : Consistent s worker fired ((key, p) ::ₘ flights) (if ok then key ::ₘ rewritten else rewritten))
    (hdestroyed : s.destroyed = false) (hrewritten : ∀ k ∈ rewritten, k ∈ flights.map Prod.fst) :
    Consistent (s.finishRetry key p ok) worker fired flights rewritten := by
  obtain ⟨hentries, hboard⟩ := h.entries.finish hdestroyed ok
  have hsame := sameSnapshots_finishRetry key p ok s
  have hkey : key ∉ rewritten := by
    intro hmem
    have hnodup := s.definitionRetries.keys.nodup
    rw [← h.entries.tokens, map_cons, add_cons, nodup_cons] at hnodup
    exact hnodup.1 (mem_add.2 (.inr (hrewritten key hmem)))
  cases ok with
  | true =>
    have hold : Rewritten s.board (key ::ₘ rewritten) := h.rewritten
    have hrest : Rewritten s.board rewritten := fun k hk => hold k (mem_cons_of_mem hk)
    obtain ⟨v, hretry, hwritten⟩ := hold key (mem_cons_self _ _)
    refine h.transfer hsame rfl hentries ?_ ?_
    · exact hboard ▸ hrest.drop hkey
    · exact fun hprogress => hboard ▸ hprogress.drop (hwritten.trans hretry.symm)
  | false =>
    have hrest : Rewritten s.board rewritten := h.rewritten
    rw [if_neg Bool.false_ne_true] at hboard
    refine h.transfer hsame rfl hentries ?_ ?_
    · rw [hboard]
      split_ifs
      · exact hrest.giveUp hkey
      · exact hrest
    · rw [hboard]
      intro hprogress
      split_ifs
      · exact hprogress.giveUp
      · exact hprogress

end Consistent

/-- The stages of the goroutines, of which at most one is the worker, and none drops a state. -/
structure Steady (s : State) (stages : Multiset Stage) (worker : Option Stage) : Prop where
  only : stages.filterMap Stage.worker? = worker.toList
  active : ∀ stage ∈ stages, stage.isDropping = false
  consistent : Consistent s worker (stages.filterMap Stage.fired?) (stages.filterMap Stage.flight?)
    (stages.filterMap Stage.rewritten?)

namespace Steady

variable {a b : Stage} {stages : Multiset Stage} {ok : Bool}

theorem mem_flight_of_rewritten (stages : Multiset Stage) :
    ∀ k ∈ stages.filterMap Stage.rewritten?, k ∈ (stages.filterMap Stage.flight?).map Prod.fst := by
  intro k hk
  obtain ⟨st, hstage, heq⟩ := (mem_filterMap _ _).1 hk
  cases st with
  | finishing key p ok =>
    cases ok with
    | true =>
      cases heq
      exact mem_map.2 ⟨_, (mem_filterMap _ _).2 ⟨_, hstage, rfl⟩, rfl⟩
    | false => cases heq
  | _ => cases heq

theorem worker_eq (h : Steady s (a ::ₘ stages) worker) (ha : a.worker? = some a) :
    worker = some a ∧ stages.filterMap Stage.worker? = 0 :=
  holder_eq_some h.only ha

theorem cons (honly : (a ::ₘ stages).filterMap Stage.worker? = worker.toList)
    (hactive : ∀ st ∈ stages, st.isDropping = false) (ha : a.isDropping = false) (hconsistent : Consistent s worker
      (a.fired?.elim (stages.filterMap Stage.fired?) (· ::ₘ stages.filterMap Stage.fired?))
      (a.flight?.elim (stages.filterMap Stage.flight?) (· ::ₘ stages.filterMap Stage.flight?))
      (a.rewritten?.elim (stages.filterMap Stage.rewritten?) (· ::ₘ stages.filterMap Stage.rewritten?))) :
    Steady s (a ::ₘ stages) worker := by
  refine ⟨honly, ?_, ?_⟩
  · intro st hstage
    rcases mem_cons.1 hstage with rfl | hstage
    · exact ha
    · exact hactive st hstage
  · rw [filterMap_cons_elim, filterMap_cons_elim, filterMap_cons_elim]
    exact hconsistent

theorem consistent_cons (h : Steady s (a ::ₘ stages) worker) : Consistent s worker
    (a.fired?.elim (stages.filterMap Stage.fired?) (· ::ₘ stages.filterMap Stage.fired?))
    (a.flight?.elim (stages.filterMap Stage.flight?) (· ::ₘ stages.filterMap Stage.flight?))
    (a.rewritten?.elim (stages.filterMap Stage.rewritten?) (· ::ₘ stages.filterMap Stage.rewritten?)) := by
  have hconsistent := h.consistent
  rwa [filterMap_cons_elim, filterMap_cons_elim, filterMap_cons_elim] at hconsistent

theorem of_work (hothers : stages.filterMap Stage.worker? = 0) (hactive : ∀ st ∈ stages, st.isDropping = false)
    (hb : b.isDropping = false ∧ b.fired? = none ∧ b.flight? = none ∧ b.rewritten? = none)
    (hconsistent : Consistent t b.worker? (stages.filterMap Stage.fired?) (stages.filterMap Stage.flight?)
      (stages.filterMap Stage.rewritten?)) : Steady t (b ::ₘ stages) b.worker? := by
  obtain ⟨hdropping, hfired, hflight, hrewritten⟩ := hb
  refine cons (filterMap_cons_of_zero hothers) hactive hdropping ?_
  rw [hfired, hflight, hrewritten]
  exact hconsistent

theorem advance_worker (h : Steady s (a ::ₘ stages) worker) (ha : a.worker? = some a) (hdestroyed : s.destroyed = false)
    (halone : ∀ u, a.publishes = some u → s.board.Alone URLRef.serviceKey u)
    (hstep : s.advance ok a = some (t, b)) : Steady t (b ::ₘ stages) b.worker? := by
  obtain ⟨rfl, hothers⟩ := h.worker_eq ha
  have hactive := fun st hstage => h.active st (mem_cons_of_mem hstage)
  have hconsistent := h.consistent_cons
  cases a with
  | returned | firing | dropping | retrying | republishing | finishing => cases ha
  | taking =>
    rw [State.advance] at hstep
    split_ifs at hstep with hempty
    · cases hstep
      rw [hdestroyed, Bool.false_or, List.isEmpty_iff] at hempty
      exact of_work hothers hactive ⟨rfl, rfl, rfl, rfl⟩ (hconsistent.stop hempty)
    · cases hstep
      rw [hdestroyed, Bool.false_or, List.isEmpty_iff] at hempty
      exact of_work hothers hactive ⟨rfl, rfl, rfl, rfl⟩ (hconsistent.take hempty)
  | waiting urls =>
    rw [State.advance] at hstep
    split_ifs at hstep with hmu hd
    · rw [hdestroyed] at hd
      cases hd
    · cases hstep
      exact of_work hothers hactive ⟨rfl, rfl, rfl, rfl⟩ (hconsistent.move true rfl rfl)
  | publishing todo failed =>
    cases todo with
    | nil =>
      cases hstep
      exact of_work hothers hactive ⟨rfl, rfl, rfl, rfl⟩ (hconsistent.move false rfl rfl)
    | cons u todo =>
      cases hstep
      exact of_work hothers hactive ⟨rfl, rfl, rfl, rfl⟩ (hconsistent.publish (halone u rfl) ok)
  | scheduling failed =>
    cases failed with
    | nil =>
      cases hstep
      exact of_work hothers hactive ⟨rfl, rfl, rfl, rfl⟩ (hconsistent.move _ rfl rfl)
    | cons u failed =>
      cases hstep
      exact of_work hothers hactive ⟨rfl, rfl, rfl, rfl⟩ (hconsistent.enter hdestroyed)

theorem advance_retry (h : Steady s (a ::ₘ stages) worker) (ha : a.worker? = none)
    (hdestroyed : s.destroyed = false) (hstep : s.advance ok a = some (t, b)) :
    Steady t (b ::ₘ stages) worker := by
  have honly := h.only
  rw [filterMap_cons_elim, ha] at honly
  have hactive := fun stage hstage => h.active stage (mem_cons_of_mem hstage)
  have hconsistent := h.consistent_cons
  cases a with
  | returned => cases hstep
  | taking | waiting | publishing | scheduling => cases ha
  | firing key =>
    have heq : s.retryPublishDefinition key = (t, b) := some.inj hstep
    obtain ⟨p, hstage, hbegin⟩ := hconsistent.begin hdestroyed
    rw [heq] at hstage hbegin
    subst hstage
    refine cons ?_ hactive rfl hbegin
    rw [filterMap_cons_elim]
    exact honly
  | dropping key p => cases h.active _ (mem_cons_self _ _)
  | retrying key p =>
    rw [State.advance] at hstep
    split_ifs at hstep with hmu hd
    · rw [hdestroyed] at hd
      cases hd
    · cases hstep
      refine cons ?_ hactive rfl ?_
      · rw [filterMap_cons_elim]
        exact honly
      · exact hconsistent.transfer ⟨rfl, rfl, rfl, rfl⟩ rfl (hconsistent.entries.congr rfl rfl rfl)
          hconsistent.rewritten id
  | republishing key p =>
    cases hstep
    refine cons ?_ hactive rfl ?_
    · rw [filterMap_cons_elim]
      exact honly
    · have hrepublish := hconsistent.republish ok
      cases ok <;> exact hrepublish
  | finishing key p ok =>
    cases hstep
    refine cons ?_ hactive rfl ?_
    · rw [filterMap_cons_elim]
      exact honly
    · refine Consistent.finish ok ?_ hdestroyed (mem_flight_of_rewritten stages)
      cases ok <;> exact hconsistent

theorem advance (h : Steady s (a ::ₘ stages) worker) (hdestroyed : s.destroyed = false)
    (halone : ∀ u, a.publishes = some u → s.board.Alone URLRef.serviceKey u)
    (hstep : s.advance ok a = some (t, b)) : ∃ worker', Steady t (b ::ₘ stages) worker' := by
  cases ha : a.worker? with
  | none => exact ⟨worker, h.advance_retry ha hdestroyed hstep⟩
  | some w =>
    have hw : w = a := by
      cases a <;> cases ha <;> rfl
    exact ⟨b.worker?, h.advance_worker (hw ▸ ha) hdestroyed halone hstep⟩

end Steady

theorem destroyed_schedule (urls : Snapshot) (s : State) :
    (s.scheduleServiceDefinitionPublish urls).1.destroyed = s.destroyed := by
  unfold scheduleServiceDefinitionPublish
  split_ifs <;> rfl

theorem running_of_starts {urls : Snapshot} (h : (s.scheduleServiceDefinitionPublish urls).2 = true) :
    s.definitionPublishRunning = false := by
  unfold scheduleServiceDefinitionPublish at h
  split_ifs at h
  simpa using h

theorem destroyed_advance {a b : Stage} {ok : Bool} (h : s.advance ok a = some (t, b)) :
    t.destroyed = s.destroyed := by
  cases a with
  | returned => cases h
  | taking | waiting urls | retrying key p =>
    rw [advance] at h
    split_ifs at h <;> cases h <;> rfl
  | publishing todo failed =>
    cases todo <;> cases h <;> rfl
  | scheduling failed =>
    cases failed with
    | nil =>
      cases h
      rfl
    | cons u failed =>
      cases h
      exact (sameSnapshots_scheduleDefinitionRetry u s).2.2.2
  | firing key =>
    have heq : s.retryPublishDefinition key = (t, b) := some.inj h
    have hsame := sameSnapshots_retryPublishDefinition key s
    rw [heq] at hsame
    exact hsame.2.2.2
  | dropping key p =>
    cases h
    split_ifs <;> rfl
  | republishing key p =>
    cases h
    rfl
  | finishing key p ok =>
    cases h
    exact (sameSnapshots_finishRetry key p ok s).2.2.2

end State

namespace System

/-- A run without older retries is steady for as long as nothing is destroyed. -/
theorem steady {s : System} (h : ReachedBy step (· = idle) NoOlderRetry s)
    (hdestroyed : s.shared.destroyed = false) : ∃ worker, s.shared.Steady s.threads worker := by
  refine ReachedBy.invariant
    (fun s => s.shared.destroyed = false → ∃ worker, s.shared.Steady s.threads worker) ?_ ?_ h hdestroyed
  · rintro s rfl -
    exact ⟨none, rfl, fun stage hstage => absurd hstage (notMem_zero stage), .new⟩
  · intro s action t ih hcondition hstep hdestroyed
    cases action with
    | schedule urls =>
      have hold : s.shared.destroyed = false := by
        cases hstep
        split_ifs at hdestroyed <;> exact (State.destroyed_schedule urls s.shared).symm.trans hdestroyed
      obtain ⟨worker, hs⟩ := ih hold
      have hconsistent := hs.consistent.schedule hold urls
      cases hstep
      split_ifs with hstarts
      · rw [if_pos hstarts] at hconsistent
        have hworker : worker = none := by
          have hrunning := hs.consistent.running
          rw [State.running_of_starts hstarts] at hrunning
          cases worker with
          | none => rfl
          | some a => cases hrunning
        refine ⟨some .taking, ?_⟩
        rw [Pool.coe_threads_spawn]
        refine .cons ?_ hs.active rfl hconsistent
        rw [filterMap_cons_elim, hs.only, hworker]
        rfl
      · rw [if_neg hstarts] at hconsistent
        exact ⟨worker, hs.only, hs.active, hconsistent⟩
    | destroy =>
      cases hstep
      cases hdestroyed
    | fire n =>
      obtain ⟨key, hkey, rfl⟩ := map_eq_some_iff.1 hstep
      obtain ⟨worker, hs⟩ := ih hdestroyed
      refine ⟨worker, ?_⟩
      rw [Pool.coe_threads_spawn]
      refine .cons ?_ hs.active rfl (hs.consistent.fire hkey)
      exact hs.only
    | advance i ok =>
      obtain ⟨a, b, others, hi, hadvance, hthreads, hthreads'⟩ := Pool.advance_cases hstep
      rw [State.destroyed_advance hadvance] at hdestroyed
      obtain ⟨worker, hs⟩ := ih hdestroyed
      rw [hthreads] at hs
      rw [hthreads']
      refine hs.advance hdestroyed ?_ hadvance
      intro u hu v hv
      have hmem := hcondition u (by rw [hi]; exact hu)
      have hretry : s.shared.retryURL u.serviceKey = some v := hv
      rw [hretry] at hmem
      rcases List.mem_pair.1 hmem with heq | heq
      · cases heq
      · exact some.inj heq

/-- When the worker has stopped and no retry is pending, the URL of the last snapshot is the one that was
written last for its key, or was given up. -/
theorem latest_written_or_gaveUp {s : System} (h : ReachedBy step (· = idle) NoOlderRetry s)
    (hdestroyed : s.shared.destroyed = false) (hstopped : s.shared.definitionPublishRunning = false)
    (hretries : s.shared.definitionRetries = ∅) {u : URLRef} (hu : u ∈ s.shared.snapshot) :
    s.shared.written.lookup u.serviceKey = some u ∨ u.serviceKey ∈ s.shared.gaveUp := by
  obtain ⟨worker, hs⟩ := steady h hdestroyed
  have hpending := hs.consistent.pending hstopped
  have hrunning := hs.consistent.running
  rw [hstopped] at hrunning
  obtain rfl : worker = none := by
    cases worker with
    | none => rfl
    | some a => cases hrunning
  rcases hs.consistent.progress with heq | ⟨-, hprogress⟩
  · rw [hpending] at heq
    rw [← heq] at hu
    exact absurd hu List.not_mem_nil
  · refine hprogress.written_or_gaveUp ?_ hu
    intro key
    show (s.shared.definitionRetries.lookup key).map _ = none
    rw [hretries]
    rfl

def greeterV1 : URLRef := ⟨0, str "demo.Greeter"⟩
def greeterV2 : URLRef := ⟨1, str "demo.Greeter"⟩

def only (u : URLRef) : Snapshot := ⟨[u], List.nodup_singleton _⟩

/-- Goroutine `i` takes steps in which its writes succeed or fail. -/
def goOn (i : ℕ) (outcomes : List Bool) : List Action := outcomes.map fun ok => .advance i ok

def publishes (u : URLRef) (i : ℕ) : List Action :=
  .schedule (only u) :: goOn i [true, true, true, true, true, true]

def fails (u : URLRef) (i : ℕ) : List Action :=
  .schedule (only u) :: goOn i [true, true, false, true, true, true, true]

def retries (t i : ℕ) : List Action := .fire t :: goOn i [true, true, true, true]

def successAfterRetry : List Action :=
  List.flatten [fails greeterV1 0, retries 0 1, publishes greeterV2 2]

theorem successAfterRetry_written : ∃ s, ReachedBy step (· = idle) NoOlderRetry s ∧
    s.shared.destroyed = false ∧ s.shared.definitionPublishRunning = false ∧
    s.shared.definitionRetries = ∅ ∧ greeterV2 ∈ s.shared.snapshot ∧
    (s.shared.written.lookup greeterV2.serviceKey = some greeterV2 ∨
      greeterV2.serviceKey ∈ s.shared.gaveUp) := by
  obtain ⟨s, hreached, hdestroyed, hstopped, hretries, hu⟩ :=
    ReachedBy.of_run step NoOlderRetry idle successAfterRetry
      (fun s => s.shared.destroyed = false ∧ s.shared.definitionPublishRunning = false ∧
        s.shared.definitionRetries = ∅ ∧ greeterV2 ∈ s.shared.snapshot) (by decide +kernel)
  exact ⟨s, hreached, hdestroyed, hstopped, hretries, hu,
    latest_written_or_gaveUp hreached hdestroyed hstopped hretries hu⟩

def retryAfterSuccess : List Action :=
  List.flatten [fails greeterV1 0, publishes greeterV2 1, retries 0 2]

/-- The retry writes the first URL over the second one, and nothing will write that again. -/
theorem retryAfterSuccess_overwrites : ∃ s, ReachedBy step (· = idle) (fun _ _ => True) s ∧
    s.shared.destroyed = false ∧ s.shared.definitionPublishRunning = false ∧
    s.shared.definitionRetries = ∅ ∧ s.shared.snapshot = [greeterV2] ∧
    s.shared.written.lookup greeterV2.serviceKey = some greeterV1 ∧ greeterV2.serviceKey ∉ s.shared.gaveUp :=
  ReachedBy.of_run step (fun _ _ => True) idle retryAfterSuccess
    (fun s => s.shared.destroyed = false ∧ s.shared.definitionPublishRunning = false ∧
      s.shared.definitionRetries = ∅ ∧ s.shared.snapshot = [greeterV2] ∧
      s.shared.written.lookup greeterV2.serviceKey = some greeterV1 ∧
      greeterV2.serviceKey ∉ s.shared.gaveUp) (by decide +kernel)

end System

end DubboGo.Registry.Definitions
