import DubboGo.Cluster.Failover
import DubboGo.Lib.CompletionGroup
import DubboGo.Lib.Reachable

/-!
# The failback cluster invoker

`failbackClusterInvoker` of `cluster/cluster/failback/cluster_invoker.go`: a call that fails is put into a queue, a
processor has a goroutine retry it when it is due, and `Destroy` stops all of that.
-/

namespace DubboGo.Cluster.Failback

open Go Common Protocol Base Lib
open Failover (retriesKey)

def failBackTasksKey : Str := str "failbacktasks"
def defaultFailbackTimes : Str := str "3"
def defaultFailbackTimesInt : ℤ := 3
def defaultFailbackTasks : ℤ := 100

/-! ## The queue -/

/-- The queue of `go-datastructures`: first in, first out, until it is disposed of.  The size that
`New` is given is no bound. -/
structure Queue (α : Type) where
  items : List α
  disposed : Bool

namespace Queue

variable {α : Type}

def new : Queue α := ⟨[], false⟩

/-- `Put`; without a result it has failed. -/
def put (q : Queue α) (item : α) : Option (Queue α) :=
  if q.disposed then none else some { q with items := q.items ++ [item] }

def len (q : Queue α) : ℕ := q.items.length

def dispose (_ : Queue α) : Queue α := ⟨[], true⟩

end Queue

/-! ## Tasks and goroutines -/

/-- The values that a `context.Context` carries. -/
abbrev Context (κ ν : Type) := κ → Option ν

def background {κ ν : Type} : Context κ ν := fun _ => none

/-- What a cluster invoker is created with: its settings, the URLs of the invokers, and the registered
balancers. -/
structure Setup (ι σ : Type) where
  maxRetries : ℤ
  failbackTasks : ℤ
  getURL : ι → URL
  loadbalances : Str → LoadBalance ι σ
  maxRetries_nonneg : 0 ≤ maxRetries
  maxRetries_lt : maxRetries < 2 ^ 63
  failbackTasks_pos : 0 < failbackTasks

/-- `retryTimerTask`, with the number of the call that it was made for.  The times of its backoff are
left out. -/
structure Task (ι σ : Type) where
  loadbalance : LoadBalance ι σ
  invocation : RPCInvocation
  invokers : List ι
  lastInvoker : ι
  retries : ℤ
  maxRetries : ℤ
  call : ℕ

/-- Where the processor is: in the `select` of `process`; in `processRetryTasks` before it asks the
context, before `Peek`, before `Get` or before `startRetry`; or at its end, with `processDone`
closed. -/
inductive Processor (ι σ : Type) where
  | waiting
  | polling
  | peeking
  | getting
  | starting (task : Task ι σ)
  | ended

/-- Where a retry is in `tryTimerTaskProc`; `finishing` is after its return. -/
inductive Stage (ι : Type) where
  | begun
  | selected (retryInvoker : ι)
  | invoking (retryInvoker : ι)
  | failed
  | finishing

/-- The goroutine of a retry, with the channel that `startRetry` gave it. -/
structure Retry (ι σ : Type) where
  task : Task ι σ
  channel : Option ℕ
  stage : Stage ι

/-- Where the function that `destroyOnce` runs is; the waits know which channels there were. -/
inductive Shutdown where
  | idle
  | waitProcess (processDone : Bool) (retryDone : Option ℕ)
  | waitRetry (retryDone : Option ℕ)
  | destroying
  | done

/-- Who made a call: its context, which may be nil, and the retries that it asked for. -/
structure Caller (κ ν : Type) where
  ctx : Option (Context κ ν)
  retries : ℤ

structure State (ι σ κ ν : Type) where
  stopped : Bool
  /-- `BaseClusterInvoker.Destroyed`. -/
  destroyed : Bool
  taskList : Option (Queue (Task ι σ))
  /-- The context of the processor; there is a `retryCancel` just if there is one. -/
  retryCtx : Option (Context κ ν)
  /-- `retryCancel` has been called. -/
  cancelled : Bool
  processor : Option (Processor ι σ)
  /-- `activeRetries` and `retryDone`. -/
  group : CompletionGroup
  goroutines : Multiset (Retry ι σ)
  /-- The calls that have failed and are before `enqueueInitialRetry`. -/
  failing : Multiset (Option (Context κ ν) × Task ι σ)
  shutdown : Shutdown
  /-- The calls of `Destroy` that have not returned, and those that have. -/
  destroyers : ℕ
  returned : ℕ
  /-- The number of calls that have failed, and who made them. -/
  calls : ℕ
  caller : ℕ → Caller κ ν
  /-- The call that made the queue. -/
  creator : Option ℕ
  /-- The number of retries that were started. -/
  started : ℕ
  /-- The calls that were retried, with the contexts that `Invoke` was given. -/
  retried : List (ℕ × Context κ ν)
  /-- Some wait of the shutdown has timed out. -/
  timedOut : Bool
  /-- How often the directory was destroyed. -/
  directoryDestroyed : ℕ

/-! ## The functions -/

section Functions

variable {ι σ κ ν : Type}

def configuredRetries (url : URL) : ℤ :=
  match parseInt (url.getParam retriesKey defaultFailbackTimes) 10 64 with
  | .ok retries => if retries < 0 then defaultFailbackTimesInt else retries
  | .error _ => defaultFailbackTimesInt

def configuredTasks (url : URL) : ℤ :=
  let tasks := url.getParamInt failBackTasksKey defaultFailbackTasks
  if tasks ≤ 0 then defaultFailbackTasks else tasks

theorem configuredRetries_range (url : URL) : 0 ≤ configuredRetries url ∧ configuredRetries url < 2 ^ 63 := by
  have hdefault : 0 ≤ defaultFailbackTimesInt ∧ defaultFailbackTimesInt < 2 ^ 63 := by decide
  unfold configuredRetries
  split
  · rename_i retries hr
    split_ifs with hneg
    · exact hdefault
    · exact ⟨not_lt.1 hneg, parseInt_lt hr⟩
  · exact hdefault

theorem configuredTasks_pos (url : URL) : 0 < configuredTasks url := by
  unfold configuredTasks
  dsimp only
  split_ifs with h
  · decide
  · exact not_le.1 h

/-- `newFailbackClusterInvoker`, from the URL of the directory. -/
def newFailbackClusterInvoker (url : URL) (getURL : ι → URL) (loadbalances : Str → LoadBalance ι σ) : Setup ι σ where
  maxRetries := configuredRetries url
  failbackTasks := configuredTasks url
  getURL := getURL
  loadbalances := loadbalances
  maxRetries_nonneg := (configuredRetries_range url).1
  maxRetries_lt := (configuredRetries_range url).2
  failbackTasks_pos := configuredTasks_pos url

def newRetryTimerTask (c : Setup ι σ) (loadbalance : LoadBalance ι σ) (invocation : RPCInvocation)
    (invokers : List ι) (lastInvoker : ι) (call : ℕ) : Task ι σ where
  loadbalance := loadbalance
  invocation := invocation
  invokers := invokers
  lastInvoker := lastInvoker
  retries := 0
  maxRetries := ((invocation.getAttachment retriesKey).map atoi).getD c.maxRetries
  call := call

def init : State ι σ κ ν where
  stopped := false
  destroyed := false
  taskList := none
  retryCtx := none
  cancelled := false
  processor := none
  group := .new
  goroutines := 0
  failing := 0
  shutdown := .idle
  destroyers := 0
  returned := 0
  calls := 0
  caller := fun _ => ⟨none, 0⟩
  creator := none
  started := 0
  retried := []
  timedOut := false
  directoryDestroyed := 0

variable (c : Setup ι σ) (s : State ι σ κ ν)

/-- The part of `enqueueInitialRetry` that makes queue, context and processor. -/
def startProcessor (ctx : Option (Context κ ν)) (task : Task ι σ) : State ι σ κ ν :=
  match s.taskList with
  | some _ => s
  | none => { s with
      taskList := some .new
      retryCtx := some (ctx.getD background)
      processor := some .waiting
      creator := some task.call }

/-- `taskList.Put`. -/
def putTask (task : Task ι σ) : State ι σ κ ν :=
  { s with taskList := s.taskList.map fun q => (q.put task).getD q }

def enqueueInitialRetry (ctx : Option (Context κ ν)) (task : Task ι σ) : State ι σ κ ν :=
  if s.stopped || s.destroyed then s
  else
    let s := startProcessor s ctx task
    if c.failbackTasks ≤ (s.taskList.map fun q => (q.len : ℤ)).getD 0 then s else putTask s task

/-- `startRetry`, whose context is the processor's. -/
def startRetry (task : Task ι σ) : State ι σ κ ν :=
  if s.stopped || s.cancelled then s
  else { s with
    group := s.group.join
    goroutines := ⟨task, s.group.join.current, .begun⟩ ::ₘ s.goroutines
    started := s.started + 1 }

def finishRetry (retryDone : Option ℕ) : State ι σ κ ν := { s with group := s.group.leave retryDone }

def enqueueRetry (task : Task ι σ) : State ι σ κ ν := if s.stopped then s else putTask s task

/-- `checkRetry`; `stop` is whether the backoff says to stop. -/
def checkRetry (task : Task ι σ) (stop : Bool) : State ι σ κ ν :=
  let task := { task with retries := int64 (task.retries + 1) }
  if task.maxRetries < task.retries || stop then s else enqueueRetry s task

/-- The section of `Destroy` under the lock. -/
def stop : State ι σ κ ν :=
  { s with
    stopped := true
    cancelled := s.cancelled || s.retryCtx.isSome
    taskList := s.taskList.map Queue.dispose
    shutdown := .waitProcess s.processor.isSome s.group.current }

/-- `BaseClusterInvoker.Destroy`. -/
def baseDestroy : State ι σ κ ν :=
  if s.destroyed then s
  else { s with destroyed := true, directoryDestroyed := s.directoryDestroyed + 1 }

end Functions

section Enqueue

variable {ι σ κ ν : Type} {c : Setup ι σ} {s : State ι σ κ ν}

theorem enqueueInitialRetry_of_none (hs : s.stopped = false) (hd : s.destroyed = false)
    (hq : s.taskList = none) (ctx : Option (Context κ ν)) (task : Task ι σ) :
    enqueueInitialRetry c s ctx task = { s with
      taskList := some ⟨[task], false⟩
      retryCtx := some (ctx.getD background)
      processor := some .waiting
      creator := some task.call } := by
  have hfree : ¬ c.failbackTasks ≤ 0 := not_le.2 c.failbackTasks_pos
  simp [enqueueInitialRetry, startProcessor, putTask, hs, hd, hq, Queue.new, Queue.len, Queue.put, hfree]

theorem enqueueInitialRetry_of_some (hs : s.stopped = false) (hd : s.destroyed = false)
    {items : List (Task ι σ)} (hq : s.taskList = some ⟨items, false⟩)
    (hfree : (items.length : ℤ) < c.failbackTasks) (ctx : Option (Context κ ν)) (task : Task ι σ) :
    enqueueInitialRetry c s ctx task = { s with taskList := some ⟨items ++ [task], false⟩ } := by
  have hfull : ¬ c.failbackTasks ≤ items.length := not_le.2 hfree
  simp [enqueueInitialRetry, startProcessor, putTask, hs, hd, hq, Queue.len, Queue.put, hfull]

end Enqueue

/-! ## The steps -/

section Steps

variable {ι σ κ ν : Type} [DecidableEq ι] (c : Setup ι σ)

/-- What the processor does on its own, with its context and the queue in some state.  A task at the
head of the queue may be due or not. -/
inductive ProcessorMove (cancelled : Bool) (q : Queue (Task ι σ)) :
    Processor ι σ → Processor ι σ → Prop where
  | tick : ProcessorMove cancelled q .waiting .polling
  | cancelWaiting (h : cancelled = true) : ProcessorMove cancelled q .waiting .ended
  | cancelPolling (h : cancelled = true) : ProcessorMove cancelled q .polling .ended
  | poll (h : cancelled = false) : ProcessorMove cancelled q .polling .peeking
  | peekDisposed (h : q.disposed = true) : ProcessorMove cancelled q .peeking .ended
  | peekIdle (h : q.disposed = false) : ProcessorMove cancelled q .peeking .waiting
  | peekDue (h : q.disposed = false) (hne : q.items ≠ []) : ProcessorMove cancelled q .peeking .getting
  | getDisposed (h : q.disposed = true) : ProcessorMove cancelled q .getting .waiting

/-- What a retry does on its own in `tryTimerTaskProc`, apart from the attempt and `checkRetry`. -/
inductive RetryMove (cancelled : Bool) : Retry ι σ → Retry ι σ → Prop where
  | cancelBegun (t : Task ι σ) (ch : Option ℕ) (h : cancelled = true) :
      RetryMove cancelled ⟨t, ch, .begun⟩ ⟨t, ch, .finishing⟩
  | select (t : Task ι σ) (ch : Option ℕ) (isAvailable : ι → Bool) (base : BaseClusterInvoker ι) (b : σ)
      (i : ι) (h : cancelled = false)
      (hsel : (doSelect isAvailable c.getURL t.loadbalance t.invocation base t.invokers
        [t.lastInvoker] b).1 = some i) :
      RetryMove cancelled ⟨t, ch, .begun⟩ ⟨t, ch, .selected i⟩
  | selectNone (t : Task ι σ) (ch : Option ℕ) (isAvailable : ι → Bool) (base : BaseClusterInvoker ι)
      (b : σ) (h : cancelled = false)
      (hsel : (doSelect isAvailable c.getURL t.loadbalance t.invocation base t.invokers [t.lastInvoker] b).1 = none) :
      RetryMove cancelled ⟨t, ch, .begun⟩ ⟨t, ch, .finishing⟩
  | cancelSelected (t : Task ι σ) (ch : Option ℕ) (i : ι) (h : cancelled = true) :
      RetryMove cancelled ⟨t, ch, .selected i⟩ ⟨t, ch, .finishing⟩
  /-- The attempt succeeds, or the retries have been cancelled in the meantime. -/
  | succeed (t : Task ι σ) (ch : Option ℕ) (i : ι) : RetryMove cancelled ⟨t, ch, .invoking i⟩ ⟨t, ch, .finishing⟩
  | fail (t : Task ι σ) (ch : Option ℕ) (i : ι) (h : cancelled = false) :
      RetryMove cancelled ⟨t, ch, .invoking i⟩ ⟨{ t with lastInvoker := i }, ch, .failed⟩

/-- How the waits of a shutdown end, with the channels closed or not; the flag says that the wait has
timed out. -/
inductive WaitMove (processEnded : Bool) (closed : List ℕ) : Shutdown → Bool → Shutdown → Prop where
  | process (pd : Bool) (rd : Option ℕ) (h : pd = true → processEnded = true) :
      WaitMove processEnded closed (.waitProcess pd rd) false (.waitRetry rd)
  | processTimeout (pd : Bool) (rd : Option ℕ) : WaitMove processEnded closed (.waitProcess pd rd) true .destroying
  | retry (rd : Option ℕ) (h : ∀ n, rd = some n → n ∈ closed) :
      WaitMove processEnded closed (.waitRetry rd) false .destroying
  | retryTimeout (rd : Option ℕ) : WaitMove processEnded closed (.waitRetry rd) true .destroying

inductive Event (ι σ : Type) where
  | enqueueInitialRetry (task : Task ι σ)
  | checkRetry (task : Task ι σ) (stop : Bool)
  | other

def Processor.isEnded : Option (Processor ι σ) → Bool
  | some .ended => true
  | _ => false

inductive Step : State ι σ κ ν → Event ι σ → State ι σ κ ν → Prop where
  /-- A call of `Invoke` passes its checks, selects an invoker and fails. -/
  | invoke (s : State ι σ κ ν) (ctx : Option (Context κ ν)) (invocation : RPCInvocation) (first : ι)
      (rest : List ι) (isAvailable : ι → Bool) (base : BaseClusterInvoker ι) (b : σ) (ivk : ι)
      (lb : LoadBalance ι σ) (task : Task ι σ) (hs : s.stopped = false) (hd : s.destroyed = false)
      (hlb : lb = getLoadBalance c.loadbalances (c.getURL first) invocation.methodName)
      (hsel : (doSelect isAvailable c.getURL lb invocation base (first :: rest) [] b).1 = some ivk)
      (htask : task = newRetryTimerTask c lb invocation (first :: rest) ivk s.calls) :
      Step s .other { s with
        calls := s.calls + 1
        caller := Function.update s.caller s.calls ⟨ctx, task.maxRetries⟩
        failing := (ctx, task) ::ₘ s.failing }
  | enqueueInitialRetry (s : State ι σ κ ν) (ctx : Option (Context κ ν)) (task : Task ι σ)
      (rest : Multiset (Option (Context κ ν) × Task ι σ)) (h : s.failing = (ctx, task) ::ₘ rest) :
      Step s (.enqueueInitialRetry task) (enqueueInitialRetry c { s with failing := rest } ctx task)
  | process (s : State ι σ κ ν) (q : Queue (Task ι σ)) (p p' : Processor ι σ)
      (hq : s.taskList = some q) (hp : s.processor = some p) (h : ProcessorMove s.cancelled q p p') :
      Step s .other { s with processor := some p' }
  | get (s : State ι σ κ ν) (q : Queue (Task ι σ)) (task : Task ι σ) (rest : List (Task ι σ))
      (hq : s.taskList = some q) (hp : s.processor = some .getting) (hd : q.disposed = false)
      (h : q.items = task :: rest) :
      Step s .other { s with
        taskList := some { q with items := rest }
        processor := some (.starting task) }
  | startRetry (s : State ι σ κ ν) (task : Task ι σ) (hp : s.processor = some (.starting task)) :
      Step s .other (startRetry { s with processor := some .polling } task)
  | retry (s : State ι σ κ ν) (r r' : Retry ι σ) (rest : Multiset (Retry ι σ))
      (h : s.goroutines = r ::ₘ rest) (hmove : RetryMove c s.cancelled r r') :
      Step s .other { s with goroutines := r' ::ₘ rest }
  /-- The attempt of a retry begins, with the processor's context. -/
  | attempt (s : State ι σ κ ν) (t : Task ι σ) (ch : Option ℕ) (i : ι) (ctx : Context κ ν)
      (rest : Multiset (Retry ι σ)) (h : s.goroutines = ⟨t, ch, .selected i⟩ ::ₘ rest)
      (hc : s.cancelled = false) (hctx : s.retryCtx = some ctx) :
      Step s .other { s with
        goroutines := ⟨t, ch, .invoking i⟩ ::ₘ rest
        retried := s.retried ++ [(t.call, ctx)] }
  | checkRetry (s : State ι σ κ ν) (t : Task ι σ) (ch : Option ℕ) (stop : Bool)
      (rest : Multiset (Retry ι σ)) (h : s.goroutines = ⟨t, ch, .failed⟩ ::ₘ rest) :
      Step s (.checkRetry t stop) (checkRetry { s with goroutines := ⟨t, ch, .finishing⟩ ::ₘ rest } t stop)
  | finishRetry (s : State ι σ κ ν) (t : Task ι σ) (ch : Option ℕ) (rest : Multiset (Retry ι σ))
      (h : s.goroutines = ⟨t, ch, .finishing⟩ ::ₘ rest) :
      Step s .other (finishRetry { s with goroutines := rest } ch)
  /-- `Destroy` is called. -/
  | destroy (s : State ι σ κ ν) : Step s .other { s with destroyers := s.destroyers + 1 }
  /-- `destroyOnce` runs its function. -/
  | stop (s : State ι σ κ ν) (hd : 0 < s.destroyers) (h : s.shutdown = .idle) : Step s .other (stop s)
  | wait (s : State ι σ κ ν) (late : Bool) (next : Shutdown)
      (h : WaitMove (Processor.isEnded s.processor) s.group.closed s.shutdown late next) :
      Step s .other { s with shutdown := next, timedOut := s.timedOut || late }
  | baseDestroy (s : State ι σ κ ν) (h : s.shutdown = .destroying) :
      Step s .other { baseDestroy s with shutdown := .done }
  /-- A call of `Destroy` returns. -/
  | return (s : State ι σ κ ν) (n : ℕ) (hd : s.destroyers = n + 1) (h : s.shutdown = .done) :
      Step s .other { s with destroyers := n, returned := s.returned + 1 }

/-- The states that runs get to whose steps all meet a condition on the state before and the event. -/
def ReachedBy (condition : State ι σ κ ν → Event ι σ → Prop) (s : State ι σ κ ν) : Prop :=
  Reachable (fun s => s = init) (fun s t => ∃ e, condition s e ∧ Step c s e t) s

def Reached (s : State ι σ κ ν) : Prop := ReachedBy c (fun _ _ => True) s

end Steps

/-! ## One provider -/

def oneProvider (retries tasks : Str) : Setup ℕ Unit :=
  newFailbackClusterInvoker
    { provider 0 with
      params := fun key => if key = retriesKey then some [retries] else
        if key = failBackTasksKey then some [tasks] else none }
    provider fun _ => firstOf

def helloTask (c : Setup ℕ Unit) (attachments : Str → Option Attachment) (call : ℕ) : Task ℕ Unit :=
  newRetryTimerTask c firstOf (.new (str "SayHello") [] attachments) [0] 0 call

section Hello

variable {κ ν : Type} {rets tasks : Str} {cond : State ℕ Unit κ ν → Event ℕ Unit → Prop}
  {s : State ℕ Unit κ ν} {ctx : Context κ ν}

theorem ReachedBy.helloAgain (h : ReachedBy (oneProvider rets tasks) cond s)
    (hother : ∀ s, cond s .other) (atts : Str → Option Attachment) (call : ℕ) (ch : Option ℕ)
    (rest : Multiset (Retry ℕ Unit))
    (hg : s.goroutines = ⟨helloTask (oneProvider rets tasks) atts call, ch, .begun⟩ ::ₘ rest)
    (hc : s.cancelled = false) (hctx : s.retryCtx = some ctx) :
    ReachedBy (oneProvider rets tasks) cond { s with
      goroutines :=
        ⟨helloTask (oneProvider rets tasks) atts call, ch, .invoking 0⟩ ::ₘ rest
      retried := s.retried ++ [(call, ctx)] } := by
  have h1 := h.step ⟨_, hother s, .retry s _ ⟨_, ch, .selected 0⟩ rest hg
    (.select _ ch (fun _ => true) (newBaseClusterInvoker ℕ) () 0 hc rfl)⟩
  exact h1.step ⟨_, hother _, .attempt _ _ ch 0 ctx rest rfl hc hctx⟩

def firstRetry (c : Setup ℕ Unit) (ctx : Option (Context κ ν)) : State ℕ Unit κ ν :=
  { init with
    taskList := some .new
    retryCtx := some (ctx.getD background)
    processor := some .polling
    group := CompletionGroup.new.join
    goroutines := ⟨helloTask c (fun _ => none) 0, some 0, .begun⟩ ::ₘ 0
    calls := 1
    caller := Function.update (fun _ => ⟨none, 0⟩) 0 ⟨ctx, c.maxRetries⟩
    creator := some 0
    started := 1 }

theorem reachedBy_firstRetry (ctx : Option (Context κ ν)) (hother : ∀ s, cond s .other) (henqueue : ∀ s, cond s
      (.enqueueInitialRetry (helloTask (oneProvider rets tasks) (fun _ => none) 0))) :
    ReachedBy (oneProvider rets tasks) cond (firstRetry (oneProvider rets tasks) ctx) := by
  have h0 : ReachedBy (oneProvider rets tasks) cond init := .init rfl
  have h1 := h0.step ⟨_, hother _, .invoke _ ctx (.new (str "SayHello") [] fun _ => none) 0 [] (fun _ => true)
    (newBaseClusterInvoker ℕ) () 0 firstOf _ rfl rfl rfl rfl rfl⟩
  have h2 := h1.step ⟨_, henqueue _, .enqueueInitialRetry _ ctx _ 0 rfl⟩
  rw [enqueueInitialRetry_of_none rfl rfl rfl] at h2
  have h3 := h2.step ⟨_, hother _, .process _ _ _ _ rfl rfl .tick⟩
  have h4 := h3.step ⟨_, hother _, .process _ _ _ _ rfl rfl (.poll rfl)⟩
  have h5 := h4.step ⟨_, hother _, .process _ _ _ _ rfl rfl (.peekDue rfl (List.cons_ne_nil _ _))⟩
  have h6 := h5.step ⟨_, hother _, .get _ _ _ _ rfl rfl rfl rfl⟩
  exact h6.step ⟨_, hother _, .startRetry _ _ rfl⟩

def secondCall (c : Setup ℕ Unit) (ctx ctx' : Option (Context κ ν))
    (attachments : Str → Option Attachment) : State ℕ Unit κ ν :=
  { firstRetry c ctx with
    taskList := some ⟨[helloTask c attachments 1], false⟩
    calls := 2
    caller := Function.update (firstRetry c ctx).caller 1 ⟨ctx', (helloTask c attachments 1).maxRetries⟩ }

theorem reachedBy_secondCall {ctx : Option (Context κ ν)}
    (h : ReachedBy (oneProvider rets tasks) cond (firstRetry (oneProvider rets tasks) ctx))
    (hother : ∀ s, cond s .other) (ctx' : Option (Context κ ν)) (atts : Str → Option Attachment) (henqueue : ∀ s, cond s
      (.enqueueInitialRetry (helloTask (oneProvider rets tasks) atts 1))) : ReachedBy (oneProvider rets tasks) cond
      (secondCall (oneProvider rets tasks) ctx ctx' atts) := by
  have hfree : ((([] : List (Task ℕ Unit)).length : ℕ) : ℤ) < (oneProvider rets tasks).failbackTasks :=
    (oneProvider rets tasks).failbackTasks_pos
  have h1 := h.step ⟨_, hother _, .invoke _ ctx' (.new (str "SayHello") [] atts) 0 [] (fun _ => true)
    (newBaseClusterInvoker ℕ) () 0 firstOf _ rfl rfl rfl rfl rfl⟩
  have h2 := h1.step ⟨_, henqueue _, .enqueueInitialRetry _ ctx' _ 0 rfl⟩
  rw [enqueueInitialRetry_of_some rfl rfl rfl hfree] at h2
  exact h2

end Hello

end DubboGo.Cluster.Failback
