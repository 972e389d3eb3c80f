import DubboGo.Cluster.ClusterInvoker

/-!
# The forking cluster invoker

`forkingClusterInvoker.Invoke` of `cluster/cluster/forking/cluster_invoker.go`: several invokers are called at
once, and the first result that arrives is returned.
-/

namespace DubboGo.Cluster.Forking

open Go Common Protocol Base List

def forksKey : Str := str "forks"
def defaultForks : ℤ := 2
def defaultTimeout : ℤ := 1000

/-- A result that a goroutine puts into the queue, and the nanoseconds since `Poll` was called. -/
structure Arrival (ι ρ : Type) where
  ivk : ι
  result : Option ρ
  after : ℤ

/-- The arrival comes before the timeout; one that is not positive never ends. -/
def Arrival.Before {ι ρ : Type} (timeout : ℤ) (a : Arrival ι ρ) : Prop := timeout ≤ 0 ∨ a.after < timeout

instance {ι ρ : Type} (timeout : ℤ) (a : Arrival ι ρ) : Decidable (a.Before timeout) :=
  inferInstanceAs (Decidable (_ ∨ _))

/-- The queue of `go-datastructures`: what `Poll(1, timeout)` returns of the results that are put into it, or the
text of its error; nothing if it waits for ever. -/
structure ResultQueue (ι ρ : Type) where
  poll : ℤ → List (Arrival ι ρ) → Option (Except Str (List (Option ρ)))
  /-- The first result is returned if it comes before the timeout. -/
  poll_first : ∀ timeout a arrivals, a.Before timeout → poll timeout (a :: arrivals) = some (.ok [a.result])

/-- A call and its surroundings: what the directory lists, which invokers are available when the next one is
selected, whether a result has an error, and how `%v` prints invokers. -/
structure Call (ι ρ σ : Type) where
  url : URL
  getURL : ι → URL
  loadbalances : Str → LoadBalance ι σ
  names : Names
  invocation : RPCInvocation
  methodName : Str
  destroyed : Bool
  invokers : List ι
  isAvailable : ℕ → ι → Bool
  fails : ρ → Bool
  print : List ι → Str
  resultQ : ResultQueue ι ρ

/-- What `Invoke` returns: the result of an invoker, or a new one with an error. -/
inductive Reply (ρ : Type) where
  | ofInvoker (res : ρ)
  | failed (text : Str)
  deriving DecidableEq

/-- The variables of the loop that selects the invokers. -/
structure Selection (ι σ : Type) where
  selected : List ι
  invoker : BaseClusterInvoker ι
  balancer : σ

namespace Call

variable {ι ρ σ : Type} [DecidableEq ι] (c : Call ι ρ σ)

def forks : ℤ := c.url.getParamByIntValue forksKey defaultForks

/-- `time.Millisecond * time.Duration(timeouts)`. -/
def timeouts : ℤ := int64 (c.url.getParamInt timeoutKey defaultTimeout * 1000000)

def loadBalance : LoadBalance ι σ :=
  getLoadBalance c.loadbalances ((c.invokers.head?.map c.getURL).getD (URL.ofProvider [] [])) c.methodName

def doSelect (s : Selection ι σ) (k : ℕ) : Option ι × BaseClusterInvoker ι × σ :=
  Base.doSelect (c.isAvailable k) c.getURL c.loadBalance c.invocation s.invoker c.invokers s.selected s.balancer

def selectNext (s : Selection ι σ) (k : ℕ) : Selection ι σ :=
  let r := c.doSelect s k
  ⟨s.selected ++ r.1.toList, r.2.1, r.2.2⟩

def selectForks (s : Selection ι σ) (n : ℕ) : Selection ι σ := (range n).foldl c.selectNext s

/-- `selected`: the invokers that are called. -/
def selected (invoker : BaseClusterInvoker ι) (balancer : σ) : List ι :=
  if c.forks < 0 ∨ c.invokers.length < c.forks then c.invokers
  else (c.selectForks ⟨[], invoker, balancer⟩ c.forks.toNat).selected

/-- The text of the error with which `Invoke` returns before it calls an invoker. -/
def refusal : Option Str :=
  (checkWhetherDestroyed c.names c.destroyed).or (checkInvokers c.names c.invocation c.invokers)

def called (invoker : BaseClusterInvoker ι) (balancer : σ) : List ι :=
  if c.refusal = none then c.selected invoker balancer else []

/-- `Invoke`, with the results that arrive; `none` if it waits for ever. -/
def invoke (invoker : BaseClusterInvoker ι) (balancer : σ) (arrivals : List (Arrival ι ρ)) : Option (Reply ρ) :=
  let failed := fun text => some (Reply.failed (str "failed to forking invoke provider " ++
    c.print (c.selected invoker balancer) ++ text))
  match c.refusal with
  | some text => some (.failed text)
  | none =>
    match c.resultQ.poll c.timeouts arrivals with
    | none => none
    | some (.error err) => failed (str ", but no luck to perform the invocation. Last error is: " ++ err)
    | some (.ok []) => failed (str ", but no resp")
    | some (.ok (rsp :: _)) => rsp.elim (failed (str ", but not legal resp")) fun res => some (.ofInvoker res)

variable {c} {ivk : BaseClusterInvoker ι} {lb : σ} {arrivals : List (Arrival ι ρ)}

end Call

open Call

variable {ι ρ σ : Type} [DecidableEq ι]

/-- A queue that returns the first result, or the error of its timeout. -/
def firstResult (ι ρ : Type) : ResultQueue ι ρ where
  poll timeout arrivals :=
    match arrivals.head?.filter fun a => a.Before timeout with
    | some a => some (.ok [a.result])
    | none => if 0 < timeout then some (.error (str "queue: poll timed out")) else none
  poll_first := by
    intro timeout a arrivals h
    simp [Option.filter_some, h]

/-- Two providers, of which the results are error texts. -/
def twoProviders (isAvailable : ℕ → Bool) : Call ℕ (Option Str) Unit where
  url := URL.ofProvider [] []
  getURL := provider
  loadbalances := fun _ => firstOf
  names := ⟨[], [], [], []⟩
  invocation := sayHello
  methodName := str "SayHello"
  destroyed := false
  invokers := [0, 1]
  isAvailable := fun _ => isAvailable
  fails := Option.isSome
  print := fun _ => []
  resultQ := firstResult ℕ (Option Str)

end DubboGo.Cluster.Forking
