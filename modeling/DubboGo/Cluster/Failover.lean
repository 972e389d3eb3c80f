import DubboGo.Cluster.ClusterInvoker
import DubboGo.Triple.Error

/-!
# The failover cluster invoker

`failoverClusterInvoker.Invoke` of `cluster/cluster/failover/cluster_invoker.go`: one attempt after the other, each on
an invoker selected from what the directory lists then, until one succeeds or fails with a business error.
-/

namespace DubboGo.Cluster.Failover

open Go Common Protocol Triple Base List

def retriesKey : Str := str "retries"
def defaultRetriesInt : ℤ := 2

def isBizError (err : GoErr) : Bool := isWireError err && codeOf err == codeBizError

/-- What the directory lists in a round, who is available, whether the cluster invoker is destroyed, and the result of
the attempt if there is one.  `methodName` is the `ActualMethodName`. -/
structure Call (ι ρ σ : Type) where
  getURL : ι → URL
  loadbalances : Str → LoadBalance ι σ
  names : Names
  invocation : RPCInvocation
  methodName : Str
  error : ρ → Option GoErr
  list : ℕ → List ι
  isAvailable : ℕ → ι → Bool
  destroyed : ℕ → Bool
  result : ℕ → ρ

/-- What `Invoke` returns: the result of an attempt, a new result with an error text, or a panic. -/
inductive Reply (ρ : Type) where
  | ofAttempt (res : ρ)
  | failed (text : Str)
  | panicked (e : RuntimeError)

/-- The variables of `Invoke` with the number of the round, the attempts made so far and, at the end,
what is returned. -/
structure State (ι ρ σ : Type) where
  round : ℕ
  i : ℤ
  invokers : List ι
  invoked : List ι
  ivk : Option ι
  res : Option ρ
  invoker : BaseClusterInvoker ι
  balancer : σ
  attempts : List (ι × ρ)
  returned : Option (Reply ρ)

namespace State

variable {ι ρ σ : Type} (s : State ι ρ σ)

/-- `continue`. -/
def next : State ι ρ σ := { s with round := s.round + 1, i := int64 (s.i + 1) }

def selected (invokers : List ι) (selected : Option ι × BaseClusterInvoker ι × σ) : State ι ρ σ :=
  { s with
    invokers := invokers, ivk := selected.1, invoker := selected.2.1, balancer := selected.2.2 }

def tried (ivk : ι) (res : ρ) : State ι ρ σ :=
  { s with
    invoked := s.invoked ++ [ivk], res := some res, attempts := s.attempts ++ [(ivk, res)] }

def finish (reply : Reply ρ) : State ι ρ σ := { s with returned := some reply }

end State

def getRetries {ι : Type} (getURL : ι → URL) (invokers : List ι) (methodName : Str)
    (invocation : RPCInvocation) : ℤ :=
  match (invocation.getAttachment retriesKey).map fun retries => parseInt retries 10 64 with
  | some (.ok rInt) => rInt
  | _ =>
    match invokers with
    | [] => defaultRetriesInt
    | first :: _ =>
      let url := getURL first
      let retries := url.getMethodParamIntValue methodName retriesKey
        (url.getParamByIntValue retriesKey defaultRetriesInt)
      if retries < 0 then defaultRetriesInt else retries

namespace Call

variable {ι ρ σ : Type} [DecidableEq ι] (c : Call ι ρ σ)

def retries : ℤ := getRetries c.getURL (c.list 0) c.methodName c.invocation

def fails (res : ρ) : Bool := ((c.error res).map fun e => !isBizError e).getD false

def start (invoker : BaseClusterInvoker ι) (balancer : σ) : State ι ρ σ where
  round := 0
  i := 0
  invokers := c.list 0
  invoked := []
  ivk := none
  res := none
  invoker := invoker
  balancer := balancer
  attempts := []
  returned := (checkInvokers c.names c.invocation (c.list 0)).map .failed

/-- The candidates of a round: from the second on the directory is asked again.  Otherwise the text of
the error that is returned. -/
def refresh (s : State ι ρ σ) : Except Str (List ι) :=
  if 0 < s.i then
    match checkWhetherDestroyed c.names (c.destroyed s.round) with
    | some text => .error text
    | none =>
      match checkInvokers c.names c.invocation (c.list s.round) with
      | some text => .error text
      | none => .ok (c.list s.round)
  else .ok s.invokers

def loadBalance : LoadBalance ι σ :=
  getLoadBalance c.loadbalances (((c.list 0).head?.map c.getURL).getD (URL.ofProvider [] [])) c.methodName

def attempt (s : State ι ρ σ) (invokers : List ι) : State ι ρ σ :=
  let s := s.selected invokers (doSelect (c.isAvailable s.round) c.getURL c.loadBalance c.invocation
    s.invoker invokers s.invoked s.balancer)
  match s.ivk with
  | none => s.next
  | some ivk =>
    let res := c.result s.round
    let s := s.tried ivk res
    if c.fails res then s.next else s.finish (.ofAttempt res)

def afterLoop (s : State ι ρ σ) : Reply ρ :=
  match s.ivk, s.res with
  | none, _ =>
    .failed (str "failed to invoke the method " ++ c.methodName ++ str " of the service " ++
      c.names.service ++ str " .No provider is available because can't connect server")
  | some _, some res => .ofAttempt res
  | some _, none => .panicked .nilPointer

def step (s : State ι ρ σ) : State ι ρ σ :=
  if s.returned.isSome then s
  else if s.i ≤ c.retries then
    match c.refresh s with
    | .error text => s.finish (.failed text)
    | .ok invokers => c.attempt s invokers
  else s.finish (c.afterLoop s)

/-- `Invoke` after a number of steps. -/
def run (invoker : BaseClusterInvoker ι) (balancer : σ) (n : ℕ) : State ι ρ σ :=
  c.step^[n] (c.start invoker balancer)

/-! ## Rounds -/

/-- The round has an invoker to try: its candidates are not a single unavailable one. -/
def Selects (k : ℕ) : Prop := ¬ ∃ i, c.list k = [i] ∧ c.isAvailable k i = false

/-- The directory lists nobody in the round, or the cluster invoker is found to be destroyed. -/
def Down (k : ℕ) : Prop := c.list k = [] ∨ 0 < k ∧ c.destroyed k = true

def Ends (k : ℕ) : Prop := c.Down k ∨ c.Selects k ∧ c.fails (c.result k) = false

variable {c}

/-- The call is before a round: every attempt so far failed, and the last round left the invoker and
the result of its attempt, or no invoker if it made none. -/
structure Running (c : Call ι ρ σ) (k : ℕ) (s : State ι ρ σ) : Prop where
  round : s.round = k
  counter : s.i = k
  running : s.returned = none
  candidates : k = 0 → s.invokers = c.list 0
  check : s.invoker.availableCheck = true
  failing : ∀ a ∈ s.attempts, c.fails a.2 = true
  bounded : s.attempts.length ≤ k
  attempted : s.attempts ≠ [] ↔ ∃ j < k, c.Selects j
  last : (s.ivk = none ∧ ∀ j, j + 1 = k → ¬ c.Selects j) ∨
    ∃ before i res, s.ivk = some i ∧ s.res = some res ∧ s.attempts = before ++ [(i, res)] ∧
      ∃ j, j + 1 = k ∧ c.Selects j

variable {k : ℕ} {s : State ι ρ σ}

omit [DecidableEq ι] in
theorem running_start (hc : invoker.availableCheck = true) (balancer : σ) (h0 : c.list 0 ≠ []) :
    Running c 0 (c.start invoker balancer) where
  round := rfl
  counter := rfl
  running := by
    dsimp only [start]
    rw [checkInvokers_eq_none.2 h0]
    rfl
  candidates := fun _ => rfl
  check := hc
  failing := by
    intro a ha
    cases ha
  bounded := le_rfl
  attempted := by simp [start]
  last := by
    left
    refine ⟨rfl, ?_⟩
    intro j hj
    omega

omit [DecidableEq ι] in
theorem refresh_of_not_down (h : Running c k s) (hd : ¬ c.Down k) : c.refresh s = .ok (c.list k) := by
  rw [Down, not_or, not_and, Bool.not_eq_true] at hd
  unfold refresh
  rw [h.counter, h.round]
  by_cases hk : 0 < k
  · rw [if_pos (by exact_mod_cast hk), checkWhetherDestroyed_eq_none.2 (hd.2 hk)]
    rw [checkInvokers_eq_none.2 hd.1]
  · have hz : k = 0 := by omega
    subst hz
    rw [if_neg (by simp), h.candidates rfl]

omit [DecidableEq ι] in
theorem refresh_of_down (h : Running c k s) (h0 : c.list 0 ≠ []) (hd : c.Down k) :
    ∃ text, c.refresh s = .error text := by
  have hk : 0 < k := by
    rcases hd with hnil | ⟨hk, -⟩
    · by_contra hz
      have hz : k = 0 := by omega
      rw [hz] at hnil
      exact h0 hnil
    · exact hk
  unfold refresh
  rw [h.counter, h.round, if_pos (by exact_mod_cast hk)]
  cases hx : checkWhetherDestroyed c.names (c.destroyed k) with
  | some text => exact ⟨text, rfl⟩
  | none =>
    rw [checkWhetherDestroyed_eq_none] at hx
    cases hy : checkInvokers c.names c.invocation (c.list k) with
    | some text => exact ⟨text, rfl⟩
    | none =>
      rw [checkInvokers_eq_none] at hy
      rcases hd with hnil | ⟨-, hdest⟩
      · exact absurd hnil hy
      · rw [hx] at hdest
        cases hdest

theorem step_of_running (h : Running c k s) (hk : (k : ℤ) ≤ c.retries) :
    c.step s = match c.refresh s with
      | .error text => s.finish (.failed text)
      | .ok invokers => c.attempt s invokers := by
  unfold step
  rw [h.running, if_neg (by simp), if_pos (by rw [h.counter]; exact hk)]

theorem attempt_cases (h : Running c k s) (hd : ¬ c.Down k) :
    ∃ ivk invoker balancer, invoker.availableCheck = true ∧
      let s' := s.selected (c.list k) (ivk, invoker, balancer)
      (ivk = none ∧ ¬ c.Selects k ∧ c.attempt s (c.list k) = s'.next) ∨
      ∃ i, ivk = some i ∧ c.Selects k ∧ c.attempt s (c.list k) =
        if c.fails (c.result k) then (s'.tried i (c.result k)).next
        else (s'.tried i (c.result k)).finish (.ofAttempt (c.result k)) := by
  have hne : c.list k ≠ [] := fun hnil => hd (.inl hnil)
  have hnone : (doSelect (c.isAvailable s.round) c.getURL c.loadBalance c.invocation s.invoker
      (c.list k) s.invoked s.balancer).1 = none ↔ ¬ c.Selects k := by
    rw [doSelect_eq_none_iff h.check hne, h.round, Selects, not_not]
  have hcheck := doSelect_availableCheck (c.isAvailable s.round) c.getURL c.loadBalance c.invocation
    s.invoker (c.list k) s.invoked s.balancer
  unfold attempt
  generalize doSelect (c.isAvailable s.round) c.getURL c.loadBalance c.invocation s.invoker
    (c.list k) s.invoked s.balancer = answer at hnone hcheck ⊢
  obtain ⟨ivk, invoker, balancer⟩ := answer
  refine ⟨ivk, invoker, balancer, hcheck.trans h.check, ?_⟩
  cases ivk with
  | none => exact .inl ⟨rfl, hnone.1 rfl, rfl⟩
  | some i =>
    have hsel : c.Selects k := by
      by_contra hno
      cases hnone.2 hno
    refine .inr ⟨i, rfl, hsel, ?_⟩
    dsimp only [State.selected]
    rw [h.round]

omit [DecidableEq ι] in
theorem Running.counter_next (h : Running c k s) (hwrap : (k : ℤ) + 1 < 2 ^ 63) :
    int64 (s.i + 1) = ((k + 1 : ℕ) : ℤ) := by
  rw [h.counter, int64_of_bounds (by omega) hwrap]
  rfl

omit [DecidableEq ι] in
theorem Running.skip (h : Running c k s) (hwrap : (k : ℤ) + 1 < 2 ^ 63) (hsel : ¬ c.Selects k)
    (hcheck : invoker.availableCheck = true) (balancer : σ) :
    Running c (k + 1) (s.selected (c.list k) (none, invoker, balancer)).next := by
  have hround : s.round + 1 = k + 1 := by rw [h.round]
  refine ⟨hround, h.counter_next hwrap, h.running, fun hz => by omega, hcheck, h.failing,
    h.bounded.trans (Nat.le_succ k), ?_, .inl ⟨rfl, fun j hj => ?_⟩⟩
  · refine h.attempted.trans ⟨?_, ?_⟩
    · rintro ⟨j, hj, hs⟩
      exact ⟨j, by omega, hs⟩
    · rintro ⟨j, hj, hs⟩
      refine ⟨j, ?_, hs⟩
      rcases Nat.lt_succ_iff_lt_or_eq.1 hj with hlt | rfl
      · exact hlt
      · exact absurd hs hsel
  · have hjk : j = k := by omega
    rw [hjk]
    exact hsel

omit [DecidableEq ι] in
theorem Running.retry (h : Running c k s) (hwrap : (k : ℤ) + 1 < 2 ^ 63) (hsel : c.Selects k)
    (hfails : c.fails (c.result k) = true) (hcheck : invoker.availableCheck = true) (balancer : σ) (i : ι) :
    Running c (k + 1) ((s.selected (c.list k) (some i, invoker, balancer)).tried i (c.result k)).next := by
  have hround : s.round + 1 = k + 1 := by rw [h.round]
  refine ⟨hround, h.counter_next hwrap, h.running, fun hz => by omega, hcheck, ?_, ?_, ?_,
    .inr ⟨s.attempts, i, c.result k, rfl, rfl, rfl, k, rfl, hsel⟩⟩
  · intro a ha
    rcases mem_append.1 ha with ha | ha
    · exact h.failing a ha
    · rw [mem_singleton.1 ha]
      exact hfails
  · have hb := h.bounded
    have hlen : (s.attempts ++ [(i, c.result k)]).length = s.attempts.length + 1 := by simp
    exact hlen.trans_le (by omega)
  · have hne : s.attempts ++ [(i, c.result k)] ≠ [] := by simp
    exact ⟨fun _ => ⟨k, Nat.lt_succ_self k, hsel⟩, fun _ => hne⟩

/-- An attempt that fails and is not the last goes on to the next one. -/
theorem step_continues (h : Running c k s) (hk : (k : ℤ) ≤ c.retries) (hwrap : (k : ℤ) + 1 < 2 ^ 63)
    (he : ¬ c.Ends k) : Running c (k + 1) (c.step s) := by
  rw [Ends, not_or, not_and] at he
  obtain ⟨hd, hfail⟩ := he
  rw [step_of_running h hk, refresh_of_not_down h hd]
  obtain ⟨ivk, invoker, balancer, hcheck, ⟨rfl, hsel, heq⟩ | ⟨i, rfl, hsel, heq⟩⟩ :=
    attempt_cases h hd
  · dsimp only
    rw [heq]
    exact h.skip hwrap hsel hcheck balancer
  · have hfails : c.fails (c.result k) = true := by
      rw [← Bool.not_eq_false]
      exact hfail hsel
    dsimp only
    rw [heq, if_pos hfails]
    exact h.retry hwrap hsel hfails hcheck balancer i

/-- What a round leaves that ends the call: an error of the directory, or the result of an attempt
that is not repeated. -/
inductive Ended (c : Call ι ρ σ) (k : ℕ) (s t : State ι ρ σ) : Prop where
  | down (hd : c.Down k) (text : Str) (ha : t.attempts = s.attempts) (hr : t.returned = some (.failed text))
  | attempt (i : ι) (hf : c.fails (c.result k) = false)
      (ha : t.attempts = s.attempts ++ [(i, c.result k)])
      (hr : t.returned = some (.ofAttempt (c.result k)))

/-- The attempt that ends a call gives its result. -/
theorem step_ends (h : Running c k s) (h0 : c.list 0 ≠ []) (hk : (k : ℤ) ≤ c.retries) (he : c.Ends k) :
    Ended c k s (c.step s) := by
  rw [step_of_running h hk]
  by_cases hd : c.Down k
  · obtain ⟨text, htext⟩ := refresh_of_down h h0 hd
    rw [htext]
    exact .down hd text rfl rfl
  · obtain ⟨hsel, hfails⟩ := he.resolve_left hd
    rw [refresh_of_not_down h hd]
    obtain ⟨ivk, invoker, balancer, -, ⟨-, hno, -⟩ | ⟨i, -, -, heq⟩⟩ := attempt_cases h hd
    · exact absurd hsel hno
    · dsimp only
      rw [heq, if_neg (by rw [hfails]; decide)]
      exact .attempt i hfails rfl rfl

theorem step_exits (h : Running c k s) (hk : c.retries < k) : c.step s = s.finish (c.afterLoop s) := by
  unfold step
  rw [h.running, if_neg (by simp), if_neg (by rw [h.counter]; exact not_le.2 hk)]

theorem step_of_returned (h : s.returned.isSome = true) : c.step s = s := by
  rw [step, if_pos h]

/-! ## Whole calls -/

omit [DecidableEq ι] in
theorem retries_lt : c.retries < 2 ^ 63 := by
  have hint : ∀ text d, d < 2 ^ 63 → intOr text d < 2 ^ 63 := by
    intro text d hd
    unfold intOr
    split
    · rename_i r hr
      exact parseInt_lt hr
    · exact hd
  have hdefault : defaultRetriesInt < 2 ^ 63 := by decide
  unfold retries getRetries
  split
  · rename_i r hr
    obtain ⟨text, -, hparse⟩ := Option.map_eq_some_iff.1 hr
    exact parseInt_lt hparse
  · split
    · exact hdefault
    · dsimp only
      split_ifs with hneg
      · exact hdefault
      · exact hint _ _ (hint _ _ hdefault)

section Run

variable {invoker : BaseClusterInvoker ι} {balancer : σ} {k : ℕ}

theorem run_succ (n : ℕ) : c.run invoker balancer (n + 1) = c.step (c.run invoker balancer n) :=
  Function.iterate_succ_apply' c.step n _

theorem run_of_returned {m n : ℕ} (h : (c.run invoker balancer m).returned.isSome = true)
    (hn : m ≤ n) : c.run invoker balancer n = c.run invoker balancer m := by
  induction n, hn using Nat.le_induction with
  | base => rfl
  | succ n _ ih => rw [run_succ, ih, step_of_returned h]

theorem run_running (hc : invoker.availableCheck = true) (h0 : c.list 0 ≠ [])
    (hk : ∀ j < k, (j : ℤ) ≤ c.retries ∧ (j : ℤ) + 1 < 2 ^ 63 ∧ ¬ c.Ends j) :
    Running c k (c.run invoker balancer k) := by
  induction k with
  | zero => exact running_start hc balancer h0
  | succ k ih =>
    obtain ⟨hle, hwrap, he⟩ := hk k (Nat.lt_succ_self k)
    rw [run_succ]
    exact step_continues (ih fun j hj => hk j (Nat.lt_succ_of_lt hj)) hle hwrap he

/-- A call comes to its end after a number of rounds: in a round that ends it, or because no round is
left. -/
structure Outcome (c : Call ι ρ σ) (invoker : BaseClusterInvoker ι) (balancer : σ) (k : ℕ) : Prop where
  running : ∀ n ≤ k, Running c n (c.run invoker balancer n)
  final : ∀ n, k < n → c.run invoker balancer n = c.run invoker balancer (k + 1)
  how : ((k : ℤ) ≤ c.retries ∧ c.Ends k ∧
      Ended c k (c.run invoker balancer k) (c.run invoker balancer (k + 1))) ∨
    (k = (c.retries + 1).toNat ∧ (∀ j < k, ¬ c.Ends j) ∧
      c.run invoker balancer (k + 1) = (c.run invoker balancer k).finish (c.afterLoop (c.run invoker balancer k)))

theorem exists_outcome (hc : invoker.availableCheck = true) (balancer : σ) (h0 : c.list 0 ≠ [])
    (hwrap : c.retries = 2 ^ 63 - 1 → ∃ k : ℕ, (k : ℤ) ≤ c.retries ∧ c.Ends k) : ∃ k, Outcome c invoker balancer k := by
  classical
  have hmax := retries_lt (c := c)
  by_cases he : ∃ k : ℕ, (k : ℤ) ≤ c.retries ∧ c.Ends k
  · -- the first round that ends the call
    obtain ⟨hk, hend⟩ := Nat.find_spec he
    have hbefore : ∀ j < Nat.find he, (j : ℤ) ≤ c.retries ∧ (j : ℤ) + 1 < 2 ^ 63 ∧ ¬ c.Ends j := by
      intro j hj
      have hle : (j : ℤ) ≤ c.retries := by omega
      exact ⟨hle, by omega, fun h => Nat.find_min he hj ⟨hle, h⟩⟩
    have hrun : ∀ n ≤ Nat.find he, Running c n (c.run invoker balancer n) :=
      fun n hn => run_running hc h0 fun j hj => hbefore j (by omega)
    have hended := step_ends (hrun _ le_rfl) h0 hk hend
    rw [← run_succ] at hended
    refine ⟨Nat.find he, hrun, fun n hn => run_of_returned ?_ hn, .inl ⟨hk, hend, hended⟩⟩
    cases hended with
    | down _ text _ hr => rw [hr]; rfl
    | attempt _ _ _ hr => rw [hr]; rfl
  · have hlt : c.retries + 1 < 2 ^ 63 := by
      by_contra hno
      exact he (hwrap (by omega))
    have hrounds : ∀ j < (c.retries + 1).toNat, (j : ℤ) ≤ c.retries := fun j hj => by omega
    have hgo : ∀ j < (c.retries + 1).toNat, ¬ c.Ends j :=
      fun j hj hend => he ⟨j, hrounds j hj, hend⟩
    have hrun : ∀ n ≤ (c.retries + 1).toNat, Running c n (c.run invoker balancer n) := by
      intro n hn
      apply run_running hc h0
      intro j hj
      have hle := hrounds j (by omega)
      exact ⟨hle, by omega, hgo j (by omega)⟩
    have hexit := step_exits (hrun _ le_rfl) (by omega)
    rw [← run_succ] at hexit
    refine ⟨(c.retries + 1).toNat, hrun, fun n hn => run_of_returned ?_ hn, .inr ⟨rfl, hgo, hexit⟩⟩
    rw [hexit]
    rfl

theorem Outcome.attempts_cases (o : Outcome c invoker balancer k) (n : ℕ) :
    (∀ a ∈ (c.run invoker balancer n).attempts, c.fails a.2 = true) ∨
      ∃ bef i res, (c.run invoker balancer n).attempts = bef ++ [(i, res)] ∧
        (∀ a ∈ bef, c.fails a.2 = true) ∧ c.fails res = false ∧
        (c.run invoker balancer n).returned = some (.ofAttempt res) := by
  rcases le_or_gt n k with hn | hn
  · exact .inl (o.running n hn).failing
  · have hfailing := (o.running k le_rfl).failing
    rw [o.final n hn]
    rcases o.how with ⟨-, -, hended⟩ | ⟨-, -, hexit⟩
    · cases hended with
      | down _ _ ha _ =>
        rw [ha]
        exact .inl hfailing
      | attempt i hf ha hr => exact .inr ⟨_, i, _, ha, hfailing, hf, hr⟩
    · rw [hexit]
      exact .inl hfailing

theorem Outcome.attempts_length_le (o : Outcome c invoker balancer k) (n : ℕ) :
    ((c.run invoker balancer n).attempts.length : ℤ) ≤ max c.retries 0 + 1 := by
  have hk : (k : ℤ) ≤ c.retries ∨ k = (c.retries + 1).toNat := o.how.imp And.left And.left
  have hbounded := (o.running k le_rfl).bounded
  rcases le_or_gt n k with hn | hn
  · have hb := (o.running n hn).bounded
    omega
  · rw [o.final n hn]
    rcases o.how with ⟨hle, -, hended⟩ | ⟨heq, -, hexit⟩
    · cases hended with
      | down _ _ ha _ =>
        rw [ha]
        omega
      | attempt i hf ha hr =>
        rw [ha, length_append, length_singleton]
        omega
    · rw [hexit]
      dsimp only [State.finish]
      omega

end Run

/-- At least one attempt if somebody is available at first, no more than the retries allow; the first result that is
not to be repeated is the last one and is returned, and otherwise that of the last attempt, if there was one and the
directory was never down. -/
structure Reports (c : Call ι ρ σ) (invoker : BaseClusterInvoker ι) (balancer : σ) : Prop where
  attempted : (∃ i ∈ c.list 0, c.isAvailable 0 i = true) → ∃ n, (c.run invoker balancer n).attempts ≠ []
  bounded : ∀ n, ((c.run invoker balancer n).attempts.length : ℤ) ≤ max c.retries 0 + 1
  stops : ∀ n before a after, (c.run invoker balancer n).attempts = before ++ a :: after →
    c.fails a.2 = false → after = [] ∧ (c.run invoker balancer n).returned = some (.ofAttempt a.2)
  reported : (∀ n, ∀ a ∈ (c.run invoker balancer n).attempts, c.fails a.2 = true) →
    (∃ n, (c.run invoker balancer n).attempts ≠ []) →
    (∀ k : ℕ, (k : ℤ) ≤ c.retries → ¬ c.Down k) →
    ∃ n before a, (c.run invoker balancer n).attempts = before ++ [a] ∧
      (c.run invoker balancer n).returned = some (.ofAttempt a.2)

/-- The retries are not negative unless nobody is available at first, the counter does not run over, and a last round
without an attempt follows rounds without one. -/
structure Meets (c : Call ι ρ σ) : Prop where
  retries : (∃ i ∈ c.list 0, c.isAvailable 0 i = true) → 0 ≤ c.retries
  counter : c.retries = 2 ^ 63 - 1 → ∃ k : ℕ, (k : ℤ) ≤ c.retries ∧ c.Ends k
  lastRound : ∀ k : ℕ, (k : ℤ) = c.retries → (∀ j ≤ k, ¬ c.Ends j) → c.Selects k ∨ ∀ j ≤ k, ¬ c.Selects j

variable {ivk : BaseClusterInvoker ι} {lb : σ}

theorem attempts_of_list_nil (h0 : c.list 0 = []) (n : ℕ) : (c.run ivk lb n).attempts = [] := by
  have hret : (c.run ivk lb 0).returned.isSome = true := by
    dsimp only [run, Function.iterate_zero, id, start]
    rw [h0]
    rfl
  rw [run_of_returned hret (Nat.zero_le n)]
  rfl

omit [DecidableEq ι] in
theorem selects_of_available (h : ∃ i ∈ c.list k, c.isAvailable k i = true) : c.Selects k := by
  rintro ⟨j, hj, hno⟩
  obtain ⟨i, hi, ha⟩ := h
  rw [hj, mem_singleton] at hi
  rw [hi, hno] at ha
  cases ha

omit [DecidableEq ι] in
theorem list_ne_nil_of_available (h : ∃ i ∈ c.list k, c.isAvailable k i = true) : c.list k ≠ [] := by
  obtain ⟨i, hi, -⟩ := h
  exact ne_nil_of_mem hi

theorem eq_last_of_not_mem {α : Type} {bef after l : List α} {a x : α}
    (h : bef ++ a :: after = l ++ [x]) (ha : a ∉ l) : after = [] ∧ a = x := by
  rcases eq_nil_or_concat after with rfl | ⟨rest, y, rfl⟩
  · exact ⟨rfl, singleton_injective (append_inj' h rfl).2⟩
  · rw [concat_eq_append, ← cons_append, ← append_assoc] at h
    have hl := (append_inj' h rfl).1
    rw [← hl] at ha
    simp at ha

theorem Outcome.stops (o : Outcome c ivk lb k) (n : ℕ) (bef : List (ι × ρ)) (a : ι × ρ)
    (after : List (ι × ρ)) (ha : (c.run ivk lb n).attempts = bef ++ a :: after)
    (hf : c.fails a.2 = false) : after = [] ∧ (c.run ivk lb n).returned = some (.ofAttempt a.2) := by
  rcases o.attempts_cases n with hall | ⟨l, i, res, heq, hl, -, hret⟩
  · have hfail := hall a (by rw [ha]; simp)
    rw [hf] at hfail
    cases hfail
  · rw [heq] at ha
    obtain ⟨hnil, rfl⟩ := eq_last_of_not_mem ha.symm fun hmem => by
      have hfail := hl a hmem
      rw [hf] at hfail
      cases hfail
    exact ⟨hnil, hret⟩

theorem attempts_of_available (hc : ivk.availableCheck = true) (lb : σ)
    (hav : ∃ i ∈ c.list 0, c.isAvailable 0 i = true) (hr : 0 ≤ c.retries) : (c.run ivk lb 1).attempts ≠ [] := by
  have hsel := selects_of_available hav
  have h0 := list_ne_nil_of_available hav
  have hrun : Running c 0 (c.run ivk lb 0) := running_start hc lb h0
  rw [run_succ]
  by_cases he : c.Ends 0
  · cases step_ends hrun h0 hr he with
    | down hd _ _ _ =>
      rcases hd with hnil | ⟨hlt, -⟩
      · exact absurd hnil h0
      · exact absurd hlt (lt_irrefl 0)
    | attempt i _ ha _ =>
      rw [ha]
      simp
  · have hnext := step_continues hrun hr (by norm_num) he
    exact hnext.attempted.2 ⟨0, Nat.zero_lt_one, hsel⟩

theorem reports_of_list_nil (h0 : c.list 0 = []) : Reports c ivk lb := by
  have hnone : ∀ n, (c.run ivk lb n).attempts = [] := attempts_of_list_nil h0
  refine ⟨?_, ?_, ?_, ?_⟩
  · rintro ⟨i, hi, -⟩
    rw [h0] at hi
    cases hi
  · intro n
    rw [hnone n]
    simp only [length_nil, Nat.cast_zero]
    omega
  · intro n bef a after ha
    rw [hnone n] at ha
    simp at ha
  · rintro - ⟨n, hn⟩
    exact absurd (hnone n) hn

theorem Outcome.selects_of_attempts (o : Outcome c ivk lb k) (hexit : c.run ivk lb (k + 1) =
      (c.run ivk lb k).finish (c.afterLoop (c.run ivk lb k))) {n : ℕ}
    (hn : (c.run ivk lb n).attempts ≠ []) : ∃ j < k, c.Selects j := by
  rcases le_or_gt n k with hle | hlt
  · obtain ⟨j, hj, hs⟩ := (o.running n hle).attempted.1 hn
    exact ⟨j, by omega, hs⟩
  · rw [o.final n hlt, hexit] at hn
    exact (o.running k le_rfl).attempted.1 hn

theorem Outcome.reported_of_selects {m : ℕ} (o : Outcome c ivk lb (m + 1)) (hexit : c.run ivk lb (m + 1 + 1) =
      (c.run ivk lb (m + 1)).finish (c.afterLoop (c.run ivk lb (m + 1)))) (hlast : c.Selects m) :
    ∃ n bef a, (c.run ivk lb n).attempts = bef ++ [a] ∧ (c.run ivk lb n).returned = some (.ofAttempt a.2) := by
  rcases (o.running (m + 1) le_rfl).last with ⟨-, hno⟩ | ⟨bef, i, res, hivk, hres, hatt, -⟩
  · exact absurd hlast (hno m rfl)
  · refine ⟨m + 1 + 1, bef, (i, res), ?_, ?_⟩
    · rw [hexit]
      exact hatt
    · rw [hexit]
      dsimp only [State.finish, afterLoop]
      rw [hivk, hres]

theorem reports_of_meets (hc : ivk.availableCheck = true) (lb : σ) (h : Meets c) : Reports c ivk lb := by
  by_cases h0 : c.list 0 = []
  · exact reports_of_list_nil h0
  · obtain ⟨k, o⟩ := exists_outcome hc lb h0 h.counter
    refine ⟨fun hav => ⟨1, attempts_of_available hc lb hav (h.retries hav)⟩, o.attempts_length_le, o.stops, ?_⟩
    rintro hall ⟨n, hn⟩ hup
    rcases o.how with ⟨hle, -, hended⟩ | ⟨hk, hgo, hexit⟩
    · -- the round that ended the call found the directory down or made an attempt that counts
      cases hended with
      | down hd _ _ _ => exact absurd hd (hup k hle)
      | attempt i hf ha _ =>
        have hfail := hall (k + 1) (i, c.result k) (by rw [ha]; simp)
        rw [hf] at hfail
        cases hfail
    · -- some round selected, so there was a last one, and it selected too
      obtain ⟨j, hj, hs⟩ := o.selects_of_attempts hexit hn
      obtain ⟨m, rfl⟩ : ∃ m, k = m + 1 := ⟨k - 1, by omega⟩
      have hm : (m : ℤ) = c.retries := by omega
      rcases h.lastRound m hm fun j hj => hgo j (by omega) with hsel | hno
      · exact o.reported_of_selects hexit hsel
      · exact absurd hs (hno j (by omega))

theorem Outcome.attempts_of_neg (o : Outcome c ivk lb k) (hneg : c.retries < 0) (n : ℕ) :
    (c.run ivk lb n).attempts = [] := by
  rcases o.how with ⟨hle, -, -⟩ | ⟨hk, -, hexit⟩
  · omega
  · have hz : k = 0 := by omega
    subst hz
    have hnil : (c.run ivk lb 0).attempts = [] :=
      length_eq_zero_iff.1 (Nat.le_zero.1 (o.running 0 le_rfl).bounded)
    rcases Nat.eq_zero_or_pos n with rfl | hpos
    · exact hnil
    · rw [o.final n hpos, hexit]
      exact hnil

theorem Outcome.hides {m : ℕ} (o : Outcome c ivk lb k) (hm : (m : ℤ) = c.retries)
    (hgo : ∀ j ≤ m, ¬ c.Ends j) (hlast : ¬ c.Selects m) :
    k = m + 1 ∧ (∀ n, ∀ a ∈ (c.run ivk lb n).attempts, c.fails a.2 = true) ∧
      ∀ n res, (c.run ivk lb n).returned ≠ some (.ofAttempt res) := by
  rcases o.how with ⟨hle, hend, -⟩ | ⟨hk, -, hexit⟩
  · exact absurd hend (hgo k (by omega))
  · have hkm : k = m + 1 := by omega
    have hrunning := o.running k le_rfl
    have hivk : (c.run ivk lb k).ivk = none := by
      rcases hrunning.last with ⟨hivk, -⟩ | ⟨-, -, -, -, -, -, j, hj, hs⟩
      · exact hivk
      · have hjm : j = m := by omega
        rw [hjm] at hs
        exact absurd hs hlast
    refine ⟨hkm, fun n => ?_, fun n res => ?_⟩
    · rcases le_or_gt n k with hle | hlt
      · exact (o.running n hle).failing
      · rw [o.final n hlt, hexit]
        exact hrunning.failing
    · rcases le_or_gt n k with hle | hlt
      · rw [(o.running n hle).running]
        intro h
        cases h
      · rw [o.final n hlt, hexit]
        dsimp only [State.finish, afterLoop]
        rw [hivk]
        intro h
        cases h

theorem meets_of_reports (hc : ivk.availableCheck = true) (hmax : c.retries < 2 ^ 63 - 1)
    (h : Reports c ivk lb) : Meets c := by
  have hwrap : c.retries = 2 ^ 63 - 1 → ∃ k : ℕ, (k : ℤ) ≤ c.retries ∧ c.Ends k := fun h => by omega
  refine ⟨fun hav => ?_, hwrap, fun m hm hgo => ?_⟩
  · by_contra hneg
    obtain ⟨k, o⟩ := exists_outcome hc lb (list_ne_nil_of_available hav) hwrap
    obtain ⟨n, hn⟩ := h.attempted hav
    exact hn (o.attempts_of_neg (not_le.1 hneg) n)
  · by_contra hno
    rw [not_or] at hno
    obtain ⟨hlast, hsome⟩ := hno
    have h0 : c.list 0 ≠ [] := fun hnil => hgo 0 (Nat.zero_le m) (.inl (.inl hnil))
    obtain ⟨k, o⟩ := exists_outcome hc lb h0 hwrap
    obtain ⟨rfl, hfailing, hhidden⟩ := o.hides hm hgo hlast
    have hatt : (c.run ivk lb (m + 1)).attempts ≠ [] := by
      rw [(o.running (m + 1) le_rfl).attempted]
      by_contra hnone
      refine hsome fun j hj hs => hnone ⟨j, by omega, hs⟩
    have hup : ∀ k : ℕ, (k : ℤ) ≤ c.retries → ¬ c.Down k :=
      fun k hk hd => hgo k (by omega) (.inl hd)
    obtain ⟨n, bef, a, -, hret⟩ := h.reported hfailing ⟨m + 1, hatt⟩ hup
    exact hhidden n a.2 hret

end Call

/-- A call reports what happened just if its retries are not negative and its last round does not lose
an attempt, for every number of retries that a counter can pass. -/
theorem reports_iff_meets {ι ρ σ : Type} [DecidableEq ι] (c : Call ι ρ σ) (remembered : Option ι)
    (balancer : σ) :
    let invoker := { newBaseClusterInvoker ι with stickyInvoker := remembered }
    (c.Meets → c.Reports invoker balancer) ∧
      (c.retries < 2 ^ 63 - 1 → c.Reports invoker balancer → c.Meets) :=
  ⟨Call.reports_of_meets rfl balancer, Call.meets_of_reports rfl⟩

def helloCall (attachments : Str → Option Attachment) (isAvailable : ℕ → Bool) : Call ℕ (Option GoErr) Unit where
  getURL := provider
  loadbalances := fun _ => firstOf
  names :=
    { subURLKey := str "org.apache.demo.HelloService", service := str "org.apache.demo.HelloService"
      registry := str "registry://127.0.0.1:2181", ip := str "10.0.0.9" }
  invocation := .new (str "SayHello") [] attachments
  methodName := str "SayHello"
  error := id
  list := fun _ => [0]
  isAvailable := fun k _ => isAvailable k
  destroyed := fun _ => false
  result := fun _ => some (.plain (str "connection refused"))

/-- Three attempts fail and the last one's result is returned. -/
theorem reports_three_failures : (helloCall (fun _ => none) fun _ => true).Reports (newBaseClusterInvoker ℕ) () := by
  refine (reports_iff_meets (helloCall (fun _ => none) fun _ => true) none ()).1 ⟨?_, ?_, ?_⟩
  · intro _
    decide
  · intro h
    exact absurd h (by decide)
  · intro k _ _
    left
    rintro ⟨i, -, hi⟩
    cases hi

/-- A call with negative retries in its attachments, while the provider is available. -/
def negativeCall : Call ℕ (Option GoErr) Unit :=
  helloCall (fun key => if key = retriesKey then some (.text (str "-1")) else none) fun _ => true

/-- A call with the default retries, whose provider becomes unavailable after the first attempt. -/
def leavingCall : Call ℕ (Option GoErr) Unit := helloCall (fun _ => none) fun k => k == 0

/-- With negative retries no attempt is made; with the provider gone in the last round the result of
the attempt is lost. -/
theorem retries_lose_attempts :
    ((∃ i ∈ negativeCall.list 0, negativeCall.isAvailable 0 i = true) ∧
      ∀ n, (negativeCall.run (newBaseClusterInvoker ℕ) () n).attempts = []) ∧
    (leavingCall.run (newBaseClusterInvoker ℕ) () 4).attempts = [(0, some (.plain (str "connection refused")))] ∧
    (leavingCall.run (newBaseClusterInvoker ℕ) () 4).returned =
      some (.failed (str "failed to invoke the method SayHello of the service " ++
        str "org.apache.demo.HelloService .No provider is available because " ++
        str "can't connect server")) := by
  refine ⟨⟨⟨0, by decide, rfl⟩, fun n => ?_⟩, rfl, rfl⟩
  have hc : (newBaseClusterInvoker ℕ).availableCheck = true := rfl
  have hne : negativeCall.list 0 ≠ [] := by decide
  have hneg : negativeCall.retries = -1 := by decide
  obtain ⟨k, o⟩ := Call.exists_outcome (c := negativeCall) hc () hne fun h => absurd (hneg.symm.trans h) (by decide)
  exact o.attempts_of_neg (by rw [hneg]; decide) n

end DubboGo.Cluster.Failover
