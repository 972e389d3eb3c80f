import DubboGo.Cluster.Failback

/-!
# The contexts of failback retries

Which values the context of a retry carries.  The context is made once, with the queue, from that of
the call that failed first (`Sourced`); it is given to the retries of all calls.
-/

namespace DubboGo.Cluster.Failback

open Go Lib

variable {ι σ κ ν : Type} [DecidableEq ι] {c : Setup ι σ} {s : State ι σ κ ν}

def valuesOf (ctx : Option (Context κ ν)) : Context κ ν := ctx.getD background

/-- The part of the state that contexts pass through: whether there is a queue, the context of the
processor, and the calls with their contexts. -/
structure History (κ ν : Type) where
  queue : Bool
  retryCtx : Option (Context κ ν)
  creator : Option ℕ
  failing : Multiset (Option (Context κ ν) × ℕ)
  calls : ℕ
  caller : ℕ → Caller κ ν
  retried : List (ℕ × Context κ ν)

def State.history (s : State ι σ κ ν) : History κ ν where
  queue := s.taskList.isSome
  retryCtx := s.retryCtx
  creator := s.creator
  failing := s.failing.map fun p => (p.1, p.2.call)
  calls := s.calls
  caller := s.caller
  retried := s.retried

/-- The steps of a history: a call fails, it gets into the queue or not, the first one making the
queue, or an attempt begins. -/
inductive HistoryStep (h : History κ ν) : History κ ν → Prop where
  | same : HistoryStep h h
  | invoke (ctx : Option (Context κ ν)) (retries : ℤ) : HistoryStep h { h with
      calls := h.calls + 1
      caller := Function.update h.caller h.calls ⟨ctx, retries⟩
      failing := (ctx, h.calls) ::ₘ h.failing }
  | leave (ctx : Option (Context κ ν)) (call : ℕ) (rest : Multiset (Option (Context κ ν) × ℕ))
      (hf : h.failing = (ctx, call) ::ₘ rest) : HistoryStep h { h with failing := rest }
  | create (ctx : Option (Context κ ν)) (call : ℕ) (rest : Multiset (Option (Context κ ν) × ℕ))
      (hf : h.failing = (ctx, call) ::ₘ rest) (hq : h.queue = false) : HistoryStep h { h with
        queue := true
        retryCtx := some (valuesOf ctx)
        creator := some call
        failing := rest }
  | attempt (call : ℕ) (ctx : Context κ ν) (hctx : h.retryCtx = some ctx) :
      HistoryStep h { h with retried := h.retried ++ [(call, ctx)] }

omit [DecidableEq ι] in
theorem putTask_history (s : State ι σ κ ν) (task : Task ι σ) : (putTask s task).history = s.history := by
  dsimp only [putTask, State.history]
  rw [Option.isSome_map]

omit [DecidableEq ι] in
theorem checkRetry_history (s : State ι σ κ ν) (task : Task ι σ) (stop : Bool) :
    (checkRetry s task stop).history = s.history := by
  unfold checkRetry enqueueRetry
  dsimp only
  split_ifs
  · rfl
  · rfl
  · exact putTask_history s _

omit [DecidableEq ι] in
theorem startRetry_history (s : State ι σ κ ν) (task : Task ι σ) : (startRetry s task).history = s.history := by
  unfold startRetry
  split_ifs <;> rfl

omit [DecidableEq ι] in
theorem enqueueInitialRetry_history (s : State ι σ κ ν) (ctx : Option (Context κ ν)) (task : Task ι σ) :
    (enqueueInitialRetry c s ctx task).history = s.history ∨
      s.taskList = none ∧ (enqueueInitialRetry c s ctx task).history = { s.history with
        queue := true
        retryCtx := some (valuesOf ctx)
        creator := some task.call } := by
  have hstart : (startProcessor s ctx task).history = s.history ∨
      s.taskList = none ∧ (startProcessor s ctx task).history = { s.history with
        queue := true
        retryCtx := some (valuesOf ctx)
        creator := some task.call } := by
    unfold startProcessor
    split
    · exact .inl rfl
    · rename_i hnone
      exact .inr ⟨hnone, rfl⟩
  unfold enqueueInitialRetry
  dsimp only
  split_ifs
  · exact .inl rfl
  · exact hstart
  · rw [putTask_history]
    exact hstart

omit [DecidableEq ι] in
theorem failing_cons {ctx : Option (Context κ ν)} {task : Task ι σ}
    {rest : Multiset (Option (Context κ ν) × Task ι σ)} (h : s.failing = (ctx, task) ::ₘ rest) :
    s.history.failing = (ctx, task.call) ::ₘ rest.map fun p => (p.1, p.2.call) := by
  dsimp only [State.history]
  rw [h, Multiset.map_cons]

/-- Of every step, what it does to the history of the calls. -/
theorem step_history {t : State ι σ κ ν} {e : Event ι σ} (h : Step c s e t) : HistoryStep s.history t.history := by
  cases h with
  | invoke ctx inv first rest isAvailable base b ivk lb task hs hd hlb hsel htask =>
    have hcall : task.call = s.calls := by rw [htask]; rfl
    have hstep := HistoryStep.invoke (h := s.history) ctx task.maxRetries
    dsimp only [State.history] at hstep ⊢
    rw [Multiset.map_cons, hcall]
    exact hstep
  | enqueueInitialRetry ctx task rest h =>
    rcases enqueueInitialRetry_history (c := c) { s with failing := rest } ctx task with
      heq | ⟨hnone, heq⟩
    · rw [heq]
      exact .leave ctx task.call _ (failing_cons h)
    · rw [heq]
      have hq : s.history.queue = false := congrArg Option.isSome hnone
      exact .create ctx task.call _ (failing_cons h) hq
  | process => exact .same
  | get q task rest hq hp hd h =>
    have heq : { s with
        taskList := some { q with items := rest }
        processor := some (.starting task) }.history = s.history := by simp [State.history, hq]
    rw [heq]
    exact .same
  | startRetry task hp =>
    rw [startRetry_history]
    exact .same
  | retry => exact .same
  | attempt t ch i ctx rest h hc hctx => exact .attempt t.call ctx hctx
  | checkRetry t ch stop rest h =>
    rw [checkRetry_history]
    exact .same
  | finishRetry => exact .same
  | destroy => exact .same
  | stop hd h =>
    have heq : (stop s).history = s.history := by simp [State.history, stop]
    rw [heq]
    exact .same
  | wait => exact .same
  | baseDestroy h =>
    have heq : { baseDestroy s with shutdown := .done }.history = s.history := by
      unfold baseDestroy
      split_ifs <;> rfl
    rw [heq]
    exact .same
  | «return» => exact .same

/-- The calls that have failed are known with their contexts; without a queue nothing was retried, and
with one every retry was given the values of the call that made it. -/
structure Sourced (h : History κ ν) : Prop where
  failing : ∀ p ∈ h.failing, p.2 < h.calls ∧ (h.caller p.2).ctx = p.1
  unmade : h.queue = false → h.retryCtx = none
  made : ∀ ctx, h.retryCtx = some ctx → ∃ i < h.calls, h.creator = some i ∧ ctx = valuesOf (h.caller i).ctx
  retried : ∀ p ∈ h.retried, h.retryCtx = some p.2

omit [DecidableEq ι] in
theorem sourced_init : Sourced (init : State ι σ κ ν).history where
  failing := by simp [State.history, init]
  unmade := fun _ => rfl
  made := by simp [State.history, init]
  retried := by simp [State.history, init]

theorem HistoryStep.sourced {h h' : History κ ν} (hs : Sourced h) (hst : HistoryStep h h') : Sourced h' := by
  cases hst with
  | same => exact hs
  | invoke ctx rets =>
    -- the new call has a number of its own, so the others keep theirs
    have hkeep : ∀ i < h.calls, Function.update h.caller h.calls ⟨ctx, rets⟩ i = h.caller i :=
      fun i hi => Function.update_of_ne hi.ne _ _
    refine ⟨fun p hp => ?_, hs.unmade, fun v hv => ?_, hs.retried⟩
    · rcases Multiset.mem_cons.1 hp with rfl | hp
      · exact ⟨Nat.lt_succ_self _, by simp⟩
      · obtain ⟨hlt, heq⟩ := hs.failing p hp
        refine ⟨Nat.lt_succ_of_lt hlt, ?_⟩
        dsimp only
        rw [hkeep p.2 hlt, heq]
    · obtain ⟨i, hi, hcreator, hval⟩ := hs.made v hv
      refine ⟨i, Nat.lt_succ_of_lt hi, hcreator, ?_⟩
      dsimp only
      rw [hkeep i hi, hval]
  | leave ctx call rest hf =>
    refine ⟨fun p hp => hs.failing p ?_, hs.unmade, hs.made, hs.retried⟩
    rw [hf]
    exact Multiset.mem_cons_of_mem hp
  | create ctx call rest hf hq =>
    have hnone := hs.unmade hq
    obtain ⟨hlt, heq⟩ := hs.failing (ctx, call) (by rw [hf]; exact Multiset.mem_cons_self _ _)
    refine ⟨fun p hp => hs.failing p ?_, fun h => ?_, fun v hv => ?_, fun p hp => ?_⟩
    · rw [hf]
      exact Multiset.mem_cons_of_mem hp
    · cases h
    · cases hv
      exact ⟨call, hlt, rfl, congrArg valuesOf heq.symm⟩
    · have hctx := hs.retried p hp
      rw [hnone] at hctx
      cases hctx
  | attempt call ctx hctx =>
    refine ⟨hs.failing, hs.unmade, hs.made, fun p hp => ?_⟩
    rcases List.mem_append.1 hp with hp | hp
    · exact hs.retried p hp
    · rw [List.mem_singleton.1 hp]
      exact hctx

theorem Reached.sourced (h : Reached c s) : Sourced s.history := by
  apply Reachable.invariant ?_ ?_ h
  · rintro s rfl
    exact sourced_init
  · rintro s t hs ⟨e, -, hst⟩
    exact (step_history hst).sourced hs

theorem retried_values (h : Reached c s) {p : ℕ × Context κ ν} (hp : p ∈ s.retried) :
    ∃ i, s.creator = some i ∧ p.2 = valuesOf (s.caller i).ctx := by
  have hs := h.sourced
  obtain ⟨i, -, hcreator, hval⟩ := hs.made p.2 (hs.retried p hp)
  exact ⟨i, hcreator, hval⟩

/-- The retries carry the values of their own callers just if these callers' contexts have the values
of the context that the queue was made with. -/
theorem retries_carry_own_values_iff (s : State ι σ κ ν) (h : Reached c s) :
    (∀ p ∈ s.retried, ∀ key, p.2 key = valuesOf (s.caller p.1).ctx key) ↔
      ∀ i, s.creator = some i → ∀ p ∈ s.retried, ∀ key,
        valuesOf (s.caller i).ctx key = valuesOf (s.caller p.1).ctx key := by
  constructor
  · intro hown i hi p hp key
    obtain ⟨j, hj, hval⟩ := retried_values h hp
    rw [hi] at hj
    cases hj
    rw [← hval]
    exact hown p hp key
  · intro hall p hp key
    obtain ⟨i, hi, hval⟩ := retried_values h hp
    rw [hval]
    exact hall i hi p hp key

def tenant (name : Str) : Context Str Str := fun key => if key = str "tenant" then some name else none

/-- Two calls fail, and the second one is retried with the context of the first. -/
theorem reached_secondRetry (first second : Context Str Str) :
    ∃ s : State ℕ Unit Str Str, Reached (oneProvider (str "3") (str "100")) s ∧ s.retried = [(1, first)] ∧
      s.creator = some 0 ∧ (s.caller 0).ctx = some first ∧ (s.caller 1).ctx = some second := by
  have h1 : Reached (oneProvider (str "3") (str "100")) (firstRetry _ (some first)) :=
    reachedBy_firstRetry _ (fun _ => trivial) fun _ => trivial
  have h2 := reachedBy_secondCall h1 (fun _ => trivial) (some second) (fun _ => none) fun _ => trivial
  have h3 := h2.step ⟨_, trivial, .process _ _ _ _ rfl rfl (.poll rfl)⟩
  have h4 := h3.step ⟨_, trivial, .process _ _ _ _ rfl rfl (.peekDue rfl (List.cons_ne_nil _ _))⟩
  have h5 := h4.step ⟨_, trivial, .get _ _ _ _ rfl rfl rfl rfl⟩
  have h6 := h5.step ⟨_, trivial, .startRetry _ _ rfl⟩
  have h7 := ReachedBy.helloAgain h6 (fun _ => trivial) (fun _ => none) 1 (some 0)
    (⟨helloTask _ (fun _ => none) 0, some 0, .begun⟩ ::ₘ 0) rfl rfl rfl
  exact ⟨_, h7, rfl, rfl, rfl, rfl⟩

/-- A second call with the values of the first one is retried with its own values. -/
theorem same_values_carried :
    ∃ s : State ℕ Unit Str Str, (s.caller 1).ctx = some (tenant (str "a")) ∧ s.retried = [(1, tenant (str "a"))] ∧
      ∀ p ∈ s.retried, ∀ key, p.2 key = valuesOf (s.caller p.1).ctx key := by
  obtain ⟨s, hs, hretried, hcreator, hfirst, hsecond⟩ := reached_secondRetry (tenant (str "a")) (tenant (str "a"))
  refine ⟨s, hsecond, hretried, (retries_carry_own_values_iff s hs).2 ?_⟩
  intro i hi p hp key
  rw [hretried, List.mem_singleton] at hp
  rw [hcreator] at hi
  cases hi
  rw [hp, hfirst, hsecond]

/-- The retry of a second call carries the values of the first caller. -/
theorem second_retry_carries_first_values :
    ∃ s : State ℕ Unit Str Str, Reached (oneProvider (str "3") (str "100")) s ∧
      (s.caller 1).ctx = some (tenant (str "b")) ∧
      ∃ p ∈ s.retried, p.1 = 1 ∧
        p.2 (str "tenant") ≠ valuesOf (s.caller p.1).ctx (str "tenant") := by
  obtain ⟨s, hs, hretried, -, -, hsecond⟩ := reached_secondRetry (tenant (str "a")) (tenant (str "b"))
  refine ⟨s, hs, hsecond, (1, tenant (str "a")), hretried ▸ List.mem_singleton_self _, rfl, ?_⟩
  rw [hsecond]
  decide

end DubboGo.Cluster.Failback
