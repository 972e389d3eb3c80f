import DubboGo.Common.URL
import DubboGo.Go.Decimal
import DubboGo.Lib.Pool

/-!
# The execute limit

`executeLimitFilter` of `filter/exec_limit/filter.go`, for the calls of one invoker.  A step of a call is
an operation on an atomic counter, or the beginning or the end of `invoker.Invoke`.
-/

namespace DubboGo.Filter.ExecuteLimit

open Go Common Lib

def executeLimitKey : Str := str "execute.limit"
def defaultExecuteLimit : Str := str "-1"
def executeRejectedExecutionHandlerKey : Str := str "execute.limit.rejected.handler"
def defaultKey : Str := str "default"

/-! ## The settings of a method -/

section Settings

variable (ivkURL : URL) (methodName : Str)

def methodConfigPrefix : Str := str "methods." ++ methodName ++ str "."

def methodLevelConfig : Str := ivkURL.getParam (methodConfigPrefix methodName ++ executeLimitKey) []

def limitTarget : Str :=
  if methodLevelConfig ivkURL methodName ≠ [] then ivkURL.serviceKey ++ str "#" ++ methodName
  else ivkURL.serviceKey

def limitRateConfig : Str :=
  if methodLevelConfig ivkURL methodName ≠ [] then methodLevelConfig ivkURL methodName
  else ivkURL.getParam executeLimitKey defaultExecuteLimit

/-- `none` is a setting that is not a number. -/
def limitRate : Option ℤ := parseIntAuto (limitRateConfig ivkURL methodName)

def rejectedHandlerConfig : Str :=
  ivkURL.getParam (methodConfigPrefix methodName ++ executeRejectedExecutionHandlerKey)
    (ivkURL.getParam executeRejectedExecutionHandlerKey defaultKey)

end Settings

theorem limitRate_eq_of_limitTarget_eq {ivkURL : URL} {m n : Str}
    (h : limitTarget ivkURL m = limitTarget ivkURL n) : limitRate ivkURL m = limitRate ivkURL n := by
  have hlength : ∀ k : Str, ivkURL.serviceKey ++ str "#" ++ k ≠ ivkURL.serviceKey := by
    intro k hk
    have := congrArg List.length hk
    simp [str] at this
  unfold limitTarget at h
  unfold limitRate limitRateConfig
  split_ifs at h ⊢ with hm hn hn
  · rw [List.append_cancel_left h]
  · exact absurd h (hlength m)
  · exact absurd h.symm (hlength n)
  · rfl

/-! ## Calls -/

inductive Stage where
  | starting
  /-- It has counted itself, and `increase` returned this. -/
  | counted (concurrentCount : ℤ)
  /-- `invoker.Invoke` is in progress; whether the call has counted itself. -/
  | invoking (limited : Bool)
  /-- `RejectedExecution` is in progress. -/
  | rejecting
  /-- What was in progress has returned or panicked, and the deferred `decrease` is next. -/
  | leaving
  | returned
  deriving DecidableEq

namespace Stage

/-- Between `increase` and `decrease`. -/
def isCounted : Stage → Bool
  | .counted _ | .invoking true | .rejecting | .leaving => true
  | _ => false

def isInvoking : Stage → Bool
  | .invoking _ => true
  | _ => false

def isAdmitted (limit : ℤ) : Stage → Bool
  | .counted n => n ≤ limit
  | .invoking true => true
  | _ => false

end Stage

structure Call where
  methodName : Str
  stage : Stage
  deriving DecidableEq

/-- The counters of `executeState`; `LoadOrStore` gives a target that is new the count zero. -/
abbrev ExecuteState := Str → ℤ

/-- A filter with the URL of the invoker and the rejected execution handlers that are registered. -/
structure Setup where
  ivkURL : URL
  registered : Str → Bool

namespace Setup

variable (f : Setup)

def add (methodName : Str) (n : ℤ) (state : ExecuteState) : ExecuteState :=
  Function.update state (limitTarget f.ivkURL methodName) (state (limitTarget f.ivkURL methodName) + n)

/-- The next step of a call of `executeLimitFilter.Invoke`. -/
def advance (state : ExecuteState) (c : Call) : Option (ExecuteState × Call) :=
  match c.stage with
  | .starting =>
    match limitRate f.ivkURL c.methodName with
    | none => some (state, { c with stage := .returned })
    | some limitRate =>
      if limitRate < 0 then some (state, { c with stage := .invoking false })
      else some (f.add c.methodName 1 state,
        { c with stage := .counted (state (limitTarget f.ivkURL c.methodName) + 1) })
  | .counted concurrentCount =>
    if (limitRate f.ivkURL c.methodName).any (· < concurrentCount) &&
        f.registered (rejectedHandlerConfig f.ivkURL c.methodName) then
      some (state, { c with stage := .rejecting })
    else some (state, { c with stage := .invoking true })
  | .invoking true => some (state, { c with stage := .leaving })
  | .invoking false => some (state, { c with stage := .returned })
  | .rejecting => some (state, { c with stage := .leaving })
  | .leaving => some (f.add c.methodName (-1) state, { c with stage := .returned })
  | .returned => none

inductive Action where
  | call (methodName : Str)
  | advance (i : ℕ)

abbrev System := Pool ExecuteState Call

def idle : System where
  shared := fun _ => 0
  threads := []

def step (s : System) : Action → Option System
  | .call methodName => some (s.spawn s.shared ⟨methodName, .starting⟩)
  | .advance i => s.advance f.advance i

def stagesOf (target : Str) (calls : Multiset Call) : Multiset Stage :=
  calls.filterMap fun c => if limitTarget f.ivkURL c.methodName = target then some c.stage else none

end Setup

/-! ## One target -/

structure Limited (limit count : ℤ) (stages : Multiset Stage) : Prop where
  count : count = tally Stage.isCounted stages
  admitted : (tally (Stage.isAdmitted limit) stages : ℤ) ≤ limit
  limited : .invoking false ∉ stages

namespace Limited

variable {limit count : ℤ} {stages : Multiset Stage} {a b : Stage}

theorem start (h : Limited limit count stages) : Limited limit count (.starting ::ₘ stages) :=
  ⟨by simpa [Stage.isCounted] using h.count, by simpa [Stage.isAdmitted] using h.admitted, by simpa using h.limited⟩

theorem move (h : Limited limit count (a ::ₘ stages)) (hcounted : b.isCounted = a.isCounted)
    (hadmitted : b.isAdmitted limit ≤ a.isAdmitted limit) (hb : .invoking false ≠ b) :
    Limited limit count (b ::ₘ stages) := by
  obtain ⟨hcount, hwithin, hlimited⟩ := h
  have hle := Bool.toNat_le_toNat hadmitted
  simp only [tally_cons] at hcount hwithin
  refine ⟨?_, ?_, ?_⟩
  · rw [tally_cons, hcounted, hcount]
  · rw [tally_cons]
    omega
  · rw [Multiset.mem_cons] at hlimited ⊢
    tauto

theorem enter (h : Limited limit count (.starting ::ₘ stages)) :
    Limited limit (count + 1) (.counted (count + 1) ::ₘ stages) := by
  obtain ⟨hcount, hwithin, hlimited⟩ := h
  have hle : tally (Stage.isAdmitted limit) stages ≤ tally Stage.isCounted stages := by
    apply tally_mono
    rintro (_ | n | (_ | _) | _ | _ | _) - h <;> first | rfl | cases h
  simp only [tally_cons, Stage.isCounted, Stage.isAdmitted, Bool.toNat_false] at hcount hwithin
  refine ⟨?_, ?_, by simpa using hlimited⟩
  · simp only [tally_cons, Stage.isCounted, Bool.toNat_true]
    omega
  · simp only [tally_cons, Stage.isAdmitted]
    by_cases hn : count + 1 ≤ limit
    · rw [decide_eq_true hn, Bool.toNat_true]
      omega
    · rw [decide_eq_false hn, Bool.toNat_false]
      omega

theorem leave (h : Limited limit count (.leaving ::ₘ stages)) : Limited limit (count - 1) (.returned ::ₘ stages) := by
  obtain ⟨hcount, hwithin, hlimited⟩ := h
  simp only [tally_cons, Stage.isCounted, Stage.isAdmitted, Bool.toNat_false, Bool.toNat_true] at hcount hwithin
  refine ⟨?_, ?_, by simpa using hlimited⟩
  · simp only [tally_cons, Stage.isCounted, Bool.toNat_false]
    omega
  · simpa only [tally_cons, Stage.isAdmitted, Bool.toNat_false] using hwithin

end Limited

/-! ## All calls -/

namespace Setup

variable {f : Setup} {target : Str} {limit : ℤ} {state state' : ExecuteState} {calls : Multiset Call} {a b : Call}

theorem stagesOf_cons (c : Call) (calls : Multiset Call) :
    f.stagesOf target (c ::ₘ calls) = if limitTarget f.ivkURL c.methodName = target then
      c.stage ::ₘ f.stagesOf target calls else f.stagesOf target calls := by
  unfold stagesOf
  rw [filterMap_cons_elim]
  split_ifs <;> rfl

theorem advance_frame (h : f.advance state a = some (state', b)) : b.methodName = a.methodName ∧
      ∀ target, target ≠ limitTarget f.ivkURL a.methodName → state' target = state target := by
  have hadd : ∀ n target, target ≠ limitTarget f.ivkURL a.methodName →
      f.add a.methodName n state target = state target := fun n _ htarget => Function.update_of_ne htarget _ _
  unfold advance at h
  repeat' split at h
  all_goals cases h
  all_goals first
    | exact ⟨rfl, fun _ _ => rfl⟩
    | exact ⟨rfl, hadd _⟩

theorem advance_limited (hlimit : limitRate f.ivkURL a.methodName = some limit) (hnonneg : 0 ≤ limit)
    (hregistered : f.registered (rejectedHandlerConfig f.ivkURL a.methodName) = true) {stages : Multiset Stage}
    (h : Limited limit (state (limitTarget f.ivkURL a.methodName)) (a.stage ::ₘ stages))
    (hstep : f.advance state a = some (state', b)) :
    Limited limit (state' (limitTarget f.ivkURL a.methodName)) (b.stage ::ₘ stages) := by
  obtain ⟨methodName, st⟩ := a
  unfold advance at hstep
  cases st with
  | starting =>
    rw [hlimit] at hstep
    simp only [if_neg (not_lt.2 hnonneg)] at hstep
    cases hstep
    rw [add, Function.update_self]
    exact h.enter
  | counted n =>
    dsimp only at hstep
    rw [hlimit, hregistered, Bool.and_true, Option.any_some] at hstep
    split_ifs at hstep with hn
    · cases hstep
      exact h.move rfl (Bool.false_le _) nofun
    · cases hstep
      have hn : n ≤ limit := by simpa using hn
      exact h.move rfl (decide_eq_true hn).ge nofun
  | invoking limited =>
    cases limited with
    | true =>
      cases hstep
      exact h.move rfl (Bool.false_le _) nofun
    | false => exact absurd (Multiset.mem_cons_self _ _) h.limited
  | rejecting =>
    cases hstep
    exact h.move rfl (Bool.false_le _) nofun
  | leaving =>
    cases hstep
    rw [add, Function.update_self]
    exact h.leave
  | returned => cases hstep

structure Sound (f : Setup) (target : Str) (limit : ℤ) : Prop where
  nonneg : 0 ≤ limit
  limitRate : ∀ m, limitTarget f.ivkURL m = target → limitRate f.ivkURL m = some limit
  registered : ∀ m, limitTarget f.ivkURL m = target → f.registered (rejectedHandlerConfig f.ivkURL m) = true

/-- In every state the counter of a target is right, and no more than its limit are admitted. -/
theorem limited (hsound : f.Sound target limit) {s : System} (hs : ReachedBy f.step (· = idle) (fun _ _ => True) s) :
    Limited limit (s.shared target) (f.stagesOf target s.threads) := by
  refine ReachedBy.invariant (fun s => Limited limit (s.shared target) (f.stagesOf target s.threads)) ?_ ?_ hs
  · rintro s rfl
    exact ⟨rfl, hsound.nonneg, Multiset.notMem_zero _⟩
  · rintro s act t h - hstep
    cases act with
    | call methodName =>
      cases hstep
      rw [Pool.coe_threads_spawn, stagesOf_cons]
      split_ifs
      · exact h.start
      · exact h
    | advance i =>
      obtain ⟨a, b, others, -, hadvance, hthreads, hthreads'⟩ := Pool.advance_cases hstep
      obtain ⟨hmethod, hframe⟩ := advance_frame hadvance
      rw [hthreads, stagesOf_cons] at h
      rw [hthreads', stagesOf_cons, hmethod]
      split_ifs at h ⊢ with htarget
      · rw [← htarget] at h ⊢
        exact advance_limited (hsound.limitRate _ htarget) hsound.nonneg (hsound.registered _ htarget) h hadvance
      · rw [hframe target (Ne.symm htarget)]
        exact h

/-- No more calls of a target are in progress than its limit says, if the rejected execution handlers of
its methods are registered; and when none is in progress its counter is zero. -/
theorem invocations_within_limit (f : Setup) {methodName : Str} {limit : ℤ}
    (hlimit : limitRate f.ivkURL methodName = some limit) (hnonneg : 0 ≤ limit)
    (hregistered : ∀ m, limitTarget f.ivkURL m = limitTarget f.ivkURL methodName →
      f.registered (rejectedHandlerConfig f.ivkURL m) = true)
    {s : System} (hs : ReachedBy f.step (· = idle) (fun _ _ => True) s) :
    (tally Stage.isInvoking (f.stagesOf (limitTarget f.ivkURL methodName) s.threads) : ℤ) ≤ limit ∧
      ((∀ stage ∈ f.stagesOf (limitTarget f.ivkURL methodName) s.threads, stage ∈ [.starting, .returned]) →
        s.shared (limitTarget f.ivkURL methodName) = 0) := by
  have hsound : f.Sound (limitTarget f.ivkURL methodName) limit :=
    ⟨hnonneg, fun m hm => (limitRate_eq_of_limitTarget_eq hm).trans hlimit, hregistered⟩
  obtain ⟨hcount, hwithin, hlimited⟩ := limited hsound hs
  constructor
  · refine le_trans (Nat.cast_le.2 (tally_mono ?_)) hwithin
    rintro (_ | n | (_ | _) | _ | _ | _) hmem hinvoking
    case invoking.false => exact absurd hmem hlimited
    case invoking.true => rfl
    all_goals cases hinvoking
  · intro hdone
    rw [hcount, tally_eq_zero_iff.2 ?_, Nat.cast_zero]
    intro stage hstage
    have hmem := hdone stage hstage
    simp only [List.mem_cons, List.not_mem_nil, or_false] at hmem
    rcases hmem with rfl | rfl <;> rfl

/-! ## A handler that is not registered -/

/-- A service that is to execute one call at a time, with the name of a handler for the others. -/
def oneAtATime (handler : Str) : Setup where
  ivkURL := { URL.ofProvider (str "192.168.1.1") (str "20000") with
    params := Function.update (Function.update Values.empty executeLimitKey (some [str "1"]))
      executeRejectedExecutionHandlerKey (some [handler]) }
  registered := fun name => name = defaultKey ∨ name = str "log"

/-- Two calls count themselves, and the first of them, or both, go on to the invocation. -/
def twoCalls : List Action :=
  [.call (str "say"), .call (str "say"), .advance 0, .advance 1, .advance 0, .advance 1]

/-- The same service where every handler is registered. -/
def guarded : Setup := { oneAtATime (str "log") with registered := fun _ => true }

theorem invocations_within_limit_guarded :
    ∃ s, ReachedBy guarded.step (· = idle) (fun _ _ => True) s ∧
      tally Stage.isInvoking (guarded.stagesOf (limitTarget guarded.ivkURL (str "say")) s.threads) = 1 ∧
      (tally Stage.isInvoking (guarded.stagesOf (limitTarget guarded.ivkURL (str "say")) s.threads) : ℤ) ≤ 1 := by
  obtain ⟨s, hs, hone⟩ := ReachedBy.of_run guarded.step (fun _ _ => True) idle twoCalls (fun s =>
    tally Stage.isInvoking (guarded.stagesOf (limitTarget guarded.ivkURL (str "say")) s.threads) = 1) (by decide +kernel)
  exact ⟨s, hs, hone, (invocations_within_limit _ (by decide +kernel) (by decide) (fun _ _ => rfl) hs).1⟩

/-- The limit is one, but two invocations are in progress. -/
theorem unknown_handler_exceeds_limit :
    limitRate (oneAtATime (str "reject")).ivkURL (str "say") = some 1 ∧
    ∃ s, ReachedBy (oneAtATime (str "reject")).step (· = idle) (fun _ _ => True) s ∧
      tally Stage.isInvoking ((oneAtATime (str "reject")).stagesOf
        (limitTarget (oneAtATime (str "reject")).ivkURL (str "say")) s.threads) = 2 :=
  ⟨by decide +kernel, ReachedBy.of_run _ _ idle twoCalls _ (by decide +kernel)⟩

end Setup

end DubboGo.Filter.ExecuteLimit
